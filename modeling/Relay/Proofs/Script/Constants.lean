import Relay.Proofs.Script.Accounting

/-! # Names that stay

From one point of a run to the next at most one name is bound, and neither a constant nor a name of
the store is ever among those. So a constant keeps its value from its declaration to the end of the
run, what would write to it ends the run, and the names of the store always stand for the store,
`runProgram_constants`.
-/

namespace Relay.Script

open Running

variable {setting : Setting} {p q r : Point} {n : Nat}

/-! ## Steps -/

theorem checkDeclared_ok_iff {name : String} {scope : Scope} :
    checkDeclared name scope = .ok () ↔ isStoreName name = false ∧ name ∉ scope.constants := by
  rw [checkDeclared]
  cases isStoreName name with
  | true => simp
  | false => by_cases constant : name ∈ scope.constants <;> simp [constant]

/-- From one point to the next the scope stays as it is, or an entry of the store is written, or a
local that is no constant and has no name of the store. Only this local may become a constant. -/
theorem Point.scope_next? (moved : p.next? setting = some q) :
    q.state.scope = p.state.scope ∨
      (∃ name v scope constants, isStoreName name = false ∧ name ∉ p.state.scope.constants ∧
        p.state.scope.writeLocal setting.limits name v = .ok scope ∧
        q.state.scope = { scope with constants } ∧
        (constants = scope.constants ∨ constants = name :: scope.constants)) ∨
      ∃ key v, p.state.scope.writeStore setting.limits key v = .ok q.state.scope := by
  obtain ⟨s, rest, ready, -, -, same, ⟨opening, body, opens, opened, -, -⟩ | ⟨plain, ran, -, -⟩⟩ :=
    next?_cases moved
  · exact .inl (((steady_opening opens).scope_eq opened).trans same)
  rw [← same]
  cases s with
  | declare constant name value =>
    obtain ⟨_, v, _, scope, allowed, -, -, wrote, same⟩ := exec_declare_ok ran
    obtain ⟨other, free⟩ := checkDeclared_ok_iff.1 allowed
    cases constant with
    | true => exact .inr (.inl ⟨name, v, scope, _, other, free, wrote, same, .inr rfl⟩)
    | false => exact .inr (.inl ⟨name, v, scope, _, other, free, wrote, same, .inl rfl⟩)
  | assign place op value =>
    obtain ⟨ticked, keys, mid, new, _, -, -, -, -, wrote, -⟩ := exec_assign_iff.1 ran
    rw [Place.write] at wrote
    split at wrote
    · obtain ⟨first, rest, _, changed, rfl, -, -, entered⟩ := assignStore_ok wrote
      exact .inr (.inr ⟨first.text, changed, entered⟩)
    · rename_i other
      obtain ⟨free, _, _, changed, -, -, -, wrote⟩ := assignLocal_ok wrote
      exact .inr (.inl ⟨place.root, changed, q.state.scope, q.state.scope.constants,
        Bool.eq_false_iff.2 other, free, wrote, rfl, .inl rfl⟩)
  | branch condition yes no => cases plain
  | ret value => exact .inl ((steady_ret value).scope_eq ran)
  | block body => cases plain
  | eval e => exact .inl ((steady_eval e).scope_eq ran)

/-- What every step keeps is kept by every run. -/
theorem Point.keeps_after? (holds : Scope → Prop)
    (step : ∀ p q : Point, p.next? setting = some q → holds p.state.scope → holds q.state.scope)
    (before : holds p.state.scope) (reached : p.after? setting n = some q) :
    holds q.state.scope := by
  induction n generalizing p with
  | zero => cases reached; exact before
  | succ n ih =>
    obtain ⟨next, moved, reached⟩ := Option.bind_eq_some_iff.1 reached
    exact ih (step p next moved before) reached

/-! ## The names of the store -/

namespace Scope

variable {scope : Scope} {name : String} {v : Value}

/-- No local and no constant has a name of the store. -/
structure NamesStore (scope : Scope) : Prop where
  locals : ∀ name, isStoreName name = true → scope.locals.get? name = none
  constants : ∀ name, isStoreName name = true → name ∉ scope.constants

/-- The names of the store stand for the store. -/
theorem NamesStore.lookup (named : scope.NamesStore) (store : isStoreName name = true) :
    scope.lookup name = .ok (.ofJson scope.store.toJson) := by
  rw [Scope.lookup, named.locals name store, if_pos store]

theorem namesStore_start (store : Store) : NamesStore { store } :=
  ⟨fun _ _ => rfl, fun _ _ => List.not_mem_nil⟩

theorem namesStore_next? (p q : Point) (moved : p.next? setting = some q)
    (named : p.state.scope.NamesStore) : q.state.scope.NamesStore := by
  rcases Point.scope_next? moved with
    same | ⟨name, v, scope, constants, other, -, wrote, same, bound⟩ | ⟨key, v, wrote⟩
  · exact same ▸ named
  · obtain ⟨_, -, rfl, -⟩ := writeLocal_ok wrote
    have different {store : String} (is : isStoreName store = true) : store ≠ name := by
      rintro rfl
      exact absurd is (Bool.eq_false_iff.1 other)
    rw [same]
    refine ⟨fun store is => ?_, fun store is => ?_⟩
    · rw [Dict.get?_insert, if_neg (different is)]
      exact named.locals store is
    · rcases bound with rfl | rfl
      · exact named.constants store is
      · exact List.not_mem_cons_of_ne_of_not_mem (different is) (named.constants store is)
  · obtain ⟨_, -, same, -⟩ := writeStore_ok wrote
    exact same ▸ ⟨named.locals, named.constants⟩

/-! ## Constants -/

/-- The name is a constant with a value. -/
structure Fixes (scope : Scope) (name : String) (v : Value) : Prop where
  constant : name ∈ scope.constants
  value : scope.locals.get? name = some v

theorem Fixes.lookup (fixed : scope.Fixes name v) : scope.lookup name = .ok v := by
  rw [Scope.lookup, fixed.value]

theorem fixes_next? (p q : Point) (moved : p.next? setting = some q)
    (fixed : p.state.scope.Fixes name v) : q.state.scope.Fixes name v := by
  rcases Point.scope_next? moved with
    same | ⟨other, w, scope, constants, -, free, wrote, same, bound⟩ | ⟨key, w, wrote⟩
  · exact same ▸ fixed
  · obtain ⟨_, -, rfl, -⟩ := writeLocal_ok wrote
    have different : name ≠ other := by
      rintro rfl
      exact free fixed.constant
    rw [same]
    refine ⟨?_, ?_⟩
    · rcases bound with rfl | rfl
      · exact fixed.constant
      · exact List.mem_cons_of_mem _ fixed.constant
    · rw [Dict.get?_insert, if_neg different]
      exact fixed.value
  · obtain ⟨_, -, same, -⟩ := writeStore_ok wrote
    exact same ▸ ⟨fixed.constant, fixed.value⟩

end Scope

/-- The name that a statement declares, or to which or into whose value it assigns. -/
def Stmt.binds? : Stmt → Option String
  | .declare _ name _ => some name
  | .assign place _ _ => some place.root
  | _ => none

theorem control_of_binds {s : Stmt} {st after : RunState} {control : Control} {name : String}
    (binds : s.binds? = some name) (ran : exec setting s st = (.ok control, after)) :
    control = .next := by
  cases s with
  | declare constant other value =>
    rw [exec] at ran
    obtain ⟨_, _, _, ran⟩ := bind_ok ran
    obtain ⟨_, _, _, ran⟩ := bind_ok ran
    cases ran
    rfl
  | assign place op value =>
    rw [exec] at ran
    obtain ⟨_, _, _, ran⟩ := bind_ok ran
    obtain ⟨_, _, _, ran⟩ := bind_ok ran
    cases ran
    rfl
  | _ => cases binds

/-- A statement that would bind a constant once more fails and leaves the scope. -/
theorem exec_of_fixes (setting : Setting) {s : Stmt} {st : RunState} {name : String} {v : Value}
    (named : st.scope.NamesStore) (fixed : st.scope.Fixes name v) (binds : s.binds? = some name) :
    ∃ e left, exec setting s st = (.error e, left) ∧ left.scope = st.scope := by
  have plain : s.opening? setting = none := by
    cases s <;> first | rfl | cases binds
  rcases ran : exec setting s st with ⟨e | control, left⟩
  · exact ⟨e, left, rfl, exec_scope plain ran nofun⟩
  obtain rfl := control_of_binds binds ran
  cases s with
  | declare constant other value =>
    obtain rfl := Option.some.inj binds
    obtain ⟨_, _, _, _, allowed, -⟩ := exec_declare_ok ran
    exact absurd fixed.constant (checkDeclared_ok_iff.1 allowed).2
  | assign place op value =>
    obtain rfl := Option.some.inj binds
    obtain ⟨_, _, _, _, _, -, -, -, -, wrote, -⟩ := exec_assign_iff.1 ran
    have inScope : ¬ isStoreName place.root = true :=
      fun store => named.constants _ store fixed.constant
    rw [Place.write, if_neg inScope] at wrote
    exact absurd fixed.constant (assignLocal_ok wrote).1
  | _ => cases binds

/-- A name counts a step and reads what it stands for. -/
theorem eval_ident {scope : Scope} {name : String} {v : Value} (stands : scope.lookup name = .ok v)
    (m : Meter) :
    (eval setting scope (.ident name) m).1 = (tick setting m).1.map fun _ => v := by
  rw [eval, bind_apply, stands]
  rcases tick setting m with ⟨e | _, counted⟩ <;> rfl

/-- A constant that is declared has the value of its declaration. -/
theorem Point.fixes_of_declared {name : String} {value : Expr} {rest : List Stmt}
    (pending : p.pending = .declare true name value :: rest) (moved : p.next? setting = some q) :
    ∃ v ready, statementValue setting value p.state = (.ok v, ready) ∧
      q.state.scope.Fixes name v := by
  obtain ⟨s, behind, ready, ahead, gave, -, ⟨_, _, opens, -⟩ | ⟨-, ran, -, -⟩⟩ := next?_cases moved
  · rw [pending] at ahead
    cases ahead
    cases opens
  rw [pending] at ahead
  cases ahead
  obtain ⟨ticked, v, mid, scope, -, stepped, right, wrote, same⟩ := exec_declare_ok ran
  obtain ⟨_, -, rfl, -⟩ := Scope.writeLocal_ok wrote
  refine ⟨v, mid, ?_, ?_⟩
  · simp only [statementValue, bind_apply, gave, stepped, right]
  · rw [same]
    exact ⟨List.mem_cons_self, by rw [if_pos rfl, Dict.get?_insert, if_pos rfl]⟩

/-- Names that stay. At every point of a run no local has a name of the store, and these names read
as the store. From the declaration of a constant on, its name reads as the value of the declaration
at every point; each statement that declares the name or assigns to it or into its value fails there
and leaves the scope; and if such a statement is the next one, in whatever block, it fails the
program. -/
theorem runProgram_constants (setting : Setting) (program : Program) (store : Store) :
    (∀ n p, (Point.start program store).after? setting n = some p →
      ∀ name, isStoreName name = true → p.state.scope.locals.get? name = none ∧
        ∀ m, (eval setting p.state.scope (.ident name) m).1 =
          (tick setting m).1.map fun _ => .ofJson p.state.scope.store.toJson) ∧
    ∀ n p q name value rest, (Point.start program store).after? setting n = some p →
      p.pending = .declare true name value :: rest → p.next? setting = some q →
      ∃ v ready, statementValue setting value p.state = (.ok v, ready) ∧
        ∀ k r, q.after? setting k = some r →
          (∀ m, (eval setting r.state.scope (.ident name) m).1 =
            (tick setting m).1.map fun _ => v) ∧
          (∀ s, s.binds? = some name →
            ∃ e left, exec setting s r.state = (.error e, left) ∧ left.scope = r.state.scope) ∧
          ∀ s later, r.pending = s :: later → s.binds? = some name →
            ∃ e, (runProgram setting program store).result = .error e := by
  have named {n : Nat} {p : Point}
      (reached : (Point.start program store).after? setting n = some p) :
      p.state.scope.NamesStore :=
    Point.keeps_after? _ Scope.namesStore_next? (Scope.namesStore_start store) reached
  refine ⟨fun n p reached name is => ?_, fun n p q name value rest reached pending moved => ?_⟩
  · exact ⟨(named reached).locals name is, eval_ident ((named reached).lookup is)⟩
  obtain ⟨v, ready, right, declared⟩ := Point.fixes_of_declared pending moved
  refine ⟨v, ready, right, fun k r later => ?_⟩
  have fixed : r.state.scope.Fixes name v :=
    Point.keeps_after? (Scope.Fixes · name v) Scope.fixes_next? declared later
  have names : r.state.scope.NamesStore :=
    Point.keeps_after? _ Scope.namesStore_next?
      (Scope.namesStore_next? p q moved (named reached)) later
  refine ⟨eval_ident fixed.lookup, fun s binds => exec_of_fixes setting names fixed binds, ?_⟩
  intro s behind ahead binds
  have whole : execList setting program (Point.start program store).state =
      execList setting r.pending r.state :=
    (Point.execList_after? reached).trans
      ((Point.execList_next? moved).trans (Point.execList_after? later))
  rw [ahead, execList_cons] at whole
  -- The program ends there, if not with the statement then where it gives way before.
  rcases gave : reading (fun _ => giveWay setting) r.state with ⟨e | _, ready⟩
  · rw [gave] at whole
    exact ⟨e, congrArg Prod.fst whole⟩
  · have same : ready.scope = r.state.scope := (steady_reading _).scope_eq gave
    rw [← same] at names fixed
    obtain ⟨e, left, failed, -⟩ := exec_of_fixes setting names fixed binds
    rw [gave] at whole
    dsimp only at whole
    rw [failed] at whole
    exact ⟨e, congrArg Prod.fst whole⟩

/-- A constant is declared in a block, and an inner block after the first one assigns into its
value. -/
theorem runProgram_constants_innerBlock :
    let program : Program :=
      [.block [.declare true "k" (.list [.int 7])],
        .branch (.ident "k") [.assign ⟨"k", [.index (.int 0)]⟩ .add (.int 1)] []]
    let declared := [Stmt.declare true "k" (.list [.int 7]), program[1]]
    ∃ p q r : Point, (Point.start program Dict.empty).after? .offline 1 = some p ∧
      p.pending = declared ∧ p.next? .offline = some q ∧ q.after? .offline 1 = some r ∧
      (∀ m, (eval .offline r.state.scope (.ident "k") m).1 = .ok (.list [.int 7])) ∧
      ∃ e, (runProgram .offline program Dict.empty).result = .error e := by
  intro program declared
  obtain ⟨-, fixed⟩ := runProgram_constants .offline program Dict.empty
  obtain ⟨p, opened⟩ : ∃ p, (Point.start program Dict.empty).after? .offline 1 = some p := ⟨_, rfl⟩
  cases opened
  obtain ⟨v, ready, right, later⟩ := fixed 1 _ _ "k" (.list [.int 7]) _ rfl rfl rfl
  cases right
  obtain ⟨reads, -, fails⟩ := later 1 _ rfl
  exact ⟨_, _, _, rfl, rfl, rfl, rfl, fun m => reads m, fails _ [] rfl rfl⟩

end Relay.Script
