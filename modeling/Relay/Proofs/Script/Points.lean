import Relay.Proofs.Except
import Relay.Script.Exec

/-! # Points of a run

Between two statements a run has statements ahead of it and a state. Blocks and branches are opened
where they are met, so the points inside them are points of the run too. From each point the run
goes on as it does from the start, `execList_after?`, and it gets to a last one, `exists_last`.
-/

namespace Relay.Script

/-- Default limits, no http and no deadline. -/
def Setting.offline : Setting :=
  ⟨{}, none, none, .stopped⟩

/-! ## Rules for statements -/

namespace Running

variable {α β : Type}

theorem bind_ok {x : Running α} {f : α → Running β} {st after : RunState} {b : β}
    (ran : (x >>= f) st = (.ok b, after)) :
    ∃ a mid, x st = (.ok a, mid) ∧ f a mid = (.ok b, after) :=
  bind_apply_ok ran

/-- The computation leaves the scope as it is. -/
def Steady (x : Running α) : Prop :=
  ∀ st, (x st).2.scope = st.scope

/-- If the computation fails, it leaves the scope as it is. -/
def Careful (x : Running α) : Prop :=
  ∀ st e after, x st = (.error e, after) → after.scope = st.scope

theorem Steady.scope_eq {x : Running α} (steady : Steady x) {st after : RunState}
    {result : Except ScriptError α} (ran : x st = (result, after)) : after.scope = st.scope := by
  rw [← steady st, ran]

theorem steady_pure (a : α) : Steady (pure a : Running α) := fun _ => rfl

theorem steady_reading (f : Scope → Metered α) : Steady (reading f) := fun _ => rfl

theorem steady_evaluate (setting : Setting) (e : Expr) : Steady (evaluate setting e) :=
  steady_reading _

theorem steady_lift (result : Except ScriptError α) : Steady (liftM result : Running α) := by
  intro st
  cases result <;> rfl

theorem lift_ok {result : Except ScriptError α} {st after : RunState} {a : α}
    (ran : (liftM result : Running α) st = (.ok a, after)) : result = .ok a ∧ st = after :=
  Prod.mk.inj ran

theorem Steady.bind {x : Running α} {f : α → Running β} (first : Steady x)
    (second : ∀ a, Steady (f a)) : Steady (x >>= f) := by
  intro st
  rw [bind_apply]
  rcases ran : x st with ⟨e | a, mid⟩
  · exact first.scope_eq ran
  · exact (second a mid).trans (first.scope_eq ran)

theorem Steady.bind_careful {x : Running α} {f : α → Running β} (first : Steady x)
    (second : ∀ a, Careful (f a)) : Careful (x >>= f) := by
  intro st e after failed
  rw [bind_apply] at failed
  rcases ran : x st with ⟨e | a, mid⟩
  · rw [ran] at failed
    cases failed
    exact first.scope_eq ran
  · rw [ran] at failed
    exact (second a mid e after failed).trans (first.scope_eq ran)

theorem careful_writing (f : Scope → Except ScriptError Scope) : Careful (writing f) := by
  intro st e after failed
  rw [writing] at failed
  cases ended : f st.scope with
  | ok scope => rw [ended] at failed; cases failed
  | error e => rw [ended] at failed; cases failed; rfl

/-- A computation is careful if nothing after it can fail. -/
theorem Careful.bind_pure {x : Running α} (careful : Careful x) (b : β) :
    Careful (x >>= fun _ => pure b) := by
  intro st e after failed
  rw [bind_apply] at failed
  rcases ran : x st with ⟨e' | a, mid⟩
  · rw [ran] at failed
    cases failed
    exact careful st e after ran
  · rw [ran] at failed
    cases failed

theorem reading_ok_iff {f : Scope → Metered α} {st after : RunState} {a : α} :
    reading f st = (.ok a, after) ↔
      f st.scope st.meter = (.ok a, after.meter) ∧ after.scope = st.scope := by
  obtain ⟨scope, meter⟩ := after
  rw [reading]
  rcases f st.scope st.meter with ⟨result, ended⟩
  constructor
  · intro ran
    cases ran
    exact ⟨rfl, rfl⟩
  · rintro ⟨ran, rfl⟩
    cases ran
    rfl

theorem writing_ok_iff {f : Scope → Except ScriptError Scope} {st after : RunState} :
    writing f st = (.ok (), after) ↔ f st.scope = .ok after.scope ∧ after.meter = st.meter := by
  obtain ⟨scope, meter⟩ := after
  rw [writing]
  cases ended : f st.scope with
  | ok changed =>
    constructor
    · intro ran
      cases ran
      exact ⟨rfl, rfl⟩
    · rintro ⟨same, rfl⟩
      cases same
      rfl
  | error e => exact ⟨nofun, nofun⟩

theorem writing_ok {f : Scope → Except ScriptError Scope} {st after : RunState}
    (ran : writing f st = (.ok (), after)) : f st.scope = .ok after.scope :=
  (writing_ok_iff.1 ran).1

end Running

open Running

variable {setting : Setting}

theorem steady_evaluatePath (keys : List Key) (path : List PathStep) :
    Steady (evaluatePath setting keys path) := by
  induction path generalizing keys with
  | nil => exact steady_pure _
  | cons step rest ih =>
    cases step with
    | field name => exact ih _
    | index e =>
      exact (steady_evaluate setting e).bind fun v => (steady_lift v.toKey).bind fun key => ih _

theorem careful_assign (place : Place) (op : AssignOp) (value : Expr) :
    Careful (assign setting place op value) :=
  (steady_evaluatePath [] place.path).bind_careful fun keys =>
    (steady_lift (checkPositions setting.limits keys)).bind_careful fun _ =>
      (steady_evaluate setting value).bind_careful fun _ => careful_writing _

/-- An assignment that succeeds evaluates its path and then its right-hand side, and writes to the
end of the path. -/
theorem assign_ok {place : Place} {op : AssignOp} {value : Expr} {st after : RunState}
    (ran : assign setting place op value st = (.ok (), after)) :
    ∃ keys mid new ready, evaluatePath setting [] place.path st = (.ok keys, mid) ∧
      evaluate setting value mid = (.ok new, ready) ∧
      (if isStoreName place.root then
        assignStore setting.limits place.root keys op new st.scope
      else assignLocal setting.limits place.root keys op new st.scope) = .ok after.scope := by
  obtain ⟨keys, mid, path, ran⟩ := bind_ok ran
  obtain ⟨_, checked, positions, ran⟩ := bind_ok ran
  obtain ⟨new, ready, right, ran⟩ := bind_ok ran
  obtain ⟨-, same⟩ := lift_ok positions
  rw [← same] at right
  have wrote := writing_ok ran
  rw [(steady_evaluate setting value).scope_eq right,
    (steady_evaluatePath [] place.path).scope_eq path] at wrote
  exact ⟨keys, mid, new, ready, path, right, wrote⟩

theorem careful_declare (constant : Bool) (name : String) (value : Expr) :
    Careful (declare setting constant name value) := by
  have steady : Steady (get : Running RunState) := fun _ => rfl
  exact steady.bind_careful fun st => (steady_lift (checkDeclared name st.scope)).bind_careful
    fun _ => (steady_evaluate setting value).bind_careful fun _ => careful_writing _

/-- A declaration that succeeds may declare its name, evaluates its value and writes the local. -/
theorem declare_ok {constant : Bool} {name : String} {value : Expr} {st after : RunState}
    (ran : declare setting constant name value st = (.ok (), after)) :
    ∃ v ready scope, checkDeclared name st.scope = .ok () ∧
      evaluate setting value st = (.ok v, ready) ∧
      st.scope.writeLocal setting.limits name v = .ok scope ∧
      after.scope = if constant then { scope with constants := name :: scope.constants }
        else scope := by
  obtain ⟨_, _, got, ran⟩ := bind_ok ran
  cases got
  obtain ⟨_, checked, declared, ran⟩ := bind_ok ran
  obtain ⟨allowed, rfl⟩ := lift_ok declared
  obtain ⟨v, ready, right, ran⟩ := bind_ok ran
  have wrote := writing_ok ran
  rw [(steady_evaluate setting value).scope_eq right] at wrote
  obtain ⟨scope, written, rest⟩ := bind_eq_ok wrote
  exact ⟨v, ready, scope, allowed, right, written, (Except.ok.inj rest).symm⟩

/-! ## Statements that write -/

/-- Come to a statement and evaluate its expression. -/
def statementValue (setting : Setting) (e : Expr) : Running Value := do
  reading fun _ => giveWay setting
  reading fun _ => tick setting
  evaluate setting e

theorem exec_declare_ok {constant : Bool} {name : String} {value : Expr} {st after : RunState}
    (ran : exec setting (.declare constant name value) st = (.ok .next, after)) :
    ∃ ticked v ready scope, checkDeclared name st.scope = .ok () ∧
      reading (fun _ => tick setting) st = (.ok (), ticked) ∧
      evaluate setting value ticked = (.ok v, ready) ∧
      st.scope.writeLocal setting.limits name v = .ok scope ∧
      after.scope = if constant then { scope with constants := name :: scope.constants }
        else scope := by
  rw [exec] at ran
  obtain ⟨_, ticked, stepped, ran⟩ := bind_ok ran
  obtain ⟨_, _, declared, ran⟩ := bind_ok ran
  cases ran
  obtain ⟨v, ready, scope, allowed, right, wrote, same⟩ := declare_ok declared
  rw [(steady_reading _).scope_eq stepped] at allowed wrote
  exact ⟨ticked, v, ready, scope, allowed, stepped, right, wrote, same⟩

/-- Write to the end of a path into the store or into a local. -/
def Place.write (limits : Limits) (place : Place) (keys : List Key) (op : AssignOp) (new : Value)
    (scope : Scope) : Except ScriptError Scope :=
  if isStoreName place.root then assignStore limits place.root keys op new scope
  else assignLocal limits place.root keys op new scope

/-- Behind its path and its right-hand side an assignment is a write. -/
theorem exec_assign_eq {place : Place} {op : AssignOp} {value : Expr}
    {st ticked mid ready : RunState} {keys : List Key} {new : Value}
    (stepped : reading (fun _ => tick setting) st = (.ok (), ticked))
    (path : evaluatePath setting [] place.path ticked = (.ok keys, mid))
    (checked : checkPositions setting.limits keys = .ok ())
    (right : evaluate setting value mid = (.ok new, ready)) :
    exec setting (.assign place op value) st =
      (do writing (place.write setting.limits keys op new); return .next : Running Control)
        ready := by
  have assigned : assign setting place op value ticked =
      writing (place.write setting.limits keys op new) ready := by
    rw [assign, bind_apply, path]
    simp only [checked]
    change ((evaluate setting value >>= fun new => writing _) : Running Unit) mid = _
    rw [bind_apply, right]
    rfl
  rw [exec, bind_apply, stepped]
  change (assign setting place op value >>= fun _ => pure .next : Running Control) ticked = _
  rw [bind_apply, assigned, bind_apply]

/-- An assignment succeeds exactly if its path and its right-hand side do, one after the other, and
so does the write in the scope of the statement. -/
theorem exec_assign_iff {place : Place} {op : AssignOp} {value : Expr} {st after : RunState} :
    exec setting (.assign place op value) st = (.ok .next, after) ↔
      ∃ ticked keys mid new ready, reading (fun _ => tick setting) st = (.ok (), ticked) ∧
        evaluatePath setting [] place.path ticked = (.ok keys, mid) ∧
        checkPositions setting.limits keys = .ok () ∧
        evaluate setting value mid = (.ok new, ready) ∧
        place.write setting.limits keys op new st.scope = .ok after.scope ∧
        after.meter = ready.meter := by
  constructor
  · intro ran
    rw [exec] at ran
    obtain ⟨_, ticked, stepped, ran⟩ := bind_ok ran
    obtain ⟨_, _, assigned, ran⟩ := bind_ok ran
    cases ran
    obtain ⟨keys, mid, path, assigned⟩ := bind_ok assigned
    obtain ⟨_, _, positions, assigned⟩ := bind_ok assigned
    obtain ⟨checked, rfl⟩ := lift_ok positions
    obtain ⟨new, ready, right, assigned⟩ := bind_ok assigned
    obtain ⟨wrote, same⟩ := writing_ok_iff.1 assigned
    rw [(steady_evaluate setting value).scope_eq right,
      (steady_evaluatePath [] place.path).scope_eq path,
      (steady_reading _).scope_eq stepped] at wrote
    exact ⟨ticked, keys, mid, new, ready, stepped, path, checked, right, wrote, same⟩
  · rintro ⟨ticked, keys, mid, new, ready, stepped, path, checked, right, wrote, same⟩
    rw [← (steady_reading _).scope_eq stepped, ← (steady_evaluatePath [] place.path).scope_eq path,
      ← (steady_evaluate setting value).scope_eq right] at wrote
    have written : writing (place.write setting.limits keys op new) ready = (.ok (), after) :=
      writing_ok_iff.2 ⟨wrote, same⟩
    rw [exec_assign_eq stepped path checked right, bind_apply, written]
    rfl

/-! ## Points -/

/-- The entry of the store that a statement writes if it succeeds. -/
def Stmt.writes? (setting : Setting) (st : RunState) : Stmt → Option String
  | .assign place _ _ =>
    if isStoreName place.root then
      match (do
        reading fun _ => tick setting
        evaluatePath setting [] place.path : Running (List Key)) st with
      | (.ok (first :: _), _) => some first.text
      | _ => none
    else none
  | _ => none

/-- The statements that a block or a branch opens. -/
def Stmt.opening? (setting : Setting) : Stmt → Option (Running (List Stmt))
  | .block body => some do
    reading fun _ => tick setting
    return body
  | .branch condition yes no => some do
    reading fun _ => tick setting
    let c ← evaluate setting condition
    return if c.truthy then yes else no
  | _ => none

/-- A run between two statements. -/
structure Point where
  /-- The statements ahead, if none of them ends the run. -/
  pending : List Stmt
  state : RunState
  /-- The entries of the store that the run has written, last first. -/
  written : List String := []

namespace Point

/-- The point from which a program runs on a store. -/
def start (program : Program) (store : Store) : Point where
  pending := program
  state := ⟨{ store }, {}⟩

/-- The point after the next statement, or before the first one inside it, once the run has given
way where that is due. There is none if the run ends. -/
def next? (setting : Setting) (p : Point) : Option Point :=
  match p.pending with
  | [] => none
  | s :: rest =>
    match reading (fun _ => giveWay setting) p.state with
    | (.error _, _) => none
    | (.ok _, ready) =>
      match s.opening? setting with
      | some opening =>
        match opening ready with
        | (.ok body, state) => some { p with pending := body ++ rest, state }
        | (.error _, _) => none
      | none =>
        match exec setting s ready with
        | (.ok .next, state) => some ⟨rest, state, (s.writes? setting ready).toList ++ p.written⟩
        | _ => none

/-- The point that a run gets to in a number of steps, unless it ends before. -/
def after? (setting : Setting) : Nat → Point → Option Point
  | 0, p => some p
  | n + 1, p => (p.next? setting).bind (after? setting n)

end Point

/-- A run gives way where that is due, runs a statement, and goes on with the ones behind it. -/
theorem execList_cons (s : Stmt) (rest : List Stmt) (st : RunState) :
    execList setting (s :: rest) st =
      match reading (fun _ => giveWay setting) st with
      | (.error e, left) => (.error e, left)
      | (.ok _, ready) =>
        match exec setting s ready with
        | (.ok .next, st) => execList setting rest st
        | ended => ended := by
  rw [execList, bind_apply]
  rcases reading (fun _ => giveWay setting) st with ⟨e | _, ready⟩
  · rfl
  dsimp only
  rw [bind_apply]
  rcases exec setting s ready with ⟨e | control, mid⟩
  · rfl
  · cases control <;> rfl

theorem execList_append (xs ys : List Stmt) (st : RunState) :
    execList setting (xs ++ ys) st =
      match execList setting xs st with
      | (.ok .next, st) => execList setting ys st
      | ended => ended := by
  induction xs generalizing st with
  | nil => rfl
  | cons s rest ih =>
    rw [List.cons_append, execList_cons, execList_cons]
    rcases reading (fun _ => giveWay setting) st with ⟨e | _, ready⟩
    · rfl
    dsimp only
    rcases exec setting s ready with ⟨e | control, mid⟩
    · rfl
    · cases control with
      | next => exact ih mid
      | ret v => rfl

section Opening

variable {s : Stmt} {opening : Running (List Stmt)} (opens : s.opening? setting = some opening)

include opens

/-- A block or a branch runs what it opens. -/
theorem exec_of_opening? : exec setting s = opening >>= execList setting := by
  cases s with
  | block body =>
    cases opens
    funext st
    rw [exec, bind_assoc]
    rfl
  | branch condition yes no =>
    cases opens
    rw [exec, bind_assoc]
    refine congrArg _ (funext fun _ => ?_)
    rw [bind_assoc]
    refine congrArg _ (funext fun c => ?_)
    rw [pure_bind]
    split <;> rfl
  | _ => cases opens

theorem steady_opening : Steady opening := by
  cases s with
  | block body =>
    cases opens
    exact (steady_reading _).bind fun _ => steady_pure _
  | branch condition yes no =>
    cases opens
    exact (steady_reading _).bind fun _ => (steady_evaluate setting condition).bind fun _ =>
      steady_pure _
  | _ => cases opens

/-- What is opened is a part of the statement. -/
theorem sizeOf_opening {st mid : RunState} {body : List Stmt}
    (opened : opening st = (.ok body, mid)) : sizeOf body < sizeOf s := by
  cases s with
  | block inner =>
    cases opens
    obtain ⟨_, _, _, opened⟩ := bind_ok opened
    cases opened
    simp only [Stmt.block.sizeOf_spec]
    omega
  | branch condition yes no =>
    cases opens
    obtain ⟨_, _, _, opened⟩ := bind_ok opened
    obtain ⟨c, _, _, opened⟩ := bind_ok opened
    cases opened
    simp only [Stmt.branch.sizeOf_spec]
    split <;> omega
  | _ => cases opens

end Opening

theorem steady_ret (value : Option Expr) : Steady (exec setting (.ret value)) := by
  cases value with
  | none =>
    rw [exec]
    exact (steady_reading _).bind fun _ => steady_pure _
  | some e =>
    rw [exec]
    exact (steady_reading _).bind fun _ => (steady_evaluate setting e).bind fun _ => steady_pure _

theorem steady_eval (e : Expr) : Steady (exec setting (.eval e)) := by
  rw [exec]
  exact (steady_reading _).bind fun _ => (steady_evaluate setting e).bind fun _ => steady_pure _

/-- Any other statement leaves the scope as it is if it fails or returns. -/
theorem exec_scope {s : Stmt} (plain : s.opening? setting = none) {st after : RunState}
    {result : Except ScriptError Control} (ran : exec setting s st = (result, after))
    (last : result ≠ .ok .next) : after.scope = st.scope := by
  -- A declaration or an assignment cannot return, so here it has failed.
  have failed {x : Running Unit} (careful : Careful x)
      (ran : (do reading (fun _ => tick setting); x; return .next : Running Control) st =
        (result, after)) : after.scope = st.scope := by
    rcases result with e | control
    · exact (steady_reading _).bind_careful (fun _ => careful.bind_pure _) st e after ran
    · obtain ⟨_, _, _, ran⟩ := bind_ok ran
      obtain ⟨_, _, _, ran⟩ := bind_ok ran
      cases ran
      exact absurd rfl last
  cases s with
  | declare constant name value =>
    rw [exec] at ran
    exact failed (careful_declare constant name value) ran
  | assign place op value =>
    rw [exec] at ran
    exact failed (careful_assign place op value) ran
  | branch condition yes no => cases plain
  | ret value => exact (steady_ret value).scope_eq ran
  | block body => cases plain
  | eval e => exact (steady_eval e).scope_eq ran

namespace Point

variable {p q : Point}

/-- Where there is a next point, the run has given way and then opened or run a statement. -/
theorem next?_cases (moved : p.next? setting = some q) :
    ∃ s rest ready, p.pending = s :: rest ∧
      reading (fun _ => giveWay setting) p.state = (.ok (), ready) ∧
      ready.scope = p.state.scope ∧
      ((∃ opening body, s.opening? setting = some opening ∧
          opening ready = (.ok body, q.state) ∧ q.pending = body ++ rest ∧
          q.written = p.written) ∨
        s.opening? setting = none ∧ exec setting s ready = (.ok .next, q.state) ∧
          q.pending = rest ∧ q.written = (s.writes? setting ready).toList ++ p.written) := by
  obtain ⟨pending, st, written⟩ := p
  cases pending with
  | nil => cases moved
  | cons s rest =>
    simp only [next?] at moved
    split at moved
    · cases moved
    rename_i ready gave
    refine ⟨s, rest, ready, rfl, gave, (steady_reading _).scope_eq gave, ?_⟩
    split at moved
    · rename_i opening opens
      split at moved
      · rename_i body mid opened
        cases moved
        exact .inl ⟨opening, body, opens, opened, rfl, rfl⟩
      · cases moved
    · rename_i plain
      split at moved
      · rename_i mid ran
        cases moved
        exact .inr ⟨plain, ran, rfl, rfl⟩
      · cases moved

/-- Where there is no next point, nothing is ahead, or the run is cut off where it gives way, or a
block or a branch cannot be opened, or a statement fails or returns. -/
theorem next?_none_cases (ended : p.next? setting = none) :
    p.pending = [] ∨ ∃ s rest, p.pending = s :: rest ∧
      ((∃ e left, reading (fun _ => giveWay setting) p.state = (.error e, left)) ∨
        ∃ ready, reading (fun _ => giveWay setting) p.state = (.ok (), ready) ∧
          ((∃ opening e left, s.opening? setting = some opening ∧
              opening ready = (.error e, left)) ∨
            s.opening? setting = none ∧ (exec setting s ready).1 ≠ .ok .next)) := by
  obtain ⟨pending, st, written⟩ := p
  cases pending with
  | nil => exact .inl rfl
  | cons s rest =>
    refine .inr ⟨s, rest, rfl, ?_⟩
    simp only [next?] at ended
    split at ended
    · rename_i e left cut
      exact .inl ⟨e, left, cut⟩
    rename_i ready gave
    refine .inr ⟨ready, gave, ?_⟩
    split at ended
    · rename_i opening opens
      split at ended
      · cases ended
      · rename_i e left failed
        exact .inl ⟨opening, e, left, opens, failed⟩
    · rename_i plain
      split at ended
      · cases ended
      · rename_i last
        exact .inr ⟨plain, fun next => last _ (Prod.ext next rfl)⟩

/-- From the next point a run goes on as before. -/
theorem execList_next? (moved : p.next? setting = some q) :
    execList setting p.pending p.state = execList setting q.pending q.state := by
  obtain ⟨s, rest, ready, pending, gave, -, next⟩ := next?_cases moved
  rw [pending, execList_cons, gave]
  dsimp only
  rcases next with ⟨opening, body, opens, opened, ahead, -⟩ | ⟨-, ran, ahead, -⟩
  · rw [exec_of_opening? opens, bind_apply, opened, ahead, execList_append]
  · rw [ran, ahead]

theorem execList_after? {n : Nat} (reached : p.after? setting n = some q) :
    execList setting p.pending p.state = execList setting q.pending q.state := by
  induction n generalizing p with
  | zero => cases reached; rfl
  | succ n ih =>
    obtain ⟨next, moved, reached⟩ := Option.bind_eq_some_iff.1 reached
    exact (execList_next? moved).trans (ih reached)

/-- Where there is no next point, the run ends with the scope as it is. -/
theorem execList_scope (ended : p.next? setting = none) :
    (execList setting p.pending p.state).2.scope = p.state.scope := by
  rcases next?_none_cases ended with
    none_ | ⟨s, rest, pending, ⟨e, left, cut⟩ | ⟨ready, gave, last⟩⟩
  · rw [none_]
    rfl
  · rw [pending, execList_cons, cut]
    exact (steady_reading _).scope_eq cut
  have same : ready.scope = p.state.scope := (steady_reading _).scope_eq gave
  rw [pending, execList_cons, gave, ← same]
  dsimp only
  rcases last with ⟨opening, e, left, opens, failed⟩ | ⟨plain, last⟩
  · rw [exec_of_opening? opens, bind_apply, failed]
    exact (steady_opening opens).scope_eq failed
  · rcases ran : exec setting s ready with ⟨result, after⟩
    rw [ran] at last
    have kept : after.scope = ready.scope := exec_scope plain ran last
    rcases result with e | control
    · exact kept
    · cases control with
      | next => exact absurd rfl last
      | ret v => exact kept

/-- The statements ahead get fewer or smaller. -/
theorem sizeOf_next? (moved : p.next? setting = some q) :
    sizeOf q.pending < sizeOf p.pending := by
  have append (xs ys : List Stmt) : sizeOf (xs ++ ys) + 1 = sizeOf xs + sizeOf ys := by
    induction xs with
    | nil => simp [Nat.add_comm]
    | cons x xs ih =>
      simp only [List.cons_append, List.cons.sizeOf_spec]
      omega
  obtain ⟨s, rest, ready, pending, -, -, next⟩ := next?_cases moved
  rw [pending, List.cons.sizeOf_spec]
  rcases next with ⟨opening, body, opens, opened, ahead, -⟩ | ⟨-, -, ahead, -⟩
  · have inside := sizeOf_opening opens opened
    have joined := append body rest
    rw [ahead]
    omega
  · rw [ahead]
    omega

/-- A run gets to an end, from which it goes on as from the start. -/
theorem exists_last (setting : Setting) (p : Point) :
    ∃ n last, p.after? setting n = some last ∧ last.next? setting = none ∧
      (execList setting p.pending p.state).2.scope = last.state.scope := by
  cases moved : p.next? setting with
  | none => exact ⟨0, p, rfl, moved, execList_scope moved⟩
  | some q =>
    have smaller := sizeOf_next? moved
    obtain ⟨n, last, reached, ended, same⟩ := exists_last setting q
    refine ⟨n + 1, last, ?_, ended, ?_⟩
    · rw [after?, moved]
      exact reached
    · rw [execList_next? moved]
      exact same
termination_by sizeOf p.pending

end Point

end Relay.Script
