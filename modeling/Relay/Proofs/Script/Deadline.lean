import Relay.Proofs.Script.Accounting
import Relay.Proofs.Script.Metering
import Relay.Script.Sandbox

/-! # The time of a run

A run is cut off in a wait that would go beyond the time limit, where it gives way once the limit is
reached, and in a step that finds the limit reached. If time passes only while a script waits, no
run goes on beyond the limit, and one that times out does so exactly then. Wherever a run is cut
off, what it leaves in the store are the writes of the assignments that it has completed.
-/

namespace Relay.Script

open Running

/-! ## The clock -/

/-- Steps take no time: all time is that of the waits. -/
def Clock.Still (clock : Clock) : Prop :=
  ∀ usedUp, clock ≠ .running usedUp

theorem Setting.expired_iff (setting : Setting) {cutoff now : Nat}
    (given : setting.cutoff = some cutoff) : setting.expired now = true ↔ cutoff ≤ now := by
  rw [expired, given]
  exact decide_eq_true_iff

section Still

variable {setting : Setting} (still : setting.clock.Still) {m : Meter}

include still

/-- Where no step takes time, a step that finds the deadline passed is not before the cutoff. -/
theorem Clock.Still.late (late : setting.late m = true) : setting.expired m.now = true := by
  unfold Setting.late at late
  split at late
  · cases late
  · exact late
  · rename_i usedUp running
    exact absurd running (still usedUp)

theorem Clock.Still.spent : setting.spent m = false := by
  unfold Setting.spent
  split
  · rename_i usedUp running
    exact absurd running (still usedUp)
  · rfl

theorem Clock.Still.cutsOff (cut : setting.cutsOff m = true) : setting.expired m.now = true := by
  rw [Setting.cutsOff, still.spent, Bool.and_false, Bool.or_false] at cut
  exact cut

end Still

/-- A run that starts before the cutoff does not go beyond it. It times out with the limit and, if
steps take no time, at the cutoff and nowhere else. -/
def MeterLaw.timing {setting : Setting} {cutoff : Nat} (given : setting.cutoff = some cutoff) :
    MeterLaw setting where
  Leads _ m e after := m.now ≤ cutoff → after.now ≤ cutoff ∧
    ∀ ms, e = some (.timeout ms) → ms = setting.limits.timeoutMs ∧
      (setting.clock.Still → after.now = cutoff)
  stay _ before := ⟨before, nofun⟩
  fail _ e timely before := ⟨before, fun ms same => absurd (Option.some.inj same) (timely ms)⟩
  more _ led := led
  trans first second before := second (first before).1
  tick m before := by
    rw [tick_eq]
    refine ⟨before, fun ms same => ?_⟩
    split at same
    · rename_i passed
      cases same
      refine ⟨rfl, fun still => Nat.le_antisymm before ?_⟩
      exact (setting.expired_iff given).1 (still.late passed.1)
    · cases same
  giveWay m before := by
    rw [giveWay_eq]
    split
    · refine ⟨before, fun ms same => ?_⟩
      dsimp only at same
      split at same
      · rename_i cut
        cases same
        refine ⟨rfl, fun still => Nat.le_antisymm before ?_⟩
        exact (setting.expired_iff given).1 (still.cutsOff cut)
      · cases same
    · exact ⟨before, nofun⟩
  note _ _ before := ⟨before, nofun⟩
  pass delay m before := by
    rw [pass_eq, given]
    dsimp only
    split
    · refine ⟨Nat.le_refl _, fun ms same => ?_⟩
      cases same
      exact ⟨rfl, fun _ => rfl⟩
    · rename_i due
      exact ⟨Nat.not_lt.1 (not_or.1 due).1, nofun⟩

/-- A program ends within the time. It times out with the limit and, if steps take no time, exactly
at its end. -/
theorem runProgram_elapsed (setting : Setting) {cutoff : Nat} (given : setting.cutoff = some cutoff)
    (program : Program) (store : Store) :
    (runProgram setting program store).elapsed ≤ cutoff ∧
      ∀ ms, (runProgram setting program store).result = .error (.timeout ms) →
        ms = setting.limits.timeoutMs ∧
          (setting.clock.Still → (runProgram setting program store).elapsed = cutoff) := by
  have obeys : Obeys (.timing given) RunState.meter _ (execList setting program) :=
    obeys_execList program
  obtain ⟨within, exactly⟩ := obeys (Point.start program store).state (Nat.zero_le cutoff)
  refine ⟨within, fun ms failed => exactly ms ?_⟩
  change failure? (runProgram setting program store).result = _
  rw [failed]
  rfl

/-- The answer comes exactly at the limit. The run goes on and takes many steps before it gives way,
and only there is it cut off. -/
example :
    let setting : Setting :=
      ⟨{ timeoutMs := 10 }, some fun _ _ => ⟨10, .ok .null⟩, some 10, .stopped⟩
    let ended := runProgram setting
      [.eval (.invoke .http "get" [.string "/"]), .eval (.list (List.replicate 4096 .null)),
        .assign ⟨"ctx", [.field "done"]⟩ .set (.bool true)] Dict.empty
    failure? ended.result = some (.timeout 10) ∧ ended.elapsed = 10 ∧ ended.store.entries = [] := by
  decide +kernel

/-! ## Completed writes -/

/-- The entry that an assignment to the store leaves if it succeeds, and its key. -/
def Stmt.write? (setting : Setting) (st : RunState) : Stmt → Option (String × Json)
  | .assign place op value =>
    if isStoreName place.root then
      match (do
        reading fun _ => tick setting
        let keys ← evaluatePath setting [] place.path
        let new ← evaluate setting value
        return (keys, new) : Running (List Key × Value)) st with
      | (.ok (first :: rest, new), _) =>
        let top := st.scope.entry first.text
        let changed := combine setting.limits op (top.getPath rest) new >>= top.setPath rest
        changed.toOption.map fun v => (first.text, v.toJson)
      | _ => none
    else none
  | _ => none

namespace Point

variable {setting : Setting} {p q : Point}

/-- What the next statement writes if it succeeds, once the run has given way. -/
def write? (setting : Setting) (p : Point) : Option (String × Json) :=
  p.pending.head?.bind (·.write? setting (reading (fun _ => giveWay setting) p.state).2)

/-- What the statements that are completed in a number of steps have written, in order. -/
def writes (setting : Setting) : Nat → Point → List (String × Json)
  | 0, _ => []
  | n + 1, p =>
    match p.next? setting with
    | some q => (p.write? setting).toList ++ q.writes setting n
    | none => []

end Point

/-- A store after some writes. -/
def afterWrites (store : Store) (writes : List (String × Json)) : Store :=
  writes.foldl (fun store write => store.insert write.1 write.2) store

section Writes

variable {setting : Setting} {st after : RunState} {p q : Point}

/-- An assignment changes the store by its write. -/
theorem exec_assign_store {place : Place} {op : AssignOp} {value : Expr}
    (ran : exec setting (.assign place op value) st = (.ok .next, after)) :
    after.scope.store =
      afterWrites st.scope.store ((Stmt.assign place op value).write? setting st).toList := by
  obtain ⟨ticked, keys, mid, new, ready, counted, path, -, right, wrote, -⟩ := exec_assign_iff.1 ran
  rw [Place.write] at wrote
  split at wrote
  · rename_i root
    obtain ⟨first, rest, combined, changed, rfl, result, placed, entered⟩ := assignStore_ok wrote
    obtain ⟨_, -, same, -⟩ := Scope.writeStore_ok entered
    have computed : (combine setting.limits op ((st.scope.entry first.text).getPath rest) new >>=
        (st.scope.entry first.text).setPath rest) = .ok changed := by
      rw [result]
      exact placed
    have written : (Stmt.assign place op value).write? setting st =
        some (first.text, changed.toJson) := by
      simp only [Stmt.write?, if_pos root, bind_apply, counted, path, right]
      change (combine _ _ _ _ >>= _).toOption.map _ = _
      rw [computed]
      rfl
    rw [written, same]
    rfl
  · rename_i root
    obtain ⟨-, _, _, changed, -, -, -, wrote⟩ := assignLocal_ok wrote
    obtain ⟨_, -, same, -⟩ := Scope.writeLocal_ok wrote
    have nothing : (Stmt.assign place op value).write? setting st = none := if_neg root
    rw [nothing, same]
    rfl

theorem exec_declare_store {constant : Bool} {name : String} {value : Expr}
    (ran : exec setting (.declare constant name value) st = (.ok .next, after)) :
    after.scope.store = st.scope.store := by
  obtain ⟨_, v, _, scope, -, -, -, wrote, same⟩ := exec_declare_ok ran
  obtain ⟨_, -, local_, -⟩ := Scope.writeLocal_ok wrote
  rw [same, local_]
  split <;> rfl

/-- From one point to the next the store changes by the write of the statement between them. -/
theorem Point.store_next? (moved : p.next? setting = some q) :
    q.state.scope.store = afterWrites p.state.scope.store (p.write? setting).toList := by
  obtain ⟨s, rest, ready, pending, gave, same, next⟩ := next?_cases moved
  rw [write?, pending, gave, List.head?_cons, Option.bind_some, ← same]
  rcases next with ⟨opening, body, opens, opened, -⟩ | ⟨plain, ran, -⟩
  · have nothing : s.write? setting ready = none := by
      cases s <;> first | rfl | cases opens
    rw [nothing]
    exact congrArg Scope.store ((steady_opening opens).scope_eq opened)
  cases s with
  | declare constant name value => exact exec_declare_store ran
  | assign place op value => exact exec_assign_store ran
  | branch condition yes no => cases plain
  | ret value => exact congrArg Scope.store ((steady_ret value).scope_eq ran)
  | block body => cases plain
  | eval e => exact congrArg Scope.store ((steady_eval e).scope_eq ran)

theorem Point.store_after? {n : Nat} (reached : p.after? setting n = some q) :
    q.state.scope.store = afterWrites p.state.scope.store (p.writes setting n) := by
  induction n generalizing p with
  | zero =>
    cases reached
    rfl
  | succ n ih =>
    obtain ⟨next, moved, reached⟩ := Option.bind_eq_some_iff.1 reached
    rw [ih reached, store_next? moved, writes, moved, afterWrites, afterWrites, afterWrites,
      List.foldl_append]

end Writes

/-! ## Runs -/

/-- However long the calls of a script take, its run ends within the time limit. If it times out, in
a wait, where it gives way or in a step, then with the limit, and exactly then if steps take no
time; and the store has all that was written by the assignments before the statement in which the
time ran out, and nothing else. -/
theorem Host.run_within (host : Host) (limits : Limits) (source : String) (store : Store) :
    (host.run limits source store).elapsed ≤ limits.timeoutMs ∧
      ∀ ms, (host.run limits source store).result = .error (.timeout ms) →
        ms = limits.timeoutMs ∧
          (host.clock.Still → (host.run limits source store).elapsed = limits.timeoutMs) ∧
          ∃ program n last, parseProgram limits.maxNesting source = .ok program ∧
            (Point.start program store).after? (host.setting limits) n = some last ∧
            (execList (host.setting limits) last.pending last.state).1 = .error (.timeout ms) ∧
            last.next? (host.setting limits) = none ∧
            (host.run limits source store).store =
              afterWrites store ((Point.start program store).writes (host.setting limits) n) := by
  rw [Host.run]
  split
  · exact ⟨Nat.zero_le _, nofun⟩
  split
  · exact ⟨Nat.zero_le _, nofun⟩
  rename_i program parsed
  obtain ⟨within, exactly⟩ :=
    runProgram_elapsed (host.setting limits) rfl program store
  refine ⟨within, fun ms failed => ?_⟩
  have ended : (runProgram (host.setting limits) program store).result = .error (.timeout ms) := by
    change Except.map _ (runProgram (host.setting limits) program store).result = _ at failed
    cases result : (runProgram (host.setting limits) program store).result with
    | ok control =>
      rw [result] at failed
      cases failed
    | error e =>
      rw [result] at failed
      exact congrArg Except.error (Except.error.inj failed)
  obtain ⟨limit, time⟩ := exactly ms ended
  -- The statement in which the time ran out is the one at the last point.
  obtain ⟨n, last, reached, stopped, same⟩ :=
    Point.exists_last (host.setting limits) (.start program store)
  refine ⟨limit, time, program, n, last, parsed, reached, ?_, stopped, ?_⟩
  · rw [← Point.execList_after? reached]
    exact ended
  · exact (congrArg Scope.store same).trans (Point.store_after? reached)

/-- Every call takes longer than the ones before it. -/
def Host.slowing : Host where
  http := some fun events _ => ⟨6 + events.length, .ok .null⟩

/-- The first call is answered in time and the second one is not; the script does not get to the
last assignment. -/
theorem Host.run_within_secondCall :
    let limits : Limits := { timeoutMs := 10, maxNesting := 8 }
    let out := Host.slowing.run limits
      "ctx.a=true;http.get('/');ctx.b=true;http.get('/');ctx.c=true" Dict.empty
    out.result = .error (.timeout 10) ∧ out.elapsed = 10 ∧
      out.store.entries.map (·.1) = ["a", "b"] ∧
      ∃ program n, out.store = afterWrites Dict.empty
        ((Point.start program Dict.empty).writes (Host.slowing.setting limits) n) := by
  intro limits out
  have failed : failure? out.result = some (.timeout 10) := by decide +kernel
  have written : out.store.entries.map (·.1) = ["a", "b"] := by decide +kernel
  have result : out.result = .error (.timeout 10) := by
    generalize out.result = result at failed
    cases result with
    | ok j => cases failed
    | error e => exact congrArg Except.error (Option.some.inj failed)
  obtain ⟨-, elapsed, program, n, last, -, -, -, -, store⟩ := (Host.run_within _ _ _ _).2 10 result
  exact ⟨result, elapsed nofun, written, program, n, store⟩

end Relay.Script
