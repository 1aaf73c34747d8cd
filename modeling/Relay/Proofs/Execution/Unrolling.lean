import Relay.Proofs.Execution.Detached
import Relay.Proofs.Execution.Tracking

/-! # Groups and repetitions written out

A waiting group stands for its members, as often as it is repeated, and a repeated action for copies
of itself. Written out, a list does the same things in the same order, alone and beside its tasks;
only the depth that is counted for members of a group differs, so a group may be refused where its
members are not. `execute_unrolled` says so for both ways of writing a list shorter.
-/

namespace Relay

universe u

namespace Action

/-- The action without repetitions. -/
def once (a : Action) : Action :=
  a.withMode { a.mode with repeats := 1 }

@[simp] theorem once_mode (a : Action) : a.once.mode = { a.mode with repeats := 1 } := by
  cases a <;> rfl

@[simp] theorem once_kind (a : Action) : a.once.kind = a.kind := by
  cases a <;> rfl

@[simp] theorem once_once (a : Action) : a.once.once = a.once := by
  cases a <;> rfl

theorem once_repetitions (a : Action) : a.once.repetitions = 1 := by
  rw [repetitions, once_mode]
  rfl

end Action

/-- A list is refused for its depth. -/
def TooDeep (e : ExecutionError) : Prop :=
  ¬ Interpreter.NotDeep e

namespace Plan

theorem lost_tooDeep (depth limit : Nat) : (fail (.tooDeep depth limit)).Lost TooDeep :=
  fun other => other depth limit rfl

variable {excused : ExecutionError → Prop} {label : Action → Action} {config : ExecutionConfig}

/-- A list that is entered at a lesser depth is entered where the other one is. -/
theorem Tracks.entering {x y : Plan} (inside : Tracks TooDeep label x y) {deep shallow : Nat}
    (below : shallow ≤ deep) :
    Tracks TooDeep label (Plan.entering config deep x) (Plan.entering config shallow y) := by
  by_cases refused : config.maxDepth < deep
  · rw [Plan.entering, if_pos refused]
    exact .lost (lost_tooDeep _ _) _
  · rw [Plan.entering, Plan.entering, if_neg refused, if_neg (by omega)]
    exact inside

theorem Tracks.whole {p q : List Action}
    (inside : Tracks excused label (ofList config 1 p) (ofList config 1 q)) :
    Tracks excused label (whole config p) (whole config q) := by
  rw [Plan.whole, Plan.whole, Plan.entering, Plan.entering]
  split
  · exact .fail _
  · exact inside

mutual

theorem tracks_ofAction {deep shallow : Nat} (below : shallow ≤ deep) (a : Action) :
    Tracks TooDeep label (ofAction config deep a) (ofAction config shallow a) := by
  cases a with
  | step mode s => exact .refl _
  | call mode c shipped => exact .refl _
  | group mode members =>
    have below : shallow + 1 ≤ deep + 1 := by omega
    exact (tracks_ofList below members).entering below

/-- At a lesser depth a list does the same things, unless it is refused for its depth. -/
theorem tracks_ofList {deep shallow : Nat} (below : shallow ≤ deep) (actions : List Action) :
    Tracks TooDeep label (ofList config deep actions) (ofList config shallow actions) := by
  cases actions with
  | nil => exact .done _
  | cons a rest =>
    have first := tracks_ofAction below a
    have others := tracks_ofList below rest
    have launched := Tracks.launches a a rfl rfl deep shallow first others a.repetitions
    have run := first.repeated others a.repetitions
    rw [ofList, ofList]
    cases a.mode.wait <;> cases a.mode.verbose
    · exact launched
    · exact .note _ launched
    · exact run
    · exact .note _ run

end

/-! ## Copies -/

variable (config) (depth : Nat)

theorem ofList_waiting {a : Action} (wait : a.mode.wait = true) (silent : a.mode.verbose = false)
    (rest : List Action) :
    ofList config depth (a :: rest) =
      repeated (ofAction config depth a) (ofList config depth rest) a.repetitions := by
  simp [ofList, wait, silent]

theorem ofList_detached {a : Action} (wait : a.mode.wait = false) (silent : a.mode.verbose = false)
    (rest : List Action) :
    ofList config depth (a :: rest) =
      launches a depth (ofAction config depth a) (ofList config depth rest) a.repetitions := by
  simp [ofList, wait, silent]

theorem ofAction_once (a : Action) : ofAction config depth a.once = ofAction config depth a := by
  cases a <;> rfl

/-- Copies of a list are carried out as the list is when it is repeated. -/
theorem ofList_copies (members rest : List Action) (n : Nat) :
    ofList config depth ((List.replicate n members).flatten ++ rest) =
      repeated (ofList config depth members) (ofList config depth rest) n := by
  induction n with
  | zero => simp [repeated]
  | succ n ih =>
    rw [List.replicate_succ, List.flatten_cons, List.append_assoc, ofList_append, ih, repeated]

theorem ofList_replicate_waiting {a : Action} (wait : a.mode.wait = true)
    (silent : a.mode.verbose = false) (rest : List Action) (n : Nat) :
    ofList config depth (List.replicate n a.once ++ rest) =
      repeated (ofAction config depth a) (ofList config depth rest) n := by
  induction n with
  | zero => simp [repeated]
  | succ n ih =>
    rw [List.replicate_succ, List.cons_append, ofList_waiting _ _ (by simpa) (by simpa),
      Action.once_repetitions, ofAction_once, ih]
    rfl

theorem ofList_replicate_detached {a : Action} (wait : a.mode.wait = false)
    (silent : a.mode.verbose = false) (rest : List Action) (n : Nat) :
    ofList config depth (List.replicate n a.once ++ rest) =
      launches a.once depth (ofAction config depth a) (ofList config depth rest) n := by
  induction n with
  | zero => simp [launches]
  | succ n ih =>
    rw [List.replicate_succ, List.cons_append, ofList_detached _ _ (by simpa) (by simpa),
      Action.once_repetitions, ofAction_once, ih]
    rfl

/-- A waiting group does what copies of its members do, unless it is refused for its depth. -/
theorem tracks_copies {mode : Mode} (wait : mode.wait = true) (silent : mode.verbose = false)
    (members rest : List Action) :
    Tracks TooDeep label (ofList config depth (.group mode members :: rest))
      (ofList config depth
        ((List.replicate (max mode.repeats.toNat 1) members).flatten ++ rest)) := by
  rw [ofList_waiting (a := .group mode members) config depth wait silent, ofList_copies]
  refine Tracks.repeated ?_ (.refl _) _
  rw [ofAction, Plan.entering]
  split
  · exact .lost (lost_tooDeep _ _) _
  · exact tracks_ofList (Nat.le_succ depth) members

/-- A repeated action does what copies of it do. -/
theorem tracks_replicate {a : Action} (silent : a.mode.verbose = false) (rest : List Action) :
    Tracks excused Action.once (ofList config depth (a :: rest))
      (ofList config depth (List.replicate (max a.mode.repeats.toNat 1) a.once ++ rest)) := by
  cases wait : a.mode.wait with
  | true =>
    rw [ofList_waiting config depth wait silent, ofList_replicate_waiting config depth wait silent]
    exact .refl _
  | false =>
    rw [ofList_detached config depth wait silent,
      ofList_replicate_detached config depth wait silent]
    exact .launches a a.once a.once_kind.symm a.once_once.symm depth depth (.refl _) (.refl _) _

end Plan

namespace Interpreter

open Plan

/-- Two executions end in the same way, with the same time, events and tasks, but for the depth of
the tasks and what `label` leaves out of their actions. -/
structure Ended.Resembles (label : Action → Action) (first second : Ended) : Prop where
  result : second.result = first.result
  store : second.store = first.store
  elapsed : second.effects.elapsed = first.effects.elapsed
  events : second.effects.events = first.effects.events
  tasks : second.effects.tasks.map (Task.labelled label) =
    first.effects.tasks.map (Task.labelled label)

theorem resembles_of_tracks {excused : ExecutionError → Prop} {label : Action → Action}
    {i : Interpreter} {p q : List Action} {store : Store}
    (tracks : Tracks excused label (whole i.config p) (whole i.config q))
    (avoids : (whole i.config p).Avoids excused i store) :
    (i.execute p store).Resembles label (i.execute q store) := by
  have start : ExecutionState.InStep label { store } { store } := ⟨rfl, rfl, rfl, rfl⟩
  obtain ⟨result, step⟩ := tracks.run { store } { store } avoids start
  rw [execute_eq_run, execute_eq_run]
  refine ⟨result.symm, step.store.symm, step.now.symm, ?_, ?_⟩
  · exact congrArg List.reverse step.events.symm
  · simp only [Ended.ofRun, List.map_reverse, step.tasks]

/-- Neither the list nor a task that it launches itself is refused for its depth. -/
def NeverTooDeep (i : Interpreter) (actions : List Action) (store : Store) : Prop :=
  (∀ e, (i.execute actions store).result = .error e → NotDeep e) ∧
    ∀ task ∈ (i.secluded.execute actions store).effects.tasks,
      ∀ e, task.result = .error e → NotDeep e

/-- A list is never refused where the depth of all its groups is allowed. -/
theorem neverTooDeep_of_listsIn_le {i : Interpreter} {actions : List Action}
    (room : Action.listsIn actions ≤ i.config.maxDepth) (store : Store) :
    i.NeverTooDeep actions store := by
  obtain ⟨-, tasks⟩ := staysWithin_of_listsIn_le i.secluded room store
  refine ⟨(staysWithin_of_listsIn_le i room store).1, ?_⟩
  intro task member
  rcases tasks task member with ⟨request, start, inner, brought, -⟩ | own
  · exact absurd brought List.not_mem_nil
  · exact own

theorem NeverTooDeep.avoids {i : Interpreter} {actions : List Action} {store : Store}
    (never : i.NeverTooDeep actions store) :
    (whole i.config actions).Avoids TooDeep i store := by
  obtain ⟨result, tasks⟩ := never
  rw [execute_eq_run] at result tasks
  apply avoids_of_run (whole i.config actions) { store }
  · intro e failed
    rw [run_secluded _ rfl] at failed
    exact not_not.2 (result e failed)
  · intro task member e failed
    exact not_not.2 (tasks task (List.mem_reverse.2 member) e failed)

/-- A waiting group that is not announced does what copies of its members do, as long as nothing is
refused for its depth, and a repeated action that is not announced does what copies of it do. This
holds for lists that are run alone, and for all threads of an execution under every schedule. -/
theorem execute_unrolled {W : Type u} :
    (∀ (mode : Mode) (members rest : List Action), mode.wait = true → mode.verbose = false →
      let grouped := Action.group mode members :: rest
      let copies := (List.replicate (max mode.repeats.toNat 1) members).flatten ++ rest
      (∀ (i : Interpreter) (store : Store), i.NeverTooDeep grouped store →
        (i.execute grouped store).Resembles id (i.execute copies store)) ∧
      ∀ (s : Surroundings W) (config : ExecutionConfig) (store : Store) (world : W)
        (schedule : List Nat),
        let pool := fun actions => (Pool.start (whole config actions) store world).play s schedule
        ¬ (pool grouped).Loses TooDeep → (pool grouped).Resembles (pool copies)) ∧
    ∀ (a : Action) (rest : List Action), a.mode.verbose = false →
      let copies := List.replicate (max a.mode.repeats.toNat 1) a.once ++ rest
      (∀ (i : Interpreter) (store : Store),
        (i.execute (a :: rest) store).Resembles Action.once (i.execute copies store)) ∧
      ∀ (s : Surroundings W) (config : ExecutionConfig) (store : Store) (world : W)
        (schedule : List Nat),
        let pool := fun actions => (Pool.start (whole config actions) store world).play s schedule
        (pool (a :: rest)).Resembles (pool copies) := by
  constructor
  · intro mode members rest wait silent grouped copies
    have tracks (config : ExecutionConfig) :
        Tracks TooDeep id (whole config grouped) (whole config copies) :=
      (tracks_copies config 1 wait silent members rest).whole
    constructor
    · intro i store never
      exact resembles_of_tracks (tracks i.config) never.avoids
    · intro s config store world schedule pool found
      exact ((Pool.tracks_start (tracks config) store world).play found).resembles found
  · intro a rest silent copies
    have tracks (config : ExecutionConfig) :
        Tracks (fun _ => False) Action.once (whole config (a :: rest)) (whole config copies) :=
      (tracks_replicate config 1 silent rest).whole
    constructor
    · intro i store
      exact resembles_of_tracks (tracks i.config) (avoids_of_none (fun _ => id) _ _)
    · intro s config store world schedule pool
      have found := Pool.not_loses_of_none (fun _ => id) (pool (a :: rest))
      exact ((Pool.tracks_start (tracks config) store world).play found).resembles found

/-- A list that is launched, written and launched again, and then ended by a return. -/
theorem execute_unrolled_errand :
    let done : List Action := [.step {} (.ret (.string "done"))]
    let grouped := Action.group { repeats := 2 } (errand ++ [.group {} errand]) :: done
    let copies := (List.replicate 2 (errand ++ [.group {} errand])).flatten ++ done
    let task : Action := .step { repeats := 2, wait := false } (.log (some "x"))
    let pool := fun actions =>
      (Pool.start (whole idle.config actions) Dict.empty 0).play counting [0, 0, 1, 0]
    idle.NeverTooDeep grouped Dict.empty ∧
      (idle.execute grouped Dict.empty).Resembles id (idle.execute copies Dict.empty) ∧
      ¬ (pool grouped).Loses TooDeep ∧ (pool grouped).Resembles (pool copies) ∧
      (idle.execute (task :: done) Dict.empty).Resembles Action.once
        (idle.execute (List.replicate 2 task.once ++ done) Dict.empty) := by
  intro done grouped copies task pool
  have never : idle.NeverTooDeep grouped Dict.empty :=
    neverTooDeep_of_listsIn_le (by decide) Dict.empty
  have found : ¬ (pool grouped).Loses TooDeep := by
    rintro ⟨k, plan, here, lost⟩
    match k with
    | 0 => cases here; exact lost
    | 1 => cases here; exact lost
    | k + 2 => cases here
  obtain ⟨groups, repeats⟩ := execute_unrolled (W := Nat)
  obtain ⟨alone, beside⟩ := groups { repeats := 2 } (errand ++ [.group {} errand]) done rfl rfl
  refine ⟨never, alone idle Dict.empty never, found, ?_, ?_⟩
  · exact beside counting idle.config Dict.empty 0 _ found
  · exact (repeats task done rfl).1 idle Dict.empty

end Interpreter

end Relay
