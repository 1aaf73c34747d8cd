import Relay.Proofs.Execution.Rules

/-! # Plans of executions

What a list of actions does can be laid out before it is known how scripts and requests are
answered: a plan is a tree of single acts, which branches where the store is read or an answer comes
in. Lists that follow each other have plans that do, `ofList_append`. An interpreter that carries
out the plan of a list does what running the list does, `run_ofList`.
-/

namespace Relay

/-- The acts of an execution in order, one by one. -/
inductive Plan where
  | done (flow : Flow)
  | fail (e : ExecutionError)
  | note (event : Event) (rest : Plan)
  | pass (ms : Nat) (rest : Plan)
  | look (rest : Store → Plan)
  | keep (key : String) (value : Json) (rest : Plan)
  | script (source : String) (rest : Except Script.ScriptError Json → Plan)
  | send (request : Request) (rest : Except DispatchError Json → Plan)
  /-- Launch one repetition of an action of a list at some depth as a task. -/
  | launch (action : Action) (depth : Nat) (once rest : Plan)

namespace Plan

/-- Go on with another plan, unless the first one fails or returns. -/
def andThen : Plan → Plan → Plan
  | done (.next _), later => later
  | done (.ret value), _ => done (.ret value)
  | fail e, _ => fail e
  | note event rest, later => note event (andThen rest later)
  | pass ms rest, later => pass ms (andThen rest later)
  | look rest, later => look fun store => andThen (rest store) later
  | keep key value rest, later => keep key value (andThen rest later)
  | script source rest, later => script source fun answer => andThen (rest answer) later
  | send request rest, later => send request fun answer => andThen (rest answer) later
  | launch action depth once rest, later => launch action depth once (andThen rest later)

theorem andThen_assoc (x y z : Plan) : (x.andThen y).andThen z = x.andThen (y.andThen z) := by
  induction x with
  | done flow => cases flow <;> rfl
  | fail e => rfl
  | note event rest ih => rw [andThen, andThen, andThen, ih]
  | pass ms rest ih => rw [andThen, andThen, andThen, ih]
  | look rest ih =>
    rw [andThen, andThen, andThen]
    exact congrArg look (funext ih)
  | keep key value rest ih => rw [andThen, andThen, andThen, ih]
  | script source rest ih =>
    rw [andThen, andThen, andThen]
    exact congrArg (script source) (funext ih)
  | send request rest ih =>
    rw [andThen, andThen, andThen]
    exact congrArg (send request) (funext ih)
  | launch action depth once rest _ ih => rw [andThen, andThen, andThen, ih]

/-- Do something a number of times and go on, unless it fails or returns. -/
def repeated (once later : Plan) : Nat → Plan
  | 0 => later
  | n + 1 => once.andThen (repeated once later n)

/-- Launch an action a number of times and go on. -/
def launches (action : Action) (depth : Nat) (once later : Plan) : Nat → Plan
  | 0 => later
  | n + 1 => launch action depth once (launches action depth once later n)

theorem repeated_andThen (once x y : Plan) (n : Nat) :
    (repeated once x n).andThen y = repeated once (x.andThen y) n := by
  induction n with
  | zero => rfl
  | succ n ih => rw [repeated, repeated, andThen_assoc, ih]

theorem launches_andThen (action : Action) (depth : Nat) (once x y : Plan) (n : Nat) :
    (launches action depth once x n).andThen y = launches action depth once (x.andThen y) n := by
  induction n with
  | zero => rfl
  | succ n ih => rw [launches, launches, andThen, ih]

/-! ## The plan of a list -/

/-- The plan of a step. -/
def ofStep (config : ExecutionConfig) : Step → Plan
  | .log message =>
    let message := message.getD Action.defaultLogMessage
    note (.logged message) (done (.next (Ack.logged message).toJson))
  | .wait duration =>
    let duration := duration.getD config.defaultWaitMs
    pass duration.toNat (done (.next (Ack.waited duration).toJson))
  | .set key value => keep key value (done (.next (Ack.set key value).toJson))
  | .code source =>
    note (.scriptRun source) <| script source fun
      | .ok value => done (.next value)
      | .error e => fail (.script e)
  | .ret data => look fun store => done (.ret (store.resolve data))
  | .unknown kind => note (.unknownKind kind) (done (.next (unknownKind kind)))

/-- Keep the response to a call, if it is to be kept and does not count as nothing. -/
def keepResponse (call : Call) (response : Json) : Plan :=
  match call.saveTo with
  | some key =>
    if response.truthy then keep key response (done (.next response))
    else note (.emptyResponse call.label key) (done (.next response))
  | none => done (.next response)

/-- The plan of a call. -/
def ofCall (call : Call) (shipped : List Action) : Plan :=
  match Request.ofCall call shipped with
  | .error e => fail (.dispatch e)
  | .ok request =>
    note (.sent request) <| send request fun
      | .ok response => keepResponse call response
      | .error e => fail (.dispatch e)

/-- The plan of a list that is entered at some depth. -/
def entering (config : ExecutionConfig) (depth : Nat) (inside : Plan) : Plan :=
  if config.maxDepth < depth then fail (.tooDeep depth config.maxDepth) else inside

mutual

/-- The plan of one repetition of an action of a list at the given depth. -/
def ofAction (config : ExecutionConfig) (depth : Nat) : Action → Plan
  | .step _ s => ofStep config s
  | .call _ call shipped => ofCall call shipped
  | .group _ members => entering config (depth + 1) (ofList config (depth + 1) members)

/-- The plan of a list at the given depth. -/
def ofList (config : ExecutionConfig) (depth : Nat) : List Action → Plan
  | [] => done (.next (.array []))
  | a :: rest =>
    let run :=
      if a.mode.wait then
        repeated (ofAction config depth a) (ofList config depth rest) a.repetitions
      else launches a depth (ofAction config depth a) (ofList config depth rest) a.repetitions
    if a.mode.verbose then note (.processing a.kind a.mode) run else run

end

/-- The plan of a whole execution. -/
def whole (config : ExecutionConfig) (actions : List Action) : Plan :=
  entering config 1 (ofList config 1 actions)

theorem ofList_append (config : ExecutionConfig) (depth : Nat) (p q : List Action) :
    ofList config depth (p ++ q) = (ofList config depth p).andThen (ofList config depth q) := by
  induction p with
  | nil => rfl
  | cons a rest ih =>
    simp only [List.cons_append, ofList, ih]
    split <;> split <;> simp only [andThen, repeated_andThen, launches_andThen]

/-- The plan of one list after another goes on with the second one. -/
theorem whole_append (config : ExecutionConfig) (p q : List Action) :
    whole config (p ++ q) = (whole config p).andThen (whole config q) := by
  by_cases refused : config.maxDepth < 1
  · simp only [whole, entering, if_pos refused, andThen]
  · simp only [whole, entering, if_neg refused, ofList_append]

end Plan

/-! ## Carrying out a plan -/

namespace ExecutionState

/-- The state after an event. -/
def noted (st : ExecutionState) (event : Event) : ExecutionState :=
  { st with events := (st.now, event) :: st.events }

/-- The state after some time. -/
def passed (st : ExecutionState) (ms : Nat) : ExecutionState :=
  { st with now := st.now + ms }

/-- The state after an entry of the store is written. -/
def kept (st : ExecutionState) (key : String) (value : Json) : ExecutionState :=
  { st with store := st.store.insert key value }

/-- The state after a part of the computation that takes place now. -/
def absorbed (st : ExecutionState) (effects : Effects) : ExecutionState :=
  { st with
    now := st.now + effects.elapsed
    events := (effects.events.shift st.now).reverseAux st.events
    tasks := (effects.tasks.map (Task.shift st.now)).reverseAux st.tasks }

/-- What can be seen of a script run from outside, besides the store. -/
def scriptEffects (ended : Script.Outcome Json) : Effects where
  elapsed := ended.elapsed
  events := ended.events.map fun event => (event.1, .script event.2)

/-- The state after a script. -/
def scripted (st : ExecutionState) (ended : Script.Outcome Json) : ExecutionState :=
  { st with store := ended.store }.absorbed (scriptEffects ended)

/-- The state in which a task starts. -/
def forked (st : ExecutionState) : ExecutionState where
  store := st.store
  now := st.now

/-- The state after a task is launched that ends in the given way. -/
def launched (st : ExecutionState) (action : Action) (depth : Nat)
    (ended : Except ExecutionError Flow × ExecutionState) : ExecutionState :=
  let task : Task := {
    action, depth
    result := ended.1
    snapshot := st.store
    launched := st.now
    store := ended.2.store
    ended := ended.2.now
    events := ended.2.events.reverse ++ Task.failureEvents action.kind ended.2.now ended.1 }
  { st with tasks := ended.2.tasks ++ task :: st.tasks }

end ExecutionState

namespace Plan

/-- Carry out a plan. -/
def run (i : Interpreter) : Plan → ExecutionState → Except ExecutionError Flow × ExecutionState
  | done flow, st => (.ok flow, st)
  | fail e, st => (.error e, st)
  | note event rest, st => run i rest (st.noted event)
  | pass ms rest, st => run i rest (st.passed ms)
  | look rest, st => run i (rest st.store) st
  | keep key value rest, st => run i rest (st.kept key value)
  | script source rest, st =>
    let ended := i.scripts source st.store
    run i (rest ended.result) (st.scripted ended)
  | send request rest, st =>
    let reply := i.dispatch request
    run i (rest reply.result) (st.absorbed reply.effects)
  | launch action depth once rest, st =>
    run i rest (st.launched action depth (run i once st.forked))

theorem run_andThen (i : Interpreter) (x y : Plan) (st : ExecutionState) :
    (x.andThen y).run i st =
      match x.run i st with
      | (.ok (.next _), st) => y.run i st
      | (.ok (.ret value), st) => (.ok (.ret value), st)
      | (.error e, st) => (.error e, st) := by
  induction x generalizing st with
  | done flow => cases flow <;> rfl
  | fail e => rfl
  | note event rest ih => exact ih _
  | pass ms rest ih => exact ih _
  | look rest ih => exact ih _ _
  | keep key value rest ih => exact ih _
  | script source rest ih => exact ih _ _
  | send request rest ih => exact ih _ _
  | launch action depth once rest _ ih => exact ih _

end Plan

namespace Interpreter

open Executing Plan

variable (i : Interpreter)

private theorem run_repeated (once later : Plan) (n : Nat) (st : ExecutionState) :
    (Plan.repeated once later n).run i st =
      match Executing.repeated (once.run i) n st with
      | (.ok (some value), st) => (.ok (.ret value), st)
      | (.ok none, st) => later.run i st
      | (.error e, st) => (.error e, st) := by
  induction n generalizing st with
  | zero => rfl
  | succ n ih =>
    rw [Plan.repeated, run_andThen, Executing.repeated, bind_apply]
    cases once.run i st with
    | mk result after =>
      cases result with
      | error e => rfl
      | ok flow =>
        cases flow with
        | ret value => rfl
        | next value => exact ih after

private theorem run_launches (action : Action) (depth : Nat) (once later : Plan) (n : Nat)
    (st : ExecutionState) :
    (launches action depth once later n).run i st =
      (do
        times (Executing.launch action depth (once.run i)) n
        later.run i : Executing Flow) st := by
  induction n generalizing st with
  | zero => rfl
  | succ n ih =>
    rw [launches, Plan.run, ih, times, bind_apply, bind_apply, bind_apply]
    rfl

private theorem ofExcept_apply {ε α : Type} (wrap : ε → ExecutionError) (result : Except ε α)
    (st : ExecutionState) : ofExcept wrap result st = (result.mapError wrap, st) := by
  cases result <;> rfl

theorem runScript_apply (source : String) (st : ExecutionState) :
    i.runScript source st =
      ((i.scripts source st.store).result.mapError .script,
        (st.noted (.scriptRun source)).scripted (i.scripts source st.store)) :=
  ofExcept_apply _ _ _

theorem send_apply (request : Request) (st : ExecutionState) :
    i.send request st =
      ((i.dispatch request).result.mapError .dispatch,
        (st.noted (.sent request)).absorbed (i.dispatch request).effects) :=
  ofExcept_apply _ _ _

private theorem run_ofStep (s : Step) (st : ExecutionState) :
    (ofStep i.config s).run i st = i.performStep s st := by
  cases s with
  | code source =>
    rw [performStep, bind_apply, runScript_apply]
    change Plan.run i (match (i.scripts source st.store).result with
      | .ok value => done (.next value)
      | .error e => fail (.script e)) _ = _
    cases (i.scripts source st.store).result <;> rfl
  | _ => rfl

private theorem run_keepResponse (call : Call) (response : Json) (st : ExecutionState) :
    (keepResponse call response).run i st =
      (do
        if let some key := call.saveTo then
          if response.truthy then keep key response
          else Executing.note (.emptyResponse call.label key)
        return .next response : Executing Flow) st := by
  cases saved : call.saveTo with
  | none => simp only [keepResponse, saved]; rfl
  | some key =>
    simp only [keepResponse, saved]
    split <;> rfl

private theorem run_ofCall (call : Call) (shipped : List Action) (st : ExecutionState) :
    (ofCall call shipped).run i st = i.performCall call shipped st := by
  rw [ofCall, performCall, bind_apply, ofExcept_apply]
  cases Request.ofCall call shipped with
  | error e => rfl
  | ok request =>
    change _ = (i.send request >>= _) st
    rw [bind_apply, send_apply]
    change Plan.run i (match (i.dispatch request).result with
      | .ok response => keepResponse call response
      | .error e => fail (.dispatch e)) _ = _
    cases (i.dispatch request).result with
    | error e => rfl
    | ok response => exact run_keepResponse i call response _

private theorem run_entering {depth : Nat} {inside : Plan} {x : Executing Flow}
    (same : ∀ st, inside.run i st = x st) (st : ExecutionState) :
    (entering i.config depth inside).run i st = (do i.checkDepth depth; x) st := by
  rw [entering, checkDepth]
  split
  · rfl
  · exact same st

mutual

theorem run_ofAction (depth : Nat) (a : Action) (st : ExecutionState) :
    (ofAction i.config depth a).run i st = i.perform depth a st := by
  cases a with
  | step mode s => exact run_ofStep i s st
  | call mode c shipped => exact run_ofCall i c shipped st
  | group mode members => exact run_entering i (run_ofList (depth + 1) members) st

/-- Carrying out the plan of a list is running it. -/
theorem run_ofList (depth : Nat) (actions : List Action) (st : ExecutionState) :
    (ofList i.config depth actions).run i st = i.performAll depth actions st := by
  cases actions with
  | nil => rfl
  | cons a rest =>
    have once : (ofAction i.config depth a).run i = i.perform depth a :=
      funext (run_ofAction depth a)
    have others : (ofList i.config depth rest).run i = i.performAll depth rest :=
      funext (run_ofList depth rest)
    have blocking (st : ExecutionState) :
        (Plan.repeated (ofAction i.config depth a) (ofList i.config depth rest)
          a.repetitions).run i st =
        (do match ← Executing.repeated (i.perform depth a) a.repetitions with
            | some value => return .ret value
            | none => i.performAll depth rest : Executing Flow) st := by
      rw [run_repeated, once, others, bind_apply]
      cases Executing.repeated (i.perform depth a) a.repetitions st with
      | mk result after =>
        cases result with
        | error e => rfl
        | ok value => cases value <;> rfl
    have launching (st : ExecutionState) :
        (launches a depth (ofAction i.config depth a) (ofList i.config depth rest)
          a.repetitions).run i st =
        (do times (Executing.launch a depth (i.perform depth a)) a.repetitions
            i.performAll depth rest : Executing Flow) st := by
      rw [run_launches, once, others]
    rw [ofList, performAll]
    cases a.mode.verbose <;> cases a.mode.wait
    · exact launching st
    · exact blocking st
    · exact launching _
    · exact blocking _

end

/-- Running a whole list is carrying out its plan. -/
theorem run_whole (actions : List Action) (st : ExecutionState) :
    (whole i.config actions).run i st = (do i.checkDepth 1; i.performAll 1 actions) st :=
  run_entering i (run_ofList i 1 actions) st

end Interpreter

end Relay
