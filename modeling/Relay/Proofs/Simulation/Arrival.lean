import Relay.Proofs.Execution.Sequence
import Relay.Simulation.Run

/-! # Where requests arrive

A request that is sent is refused by the sender, goes outside, is answered by a node at once, or
makes a node run actions. Only in the last case does the answer take an execution, and how the
execution ends and when is all of it that the answer shows, `dispatch_of_running`.
-/

namespace Relay

/-! ## How a plan ends -/

namespace Plan

/-- How and when a plan ends that is carried out on a store from some time on. -/
def finish (i : Interpreter) (plan : Plan) (store : Store) (now : Nat) :
    Except ExecutionError Flow × Nat :=
  let ran := plan.run i { store, now }
  (ran.1, ran.2.now)

variable (i : Interpreter) (store : Store) (now : Nat)

/-- What was seen or launched before has no part in how a plan ends. -/
theorem run_finish (plan : Plan) (st : ExecutionState) :
    ((plan.run i st).1, (plan.run i st).2.now) = plan.finish i st.store st.now := by
  rw [finish, run_eq_followedBy, run_eq_followedBy i plan { store := st.store, now := st.now }]
  rfl


theorem finish_note (event : Event) (rest : Plan) :
    (note event rest).finish i store now = rest.finish i store now :=
  run_finish i rest _

theorem finish_script (source : String) (rest : Except Script.ScriptError Json → Plan) :
    (script source rest).finish i store now =
      (rest (i.scripts source store).result).finish i (i.scripts source store).store
        (now + (i.scripts source store).elapsed) :=
  run_finish i (rest _) _

theorem finish_send (request : Request) (rest : Except DispatchError Json → Plan) :
    (send request rest).finish i store now =
      (rest (i.dispatch request).result).finish i store
        (now + (i.dispatch request).effects.elapsed) :=
  run_finish i (rest _) _

theorem finish_launch (action : Action) (depth : Nat) (once rest : Plan) :
    (launch action depth once rest).finish i store now = rest.finish i store now :=
  run_finish i rest _

/-- A plan that is carried out later ends later in the same way. -/
theorem finish_later (plan : Plan) :
    plan.finish i store now =
      ((plan.finish i store 0).1, now + (plan.finish i store 0).2) := by
  rw [finish, run_eq_followedBy]
  rfl

theorem le_finish (plan : Plan) : now ≤ (plan.finish i store now).2 := by
  rw [finish_later]
  exact Nat.le_add_right _ _

end Plan

/-! ## What an execution answers -/

namespace Interpreter

/-- What an invocation answers if it ends in the given way. -/
def answer : Except ExecutionError Flow → Json
  | .ok (.ret value) => value
  | .ok (.next _) => .array []
  | .error e => failureValue e.message e.code

/-- How and when an execution on an empty store ends decides what is answered, and when. -/
theorem run_eq_answer (i : Interpreter) (actions : List Action) :
    let ended := (Plan.whole i.config actions).finish i Dict.empty 0
    (i.run actions).result = answer ended.1 ∧ (i.run actions).effects.elapsed = ended.2 := by
  have ended : (i.execute actions Dict.empty).result = _ ∧ _ = _ :=
    ⟨congrArg Ended.result (execute_eq_run i actions Dict.empty),
      congrArg (·.effects.elapsed) (execute_eq_run i actions Dict.empty)⟩
  simp only [Ended.ofRun] at ended
  rw [run]
  simp only [Plan.finish, ← ended.1, ← ended.2]
  cases (i.execute actions Dict.empty).result with
  | error e => exact ⟨rfl, rfl⟩
  | ok flow => cases flow <;> exact ⟨rfl, rfl⟩

end Interpreter

/-! ## What a node does with a request -/

/-- The response to a request; one to a request for the head has no body. -/
def HttpRequest.responded (r : HttpRequest) (response : HttpResponse) : HttpResponse :=
  if r.method = "HEAD" then { response with body := "" } else response

namespace Service

/-- The response to a request that does not ship actions: a node tells how it is and greets. -/
def told? (s : Service) (r : HttpRequest) : Option HttpResponse :=
  let place := Http.Place.ofUrl r.url
  if r.method = "OPTIONS" then some ⟨200, ""⟩
  else if r.method = "GET" ∨ r.method = "HEAD" then
    if place.path = "/api/v1/health" then some (r.responded (.json 200 (healthBody s.name)))
    else if place.path = "/api/v1/greet" then some (r.responded (greet place.query))
    else none
  else none

/-- The actions that a request makes a node run, or the response that it gets at once. -/
def intake (s : Service) (r : HttpRequest) : Except HttpResponse (List Action) :=
  match s.told? r with
  | some response => .error response
  | none => (s.receive r).mapError fun e => r.responded (NodeError.payload e).response

/-- A node that does not answer at once runs the actions and answers with what they come to. -/
theorem handle_eq_intake (s : Service) (r : HttpRequest) :
    s.handle r =
      match s.intake r with
      | .error response => ⟨response, {}⟩
      | .ok actions =>
        ⟨r.responded (.json 200 (s.interpreter.run actions).result),
          (s.interpreter.run actions).effects⟩ := by
  have invoked : (⟨r.responded (s.invoke r).result, (s.invoke r).effects⟩ : Reply HttpResponse) =
      match (s.receive r).mapError fun e => r.responded (NodeError.payload e).response with
      | .error response => ⟨response, {}⟩
      | .ok actions =>
        ⟨r.responded (.json 200 (s.interpreter.run actions).result),
          (s.interpreter.run actions).effects⟩ := by
    rw [invoke]
    cases s.receive r <;> rfl
  have routed : s.handle r = if r.method = "OPTIONS" then ⟨⟨200, ""⟩, {}⟩
      else ⟨r.responded (s.route r).result, (s.route r).effects⟩ := by
    simp only [handle, HttpRequest.responded]
    repeat' split
    all_goals rfl
  rw [routed, intake, told?, route]
  by_cases options : r.method = "OPTIONS"
  · simp only [if_pos options]
  by_cases reading : r.method = "GET" ∨ r.method = "HEAD"
  · by_cases health : (Http.Place.ofUrl r.url).path = "/api/v1/health"
    · simp only [if_neg options, if_pos reading, if_pos health]
    by_cases greeting : (Http.Place.ofUrl r.url).path = "/api/v1/greet"
    · simp only [if_neg options, if_pos reading, if_neg health, if_pos greeting]
    simp only [if_neg options, if_pos reading, if_neg health, if_neg greeting]
    exact invoked
  · simp only [if_neg options, if_neg reading]
    exact invoked

/-- A request without headers, such as scripts send, makes no node run anything. -/
theorem intake_plain (s : Service) {r : HttpRequest} (plain : r.headers = []) :
    ∃ response, s.intake r = .error response := by
  have missing : s.receive r = .error .missing := by
    rw [receive, HttpRequest.header?, plain]
    rfl
  rw [intake, missing]
  cases s.told? r <;> exact ⟨_, rfl⟩

end Service

/-! ## Where a message arrives -/

/-- What a message leads to. -/
inductive Arrival where
  | answered (reply : Reply (Except String HttpResponse))
  /-- A node runs actions. -/
  | running (node : NodeConfig) (actions : List Action)

namespace Simulation

variable (sim : Simulation) (routing : Routing)

/-- What a message leads to that may make so many hops. -/
def arrival : Nat → HttpRequest → Arrival
  | 0, _ => .answered ⟨.error "no hops left", {}⟩
  | hops + 1, r =>
    match routing.node? r.url with
    | none => .answered (routing.outside r)
    | some (node, place) =>
      let service := node.service sim.directory (sim.network routing hops)
      match service.intake { r with url := place } with
      | .error response => .answered ⟨.ok response, {}⟩
      | .ok actions => .running node actions

/-- The network answers a message as where it arrives. -/
theorem network_eq_arrival (hops : Nat) (r : HttpRequest) :
    sim.network routing hops r =
      match sim.arrival routing hops r with
      | .answered reply => reply
      | .running node actions =>
        let reply := (node.interpreter sim.directory (sim.network routing (hops - 1))).run actions
        ⟨.ok (r.responded (.json 200 reply.result)), reply.effects⟩ := by
  cases hops with
  | zero => rfl
  | succ hops =>
    simp only [network, Network.ofNodes, arrival, Service.handle_eq_intake]
    cases routing.node? r.url with
    | none => rfl
    | some found =>
      dsimp only
      cases (found.1.service sim.directory
        (Network.ofNodes sim.directory routing hops)).intake { r with url := found.2 } <;>
        rfl

/-- What scripts send makes no node run anything. -/
theorem arrival_plain {r : HttpRequest} (plain : r.headers = []) (hops : Nat) :
    ∃ reply, sim.arrival routing hops r = .answered reply := by
  cases hops with
  | zero => exact ⟨_, rfl⟩
  | succ hops =>
    rw [arrival]
    split
    · exact ⟨_, rfl⟩
    · rename_i node place _
      obtain ⟨response, answered⟩ :=
        (node.service sim.directory (sim.network routing hops)).intake_plain
          (r := { r with url := place }) plain
      simp only [answered]
      exact ⟨_, rfl⟩

end Simulation

/-! ## What a request leads to -/

namespace Sender

/-- What the sender makes of the reply to a message. -/
def conclude (s : Sender) (url : String) (reply : Reply (Except String HttpResponse)) :
    Reply (Except DispatchError Json) :=
  let reply := reply.within s.patienceMs "operation timed out"
  match reply.result with
  | .error reason => ⟨.error (.transport reason), reply.effects⟩
  | .ok response => ⟨read url response, reply.effects⟩

/-- What the sender makes of a message that leads to an execution which ends in some way after some
time. -/
def heed (s : Sender) (message : HttpRequest) (ended : Except ExecutionError Flow × Nat) :
    Reply (Except DispatchError Json) :=
  let response := message.responded (.json 200 (Interpreter.answer ended.1))
  s.conclude message.url ⟨.ok response, { elapsed := ended.2 }⟩

/-- What the sender makes of a message that is not answered in time. -/
def giveUp (s : Sender) : Reply (Except DispatchError Json) :=
  ⟨.error (.transport "operation timed out"), { elapsed := s.patienceMs }⟩

theorem heed_late (s : Sender) (message : HttpRequest) {ended : Except ExecutionError Flow × Nat}
    (late : s.patienceMs < ended.2) : s.heed message ended = s.giveUp := by
  simp only [heed, conclude, Reply.within, if_neg (Nat.not_le.2 late)]
  rfl

/-- What else was done for a reply plays no part in what the sender makes of it. -/
theorem conclude_congr (s : Sender) (url : String) {a b : Reply (Except String HttpResponse)}
    (result : a.result = b.result) (elapsed : a.effects.elapsed = b.effects.elapsed) :
    (s.conclude url a).result = (s.conclude url b).result ∧
      (s.conclude url a).effects.elapsed = (s.conclude url b).effects.elapsed := by
  simp only [conclude, Reply.within, ← elapsed]
  by_cases timely : a.effects.elapsed ≤ s.patienceMs
  · simp only [if_pos timely, ← result]
    cases a.result <;> exact ⟨rfl, elapsed⟩
  · simp only [if_neg timely, and_self]

end Sender

/-- Where actions run and from where requests are sent: a node, or the client of the root requests,
which runs no actions. -/
structure Site where
  executor : ExecutionConfig := {}
  limits : Script.Limits := {}
  patienceMs : Nat
  /-- How many hops what is sent from here may make. -/
  hops : Nat

/-- A node that a message has reached. -/
def Site.ofNode (node : NodeConfig) (hops : Nat) : Site where
  executor := node.executor
  limits := node.script
  patienceMs := node.patienceMs
  hops := hops

/-- What a request leads to. -/
inductive Link where
  | answered (reply : Reply (Except DispatchError Json))
  /-- Actions run at another site because of a message. -/
  | running (message : HttpRequest) (site : Site) (actions : List Action)

namespace Simulation

variable (sim : Simulation) (routing : Routing)

/-- What sends requests from a site. -/
def sender (site : Site) : Sender :=
  ⟨sim.directory, site.patienceMs, sim.network routing site.hops⟩

/-- What runs actions at a site. -/
def interpreter (site : Site) : Interpreter where
  config := site.executor
  scripts :=
    Script.Sandbox.run
      ⟨site.limits, some (scriptHttp site.patienceMs (sim.network routing site.hops))⟩
  dispatch := (sim.sender routing site).dispatch

/-- What a request from a site leads to. -/
def link (site : Site) (request : Request) : Link :=
  match (sim.sender routing site).message request with
  | .error e => .answered ⟨.error e, {}⟩
  | .ok message =>
    match sim.arrival routing site.hops message with
    | .answered reply => .answered ((sim.sender routing site).conclude message.url reply)
    | .running node actions => .running message (.ofNode node (site.hops - 1)) actions

variable {sim routing} {site : Site} {request : Request}

theorem dispatch_of_answered {reply : Reply (Except DispatchError Json)}
    (leads : sim.link routing site request = .answered reply) :
    (sim.interpreter routing site).dispatch request = reply := by
  change (sim.sender routing site).dispatch request = reply
  rw [link] at leads
  rw [Sender.dispatch]
  cases sent : (sim.sender routing site).message request with
  | error e =>
    rw [sent] at leads
    cases leads
    rfl
  | ok message =>
    rw [sent] at leads
    change (sim.sender routing site).conclude message.url (sim.network routing site.hops message) =
      reply
    rw [network_eq_arrival]
    dsimp only at leads
    cases arrived : sim.arrival routing site.hops message with
    | answered response =>
      rw [arrived] at leads
      cases leads
      rfl
    | running node actions =>
      rw [arrived] at leads
      cases leads

/-- A request that makes actions run is answered with what they come to. -/
theorem dispatch_of_running {message : HttpRequest} {there : Site} {actions : List Action}
    (leads : sim.link routing site request = .running message there actions) :
    let ended :=
      (Plan.whole there.executor actions).finish (sim.interpreter routing there) Dict.empty 0
    let reply := (sim.interpreter routing site).dispatch request
    let heeded := (sim.sender routing site).heed message ended
    reply.result = heeded.result ∧ reply.effects.elapsed = heeded.effects.elapsed ∧
      there.hops + 1 = site.hops := by
  rw [link] at leads
  split at leads
  · cases leads
  rename_i sent
  split at leads
  · cases leads
  rename_i node received arrived
  cases leads
  have hop : site.hops - 1 + 1 = site.hops := by
    cases hops : site.hops with
    | zero =>
      rw [hops] at arrived
      cases arrived
    | succ hops => rfl
  intro ended reply heeded
  have concluded : reply = (sim.sender routing site).conclude message.url
      (sim.network routing site.hops message) := by
    change (sim.sender routing site).dispatch request = _
    rw [Sender.dispatch]
    simp only [sent]
    rfl
  obtain ⟨answer, elapsed⟩ := Interpreter.run_eq_answer
    (sim.interpreter routing (.ofNode node (site.hops - 1))) actions
  rw [network_eq_arrival, arrived] at concluded
  rw [concluded, ← and_assoc]
  refine ⟨Sender.conclude_congr _ _ ?_ elapsed, hop⟩
  exact congrArg (fun value => Except.ok (message.responded (.json 200 value))) answer

end Simulation

end Relay
