import Relay.Node.Start
import Relay.Simulation.Network
import Relay.Proofs.Execution.Policy
import Relay.Proofs.Hop.Headers
import Relay.Proofs.Payload.Called

/-! # Calls that find their nodes

A call by name finds its node if the directory knows the name. A node that runs a list whose names
are all known sends only calls that find their nodes, and what each of them ships calls known nodes
again. So on a network whose nodes share one directory it is enough to look at the list that is sent
first: no call of anything that happens because of it misses its node, `finds_ofNodes`.
-/

namespace Relay

/-- All of the names are registered. -/
def Directory.Knows (directory : Directory) (names : List String) : Prop :=
  ∀ name ∈ names, (directory.get? name).isSome

/-- Whoever dispatches the request by the directory does not fail for want of a node. -/
def Directory.Finds (directory : Directory) (r : Request) : Prop :=
  ∀ s : Sender, s.directory = directory →
    ∀ name, (s.dispatch r).result ≠ .error (.unknownNode name)

/-- The error is not that a node is unknown. -/
def ExecutionError.NotUnknown (e : ExecutionError) : Prop :=
  ∀ name, e ≠ .dispatch (.unknownNode name)

/-- A request that is sent finds its node, and nothing fails because a node is unknown. -/
def Event.Found (directory : Directory) : Event → Prop
  | .sent r => directory.Finds r
  | .failed e => e.NotUnknown
  | .taskFailed _ e => e.NotUnknown
  | _ => True

/-- Every node that a task calls is found. -/
structure Task.Found (directory : Directory) (task : Task) : Prop where
  result : ∀ e, task.result = .error e → e.NotUnknown
  events : ∀ event ∈ task.events, event.2.Found directory

/-- Every node that is called in the course of a computation, or by a task of it, is found. -/
structure Effects.Found (directory : Directory) (effects : Effects) : Prop where
  events : ∀ event ∈ effects.events, event.2.Found directory
  tasks : ∀ task ∈ effects.tasks, task.Found directory

variable {directory : Directory}

/-! ## Effects -/

theorem Effects.found_none {elapsed : Nat} : ({ elapsed } : Effects).Found directory :=
  ⟨List.forall_mem_nil _, List.forall_mem_nil _⟩

theorem Task.Found.shift {task : Task} (found : task.Found directory) (start : Nat) :
    (task.shift start).Found directory := by
  refine ⟨found.result, fun event member => ?_⟩
  obtain ⟨inner, inside, rfl⟩ := List.mem_map.1 member
  exact found.events inner inside

theorem Effects.Found.after {effects : Effects} (found : effects.Found directory) (delay : Nat) :
    (effects.after delay).Found directory := by
  constructor
  · intro event member
    obtain ⟨inner, inside, rfl⟩ := List.mem_map.1 member
    exact found.events inner inside
  · intro task member
    obtain ⟨inner, inside, rfl⟩ := List.mem_map.1 member
    exact (found.tasks inner inside).shift delay

theorem Effects.Found.beside {a b : Effects} (first : a.Found directory)
    (second : b.Found directory) : (a.beside b).Found directory := by
  constructor
  · intro event member
    rcases List.mem_merge.1 member with here | there
    · exact first.events event here
    · exact second.events event there
  · intro task member
    rcases List.mem_append.1 member with here | there
    · exact first.tasks task here
    · exact second.tasks task there

theorem Effects.Found.within {ε α : Type} {reply : Reply (Except ε α)}
    (found : reply.effects.Found directory) (limit : Nat) (late : ε) :
    (reply.within limit late).effects.Found directory := by
  rw [Reply.within]
  split
  · exact found
  · exact ⟨fun event member => found.events event (List.mem_filter.1 member).1,
      fun task member => found.tasks task (List.mem_filter.1 member).1⟩

/-! ## Executions -/

/-- What may happen where every node that is called is found. -/
def Directory.policy (directory : Directory) : Policy where
  allows := Event.Found directory
  permits := ExecutionError.NotUnknown
  accepts := Task.Found directory
  plain event plain := by cases event <;> trivial
  script _ _ := nofun
  nowhere _ _ := nofun
  taskFailed _ _ permitted := permitted
  launched _ result events := ⟨result, events⟩

theorem Effects.Found.covers {effects : Effects} (found : effects.Found directory) :
    directory.policy.Covers effects :=
  ⟨found.events, fun task member start => (found.tasks task member).shift start⟩

/-- The request goes to a node that is known, or to none by name, and ships only calls to such. -/
structure Request.Known (directory : Directory) (r : Request) : Prop where
  target : ∀ name path, r.target = .node name path → (directory.get? name).isSome
  shipped : directory.Knows (calledNodesOf r.actions)

theorem Request.known_ofCall {mode : Mode} {c : Call} {shipped : List Action} {r : Request}
    (known : directory.Knows (Action.call mode c shipped).calledNodes)
    (made : ofCall c shipped = .ok r) : r.Known directory := by
  have below : directory.Knows (calledNodesOf shipped) := fun name member =>
    known name (List.mem_append_right _ member)
  rw [ofCall] at made
  split at made
  · cases made
  · rename_i target found
    cases made
    refine ⟨fun name path same => ?_, below⟩
    subst same
    apply known
    rw [Action.calledNodes, List.mem_append]
    rw [Call.target?] at found
    cases origin : c.origin with
    | some address => rw [origin] at found; cases found
    | none =>
      rw [origin] at found
      cases named : c.node with
      | none => rw [named] at found; cases found
      | some node =>
        rw [named] at found
        cases found
        exact .inl List.mem_cons_self

namespace Interpreter

open Executing

variable {i : Interpreter}

mutual

theorem keeps_perform_known
    (answers : ∀ request, request.Known directory → directory.policy.Answers i request)
    (depth : Nat) (a : Action) (known : directory.Knows a.calledNodes) :
    Keeps directory.policy.Held directory.policy.permits (i.perform depth a) := by
  cases a with
  | step mode s => exact Policy.keeps_performStep i s
  | call mode c shipped =>
    exact Policy.keeps_performCall fun request made =>
      answers request (Request.known_ofCall known made)
  | group mode members =>
    refine (Policy.keeps_checkDepth fun _ _ => nofun).bind fun _ => ?_
    exact keeps_performAll_known answers (depth + 1) members known

theorem keeps_performAll_known
    (answers : ∀ request, request.Known directory → directory.policy.Answers i request)
    (depth : Nat) (actions : List Action) (known : directory.Knows (calledNodesOf actions)) :
    Keeps directory.policy.Held directory.policy.permits (i.performAll depth actions) := by
  cases actions with
  | nil => exact keeps_pure _
  | cons a rest =>
    have first : directory.Knows a.calledNodes := fun name member =>
      known name (List.mem_append_left _ member)
    have later : directory.Knows (calledNodesOf rest) := fun name member =>
      known name (List.mem_append_right _ member)
    exact Policy.keeps_performAll_cons (keeps_perform_known answers depth a first)
      (keeps_performAll_known answers depth rest later)

end

/-- A list whose names are known finds every node that it calls, if the requests that it sends do.
-/
theorem run_found
    (answers : ∀ request, request.Known directory → directory.policy.Answers i request)
    {actions : List Action} (known : directory.Knows (calledNodesOf actions)) :
    (i.run actions).effects.Found directory := by
  have whole : Keeps directory.policy.Held directory.policy.permits (do
      i.checkDepth 1
      i.performAll 1 actions) :=
    (Policy.keeps_checkDepth fun _ _ => nofun).bind fun _ =>
      keeps_performAll_known answers 1 actions known
  obtain ⟨⟨events, tasks⟩, permitted⟩ := whole { store := Dict.empty } (Policy.held_start _ 0)
  have found : (i.execute actions Dict.empty).effects.Found directory :=
    ⟨fun event member => events event (List.mem_reverse.1 member),
      fun task member => tasks task (List.mem_reverse.1 member)⟩
  have lasts : ∀ e, (i.execute actions Dict.empty).result = .error e → e.NotUnknown := permitted
  rw [run]
  cases ended : (i.execute actions Dict.empty).result with
  | ok flow => cases flow <;> exact found
  | error e =>
    refine ⟨fun event member => ?_, found.tasks⟩
    rcases List.mem_append.1 member with earlier | last
    · exact found.events event earlier
    · obtain rfl := List.mem_singleton.1 last
      exact lasts e ended

end Interpreter

/-! ## Hops -/

/-- Whoever accepts the payload of the message gets a list whose names are known. -/
def HttpRequest.Ships (directory : Directory) (message : HttpRequest) : Prop :=
  ∀ header, message.header? payloadHeader = some header →
    ∀ limits actions, Payload.decode limits header = .ok actions →
      directory.Knows (calledNodesOf actions)

/-- On the way every node is found that is called because of a message. -/
def Transport.Finds (directory : Directory) (net : Transport) : Prop :=
  ∀ message : HttpRequest, message.Ships directory → (net message).effects.Found directory

namespace Sender

variable {s : Sender} {r : Request}

/-- The message that carries a request is a request to a known node, if it can be sent at all. -/
theorem message_known (known : r.Known s.directory) :
    (∀ name, s.message r ≠ .error (.unknownNode name)) ∧
      ∀ message, s.message r = .ok message → message.Ships s.directory := by
  have resolved : ∃ url, s.resolve r.target = .ok url := by
    cases goes : r.target with
    | url address => exact ⟨address, rfl⟩
    | node name path =>
      obtain ⟨node, registered⟩ := Option.isSome_iff_exists.1 (known.target name path goes)
      refine ⟨node.baseUrl ++ path, ?_⟩
      simp only [resolve, Directory.resolve, registered, Option.map_some]
  obtain ⟨url, resolved⟩ := resolved
  simp only [message, resolved]
  constructor
  · intro name failed
    cases verb : Http.method? r.method <;> rw [verb] at failed <;> cases failed
  · intro message sent header carried limits actions decoded
    cases verb : Http.method? r.method with
    | none => rw [verb] at sent; cases sent
    | some method =>
      rw [verb] at sent
      cases sent
      rw [header?_payload (r := r) rfl] at carried
      cases carried
      intro name member
      exact known.shipped name (Payload.decode_calledNodes decoded member)

theorem dispatch_ne_unknownNode (known : r.Known s.directory) (name : String) :
    (s.dispatch r).result ≠ .error (.unknownNode name) := by
  intro failed
  rw [dispatch] at failed
  split at failed
  · rename_i e lost
    cases failed
    exact (message_known known).1 name lost
  · dsimp only at failed
    split at failed
    · cases failed
    · rw [read] at failed
      split at failed <;> cases failed

theorem dispatch_found (known : r.Known s.directory) (net : s.net.Finds s.directory) :
    (s.dispatch r).effects.Found s.directory := by
  rw [dispatch]
  split
  · exact Effects.found_none
  · rename_i message sent
    have found := (net message ((message_known known).2 message sent)).within s.patienceMs
      "operation timed out"
    dsimp only
    split <;> exact found

/-- A sender whose transport finds every node answers requests to known nodes as it should. -/
theorem answers {i : Interpreter} (dispatch : i.dispatch = s.dispatch)
    (net : s.net.Finds s.directory) (known : r.Known s.directory) :
    s.directory.policy.Answers i r := by
  rw [Policy.Answers, dispatch]
  refine ⟨?_, (dispatch_found known net).covers, ?_⟩
  · intro other same name
    exact dispatch_ne_unknownNode (same ▸ known) name
  · intro e failed name same
    cases same
    exact dispatch_ne_unknownNode known name failed

end Sender

/-- A node whose transport finds every node answers a message whose names are known as it should. -/
theorem Service.handle_found {config : NodeConfig} {net : Transport} (finds : net.Finds directory)
    {message : HttpRequest} (ships : message.Ships directory) :
    ((config.service directory net).handle message).effects.Found directory := by
  have invoked : ((config.service directory net).invoke message).effects.Found directory := by
    rw [invoke]
    split
    · exact Effects.found_none
    · rename_i actions received
      refine Interpreter.run_found (fun request known => ?_) ?_
      · exact Sender.answers (s := ⟨directory, config.patienceMs, net⟩) rfl finds known
      · rw [receive] at received
        split at received
        · cases received
        · rename_i header carried
          split at received
          · exact ships header carried _ actions (Payload.mapError_eq_ok received)
          · cases received
  have routed : ((config.service directory net).route message).effects.Found directory := by
    simp only [route]
    split
    · split
      · exact Effects.found_none
      · split
        · exact Effects.found_none
        · exact invoked
    · exact invoked
  rw [handle]
  split
  · exact Effects.found_none
  · dsimp only
    split <;> exact routed

/-- However many hops a network of nodes with one directory allows, and wherever its URLs lead,
every node is found that is called because of a message whose names are known, if that holds
outside. -/
theorem Network.finds_ofNodes {routing : Routing} (finds : routing.outside.Finds directory)
    (hops : Nat) : (ofNodes directory routing hops).Finds directory := by
  induction hops with
  | zero =>
    intro message ships
    exact Effects.found_none
  | succ hops ih =>
    intro message ships
    rw [ofNodes]
    dsimp only
    split
    · exact finds message ships
    · exact Service.handle_found ih ships

end Relay
