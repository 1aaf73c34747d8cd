import Relay.Simulation.Run
import Relay.Proofs.Hop.Found
import Relay.Proofs.Simulation.Collected

/-! # A simulation that has started knows its nodes

Starting a scenario registers a node for every name that its requests call, at whatever depth. All
nodes run with that one directory, and what they ship to each other was a part of the requests. So
neither a root request nor any call that follows from one fails because a node is unknown,
`not_unknownNode_of_start`.
-/

namespace Relay

/-! ## Names -/

theorem Directory.isSome_foldl_insert {nodes : List NodeIdentity} {directory : Directory}
    {name : String} (listed : name ∈ nodes.map (·.name) ∨ (directory.get? name).isSome) :
    ((nodes.foldl insert directory).get? name).isSome := by
  induction nodes generalizing directory with
  | nil =>
    rcases listed with listed | registered
    · exact absurd listed List.not_mem_nil
    · exact registered
  | cons node rest ih =>
    have inserted : (directory.insert node).get? name =
        if name = node.name then some node else directory.get? name :=
      Dict.get?_insert directory.nodes node.name node name
    rw [List.foldl_cons]
    apply ih
    rw [inserted]
    rcases listed with listed | registered
    · rw [List.map_cons] at listed
      rcases List.mem_cons.1 listed with rfl | later
      · exact .inr (by rw [if_pos rfl]; rfl)
      · exact .inl later
    · right
      split
      · rfl
      · exact registered

/-- A directory knows the names of the nodes that it was made of. -/
theorem Directory.knows_ofList (nodes : List NodeIdentity) :
    (ofList nodes).Knows (nodes.map (·.name)) :=
  fun _ listed => isSome_foldl_insert (.inl listed)

namespace Simulation

/-! ## Starting -/

/-- The nodes that are collected are called as they were asked for. -/
theorem names_of_mapM {scenario : Scenario} {names : List String} {nodes : List NodeIdentity}
    (found : names.mapM scenario.node = .ok nodes) : nodes.map (·.name) = names := by
  induction names generalizing nodes with
  | nil =>
    cases found
    rfl
  | cons name rest ih =>
    rw [List.mapM_cons] at found
    obtain ⟨node, here, found⟩ := bind_eq_ok found
    obtain ⟨others, there, same⟩ := bind_eq_ok found
    cases same
    have named : node.name = name := by
      rw [Scenario.node] at here
      split at here
      · rename_i first chosen
        cases here
        simpa using List.find?_some chosen
      · cases here
    rw [List.map_cons, named, ih there]

/-- Binding a port changes no name. -/
theorem names_of_bindAll {answers : PortAnswers} {ports bounds : PortAllocator} {machine : Machine}
    {bound nodes identities : List NodeIdentity}
    (started : bindAll answers ports machine bound nodes = .ok (identities, bounds)) :
    identities.map (·.name) = bound.reverse.map (·.name) ++ nodes.map (·.name) := by
  induction nodes generalizing ports machine bound with
  | nil =>
    cases started
    exact (List.append_nil _).symm
  | cons node rest ih =>
    rw [bindAll] at started
    obtain ⟨⟨port, after⟩, -, started⟩ := bind_eq_ok started
    rw [ih started, List.reverse_cons, List.map_append, List.append_assoc]
    rfl

/-- A scenario that has started is run as it is, with a directory that knows every node that its
requests call. -/
theorem start_knows {scenario : Scenario} {base : NodeConfig} {answers : PortAnswers}
    {sim : Simulation} (started : start scenario base answers = .ok sim) :
    sim.scenario = scenario ∧
      sim.directory.Knows (scenario.requests.flatMap RootRequest.calledNodes) := by
  rw [start] at started
  obtain ⟨⟨⟩, -, started⟩ := bind_eq_ok started
  obtain ⟨referenced, collected, started⟩ := bind_eq_ok started
  obtain ⟨⟨identities, ports⟩, bound, started⟩ := bind_eq_ok started
  obtain ⟨nodes, -, same⟩ := bind_eq_ok started
  cases same
  refine ⟨rfl, fun name called => ?_⟩
  apply Directory.knows_ofList identities
  rw [names_of_bindAll bound, names_of_mapM collected]
  rw [collectNodes_eq]
  exact mem_firstOccurrences (.inr called)

/-! ## Running -/

variable {sim : Simulation} {net : Network}

/-- A root request finds its node, and so does everything that is called because of it. -/
theorem send_found {r : RootRequest} (known : sim.directory.Knows r.calledNodes)
    (finds : ∀ hops, (net hops).Finds sim.directory) :
    (∀ name, (sim.send net r).result ≠ .error (.dispatch (.unknownNode name))) ∧
      (sim.send net r).effects.Found sim.directory := by
  rw [send]
  split
  · rename_i e lost
    refine ⟨fun name failed => ?_, Effects.found_none⟩
    cases failed
    rw [Request.ofCall] at lost
    split at lost <;> cases lost
  · rename_i request made
    have called : sim.directory.Knows (Action.call {} r.call r.actions).calledNodes := known
    have reached : request.Known sim.directory := Request.known_ofCall called made
    let sender : Sender :=
      ⟨sim.directory, sim.patienceMs, net (Action.depthList r.actions + 1)⟩
    refine ⟨fun name failed => ?_, Sender.dispatch_found (s := sender) reached (finds _)⟩
    have answered : (sender.dispatch request).result.mapError SimulationError.dispatch =
        .error (.dispatch (.unknownNode name)) := failed
    cases ended : (sender.dispatch request).result with
    | ok response =>
      rw [ended] at answered
      cases answered
    | error e =>
      rw [ended] at answered
      cases answered
      exact Sender.dispatch_ne_unknownNode (s := sender) reached name ended

private theorem found_foldl {directory : Directory} {α : Type} {replies : List (Reply α)}
    (found : ∀ reply ∈ replies, reply.effects.Found directory) {effects : Effects}
    (before : effects.Found directory) :
    (replies.foldl (fun effects reply => effects.beside reply.effects) effects).Found
      directory := by
  induction replies generalizing effects with
  | nil => exact before
  | cons reply rest ih =>
    obtain ⟨first, others⟩ := List.forall_mem_cons.1 found
    exact ih others (before.beside first)

theorem run_found
    (known : sim.directory.Knows (sim.scenario.requests.flatMap RootRequest.calledNodes))
    (finds : ∀ hops, (net hops).Finds sim.directory) :
    (sim.run net).effects.Found sim.directory := by
  refine found_foldl (fun reply member => ?_) Effects.found_none
  obtain ⟨r, listed, rfl⟩ := List.mem_map.1 member
  have called : sim.directory.Knows r.calledNodes := fun name here =>
    known name (List.mem_flatMap.2 ⟨r, listed, here⟩)
  exact (send_found called finds).2.after _

/-- Whatever ports the system offers, wherever URLs lead and however many hops the network allows, a
simulation that has started never misses a node: no root request fails because a node is unknown,
and neither does anything that is sent in the course of the run or by a task of it. Servers that are
not simulated have to keep to this as well: they miss no node because of a message that ships calls
to known nodes only. -/
theorem not_unknownNode_of_start {scenario : Scenario} {base : NodeConfig} {answers : PortAnswers}
    {routing : Routing} (started : start scenario base answers = .ok sim)
    (finds : routing.outside.Finds sim.directory) (more : Nat) :
    let net : Network := fun hops => sim.network routing (hops + more)
    (∀ r ∈ scenario.requests,
      ∀ name, (sim.send net r).result ≠ .error (.dispatch (.unknownNode name))) ∧
      (sim.run net).effects.Found sim.directory := by
  obtain ⟨rfl, known⟩ := start_knows started
  have found (hops : Nat) : (sim.network routing (hops + more)).Finds sim.directory :=
    Network.finds_ofNodes finds (hops + more)
  constructor
  · intro r listed
    have called : sim.directory.Knows r.calledNodes := fun name here =>
      known name (List.mem_flatMap.2 ⟨r, listed, here⟩)
    exact (send_found called found).1
  · exact run_found known found

/-- Two nodes that call each other in turn, the second one from a detached action of a group. The
innermost call goes to an origin, so the node that it names besides is no concern. -/
def rounds : Scenario where
  nodes := [{ name := "a", host := "localhost" }, { name := "b", host := "localhost" }]
  requests := [⟨{ node := some "a", method := "POST" },
    [.group {} [.call { repeats := 2, wait := false } { node := some "b" }
      [.call {} { node := some "a" }
        [.call {} { origin := some "http://localhost:9", node := some "c" } []]]]]⟩]

theorem not_unknownNode_of_start_rounds :
    ∃ sim, start rounds {} Machine.source = .ok sim ∧
      let routing : Routing := .direct sim.nodes (Network.refusing 0)
      routing.outside.Finds sim.directory ∧
      (∀ r ∈ rounds.requests, ∀ name,
        (sim.send (fun hops => sim.network routing (hops + 0)) r).result ≠
          .error (.dispatch (.unknownNode name))) ∧
      (sim.run fun hops => sim.network routing (hops + 0)).effects.Found sim.directory := by
  have starts : (start rounds {} Machine.source).isOk = true := by decide +kernel
  cases started : start rounds {} Machine.source with
  | error e =>
    rw [started] at starts
    cases starts
  | ok sim =>
    have finds : Transport.Finds sim.directory (Network.refusing 0) :=
      fun _ _ => Effects.found_none
    exact ⟨sim, rfl, finds, not_unknownNode_of_start started finds 0⟩

end Simulation

end Relay
