import Relay.Proofs.Hop.Headers
import Relay.Proofs.Hop.Result
import Relay.Simulation.Network

/-! # Calls from node to node

What a node answers to a call depends on the actions that are shipped and on nothing else that the
caller has or sends, `dispatch_hop`. The transport between the nodes is taken as it comes, as long
as it carries headers and bodies unchanged; a network of nodes is one, `reaches_ofNodes`.
-/

namespace Relay

open Http

/-- The transport carries requests to the service at an address and brings back what it answers: a
request that does not frame its own connection arrives with its method, its headers and its body. -/
def Transport.Reaches (net : Transport) (address : String) (service : Service) : Prop :=
  ∀ (message : HttpRequest) (path : String), message.url = address ++ path →
    path.toList.head? = some '/' → Unframed message.headers →
      ∃ delivered : HttpRequest,
        delivered.method = message.method ∧ delivered.body = message.body ∧
        (∀ name value, message.header? name = some value → delivered.header? name = some value) ∧
        (net message).result = .ok (service.handle delivered).result

/-! ## Networks of nodes -/

namespace Http

theorem endsAuthority_of_isDigit {c : Char} (digit : c.isDigit = true) :
    endsAuthority c = false := by
  simp only [endsAuthority, Bool.or_eq_false_iff, decide_eq_false_iff_not]
  refine ⟨⟨?_, ?_⟩, ?_⟩ <;> rintro rfl <;> exact absurd digit (by decide)

/-- A URL is cut behind the first characters of it that may stand in a host and a port. -/
theorem splitOrigin_authority {authority path : List Char}
    (inside : ∀ c ∈ authority, endsAuthority c = false) (rooted : path.head? = some '/') :
    splitOrigin ("http://" ++ String.ofList authority ++ String.ofList path) =
      ("http://" ++ String.ofList authority, path) := by
  obtain ⟨rest, rfl⟩ := List.head?_eq_some_iff.1 rooted
  have within : ∀ c ∈ authority, (!endsAuthority c) = true := fun c member => by
    rw [inside c member]
    rfl
  have ends : endsAuthority '/' = true := rfl
  simp only [splitOrigin, String.toList_append, String.toList_ofList, List.append_assoc,
    Text.afterWord?_append, List.takeWhile_append_of_pos within,
    List.dropWhile_append_of_pos within, List.takeWhile_cons, List.dropWhile_cons, ends,
    Bool.not_true, Bool.false_eq_true, if_false, List.append_nil]

end Http

/-- The address of a node is where a URL on it is cut. -/
theorem NodeIdentity.splitOrigin_baseUrl {identity : NodeIdentity} {path : String}
    (host : ∀ c ∈ identity.host.toList, endsAuthority c = false)
    (rooted : path.toList.head? = some '/') :
    splitOrigin (identity.baseUrl ++ path) = (identity.baseUrl, path.toList) := by
  let authority := identity.host.toList ++ ':' :: (toString identity.port.toNat).toList
  have address : identity.baseUrl = "http://" ++ String.ofList authority := by
    apply String.toList_inj.1
    simp only [baseUrl, authority, String.toList_append, String.toList_ofList, List.append_assoc]
    rfl
  have inside : ∀ c ∈ authority, endsAuthority c = false := by
    intro c member
    rcases List.mem_append.1 member with named | numbered
    · exact host c named
    · rcases List.mem_cons.1 numbered with rfl | digit
      · rfl
      · rw [Nat.toString_eq_repr, Nat.toList_repr] at digit
        exact endsAuthority_of_isDigit (Nat.isDigit_of_mem_toDigits (by decide) (by decide) digit)
  have cut := splitOrigin_authority inside rooted
  rwa [← address, String.ofList_toList] at cut

section Networks

variable {nodes : List NodeConfig} {node : NodeConfig} {directory : Directory}
  {routing : Routing} {hops : Nat}

/-- A URL on the address of a node leads to the first node that has it. -/
theorem Routing.direct_baseUrl (first : nodes.find? (·.isAt node.identity.baseUrl) = some node)
    (host : ∀ c ∈ node.host.toList, endsAuthority c = false) (outside : Transport) {path : String}
    (rooted : path.toList.head? = some '/') :
    (direct nodes outside).node? (node.identity.baseUrl ++ path) = some (node, path) := by
  rw [direct]
  dsimp only
  rw [NodeIdentity.splitOrigin_baseUrl host rooted]
  simp only [first, Option.map_some, String.ofList_toList]

namespace Network

/-- A network has a node answer the requests that lead there. -/
theorem ofNodes_node {message : HttpRequest} {path : String}
    (leads : routing.node? message.url = some (node, path)) :
    ofNodes directory routing (hops + 1) message =
      ⟨.ok ((node.service directory (ofNodes directory routing hops)).handle
          { message with url := path }).result,
        ((node.service directory (ofNodes directory routing hops)).handle
          { message with url := path }).effects⟩ := by
  simp only [ofNodes, leads]

/-- A network reaches each node to which the URLs on its address lead. -/
theorem reaches_ofNodes
    (leads : ∀ path : String, path.toList.head? = some '/' →
      routing.node? (node.identity.baseUrl ++ path) = some (node, path)) :
    Transport.Reaches (ofNodes directory routing (hops + 1)) node.identity.baseUrl
      (node.service directory (ofNodes directory routing hops)) := by
  intro message path url rooted _
  refine ⟨{ message with url := path }, rfl, rfl, fun _ _ found => found, ?_⟩
  rw [ofNodes_node (url ▸ leads path rooted)]

end Network

end Networks

/-! ## The answer -/

/-- A request of the method for invocations is answered with the result of the actions that it
ships. -/
theorem Service.handle_post {service : Service} {r : HttpRequest} {actions : List Action}
    (method : r.method = "POST")
    (payload : r.header? payloadHeader = some (Payload.encode actions)) {received : List Action}
    (decoded : Payload.decode service.limits (Payload.encode actions) = .ok received) :
    service.handle r = ⟨.json 200 (service.interpreter.run received).result,
      (service.interpreter.run received).effects⟩ := by
  have accepted : service.receive r = .ok received := by
    rw [receive, payload]
    simp only [Payload.encode, isVisibleAscii_encode, if_true]
    exact (congrArg (Except.mapError _) decoded).trans rfl
  have invoked : service.route r = service.invoke r := by
    simp only [route, method]
    rfl
  rw [handle, invoked, invoke, accepted, method]
  rfl

theorem Http.isBlankBody_compact (j : Json) : isBlankBody j.compact = false := by
  obtain ⟨c, member, visible⟩ := Json.exists_visible j
  rw [isBlankBody, Json.toList_compact, List.all_eq_false]
  refine ⟨c, member, ?_⟩
  simp only [Bool.or_eq_true, decide_eq_true_eq, not_or]
  refine ⟨⟨⟨⟨?_, ?_⟩, ?_⟩, ?_⟩, ?_⟩ <;> rintro rfl <;> exact absurd visible (by decide)

/-- The body of a response is read as the value that it was written for. -/
theorem Sender.read_json {j : Json} (tidy : j.Tidy Json.nestingLimit) (integral : j.Integral)
    (url : String) (status : Nat) : read url (.json status j) = .ok j := by
  rw [read, HttpResponse.json, parseBody?]
  simp only [isBlankBody_compact _, Json.parse?_compact tidy.1 integral tidy.2]
  rfl

namespace Sender

variable {s : Sender} {service : Service} {identity : NodeIdentity} {r : Request}
  {name path : String} {received : List Action}

theorem message_node (target : r.target = .node name path)
    (registered : s.directory.get? name = some identity) (method : method? r.method = some "POST") :
    s.message r = .ok ⟨"POST", identity.baseUrl ++ path, headers r, r.body⟩ := by
  have url : s.resolve r.target = .ok (identity.baseUrl ++ path) := by
    rw [target, resolve, Directory.resolve, registered]
    rfl
  rw [message, url, method]
  rfl

/-- A call to a node gives what the node makes of the actions that it reads in the payload, in
particular of those that were shipped if they come through unchanged: neither the headers nor the
body of the call have a part in it. -/
theorem dispatch_hop (target : r.target = .node name path)
    (rooted : path.toList.head? = some '/')
    (registered : s.directory.get? name = some identity)
    (reaches : s.net.Reaches identity.baseUrl service)
    (method : method? r.method = some "POST") (unframed : Unframed r.headers.entries)
    (decoded : Payload.decode service.limits (Payload.encode r.actions) = .ok received)
    (timely : ∀ message, s.message r = .ok message →
      (s.net message).effects.elapsed ≤ s.patienceMs)
    (integral : (service.interpreter.run received).result.Integral) :
    (s.dispatch r).result = .ok (service.interpreter.run received).result := by
  have message := message_node target registered method
  obtain ⟨delivered, verb, -, found, answer⟩ := reaches ⟨"POST", _, headers r, r.body⟩ path rfl
    rooted (unframed_headers unframed)
  rw [Service.handle_post verb (found _ _ (header?_payload rfl)) decoded] at answer
  have tidy : (service.interpreter.run received).result.Tidy Json.nestingLimit :=
    service.interpreter.run_result_tidy (Payload.decode_within decoded)
  simp only [dispatch, message, Reply.within, if_pos (timely _ message), answer]
  exact read_json tidy integral _ 200

/-- A node with the settings that are there by default. -/
def doorman : NodeConfig where
  name := "b"

/-- Where the node is alone. -/
def alley : Routing :=
  .direct [doorman] (Network.refusing 0)

/-- The running node. -/
def door : Service :=
  doorman.service {} (Network.ofNodes {} alley 0)

/-- What sends requests to the node. -/
def visitor : Sender where
  directory := Directory.ofList [doorman.identity]
  net := Network.ofNodes {} alley 1

/-- A step that keeps a name, and an end that greets by it. -/
def welcome : List Action :=
  [.step {} (.set "user" (.string "ann")), .step {} (.ret (.string "hello $\x7buser\x7d"))]

/-- A call with a body and a payload of its own among its headers. -/
def visit : Request where
  target := .node "b" "/door"
  method := "post"
  headers := Dict.ofList [("X-Simulation-Payload", "e30=")]
  body := some (.string "bob")
  actions := welcome

private theorem decode_welcome :
    Payload.decode door.limits (Payload.encode welcome) = .ok welcome := by
  have regular : Action.RegularList welcome := by
    refine ⟨⟨?_, nofun⟩, ⟨?_, nofun⟩, trivial⟩ <;> intro value held <;> cases held <;> trivial
  have integral : Action.IntegralList welcome := by
    refine ⟨?_, ?_, trivial⟩ <;> intro value held <;> cases held <;> trivial
  have nesting : (Json.array (Action.toJsonList welcome)).depth ≤ Json.nestingLimit := by
    decide +kernel
  have valid : Payload.validate door.limits welcome = .ok () := by rfl
  have fits : (Payload.encode welcome).utf8ByteSize ≤ door.limits.maxBytes := by
    rw [Payload.utf8ByteSize_encode]
    decide +kernel
  obtain ⟨received, read, alike⟩ := Payload.decode_encode regular integral nesting valid fits
  rwa [← alike.eq ⟨trivial, trivial, trivial⟩] at read

theorem dispatch_hop_welcome :
    (visit.target = .node "b" "/door" ∧ "/door".toList.head? = some '/' ∧
      visitor.directory.get? "b" = some doorman.identity ∧
      visitor.net.Reaches doorman.identity.baseUrl door ∧
      method? visit.method = some "POST" ∧ Unframed visit.headers.entries ∧
      Payload.decode door.limits (Payload.encode visit.actions) = .ok welcome ∧
      (∀ message, visitor.message visit = .ok message →
        (visitor.net message).effects.elapsed ≤ visitor.patienceMs) ∧
      (door.interpreter.run welcome).result.Integral) ∧
    (visitor.dispatch visit).result = .ok (.string "hello ann") := by
  have first : [doorman].find? (·.isAt doorman.identity.baseUrl) = some doorman := by
    refine List.find?_cons_of_pos ?_
    simp [NodeConfig.isAt, doorman]
  have host : ∀ c ∈ doorman.host.toList, endsAuthority c = false := by
    simp [doorman, endsAuthority]
  have method : method? visit.method = some "POST" := by
    have capitals : upperAscii "post" = "POST" := by
      apply String.toList_inj.1
      rw [upperAscii, String.toList_map]
      rfl
    exact congrArg some capitals
  have unframed : Unframed visit.headers.entries := by
    have small : lowerAscii "X-Simulation-Payload" = payloadHeader := by
      apply String.toList_inj.1
      rw [lowerAscii, String.toList_map]
      rfl
    intro header member
    rw [List.mem_singleton.1 member, small]
    decide
  have reaches : visitor.net.Reaches doorman.identity.baseUrl door :=
    Network.reaches_ofNodes fun path rooted =>
      Routing.direct_baseUrl first host (Network.refusing 0) rooted
  have rooted : "/door".toList.head? = some '/' := rfl
  have registered : visitor.directory.get? "b" = some doorman.identity := rfl
  have timely : ∀ message, visitor.message visit = .ok message →
      (visitor.net message).effects.elapsed ≤ visitor.patienceMs := by
    intro message sent
    rw [message_node rfl registered method] at sent
    let delivered : HttpRequest := { message with url := "/door" }
    have leads : message.url = doorman.identity.baseUrl ++ "/door" := by cases sent; rfl
    have verb : delivered.method = "POST" := by cases sent; rfl
    have payload : delivered.header? payloadHeader = some (Payload.encode welcome) :=
      header?_payload (r := visit) (by cases sent; rfl)
    have answer := Service.handle_post verb payload decode_welcome
    have arrives : visitor.net message =
        ⟨.ok (door.handle delivered).result, (door.handle delivered).effects⟩ :=
      Network.ofNodes_node
        (leads ▸ Routing.direct_baseUrl first host (Network.refusing 0) rooted)
    rw [arrives, answer]
    exact Nat.zero_le _
  have integral : (door.interpreter.run welcome).result.Integral := trivial
  exact ⟨⟨rfl, rooted, registered, reaches, method, unframed, decode_welcome, timely, integral⟩,
    dispatch_hop rfl rooted registered reaches method unframed decode_welcome timely integral⟩

end Sender

end Relay
