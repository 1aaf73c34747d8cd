import Relay.Proofs.Json.Echo
import Relay.Proofs.Payload.Onward

/-! # The nodes that a list calls

A list of actions is written as JSON and read again at each hop. Doubles in its data may change on
the way, and then it is not the list that was sent; but the names of nodes, the origins that go
before them and the places of the nested lists are as they were written. So a list that is received
calls no node that the list that was sent does not call, `ofItems_calledNodes`.
-/

namespace Relay

mutual

/-- The names of the nodes that an action calls, itself before the actions that it ships. Calls with
an origin address no node by name. -/
def Action.calledNodes : Action → List String
  | .step _ _ => []
  | .call _ c shipped =>
    (if c.origin.isNone then c.node.toList else []) ++ calledNodesOf shipped
  | .group _ members => calledNodesOf members

/-- The names of the nodes that actions call, in order. -/
def calledNodesOf : List Action → List String
  | [] => []
  | a :: rest => a.calledNodes ++ calledNodesOf rest

end

theorem Call.ofRecord?_addressed {r : Record} {c : Call} (read : ofRecord? r = some c)
    {origin node : Option String} (addressed : r.fields.lookup "origin" = origin.map .string)
    (named : r.fields.lookup "node" = node.map .string) : c.origin = origin ∧ c.node = node := by
  simp only [ofRecord?, optional_string addressed, optional_string named, Option.bind_eq_bind,
    Option.bind_some, Option.bind_eq_some_iff] at read
  obtain ⟨_, -, _, -, _, -, _, -, _, -, _, -, _, -, _, -, same⟩ := read
  cases same
  exact ⟨rfl, rfl⟩

namespace Action

open Json (Echo EchoItems)

private theorem append_subset_append {xs xs' ys ys' : List String} (first : xs ⊆ xs')
    (later : ys ⊆ ys') : xs ++ ys ⊆ xs' ++ ys' :=
  List.append_subset.2 ⟨List.subset_append_of_subset_left _ first,
    List.subset_append_of_subset_right _ later⟩

/-- An action that is read from the echo of some fields calls a node only if these fields name it,
or if its nested actions call it. -/
private theorem calledNodes_of_echo {kind : String} {own : List (String × Json)} {mode : Mode}
    {j : Json} {received : Action} (origin node : Option String) {names : List String}
    (echo : Echo (Json.ofFields (("type", .string kind) :: own ++ mode.toFields)) j)
    (read : ofJson j = .ok received)
    (addressed : (Fields.ofList own).lookup "origin" = origin.map .string)
    (named : (Fields.ofList own).lookup "node" = node.map .string)
    (nested : ∀ fields actions,
      Option.Rel Echo ((Fields.ofList own).lookup "actions") (fields.lookup "actions") →
        ofActionsField fields = .ok actions → calledNodesOf actions ⊆ names) :
    received.calledNodes ⊆ (if origin.isNone then node.toList else []) ++ names := by
  obtain ⟨fields, rfl, back⟩ := echo.fields
  have field {key : String} (apart : key ∉ commonKeys) :
      Option.Rel Echo ((Fields.ofList own).lookup key) (fields.lookup key) := by
    rw [← lookup_own apart]
    exact back key
  have parts := ofFields_from read
  cases received with
  | step mode s => exact List.nil_subset _
  | call mode c shipped =>
    obtain ⟨rfl, rfl⟩ := Call.ofRecord?_addressed (ofFields_call read)
      (Json.lookup_of_string (field (by decide)) addressed)
      (Json.lookup_of_string (field (by decide)) named)
    rw [calledNodes]
    exact append_subset_append (List.Subset.refl _)
      (nested fields shipped (field (by decide)) parts.1)
  | group mode members =>
    rw [calledNodes]
    exact List.subset_append_of_subset_right _ (nested fields members (field (by decide)) parts)

/-- Nested actions are read from the echo of the list that was written. -/
private theorem ofActionsField_echo {items : List Json} {fields : List (String × Json)}
    {actions : List Action}
    (back : Option.Rel Echo (some (.array items)) (fields.lookup "actions"))
    (read : ofActionsField fields = .ok actions) :
    ∃ others, EchoItems items others ∧ ofItems others = .ok actions := by
  rw [ofActionsField_eq] at read
  generalize fields.lookup "actions" = found at back read
  cases back with
  | some echo =>
    cases echo with
    | array inside => exact ⟨_, inside, read⟩

mutual

/-- An action that is read from the echo of another one calls no further nodes. -/
theorem ofJson_calledNodes (a : Action) {j : Json} {received : Action}
    (echo : a.toJson.Echo j) (read : ofJson j = .ok received) :
    received.calledNodes ⊆ a.calledNodes := by
  cases a with
  | step mode s =>
    have foreign : ∀ key ∈ ["origin", "node", "actions"],
        (Fields.ofList s.toFields).lookup key = none := by
      simp only [List.forall_mem_cons]
      cases s <;> simp [Step.toFields, lookup_optionalField, Fields.lookup_ofList_cons]
    refine calledNodes_of_echo none none echo read (foreign _ (by simp)) (foreign _ (by simp)) ?_
    intro fields actions back read
    rw [foreign _ (by simp)] at back
    rw [ofActionsField_eq] at read
    generalize fields.lookup "actions" = found at back read
    cases back
    cases read
    exact List.nil_subset _
  | call mode c shipped =>
    have written {key : String} (apart : key ∉ commonKeys) :
        (entries "http" (c.toFields (.array (toJsonList shipped))) mode).lookup key =
          (Fields.ofList (c.toFields (.array (toJsonList shipped)))).lookup key := lookup_own apart
    obtain ⟨-, -, addressed, named, -, -, -, -, nested, -⟩ :=
      lookup_call c (.array (toJsonList shipped)) mode
    rw [written (by decide)] at addressed named nested
    refine calledNodes_of_echo c.origin c.node echo read addressed named ?_
    intro fields actions back read
    rw [nested] at back
    obtain ⟨others, inside, read⟩ := ofActionsField_echo back read
    exact ofItems_calledNodes shipped inside read
  | group mode members =>
    have only {key : String} (other : key ≠ "actions") :
        (Fields.ofList [("actions", Json.array (toJsonList members))]).lookup key = none := by
      rw [Fields.lookup_ofList_cons, if_neg other]
      rfl
    have own : Echo (Json.ofFields (("type", .string "multi") ::
        [("actions", .array (toJsonList members))] ++ mode.toFields)) j := echo
    refine calledNodes_of_echo none none own read (only (by decide)) (only (by decide)) ?_
    intro fields actions back read
    rw [Fields.lookup_ofList_cons] at back
    obtain ⟨others, inside, read⟩ := ofActionsField_echo back read
    exact ofItems_calledNodes members inside read

theorem ofItems_calledNodes (actions : List Action) {items : List Json} {received : List Action}
    (echo : EchoItems (toJsonList actions) items) (read : ofItems items = .ok received) :
    calledNodesOf received ⊆ calledNodesOf actions := by
  cases actions with
  | nil =>
    cases echo
    cases read
    exact List.Subset.refl _
  | cons a rest =>
    rw [toJsonList] at echo
    cases echo with
    | cons first later =>
      rw [ofItems] at read
      split at read
      · cases read
      · rename_i one here
        split at read
        · cases read
        · rename_i others there
          cases read
          rw [calledNodesOf, calledNodesOf]
          exact append_subset_append (ofJson_calledNodes a first here)
            (ofItems_calledNodes rest later there)

end

end Action

/-- Whoever accepts the header that ships a list gets a list that calls no further nodes. -/
theorem Payload.decode_calledNodes {limits : PayloadLimits} {actions received : List Action}
    (decoded : decode limits (encode actions) = .ok received) :
    calledNodesOf received ⊆ calledNodesOf actions := by
  obtain ⟨⟨bytes, value, held, json, read⟩, -⟩ := decode_reads decoded
  rw [encode, Base64.trim_encode, Base64.decode?_encode] at held
  cases held
  rw [jsonOfBytes?, Text.fromUTF8?_toUTF8, Option.bind_some] at json
  have echo := Json.parse?_compact_echo json
  cases echo with
  | array inside => exact Action.ofItems_calledNodes actions inside (mapError_eq_ok read)

end Relay
