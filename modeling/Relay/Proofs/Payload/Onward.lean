import Relay.Proofs.Action.Received
import Relay.Proofs.Payload.RoundTrip

/-! # Shipping an accepted list onward

A node that runs an accepted list ships its nested lists to further nodes. They are written inside
the text of the whole list, so they nest less deep, and no more bytes are written for them. But the
sender of the whole list may have left out fields that are written again, and then the header of a
nested list can be longer than the one that was accepted.
-/

namespace Relay.Action

/-- What an action nests is written in one of its fields. -/
private theorem mem_nested (a : Action) : (∃ mode s, a = step mode s) ∨
    ∃ fields, a.toJson = .object fields ∧
      ("actions", .array (toJsonList a.children)) ∈ fields := by
  cases a with
  | step mode s => exact .inl ⟨mode, s, rfl⟩
  | call mode c shipped =>
    exact .inr ⟨_, rfl, Fields.mem_of_lookup (lookup_shipped c _ mode)⟩
  | group mode members =>
    exact .inr ⟨_, rfl, Fields.mem_of_lookup (lookup_members _ mode)⟩

theorem mem_toJsonList {actions : List Action} {a : Action} (member : a ∈ actions) :
    a.toJson ∈ toJsonList actions := by
  induction actions with
  | nil => exact absurd member List.not_mem_nil
  | cons head rest ih =>
    rcases List.mem_cons.1 member with rfl | later
    · exact List.mem_cons_self
    · exact List.mem_cons_of_mem _ (ih later)

/-! ## Nesting -/

private theorem depth_children {a : Action} {levels : Nat} (some : 0 < levels)
    (shallow : a.toJson.depth ≤ levels + 1) :
    (Json.array (toJsonList a.children)).depth ≤ levels := by
  rcases mem_nested a with ⟨mode, s, rfl⟩ | ⟨fields, written, member⟩
  · exact some
  · rw [written] at shallow
    obtain ⟨level, same, inside⟩ := Json.depth_object_le.1 shallow
    cases same
    exact inside _ member

theorem Ships.depth {levels : Nat} (some : 0 < levels) {actions shipped : List Action}
    (ships : Ships actions shipped) (shallow : ∀ a ∈ actions, a.toJson.depth ≤ levels + 1) :
    (Json.array (toJsonList shipped)).depth ≤ levels := by
  induction ships with
  | here member => exact depth_children some (shallow _ member)
  | @nested _ _ a member _ ih =>
    apply ih
    intro b inside
    obtain ⟨level, rfl, below⟩ := Json.depth_array_le.1 (depth_children some (shallow a member))
    have shallower := below _ (mem_toJsonList inside)
    omega

/-! ## Length -/

private theorem chars_children {actions : List Action} {a : Action} (member : a ∈ actions) :
    (Json.array (toJsonList a.children)).chars.Sublist (Json.array (toJsonList actions)).chars := by
  rcases mem_nested a with ⟨mode, s, rfl⟩ | ⟨fields, written, field⟩
  · rw [Json.chars, Json.chars]
    exact (List.sublist_append_right _ _).cons_cons '['
  · have whole := Json.chars_item_sublist (mem_toJsonList member) []
    rw [written, Json.chars] at whole
    have part := Json.chars_field_sublist field []
    rw [Json.chars.eq_def (.array (toJsonList actions))]
    refine List.Sublist.trans ?_ (List.sublist_cons_self _ _)
    refine List.Sublist.trans ?_ (List.sublist_append_left _ _)
    refine List.Sublist.trans ?_ whole
    refine List.Sublist.trans ?_ (List.sublist_cons_self _ _)
    exact part.trans (List.sublist_append_left _ _)

theorem Ships.chars {actions shipped : List Action} (ships : Ships actions shipped) :
    (Json.array (toJsonList shipped)).chars.Sublist (Json.array (toJsonList actions)).chars :=
  ships.inherit
    (P := fun below => (Json.array (toJsonList below)).chars.Sublist
      (Json.array (toJsonList actions)).chars)
    (fun _ part _ member => (chars_children member).trans part) (List.Sublist.refl _)

end Relay.Action

namespace Relay.Payload

open Relay.Action (IntegralList RegularList AlikeList Ships toJsonList)

/-- No list has a longer header than the one that ships it. -/
theorem encode_shipped_le {actions shipped : List Action} (ships : Ships actions shipped) :
    (encode shipped).utf8ByteSize ≤ (encode actions).utf8ByteSize := by
  have part := Text.byteSize_le_of_sublist ships.chars
  rw [utf8ByteSize_encode, utf8ByteSize_encode]
  omega

/-- A list that was accepted is read from the JSON value in its header. -/
theorem decode_reads {limits : PayloadLimits} {header : String} {actions : List Action}
    (accepted : decode limits header = .ok actions) :
    (∃ bytes value, Base64.decode? (Text.trim header) = some bytes ∧
      jsonOfBytes? bytes = some value ∧ actionsOfJson value = .ok actions) ∧
      validate limits actions = .ok () := by
  simp only [decode] at accepted
  split at accepted
  · cases accepted
  · split at accepted
    · rename_i bytes held
      split at accepted
      · rename_i value json
        obtain ⟨received, read, accepted⟩ := bind_eq_ok accepted
        obtain ⟨⟨⟩, valid, same⟩ := bind_eq_ok accepted
        cases same
        exact ⟨⟨bytes, value, held, json, read⟩, valid⟩
      · cases accepted
    · cases accepted

/-- A list that was accepted comes from a value within the levels that a reader takes. -/
theorem decode_eq_ok {limits : PayloadLimits} {header : String} {actions : List Action}
    (accepted : decode limits header = .ok actions) :
    (∃ value, value.Tidy Json.nestingLimit ∧ actionsOfJson value = .ok actions) ∧
      validate limits actions = .ok () := by
  obtain ⟨⟨bytes, value, -, json, read⟩, valid⟩ := decode_reads accepted
  obtain ⟨text, -, parsed⟩ := Option.bind_eq_some_iff.1 json
  exact ⟨⟨value, Json.parse?_tidy parsed, read⟩, valid⟩

theorem mapError_eq_ok {ε ε' α : Type} {f : ε → ε'} {x : Except ε α} {a : α}
    (ended : x.mapError f = .ok a) : x = .ok a := by
  cases x with
  | error e => cases ended
  | ok b => cases ended; rfl

/-- The actions in a value are regular, and they are written with at most one level more. -/
theorem actionsOfJson_settled {value : Json} {levels : Nat} {actions : List Action}
    (tidy : value.Tidy levels) (read : actionsOfJson value = .ok actions) :
    Action.Settled (levels + 1) actions := by
  cases value with
  | array items =>
    obtain ⟨level, rfl, inside⟩ := tidy.items
    obtain ⟨regular, shallow⟩ := Action.ofItems_settled inside (mapError_eq_ok read)
    refine ⟨regular, ?_⟩
    intro integral item member
    exact Nat.le_succ_of_le (shallow integral item member)
  | object fields =>
    cases own : Action.ofJson (.object fields) with
    | error e => rw [actionsOfJson, own] at read; cases read
    | ok a =>
      rw [actionsOfJson, own] at read
      cases read
      obtain ⟨regular, shallow⟩ := Action.ofJson_settled tidy own
      refine ⟨⟨regular, trivial⟩, ?_⟩
      intro integral item member
      obtain rfl := List.mem_singleton.1 member
      exact shallow integral.1
  | _ => cases read

/-- A node with the same limits gets whatever an accepted list ships, unless the header is too long
for it; and no header is, if the whole list fits when it is written again. -/
theorem decode_shipped {limits : PayloadLimits} {header : String} {actions shipped : List Action}
    (accepted : decode limits header = .ok actions) (integral : IntegralList actions)
    (ships : Ships actions shipped) :
    ((∃ received, decode limits (encode shipped) = .ok received ∧ AlikeList shipped received) ↔
      (encode shipped).utf8ByteSize ≤ limits.maxBytes) ∧
    (limits.maxBytes < (encode shipped).utf8ByteSize →
      decode limits (encode shipped) =
        .error (.tooLong (encode shipped).utf8ByteSize limits.maxBytes)) ∧
    ((encode actions).utf8ByteSize ≤ limits.maxBytes →
      (encode shipped).utf8ByteSize ≤ limits.maxBytes) := by
  obtain ⟨⟨value, tidy, read⟩, valid⟩ := decode_eq_ok accepted
  obtain ⟨regular, shallow⟩ := actionsOfJson_settled tidy read
  -- The list itself may be written one level deeper than it was read; what it ships is not.
  have nesting : (Json.array (toJsonList shipped)).depth ≤ Json.nestingLimit :=
    ships.depth (by decide) fun a member => shallow integral _ (Action.mem_toJsonList member)
  obtain ⟨received, alike, answer⟩ :=
    decode_encode_eq (regular.shipped ships) (integral.shipped ships) nesting
  have answer := answer limits
  rw [validate_shipped valid ships] at answer
  refine ⟨⟨?_, ?_⟩, decode_long, Nat.le_trans (encode_shipped_le ships)⟩
  · rintro ⟨other, got, -⟩
    by_cases long : limits.maxBytes < (encode shipped).utf8ByteSize
    · rw [decode_long long] at got
      cases got
    · exact Nat.not_lt.1 long
  · intro fits
    refine ⟨received, ?_, alike⟩
    rw [answer, if_neg (Nat.not_lt.2 fits)]
    rfl

/-- Groups whose lists are written although they are empty. -/
def emptyGroups : List Action :=
  [.group {} [], .group {} [], .group {} []]

/-- A call to a node that ships empty groups. -/
def relayed : List Action :=
  [.call {} { node := some "b" } emptyGroups]

/-- The call as it may be sent, without the lists of its groups. -/
def relayedJson : Json :=
  .object [("actions", .array (List.replicate 3 (.object [("type", .string "multi")]))),
    ("node", .string "b"), ("type", .string "http")]

/-- The header that writes `relayedJson`. -/
def relayedHeader : String :=
  "eyJhY3Rpb25zIjpbeyJ0eXBlIjoibXVsdGkifSx7InR5cGUiOiJtdWx0aSJ9LHsidHlwZSI6Im11bHRpIn1d" ++
    "LCJub2RlIjoiYiIsInR5cGUiOiJodHRwIn0="

private theorem decode_relayed {room : Nat} (enough : 120 ≤ room) :
    decode { maxBytes := room } relayedHeader = .ok relayed := by
  have group : (Json.object [("type", .string "multi")]).Ordered := ⟨by decide, trivial, trivial⟩
  have ordered : relayedJson.Ordered :=
    ⟨by decide, ⟨group, group, group, trivial⟩, trivial, trivial, trivial⟩
  have integral : relayedJson.Integral :=
    ⟨⟨⟨trivial, trivial⟩, ⟨trivial, trivial⟩, ⟨trivial, trivial⟩, trivial⟩,
      trivial, trivial, trivial⟩
  have header : Base64.encode relayedJson.compact.toUTF8.toList = relayedHeader := by
    decide +kernel
  have read : actionsOfJson relayedJson = .ok relayed := rfl
  have size : relayedHeader.utf8ByteSize = 120 := by decide +kernel
  have answer := decode_compact ordered integral (by decide) { maxBytes := room }
  rw [header, size, if_neg (Nat.not_lt.2 enough), read] at answer
  exact answer

private theorem integral_relayed : IntegralList relayed :=
  ⟨⟨⟨nofun, by decide⟩, trivial, trivial, trivial, trivial⟩, trivial⟩

private theorem ships_relayed : Ships relayed emptyGroups :=
  .here List.mem_cons_self

private theorem size_emptyGroups : (encode emptyGroups).utf8ByteSize = 124 := by
  rw [utf8ByteSize_encode]
  decide +kernel

theorem decode_shipped_emptyGroups :
    (decode { maxBytes := 124 } relayedHeader = .ok relayed ∧ IntegralList relayed ∧
      Ships relayed emptyGroups) ∧
    ∃ received, decode { maxBytes := 124 } (encode emptyGroups) = .ok received ∧
      AlikeList emptyGroups received := by
  have accepted : decode { maxBytes := 124 } relayedHeader = .ok relayed :=
    decode_relayed (by decide)
  refine ⟨⟨accepted, integral_relayed, ships_relayed⟩, ?_⟩
  exact (decode_shipped accepted integral_relayed ships_relayed).1.2 (Nat.le_of_eq size_emptyGroups)

/-- A node that accepts a header of 120 bytes refuses the list that it ships: the header of the
empty groups has 124. -/
theorem not_decode_emptyGroups :
    (decode { maxBytes := 120 } relayedHeader = .ok relayed ∧ IntegralList relayed ∧
      Ships relayed emptyGroups) ∧
    ¬ ∃ received, decode { maxBytes := 120 } (encode emptyGroups) = .ok received ∧
      AlikeList emptyGroups received := by
  refine ⟨⟨decode_relayed (by decide), integral_relayed, ships_relayed⟩, ?_⟩
  rintro ⟨received, got, -⟩
  have long : 120 < (encode emptyGroups).utf8ByteSize := by
    rw [size_emptyGroups]
    decide
  have refused : decode { maxBytes := 120 } (encode emptyGroups) = _ := decode_long long
  rw [refused] at got
  cases got

end Relay.Payload
