import Relay.Proofs.Action.Written
import Relay.Proofs.Base64
import Relay.Proofs.Payload.Limits
import Relay.Proofs.Text.Bytes

/-! # Reading a payload back

The header that a list of actions is shipped in is base64 of compact JSON. Each layer is undone by
the receiver, so what the receiver says depends only on the length of the header and on its limits
for the list itself.
-/

namespace Relay.Payload

open Relay.Action (AlikeList RegularList IntegralList toJsonList)

theorem jsonOfBytes?_compact {j : Json} (ordered : j.Ordered) (integral : j.Integral)
    (shallow : j.depth ≤ Json.nestingLimit) : jsonOfBytes? j.compact.toUTF8.toList = some j := by
  rw [jsonOfBytes?, Text.fromUTF8?_toUTF8, Option.bind_some,
    Json.parse?_compact ordered integral shallow]

/-- A receiver looks at the value in a header only if the header is not too long. -/
theorem decode_compact {j : Json} (ordered : j.Ordered) (integral : j.Integral)
    (shallow : j.depth ≤ Json.nestingLimit) (limits : PayloadLimits) :
    decode limits (Base64.encode j.compact.toUTF8.toList) =
      if limits.maxBytes < (Base64.encode j.compact.toUTF8.toList).utf8ByteSize then
        .error (.tooLong (Base64.encode j.compact.toUTF8.toList).utf8ByteSize limits.maxBytes)
      else
        (actionsOfJson j).bind fun actions => (validate limits actions).map fun _ => actions := by
  rw [decode, Base64.trim_encode]
  split
  · rfl
  · simp only [Base64.decode?_encode, jsonOfBytes?_compact ordered integral shallow,
      bind_pure_comp]
    rfl

/-- A header has four bytes for every three of the text, the last group filled up. -/
theorem utf8ByteSize_encode (actions : List Action) :
    (encode actions).utf8ByteSize =
      4 * ((Text.byteSize (Json.array (toJsonList actions)).chars + 2) / 3) := by
  rw [encode, Base64.utf8ByteSize_encode, Text.length_toUTF8, Text.utf8ByteSize_eq,
    Json.toList_compact]

theorem decode_long {limits : PayloadLimits} {actions : List Action}
    (long : limits.maxBytes < (encode actions).utf8ByteSize) :
    decode limits (encode actions) =
      .error (.tooLong (encode actions).utf8ByteSize limits.maxBytes) := by
  have trimmed : Text.trim (encode actions) = encode actions := Base64.trim_encode _
  rw [decode, trimmed, if_pos long]
  rfl

/-- A receiver refuses a header that is too long, and else a list that is beyond its limits; all
other lists it gets as they were sent. -/
theorem decode_encode_eq {actions : List Action} (regular : RegularList actions)
    (integral : IntegralList actions)
    (nesting : (Json.array (toJsonList actions)).depth ≤ Json.nestingLimit) :
    ∃ received, AlikeList actions received ∧ ∀ limits : PayloadLimits,
      decode limits (encode actions) =
        if limits.maxBytes < (encode actions).utf8ByteSize then
          .error (.tooLong (encode actions).utf8ByteSize limits.maxBytes)
        else (validate limits actions).map fun _ => received := by
  obtain ⟨received, read, alike⟩ := Action.ofItems_toJsonList actions regular integral
  refine ⟨received, alike, ?_⟩
  intro limits
  have items : actionsOfJson (.array (toJsonList actions)) = .ok received := by
    rw [actionsOfJson, read]
    rfl
  rw [encode, decode_compact (Action.ordered_toJsonList regular integral)
    (Action.integral_toJsonList integral) nesting, items, validate_alike limits alike]
  rfl

/-- A list within the limits of the receiver arrives as it was sent. -/
theorem decode_encode {limits : PayloadLimits} {actions : List Action}
    (regular : RegularList actions) (integral : IntegralList actions)
    (nesting : (Json.array (toJsonList actions)).depth ≤ Json.nestingLimit)
    (valid : validate limits actions = .ok ())
    (fits : (encode actions).utf8ByteSize ≤ limits.maxBytes) :
    ∃ received, decode limits (encode actions) = .ok received ∧ AlikeList actions received := by
  obtain ⟨received, alike, answer⟩ := decode_encode_eq regular integral nesting
  refine ⟨received, ?_, alike⟩
  rw [answer limits, if_neg (Nat.not_lt.2 fits), valid]
  rfl

/-- A launched log step, and a call with headers, a body and a signed zero for its delay that ships
a group and a step of a kind that nobody knows. -/
def errand : List Action :=
  [.step { repeats := 3, wait := false, verbose := true } (.log (some "a \"b\"\n\u00e9")),
    .call {}
      { node := some "b", headers := Dict.ofList [("k", "v")], startDelay := -0.0,
        body := some (.object [("n", .ofUInt64 7)]) }
      [.group { repeats := 2 } [.step {} (.set "k" (.array [.bool true, .null]))],
        .step {} (.unknown "dance")]]

theorem decode_encode_errand :
    (RegularList errand ∧ IntegralList errand ∧
      (Json.array (toJsonList errand)).depth ≤ Json.nestingLimit ∧
      validate { maxBytes := 400, maxDepth := 3 } errand = .ok () ∧
      (encode errand).utf8ByteSize ≤ 400) ∧
    ∃ received, decode { maxBytes := 400, maxDepth := 3 } (encode errand) = .ok received ∧
      AlikeList errand received := by
  have regular : RegularList errand := by
    refine ⟨⟨nofun, nofun⟩, ⟨?_, ⟨⟨?_, nofun⟩, trivial⟩, ⟨nofun, ?_⟩, trivial⟩, trivial⟩
    · intro body held
      cases held
      exact ⟨⟨List.pairwise_singleton _ _, trivial, trivial⟩, Json.noConfusion⟩
    · intro value held
      cases held
      exact ⟨trivial, trivial, trivial⟩
    · intro kind same
      cases same
      decide
  have integral : IntegralList errand := by
    refine ⟨nofun, ⟨⟨?_, by decide⟩, ⟨?_, trivial⟩, nofun, trivial⟩, trivial⟩
    · intro body held
      cases held
      exact ⟨trivial, trivial⟩
    · intro value held
      cases held
      exact ⟨trivial, trivial, trivial⟩
  have nesting : (Json.array (toJsonList errand)).depth ≤ Json.nestingLimit := by decide +kernel
  have valid : validate { maxBytes := 400, maxDepth := 3 } errand = .ok () := by rfl
  have fits : (encode errand).utf8ByteSize ≤ 400 := by
    rw [utf8ByteSize_encode]
    decide +kernel
  exact ⟨⟨regular, integral, nesting, valid, fits⟩,
    decode_encode regular integral nesting valid fits⟩

end Relay.Payload
