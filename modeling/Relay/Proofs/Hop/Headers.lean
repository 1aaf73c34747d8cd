import Relay.Client.Sender
import Relay.Proofs.Base64
import Relay.Proofs.Dict

/-! # Headers of a request

The names of headers are written in lower case before they are sent, so a receiver finds under the
name of the payload what the sender put there last: the actions that are shipped, whatever headers
the caller gave, `header?_payload`.
-/

namespace Relay

namespace Http

private theorem toLower_toLower (c : Char) : c.toLower.toLower = c.toLower := by
  by_cases upper : c.val ≥ 65 ∧ c.val ≤ 90
  · have moved : c.toLower.val = c.val + 32 := congrArg Char.val (dif_pos upper)
    refine dif_neg fun again => ?_
    have low : 65 ≤ c.val.toNat := UInt32.le_iff_toNat_le.1 upper.1
    have high : c.val.toNat ≤ 90 := UInt32.le_iff_toNat_le.1 upper.2
    have small : c.toLower.val.toNat ≤ 90 := UInt32.le_iff_toNat_le.1 again.2
    rw [moved, UInt32.toNat_add] at small
    have gap : (32 : UInt32).toNat = 32 := rfl
    omega
  · exact congrArg Char.toLower (dif_neg upper)

theorem lowerAscii_lowerAscii (s : String) : lowerAscii (lowerAscii s) = lowerAscii s := by
  rw [lowerAscii, lowerAscii, String.map_map]
  exact congrArg (String.map · s) (funext toLower_toLower)

theorem lowerAscii_payloadHeader : lowerAscii payloadHeader = payloadHeader := by
  apply String.toList_inj.1
  rw [lowerAscii, String.toList_map]
  rfl

/-- The headers by which a connection frames its messages. -/
def framingHeaders : List String :=
  ["content-length", "transfer-encoding", "host", "connection", "expect"]

/-- None of the headers frames the message, in whatever spelling. -/
def Unframed (headers : List (String × String)) : Prop :=
  ∀ header ∈ headers, lowerAscii header.1 ∉ framingHeaders

theorem isVisibleAscii_encode (bytes : List UInt8) : isVisibleAscii (Base64.encode bytes) := by
  rw [isVisibleAscii, Base64.toList_encode, List.all_eq_true]
  exact Base64.forall_mem_chars (by decide) (by decide) bytes

end Http

open Http

/-- Among names in lower case a header is looked up as an entry is. -/
theorem lookup_of_lower {headers : List (String × String)}
    (lower : ∀ header ∈ headers, lowerAscii header.1 = header.1) (name : String) :
    (headers.find? fun header => lowerAscii header.1 = name).map (·.2) = headers.lookup name := by
  induction headers with
  | nil => rfl
  | cons header rest ih =>
    obtain ⟨first, others⟩ := List.forall_mem_cons.1 lower
    obtain ⟨key, value⟩ := header
    by_cases same : key = name
    · subst same
      rw [List.find?_cons_of_pos (by simpa using first), List.lookup_cons_self]
      rfl
    · rw [List.find?_cons_of_neg (by simpa [first] using same), ih others,
        Fields.lookup_cons_of_ne (Ne.symm same)]

namespace Sender

/-- A header that is sent is the payload, or one of the headers of the request. -/
theorem mem_headers {r : Request} {header : String × String} (member : header ∈ headers r) :
    header = (payloadHeader, Payload.encode r.actions) ∨
      ∃ given ∈ r.headers.entries, header.1 = lowerAscii given.1 := by
  rcases Fields.mem_insert member with payload | other
  · exact .inl payload
  · obtain ⟨given, chosen, rfl⟩ := List.mem_map.1 (Fields.mem_of_mem_ofList other)
    exact .inr ⟨given, (List.mem_filter.1 chosen).1, rfl⟩

theorem lower_of_mem_headers {r : Request} {header : String × String}
    (member : header ∈ headers r) : lowerAscii header.1 = header.1 := by
  rcases mem_headers member with rfl | ⟨given, -, same⟩
  · exact lowerAscii_payloadHeader
  · rw [same, lowerAscii_lowerAscii]

theorem unframed_headers {r : Request} (unframed : Unframed r.headers.entries) :
    Unframed (headers r) := by
  intro header member
  rcases mem_headers member with rfl | ⟨given, there, same⟩
  · rw [lowerAscii_payloadHeader]
    decide
  · rw [lower_of_mem_headers member, same]
    exact unframed given there

/-- The receiver finds the actions that are shipped, whatever headers the request has. -/
theorem header?_payload {r : Request} {message : HttpRequest}
    (carried : message.headers = headers r) :
    message.header? payloadHeader = some (Payload.encode r.actions) := by
  rw [HttpRequest.header?, carried, lookup_of_lower fun _ member => lower_of_mem_headers member]
  have found := Dict.get?_insert (sendableHeaders r.headers.entries) payloadHeader
    (Payload.encode r.actions) payloadHeader
  rw [if_pos rfl] at found
  exact found

end Sender

end Relay
