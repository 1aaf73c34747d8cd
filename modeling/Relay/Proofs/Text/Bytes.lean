/-! # The bytes of a text

A text travels as its UTF-8 bytes. They are as many as its characters take, and the text is read
back from them.
-/

namespace Relay.Text

private theorem toList_loop (bytes : ByteArray) (i : Nat) (taken : List UInt8) :
    ByteArray.toList.loop bytes i taken = taken.reverse ++ bytes.data.toList.drop i := by
  fun_induction ByteArray.toList.loop bytes i taken with
  | case1 i taken inside ih =>
    have here : i < bytes.data.toList.length := inside
    have byte : bytes.get! i = bytes.data.toList[i] := by
      change bytes.data[i]! = _
      rw [getElem!_pos bytes.data i here, Array.getElem_toList]
    rw [ih, List.drop_eq_getElem_cons here, byte, List.reverse_cons, List.append_assoc,
      List.singleton_append]
  | case2 i taken outside =>
    have behind : bytes.data.toList.length ≤ i := Nat.le_of_not_lt outside
    rw [List.drop_of_length_le behind, List.append_nil]

/-- The list of the bytes of an array. -/
theorem toList_bytes (bytes : ByteArray) : bytes.toList = bytes.data.toList := by
  rw [ByteArray.toList, toList_loop]
  rfl

/-- A text is read back from the list of its bytes. -/
theorem fromUTF8?_toUTF8 (s : String) : String.fromUTF8? ⟨s.toUTF8.toList.toArray⟩ = some s := by
  have same : (⟨s.toUTF8.toList.toArray⟩ : ByteArray) = s.toByteArray := by
    rw [toList_bytes, Array.toArray_toList, String.toUTF8_eq_toByteArray]
  rw [same, String.fromUTF8?, dif_pos s.isValidUTF8]
  rfl

/-- The number of bytes that characters take. -/
def byteSize (s : List Char) : Nat :=
  (s.map Char.utf8Size).foldr (· + ·) 0

theorem byteSize_cons (c : Char) (s : List Char) : byteSize (c :: s) = c.utf8Size + byteSize s :=
  rfl

theorem utf8ByteSize_eq (s : String) : s.utf8ByteSize = byteSize s.toList := by
  rw [← String.size_toByteArray, ← String.utf8Encode_toList, List.utf8Encode,
    List.size_toByteArray, List.length_flatMap, byteSize]
  simp only [String.length_utf8EncodeChar]
  rfl

theorem length_toUTF8 (s : String) : s.toUTF8.toList.length = s.utf8ByteSize := by
  rw [toList_bytes, String.toUTF8_eq_toByteArray]
  rfl

/-- Part of a text takes no more bytes than the whole. -/
theorem byteSize_le_of_sublist {s t : List Char} (part : s.Sublist t) :
    byteSize s ≤ byteSize t := by
  induction part with
  | slnil => exact Nat.le_refl _
  | cons c part ih => rw [byteSize_cons]; omega
  | cons_cons c part ih => rw [byteSize_cons, byteSize_cons]; omega

end Relay.Text
