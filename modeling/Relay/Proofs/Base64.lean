import Relay.Base64
import Relay.Text.Blank
import Relay.Proofs.Text.Bytes

/-! # Base64 there and back

Every list of bytes is read back from its written form, which is as long as the groups of three
demand and holds no character that trimming could take away. Each kind of group, full or padded, is
one lemma about the six-bit numbers that it is cut into.
-/

namespace Relay.Base64

/-- The characters of bytes. -/
def chars : List UInt8 → List Char
  | [] => []
  | [a] =>
    let bits := a.toNat * 16
    [symbol (bits / 64), symbol (bits % 64), '=', '=']
  | [a, b] =>
    let bits := (a.toNat * 256 + b.toNat) * 4
    [symbol (bits / 4096), symbol (bits / 64 % 64), symbol (bits % 64), '=']
  | a :: b :: c :: rest =>
    let bits := (a.toNat * 256 + b.toNat) * 256 + c.toNat
    symbol (bits / 262144) :: symbol (bits / 4096 % 64) :: symbol (bits / 64 % 64) ::
      symbol (bits % 64) :: chars rest

private theorem toList_encodeOnto (text : String) (bytes : List UInt8) :
    (encodeOnto text bytes).toList = text.toList ++ chars bytes := by
  fun_induction encodeOnto text bytes with
  | case1 text => rw [chars, List.append_nil]
  | case2 text a bits => simp [chars, bits]
  | case3 text a b bits => simp [chars, bits]
  | case4 text a b c rest bits ih => simp [ih, chars, bits]

theorem toList_encode (bytes : List UInt8) : (encode bytes).toList = chars bytes := by
  rw [encode, toList_encodeOnto, String.toList_empty, List.nil_append]

/-! ## The alphabet -/

private theorem value?_symbol : ∀ n < 64, value? (symbol n) = some n := by
  decide

private theorem symbol_ne_pad : ∀ n < 64, symbol n ≠ '=' := by
  decide

/-- A character of the alphabet or the padding takes one byte and is not blank. -/
private def Narrow (c : Char) : Prop :=
  c.utf8Size = 1 ∧ Text.isBlank c = false

private theorem narrow_symbol : ∀ n < 64, Narrow (symbol n) := by
  unfold Narrow
  decide

private theorem narrow_pad : Narrow '=' :=
  ⟨rfl, rfl⟩

/-- What holds of the alphabet and of the padding holds of every written character. -/
theorem forall_mem_chars {P : Char → Prop} (symbols : ∀ n < 64, P (symbol n)) (pad : P '=')
    (bytes : List UInt8) : ∀ c ∈ chars bytes, P c := by
  fun_induction chars bytes with
  | case1 => exact List.forall_mem_nil _
  | case2 a bits =>
    have low := a.toNat_lt
    simp only [List.forall_mem_cons]
    exact ⟨symbols _ (by omega), symbols _ (by omega), pad, pad, List.forall_mem_nil _⟩
  | case3 a b bits =>
    have high := a.toNat_lt
    have low := b.toNat_lt
    simp only [List.forall_mem_cons]
    exact ⟨symbols _ (by omega), symbols _ (by omega), symbols _ (by omega), pad,
      List.forall_mem_nil _⟩
  | case4 a b c rest bits ih =>
    have high := a.toNat_lt
    have middle := b.toNat_lt
    have low := c.toNat_lt
    simp only [List.forall_mem_cons]
    exact ⟨symbols _ (by omega), symbols _ (by omega), symbols _ (by omega),
      symbols _ (by omega), ih⟩

private theorem narrow_of_mem_chars (bytes : List UInt8) : ∀ c ∈ chars bytes, Narrow c :=
  forall_mem_chars narrow_symbol narrow_pad bytes

/-! ## Reading groups -/

private theorem lastByte?_symbols (a : UInt8) :
    lastByte? (symbol (a.toNat * 16 / 64)) (symbol (a.toNat * 16 % 64)) = some [a] := by
  have bound := a.toNat_lt
  have high := value?_symbol (a.toNat * 16 / 64) (by omega)
  have low := value?_symbol (a.toNat * 16 % 64) (by omega)
  have whole : a.toNat * 16 / 64 * 64 + a.toNat * 16 % 64 = a.toNat * 16 := by omega
  simp only [lastByte?, high, low, Option.bind_eq_bind, Option.bind_some, whole]
  rw [if_pos (by omega), show a.toNat * 16 / 16 = a.toNat by omega, UInt8.ofNat_toNat]

private theorem lastBytes?_symbols (a b : UInt8) :
    lastBytes? (symbol ((a.toNat * 256 + b.toNat) * 4 / 4096))
      (symbol ((a.toNat * 256 + b.toNat) * 4 / 64 % 64))
      (symbol ((a.toNat * 256 + b.toNat) * 4 % 64)) = some [a, b] := by
  have boundA := a.toNat_lt
  have boundB := b.toNat_lt
  generalize same : (a.toNat * 256 + b.toNat) * 4 = bits
  have high := value?_symbol (bits / 4096) (by omega)
  have middle := value?_symbol (bits / 64 % 64) (by omega)
  have low := value?_symbol (bits % 64) (by omega)
  have whole : (bits / 4096 * 64 + bits / 64 % 64) * 64 + bits % 64 = bits := by omega
  simp only [lastBytes?, high, middle, low, Option.bind_eq_bind, Option.bind_some, whole]
  rw [if_pos (by omega), show bits / 1024 = a.toNat by omega, UInt8.ofNat_toNat]
  have second : UInt8.ofNat (bits / 4) = b := by
    apply UInt8.toNat_inj.1
    rw [UInt8.toNat_ofNat']
    omega
  rw [second]

private theorem group?_symbols (a b c : UInt8) :
    group? (symbol (((a.toNat * 256 + b.toNat) * 256 + c.toNat) / 262144))
      (symbol (((a.toNat * 256 + b.toNat) * 256 + c.toNat) / 4096 % 64))
      (symbol (((a.toNat * 256 + b.toNat) * 256 + c.toNat) / 64 % 64))
      (symbol (((a.toNat * 256 + b.toNat) * 256 + c.toNat) % 64)) = some [a, b, c] := by
  have boundA := a.toNat_lt
  have boundB := b.toNat_lt
  have boundC := c.toNat_lt
  generalize same : (a.toNat * 256 + b.toNat) * 256 + c.toNat = bits
  have first := value?_symbol (bits / 262144) (by omega)
  have second := value?_symbol (bits / 4096 % 64) (by omega)
  have third := value?_symbol (bits / 64 % 64) (by omega)
  have fourth := value?_symbol (bits % 64) (by omega)
  have whole : ((bits / 262144 * 64 + bits / 4096 % 64) * 64 + bits / 64 % 64) * 64 + bits % 64 =
      bits := by omega
  simp only [group?, first, second, third, fourth, Option.bind_eq_bind, Option.bind_some, whole]
  have byteA : UInt8.ofNat (bits / 65536) = a := by
    apply UInt8.toNat_inj.1
    rw [UInt8.toNat_ofNat']
    omega
  have byteB : UInt8.ofNat (bits / 256) = b := by
    apply UInt8.toNat_inj.1
    rw [UInt8.toNat_ofNat']
    omega
  have byteC : UInt8.ofNat bits = c := by
    apply UInt8.toNat_inj.1
    rw [UInt8.toNat_ofNat']
    omega
  rw [byteA, byteB, byteC]

private theorem decodeOnto_chars (taken bytes : List UInt8) :
    decodeOnto taken (chars bytes) = some (taken.reverse ++ bytes) := by
  fun_induction chars bytes generalizing taken with
  | case1 => simp [decodeOnto]
  | case2 a bits =>
    rw [decodeOnto, if_pos ⟨rfl, rfl⟩, if_pos rfl, lastByte?_symbols, Option.map_some]
  | case3 a b bits =>
    have low : symbol (bits % 64) ≠ '=' := symbol_ne_pad _ (by omega)
    rw [decodeOnto, if_pos ⟨rfl, rfl⟩, if_neg low, lastBytes?_symbols, Option.map_some]
  | case4 a b c rest bits ih =>
    have low : symbol (bits % 64) ≠ '=' := symbol_ne_pad _ (by omega)
    rw [decodeOnto, if_neg fun pad => low pad.1, group?_symbols]
    simp only [ih, List.reverse_cons, List.reverse_nil, List.nil_append, List.cons_append,
      List.append_assoc]

/-- Written bytes are read back. -/
theorem decode?_encode (bytes : List UInt8) : decode? (encode bytes) = some bytes := by
  rw [decode?, toList_encode, decodeOnto_chars, List.reverse_nil, List.nil_append]

/-! ## The written form as a header value -/

private theorem length_chars (bytes : List UInt8) :
    (chars bytes).length = 4 * ((bytes.length + 2) / 3) := by
  fun_induction chars bytes with
  | case1 => rfl
  | case2 a bits => simp
  | case3 a b bits => simp
  | case4 a b c rest bits ih =>
    simp only [List.length_cons, ih]
    omega

private theorem byteSize_of_narrow {s : List Char} (narrow : ∀ c ∈ s, Narrow c) :
    Text.byteSize s = s.length := by
  induction s with
  | nil => rfl
  | cons c s ih =>
    obtain ⟨here, later⟩ := List.forall_mem_cons.1 narrow
    rw [Text.byteSize_cons, here.1, ih later, List.length_cons, Nat.add_comm]

/-- Each group of three bytes takes four bytes, and so does a last group that is not full. -/
theorem utf8ByteSize_encode (bytes : List UInt8) :
    (encode bytes).utf8ByteSize = 4 * ((bytes.length + 2) / 3) := by
  rw [Text.utf8ByteSize_eq, toList_encode, byteSize_of_narrow (narrow_of_mem_chars bytes),
    length_chars]

private theorem dropWhile_isBlank {s : List Char} (narrow : ∀ c ∈ s, Narrow c) :
    s.dropWhile Text.isBlank = s := by
  cases s with
  | nil => rfl
  | cons c s => exact List.dropWhile_cons_of_neg (by simp [(narrow c List.mem_cons_self).2])

/-- Trimming leaves the written form alone. -/
theorem trim_encode (bytes : List UInt8) : Text.trim (encode bytes) = encode bytes := by
  have narrow := narrow_of_mem_chars bytes
  have reversed : ∀ c ∈ (chars bytes).reverse, Narrow c :=
    fun c member => narrow c (List.mem_reverse.1 member)
  rw [Text.trim, Text.trimChars, Text.trimEndChars, toList_encode, dropWhile_isBlank narrow,
    dropWhile_isBlank reversed, List.reverse_reverse, ← toList_encode, String.ofList_toList]

end Relay.Base64
