import Relay.Proofs.Json.Text
import Relay.Proofs.Decimal.Text
import Relay.Proofs.Dict
import Relay.Json.Parser

/-! # Reading what was written

A value whose numbers are exact integers and whose fields ascend is read back from its compact text,
as long as it nests no deeper than the reader goes. The leaves come first: a string is read one
escape at a time and a number up to a character that cannot belong to it. The values follow, each
with an arbitrary text behind it, so that a value inside an array or an object is read by the same
statement as a whole text.
-/

namespace Relay.Json

open Decimal (inNumber inNumber_of_isDigit)
open Text (skipSpace hexDigit?)

mutual

/-- Every number in the value is an exact integer. -/
def Integral : Json → Prop
  | null => True
  | bool _ => True
  | int _ => True
  | float _ => False
  | string _ => True
  | array items => IntegralItems items
  | object fields => IntegralFields fields

/-- Every item is integral. -/
def IntegralItems : List Json → Prop
  | [] => True
  | item :: rest => item.Integral ∧ IntegralItems rest

/-- The value of every field is integral. -/
def IntegralFields : List (String × Json) → Prop
  | [] => True
  | (_, value) :: rest => value.Integral ∧ IntegralFields rest

end

/-! ## Strings -/

private theorem hexDigit?_digitChar : ∀ d < 16, hexDigit? (Nat.digitChar d) = some d := by
  decide

private theorem hexUnit?_control {n : Nat} (control : n < 0x20) :
    hexUnit? '0' '0' (Nat.digitChar (n / 16)) (Nat.digitChar (n % 16)) = some n := by
  have zero : hexDigit? '0' = some 0 := by decide
  have high := hexDigit?_digitChar (n / 16) (by omega)
  have low := hexDigit?_digitChar (n % 16) (by omega)
  simp only [hexUnit?, zero, high, low, Option.bind_eq_bind, Option.bind_some, Option.pure_def]
  congr 1
  omega

private theorem readString_short (taken : List Char) {e c : Char} (rest : List Char)
    (short : shortEscape? e = some c) (letter : e ≠ 'u') :
    readString taken (['\\', e] ++ rest) = readString (c :: taken) rest := by
  rw [List.cons_append, List.cons_append, List.nil_append, readString.eq_def]
  simp only [Char.reduceEq, ↓reduceIte, letter, short]

private theorem readString_plain (taken : List Char) {c : Char} (rest : List Char)
    (quote : c ≠ '"') (slash : c ≠ '\\') (printable : ¬ c.toNat < 0x20) :
    readString taken (c :: rest) = readString (c :: taken) rest := by
  rw [readString.eq_def]
  simp only [quote, slash, printable, ↓reduceIte]

/-- A written character is read as itself, whatever follows it. -/
theorem readString_escape (taken : List Char) (c : Char) (rest : List Char) :
    readString taken (escape c ++ rest) = readString (c :: taken) rest := by
  unfold escape
  split
  · exact readString_short taken rest rfl (by decide)
  · exact readString_short taken rest rfl (by decide)
  · exact readString_short taken rest rfl (by decide)
  · exact readString_short taken rest rfl (by decide)
  · exact readString_short taken rest rfl (by decide)
  · exact readString_short taken rest rfl (by decide)
  · exact readString_short taken rest rfl (by decide)
  · rename_i quote slash _ _ _ _ _
    split
    · rename_i control
      simp only [List.cons_append, List.nil_append]
      rw [readString]
      have unit : c.toNat < 0xD800 ∨ 0xE000 ≤ c.toNat := by omega
      simp only [Char.reduceEq, ↓reduceIte, hexUnit?_control control, unit, Char.ofNat_toNat]
    · rename_i printable
      exact readString_plain taken rest quote slash printable

private theorem readString_escapes (taken cs rest : List Char) :
    readString taken (cs.flatMap escape ++ '"' :: rest) =
      some (String.ofList (taken.reverse ++ cs), rest) := by
  induction cs generalizing taken with
  | nil =>
    rw [List.flatMap_nil, List.nil_append, readString.eq_def]
    simp only [↓reduceIte, List.append_nil]
  | cons c cs ih =>
    rw [List.flatMap_cons, List.append_assoc, readString_escape, ih, List.reverse_cons,
      List.append_assoc, List.singleton_append]

/-- A string in quotes is read back after its opening quote. -/
theorem readString_quoted (s : String) (rest : List Char) :
    readString [] (s.toList.flatMap escape ++ '"' :: rest) = some (s, rest) := by
  rw [readString_escapes, List.reverse_nil, List.nil_append, String.ofList_toList]

/-! ## Numbers -/

/-- What stands behind a number does not go on with it. -/
def EndsNumber (rest : List Char) : Prop :=
  ∀ c ∈ rest.head?, c.isDigit = false ∧ c ≠ '.' ∧ c ≠ 'e' ∧ c ≠ 'E'

theorem endsNumber_nil : EndsNumber [] := by
  intro c member
  cases member

theorem natOfDigits_toDigits (n : Nat) :
    Decimal.natOfDigits (Nat.toDigits 10 n) = n := by
  have value := Nat.ofDigitChars_ten_toDigits (n := n)
  rw [Nat.ofDigitChars_eq_foldl] at value
  exact value

theorem isDigit_toDigits (n : Nat) : ∀ c ∈ Nat.toDigits 10 n, c.isDigit = true :=
  fun _ member => Nat.isDigit_of_mem_toDigits (by decide) (by decide) member

theorem readDigits_append {digits rest : List Char} (some : digits ≠ [])
    (all : ∀ c ∈ digits, c.isDigit = true) (ends : EndsNumber rest) :
    readDigits (digits ++ rest) = .some (digits, rest) := by
  have stops : rest.takeWhile Char.isDigit = [] ∧ rest.dropWhile Char.isDigit = rest := by
    cases rest with
    | nil => exact ⟨rfl, rfl⟩
    | cons c rest =>
      have other := (ends c rfl).1
      simp [other]
  have taken : (digits ++ rest).takeWhile Char.isDigit = digits := by
    rw [List.takeWhile_append_of_pos all, stops.1, List.append_nil]
  have left : (digits ++ rest).dropWhile Char.isDigit = rest := by
    rw [List.dropWhile_append_of_pos all, stops.2]
  rw [readDigits, taken, left]
  cases digits with
  | nil => exact absurd rfl some
  | cons c digits => rfl

private theorem head_toDigits (n : Nat) :
    (Nat.toDigits 10 n).head? = some '0' → Nat.toDigits 10 n = ['0'] := by
  induction n using Nat.strongRecOn with
  | _ n ih =>
    intro zero
    by_cases small : n < 10
    · rw [Nat.toDigits_of_lt_base small] at zero ⊢
      simpa using zero
    · -- A leading zero would lead the digits of the tenth as well, and that is not zero.
      rw [Nat.toDigits_of_base_le (by decide) (by omega)] at zero ⊢
      have leading : (Nat.toDigits 10 (n / 10)).head? = some '0' := by
        obtain ⟨c, cs, shape⟩ :=
          List.exists_cons_of_ne_nil (Nat.toDigits_ne_nil (n := n / 10) (b := 10))
        rw [shape] at zero ⊢
        exact zero
      have value := natOfDigits_toDigits (n / 10)
      rw [ih (n / 10) (by omega) leading] at value
      change 0 = n / 10 at value
      omega

private theorem readNumberText_toDigits (n : Nat) {rest : List Char} (ends : EndsNumber rest) :
    readNumberText (Nat.toDigits 10 n ++ rest) =
      some (⟨Nat.toDigits 10 n, none, none⟩, rest) := by
  have digits := readDigits_append Nat.toDigits_ne_nil (isDigit_toDigits n) ends
  have leading : ¬ ((Nat.toDigits 10 n).head? = some '0' ∧ Nat.toDigits 10 n ≠ ['0']) :=
    fun h => h.2 (head_toDigits n h.1)
  have fraction : readFraction rest = some (none, rest) := by
    cases rest with
    | nil => rfl
    | cons c rest =>
      have point := (ends c rfl).2.1
      rw [readFraction.eq_2]
      simpa using point
  have exponent : readExponent rest = some (none, rest) := by
    cases rest with
    | nil => rfl
    | cons c rest =>
      obtain ⟨-, -, small, capital⟩ := ends c rfl
      simp only [readExponent, small, capital, or_self, ↓reduceIte]
  simp only [readNumberText, digits, fraction, exponent, leading, Option.bind_eq_bind,
    Option.bind_some, ↓reduceIte, Option.pure_def]

private theorem value?_natural (n : ExactInt) {m : Nat} (same : n.val = m) :
    (NumberText.mk (Nat.toDigits 10 m) none none).value? false = some (int n) := by
  simp only [NumberText.value?, Option.isNone_none, and_self, ↓reduceIte, Bool.false_eq_true,
    natOfDigits_toDigits, ← same, ExactInt.ofInt?_val, Option.map_some, Option.some_or]

private theorem value?_negative (n : ExactInt) {m : Nat} (positive : m ≠ 0)
    (same : n.val = -(m : Int)) :
    (NumberText.mk (Nat.toDigits 10 m) none none).value? true = some (int n) := by
  have nonzero : ¬ (m : Int) = 0 := by omega
  simp only [NumberText.value?, Option.isNone_none, and_self, ↓reduceIte, natOfDigits_toDigits,
    nonzero, ← same, ExactInt.ofInt?_val, Option.map_some, Option.some_or]

private theorem intText (n : ExactInt) :
    (∃ m : Nat, n.val = m ∧ (toString n.val).toList = Nat.toDigits 10 m) ∨
      ∃ m : Nat, m ≠ 0 ∧ n.val = -m ∧ (toString n.val).toList = '-' :: Nat.toDigits 10 m := by
  obtain ⟨val, least, greatest⟩ := n
  cases val with
  | ofNat m =>
    refine .inl ⟨m, rfl, ?_⟩
    exact Nat.toList_repr
  | negSucc m =>
    refine .inr ⟨m + 1, by omega, rfl, ?_⟩
    change ("-" ++ (m + 1).repr).toList = _
    rw [String.toList_append, Nat.toList_repr]
    rfl

private theorem intText_head (n : ExactInt) :
    ∃ c cs, (toString n.val).toList = c :: cs ∧ inNumber c = true := by
  rcases intText n with ⟨m, -, text⟩ | ⟨m, -, -, text⟩
  · obtain ⟨c, cs, digits⟩ := List.exists_cons_of_ne_nil (Nat.toDigits_ne_nil (n := m) (b := 10))
    refine ⟨c, cs, text.trans digits, inNumber_of_isDigit (isDigit_toDigits m c ?_)⟩
    rw [digits]
    exact List.mem_cons_self
  · exact ⟨'-', _, text, rfl⟩

private theorem readNumber_of_text {c : Char} {s rest : List Char} {text : NumberText}
    {value : Json} (sign : c ≠ '-') (read : readNumberText (c :: s) = some (text, rest))
    (valued : text.value? false = some value) : readNumber (c :: s) = some (value, rest) := by
  rw [readNumber.eq_2]
  · simp only [read, valued, Option.bind_eq_bind, Option.bind_some, Option.pure_def]
  · simpa using sign

private theorem readNumber_natural (n : ExactInt) {m : Nat} (same : n.val = m)
    {rest : List Char} (ends : EndsNumber rest) :
    readNumber (Nat.toDigits 10 m ++ rest) = some (int n, rest) := by
  obtain ⟨c, cs, digits⟩ := List.exists_cons_of_ne_nil (Nat.toDigits_ne_nil (n := m) (b := 10))
  have digit : c.isDigit = true := isDigit_toDigits m c (by rw [digits]; exact List.mem_cons_self)
  have sign : c ≠ '-' := by rintro rfl; exact absurd digit (by decide)
  have read := readNumberText_toDigits m ends
  have value := value?_natural n same
  rw [digits] at read value ⊢
  exact readNumber_of_text sign read value

private theorem readNumber_negative (n : ExactInt) {m : Nat} (positive : m ≠ 0)
    (same : n.val = -(m : Int)) {rest : List Char} (ends : EndsNumber rest) :
    readNumber ('-' :: (Nat.toDigits 10 m ++ rest)) = some (int n, rest) := by
  rw [readNumber]
  simp only [readNumberText_toDigits m ends, value?_negative n positive same, Option.bind_eq_bind,
    Option.bind_some, Option.pure_def]

/-- The text of an exact integer is read back. -/
theorem readNumber_int (n : ExactInt) {rest : List Char} (ends : EndsNumber rest) :
    readNumber ((toString n.val).toList ++ rest) = some (int n, rest) := by
  rcases intText n with ⟨m, same, text⟩ | ⟨m, positive, same, text⟩
  · rw [text, readNumber_natural n same ends]
  · rw [text, List.cons_append, readNumber_negative n positive same ends]

/-! ## Values -/

theorem depthItems_le {greatest bound : Nat} {items : List Json} :
    depthItems greatest items ≤ bound ↔ greatest ≤ bound ∧ ∀ item ∈ items, item.depth ≤ bound := by
  induction items generalizing greatest with
  | nil => simp [depthItems]
  | cons item rest ih =>
    simp only [depthItems, ih, Nat.max_le, List.forall_mem_cons, and_assoc]

theorem depthFields_le {greatest bound : Nat} {fields : List (String × Json)} :
    depthFields greatest fields ≤ bound ↔
      greatest ≤ bound ∧ ∀ field ∈ fields, field.2.depth ≤ bound := by
  induction fields generalizing greatest with
  | nil => simp [depthFields]
  | cons field rest ih =>
    simp only [depthFields, ih, Nat.max_le, List.forall_mem_cons, and_assoc]

theorem depth_array_le {levels : Nat} {items : List Json} :
    (array items).depth ≤ levels ↔
      ∃ level, levels = level + 1 ∧ ∀ item ∈ items, item.depth ≤ level := by
  rw [depth]
  constructor
  · intro shallow
    have inside : depthItems 0 items ≤ levels - 1 := by omega
    exact ⟨levels - 1, by omega, (depthItems_le.1 inside).2⟩
  · rintro ⟨level, rfl, below⟩
    have inside : depthItems 0 items ≤ level := depthItems_le.2 ⟨Nat.zero_le level, below⟩
    omega

theorem depth_object_le {levels : Nat} {fields : List (String × Json)} :
    (object fields).depth ≤ levels ↔
      ∃ level, levels = level + 1 ∧ ∀ field ∈ fields, field.2.depth ≤ level := by
  rw [depth]
  constructor
  · intro shallow
    have inside : depthFields 0 fields ≤ levels - 1 := by omega
    exact ⟨levels - 1, by omega, (depthFields_le.1 inside).2⟩
  · rintro ⟨level, rfl, below⟩
    have inside : depthFields 0 fields ≤ level := depthFields_le.2 ⟨Nat.zero_le level, below⟩
    omega

/-- A character that a written value may start with. -/
def StartsValue (c : Char) : Prop :=
  0x20 < c.toNat ∧ c ≠ ']'

theorem startsValue_of_inNumber {c : Char} (number : inNumber c = true) :
    StartsValue c := by
  constructor
  · rw [inNumber, Bool.or_eq_true, List.contains_iff_mem] at number
    rcases number with digit | mark
    · simp only [Char.isDigit, Bool.and_eq_true, decide_eq_true_eq] at digit
      have low : 48 ≤ c.toNat := UInt32.le_iff_toNat_le.1 digit.1
      omega
    · simp only [List.mem_cons, List.not_mem_nil, or_false] at mark
      rcases mark with rfl | rfl | rfl | rfl | rfl <;> decide
  · rintro rfl
    exact absurd number (by decide)

/-- The text of a double is null, or it consists of characters of numbers. -/
theorem floatText_cases (x : Float) : (floatText x).toList = null.chars ∨
    ∃ c cs, (floatText x).toList = c :: cs ∧ ∀ d ∈ c :: cs, inNumber d = true := by
  rw [floatText]
  split
  · exact .inl rfl
  · exact .inr (Decimal.signed_inNumber Decimal.compactLayout x)

theorem chars_head (j : Json) : ∃ c cs, j.chars = c :: cs ∧ StartsValue c := by
  cases j with
  | null => exact ⟨'n', _, rfl, by decide, by decide⟩
  | bool b => cases b <;> exact ⟨_, _, rfl, by decide, by decide⟩
  | int n =>
    obtain ⟨c, cs, text, number⟩ := intText_head n
    exact ⟨c, cs, text, startsValue_of_inNumber number⟩
  | float x =>
    rcases floatText_cases x with none | ⟨c, cs, text, numbers⟩
    · exact ⟨'n', _, none, by decide, by decide⟩
    · exact ⟨c, cs, text, startsValue_of_inNumber (numbers c List.mem_cons_self)⟩
  | string s => exact ⟨'"', _, rfl, by decide, by decide⟩
  | array items => exact ⟨'[', _, rfl, by decide, by decide⟩
  | object fields => exact ⟨'\x7b', _, rfl, by decide, by decide⟩

/-- A written value is not all blank. -/
theorem exists_visible (j : Json) : ∃ c ∈ j.chars, 0x20 < c.toNat := by
  obtain ⟨c, cs, text, visible, -⟩ := chars_head j
  exact ⟨c, text ▸ List.mem_cons_self, visible⟩

theorem skipSpace_cons {c : Char} (cs : List Char) (visible : 0x20 < c.toNat) :
    skipSpace (c :: cs) = c :: cs := by
  have different : c ≠ ' ' ∧ c ≠ '\t' ∧ c ≠ '\n' ∧ c ≠ '\r' := by
    refine ⟨?_, ?_, ?_, ?_⟩ <;> rintro rfl <;> exact absurd visible (by decide)
  rw [skipSpace, List.dropWhile_cons_of_neg (by simp [Text.isSpace, different])]

theorem itemChars_cons (separator : List Char) (item : Json) (rest : List Json) :
    itemChars separator (item :: rest) = separator ++ itemChars [] (item :: rest) := rfl

theorem fieldChars_cons (separator : List Char) (field : String × Json)
    (rest : List (String × Json)) :
    fieldChars separator (field :: rest) = separator ++ fieldChars [] (field :: rest) := rfl

theorem readValueWith_number {nested : Option (Text.Reader Json)} {c : Char}
    (cs : List Char) (number : inNumber c = true) :
    readValueWith nested (c :: cs) = readNumber (c :: cs) := by
  have different : c ≠ 'n' ∧ c ≠ 't' ∧ c ≠ 'f' ∧ c ≠ '"' ∧ c ≠ '[' ∧ c ≠ '\x7b' := by
    refine ⟨?_, ?_, ?_, ?_, ?_, ?_⟩ <;> rintro rfl <;> exact absurd number (by decide)
  obtain ⟨n, t, f, quote, bracket, brace⟩ := different
  rw [readValueWith, skipSpace_cons cs (startsValue_of_inNumber number).1]
  split
  · next same => cases same; exact absurd rfl n
  · next same => cases same; exact absurd rfl t
  · next same => cases same; exact absurd rfl f
  · next same => cases same; exact absurd rfl quote
  · next same => cases same; exact absurd rfl bracket
  · next same => cases same; exact absurd rfl brace
  · rfl

private theorem readValueWith_leaf (nested : Option (Text.Reader Json)) {j : Json}
    (leaf : j.depth = 0) (integral : j.Integral) {rest : List Char} (ends : EndsNumber rest) :
    readValueWith nested (j.chars ++ rest) = some (j, rest) := by
  cases j with
  | null => rfl
  | bool b => cases b <;> rfl
  | int n =>
    obtain ⟨c, cs, text, number⟩ := intText_head n
    have read := readNumber_int n ends
    rw [text, List.cons_append] at read
    rw [chars, text, List.cons_append, readValueWith_number _ number, read]
  | float x => exact absurd integral id
  | string s =>
    have read := readString_quoted s rest
    rw [chars, quotedChars, List.cons_append, List.append_assoc, List.singleton_append,
      readValueWith, skipSpace_cons _ (by decide)]
    simp only [read, Option.map_some]
  | array items => simp [depth] at leaf
  | object fields => simp [depth] at leaf

theorem readValue_leaf (levels : Nat) {j : Json} (leaf : j.depth = 0)
    (integral : j.Integral) {rest : List Char} (ends : EndsNumber rest) :
    readValue levels (j.chars ++ rest) = some (j, rest) := by
  cases levels with
  | zero => exact readValueWith_leaf none leaf integral ends
  | succ level => exact readValueWith_leaf (some (readValue level)) leaf integral ends

private theorem length_le_itemChars (separator : List Char) (items : List Json) :
    items.length ≤ (itemChars separator items).length := by
  induction items generalizing separator with
  | nil => exact Nat.zero_le _
  | cons item rest ih =>
    obtain ⟨c, cs, text, -⟩ := chars_head item
    have shorter := ih [',']
    simp only [itemChars, text, List.length_append, List.length_cons]
    omega

private theorem length_le_fieldChars (separator : List Char) (fields : List (String × Json)) :
    fields.length ≤ (fieldChars separator fields).length := by
  induction fields generalizing separator with
  | nil => exact Nat.zero_le _
  | cons field rest ih =>
    have shorter := ih [',']
    simp only [fieldChars, quotedChars, List.length_append, List.length_cons]
    omega

/-- What stands behind a value does not go on with a number. -/
def Ends (rest : List Char) : Prop :=
  ∀ c ∈ rest.head?, inNumber c = false

theorem ends_cons {c : Char} {rest : List Char} (other : inNumber c = false) :
    Ends (c :: rest) := by
  intro d member
  cases member
  exact other

theorem Ends.endsNumber {rest : List Char} (ends : Ends rest) : EndsNumber rest := by
  intro c member
  have other := ends c member
  refine ⟨?_, ?_, ?_, ?_⟩
  · rw [inNumber, Bool.or_eq_false_iff] at other
    exact other.1
  all_goals
    rintro rfl
    exact absurd other (by decide)

theorem ends_items (more : List Json) (rest : List Char) :
    Ends (itemChars [','] more ++ ']' :: rest) := by
  cases more with
  | nil => exact ends_cons rfl
  | cons item more => exact ends_cons rfl

theorem ends_fields (more : List (String × Json)) (rest : List Char) :
    Ends (fieldChars [','] more ++ '\x7d' :: rest) := by
  cases more with
  | nil => exact ends_cons rfl
  | cons field more => exact ends_cons rfl

mutual

/-- A written value is read back, whatever stands behind it. -/
theorem readValue_chars (j : Json) (ordered : j.Ordered) (integral : j.Integral) (levels : Nat)
    (shallow : j.depth ≤ levels) (rest : List Char) (ends : EndsNumber rest) :
    readValue levels (j.chars ++ rest) = some (j, rest) := by
  cases j with
  | null => exact readValue_leaf levels rfl integral ends
  | bool b => exact readValue_leaf levels rfl integral ends
  | int n => exact readValue_leaf levels rfl integral ends
  | float x => exact readValue_leaf levels rfl integral ends
  | string s => exact readValue_leaf levels rfl integral ends
  | array items =>
    obtain ⟨level, rfl, inside⟩ := depth_array_le.1 shallow
    rw [chars, List.cons_append, List.append_assoc, List.singleton_append, readValue, readValueWith,
      skipSpace_cons _ (by decide)]
    cases items with
    | nil =>
      simp only [itemChars, List.nil_append, skipSpace_cons rest (c := ']') (by decide),
        Option.bind_eq_bind, Option.bind_some]
    | cons item more =>
      have read := readItems_chars (item :: more) (List.cons_ne_nil _ _) ordered integral level
        inside (itemChars [] (item :: more) ++ ']' :: rest)
        (Nat.le_trans (length_le_itemChars [] _) (by simp)) [] rest
      obtain ⟨c, cs, text, starts⟩ := chars_head item
      simp only [itemChars, text, List.nil_append, List.cons_append] at read ⊢
      rw [skipSpace_cons _ starts.1]
      simp only [Option.bind_eq_bind, Option.bind_some]
      split
      · next same => cases same; exact absurd rfl starts.2
      · rw [read]; rfl
  | object fields =>
    obtain ⟨level, rfl, inside⟩ := depth_object_le.1 shallow
    rw [chars, List.cons_append, List.append_assoc, List.singleton_append, readValue, readValueWith,
      skipSpace_cons _ (by decide)]
    cases fields with
    | nil =>
      simp only [fieldChars, List.nil_append, skipSpace_cons rest (c := '\x7d') (by decide),
        Option.bind_eq_bind, Option.bind_some]
    | cons field more =>
      have read := readFields_chars (field :: more) (List.cons_ne_nil _ _) ordered.2 integral level
        inside (fieldChars [] (field :: more) ++ '\x7d' :: rest)
        (Nat.le_trans (length_le_fieldChars [] _) (by simp)) [] ordered.1 rest
      simp only [fieldChars, quotedChars, List.nil_append, List.cons_append] at read ⊢
      rw [skipSpace_cons _ (by decide)]
      simp only [Option.bind_eq_bind, Option.bind_some]
      split
      · next same => cases same
      · rw [read]; rfl

/-- Written items are read back up to the closing bracket. -/
theorem readItems_chars (items : List Json) (some : items ≠ []) (ordered : OrderedItems items)
    (integral : IntegralItems items) (level : Nat) (shallow : ∀ item ∈ items, item.depth ≤ level)
    (bound : List Char) (enough : items.length ≤ bound.length) (taken : List Json)
    (rest : List Char) :
    readItems (readValue level) bound taken (itemChars [] items ++ ']' :: rest) =
      .some (taken.reverse ++ items, rest) := by
  cases items with
  | nil => exact absurd rfl some
  | cons item more =>
    cases bound with
    | nil => simp at enough
    | cons b bound =>
      have read := readValue_chars item ordered.1 integral.1 level
        (shallow item List.mem_cons_self) _ (ends_items more rest).endsNumber
      simp only [itemChars, List.nil_append, List.append_assoc]
      rw [readItems, read]
      simp only [Option.bind_eq_bind, Option.bind_some]
      cases more with
      | nil =>
        simp only [itemChars, List.nil_append, skipSpace_cons rest (c := ']') (by decide),
          List.reverse_cons]
      | cons next others =>
        have later := readItems_chars (next :: others) (List.cons_ne_nil _ _) ordered.2 integral.2
          level (fun item member => shallow item (List.mem_cons_of_mem _ member)) bound
          (by simpa using enough) (item :: taken) rest
        rw [itemChars_cons, List.append_assoc, List.singleton_append, skipSpace_cons _ (by decide)]
        simp only [later, List.reverse_cons, List.append_assoc, List.singleton_append]

/-- Written fields are read back up to the closing brace. They go on from entries that were taken
before, whose keys are all less. -/
theorem readFields_chars (fields : List (String × Json)) (some : fields ≠ [])
    (ordered : OrderedFields fields) (integral : IntegralFields fields) (level : Nat)
    (shallow : ∀ field ∈ fields, field.2.depth ≤ level) (bound : List Char)
    (enough : fields.length ≤ bound.length) (taken : List (String × Json))
    (ascending : Fields.Ascending (taken ++ fields)) (rest : List Char) :
    readFields (readValue level) bound taken (fieldChars [] fields ++ '\x7d' :: rest) =
      .some (taken ++ fields, rest) := by
  cases fields with
  | nil => exact absurd rfl some
  | cons field more =>
    obtain ⟨key, value⟩ := field
    cases bound with
    | nil => simp at enough
    | cons b bound =>
      have read := readValue_chars value ordered.1 integral.1 level
        (shallow (key, value) List.mem_cons_self) _ (ends_fields more rest).endsNumber
      have named := readString_quoted key
        (':' :: (value.chars ++ (fieldChars [','] more ++ '\x7d' :: rest)))
      have above : ∀ entry ∈ taken, entry.1 < key := fun entry member =>
        (List.pairwise_append.1 ascending).2.2 entry member (key, value) List.mem_cons_self
      simp only [fieldChars, quotedChars, List.nil_append, List.append_assoc, List.cons_append]
      rw [readFields, skipSpace_cons _ (by decide)]
      simp only [named, skipSpace_cons _ (c := ':') (by decide), read, Fields.insert_above above,
        Option.bind_eq_bind, Option.bind_some]
      cases more with
      | nil =>
        simp only [fieldChars, List.nil_append, skipSpace_cons rest (c := '\x7d') (by decide)]
      | cons next others =>
        have later := readFields_chars (next :: others) (List.cons_ne_nil _ _) ordered.2 integral.2
          level (fun field member => shallow field (List.mem_cons_of_mem _ member)) bound
          (by simpa using enough) (taken ++ [(key, value)])
          (by rw [List.append_assoc]; exact ascending) rest
        rw [fieldChars_cons, List.append_assoc, List.singleton_append, skipSpace_cons _ (by decide)]
        simp only [later, List.append_assoc, List.singleton_append]

end

/-- The compact text of a value is read back as the value. -/
theorem parse?_compact {j : Json} (ordered : j.Ordered) (integral : j.Integral)
    (shallow : j.depth ≤ nestingLimit) : parse? j.compact = some j := by
  have read := readValue_chars j ordered integral nestingLimit shallow [] endsNumber_nil
  rw [List.append_nil] at read
  simp only [parse?, parseNested?, toList_compact, read, Option.bind_eq_bind, Option.bind_some]
  rfl

end Relay.Json
