import Relay.Proofs.Json.Reading

/-! # What becomes of any value that is written

A double may change when it is written and read, and one that is not a number is lost. Everything
else about a value comes back: its shape, its texts, its truth values and its exact integers, with
the fields of each object sorted by key, `parse?_compact_echo`. The text of a double is not followed
in detail. Should a reader stop in the middle of it, then it is stuck there, since what is left
starts with a character that goes on with a number and not with the array or object around it.
-/

namespace Relay.Json

open Decimal (inNumber)
open Text (skipSpace)

mutual

/-- What a value may come back as when it is written and read. -/
inductive Echo : Json → Json → Prop
  | null : Echo null null
  | bool (b : Bool) : Echo (bool b) (bool b)
  | int (n : ExactInt) : Echo (int n) (int n)
  | lost (x : Float) : Echo (float x) null
  | whole (x : Float) (n : ExactInt) : Echo (float x) (int n)
  | float (x y : Float) : Echo (float x) (float y)
  | string (s : String) : Echo (string s) (string s)
  | array {items others : List Json} (inside : EchoItems items others) :
      Echo (array items) (array others)
  | object {fields others : List (String × Json)} (inside : EchoFields fields others) :
      Echo (object fields) (ofFields others)

/-- Items that come back one by one. -/
inductive EchoItems : List Json → List Json → Prop
  | nil : EchoItems [] []
  | cons {item other : Json} {rest others : List Json} (first : Echo item other)
      (later : EchoItems rest others) : EchoItems (item :: rest) (other :: others)

/-- Fields that come back one by one, each under its key. -/
inductive EchoFields : List (String × Json) → List (String × Json) → Prop
  | nil : EchoFields [] []
  | cons {key : String} {value other : Json} {rest others : List (String × Json)}
      (first : Echo value other) (later : EchoFields rest others) :
      EchoFields ((key, value) :: rest) ((key, other) :: others)

end

/-! ## Fields that come back -/

theorem EchoFields.append {fields others more moreOthers : List (String × Json)}
    (first : EchoFields fields others) (later : EchoFields more moreOthers) :
    EchoFields (fields ++ more) (others ++ moreOthers) := by
  induction fields generalizing others with
  | nil =>
    cases first
    exact later
  | cons field rest ih =>
    cases first with
    | cons here inside => exact .cons here (ih inside)

theorem EchoFields.reverse {fields others : List (String × Json)}
    (inside : EchoFields fields others) : EchoFields fields.reverse others.reverse := by
  induction fields generalizing others with
  | nil =>
    cases inside
    exact .nil
  | cons field rest ih =>
    cases inside with
    | cons here inside =>
      rw [List.reverse_cons, List.reverse_cons]
      exact (ih inside).append (.cons here .nil)

theorem EchoFields.lookup {fields others : List (String × Json)}
    (inside : EchoFields fields others) (key : String) :
    Option.Rel Echo (fields.lookup key) (others.lookup key) := by
  induction fields generalizing others with
  | nil =>
    cases inside
    exact .none
  | cons field rest ih =>
    cases inside with
    | @cons name value other _ _ here inside =>
      by_cases same : key = name
      · subst same
        rw [List.lookup_cons_self, List.lookup_cons_self]
        exact .some here
      · rw [Fields.lookup_cons_of_ne same, Fields.lookup_cons_of_ne same]
        exact ih inside

/-- Each field of a sorted object comes back under its key, and no other field does. -/
theorem Echo.fields {fields : List (String × Json)} {j : Json}
    (echo : Echo (ofFields fields) j) : ∃ others, j = .object others ∧
      ∀ key, Option.Rel Echo ((Fields.ofList fields).lookup key) (others.lookup key) := by
  cases echo with
  | @object _ others inside =>
    refine ⟨Fields.ofList others, rfl, ?_⟩
    intro key
    rw [Fields.lookup_ofList others]
    rw [← Fields.ofList_of_ascending (Fields.ascending_ofList fields), Fields.lookup_ofList]
    exact inside.reverse.lookup key

/-- A field that was written as a text comes back as that text, and only such a field comes back. -/
theorem lookup_of_string {written found : Option Json} {value : Option String}
    (echo : Option.Rel Echo written found) (text : written = value.map .string) :
    found = value.map .string := by
  subst text
  cases value with
  | none =>
    cases echo
    rfl
  | some s =>
    cases echo with
    | some back =>
      cases back
      rfl

/-! ## Taking a number off a text -/

/-- What is left of a text when characters of numbers are taken off its front. -/
def Consumes (s left : List Char) : Prop :=
  ∃ taken, s = taken ++ left ∧ ∀ c ∈ taken, inNumber c = true

theorem Consumes.refl (s : List Char) : Consumes s s :=
  ⟨[], rfl, List.forall_mem_nil _⟩

theorem Consumes.cons {c : Char} {s left : List Char} (number : inNumber c = true)
    (consumes : Consumes s left) : Consumes (c :: s) left := by
  obtain ⟨taken, rfl, numbers⟩ := consumes
  exact ⟨c :: taken, rfl, List.forall_mem_cons.2 ⟨number, numbers⟩⟩

theorem Consumes.trans {s middle left : List Char} (first : Consumes s middle)
    (second : Consumes middle left) : Consumes s left := by
  obtain ⟨taken, rfl, numbers⟩ := first
  obtain ⟨more, rfl, others⟩ := second
  exact ⟨taken ++ more, (List.append_assoc _ _ _).symm, List.forall_mem_append.2 ⟨numbers, others⟩⟩

theorem readDigits_consumes {s digits left : List Char}
    (read : readDigits s = some (digits, left)) : Consumes s left := by
  rw [readDigits] at read
  split at read
  · cases read
  · cases read
    refine ⟨s.takeWhile Char.isDigit, List.takeWhile_append_dropWhile.symm, ?_⟩
    intro c member
    exact Decimal.inNumber_of_isDigit (List.all_eq_true.1 List.all_takeWhile c member)

theorem readFraction_consumes {s left : List Char} {fraction : Option (List Char)}
    (read : readFraction s = some (fraction, left)) : Consumes s left := by
  unfold readFraction at read
  split at read
  · obtain ⟨⟨digits, after⟩, taken, same⟩ := Option.map_eq_some_iff.1 read
    cases same
    exact (readDigits_consumes taken).cons rfl
  · cases read
    exact .refl _

theorem readSignedExponent_consumes {s left : List Char} {exponent : Int}
    (read : readSignedExponent s = some (exponent, left)) : Consumes s left := by
  unfold readSignedExponent at read
  split at read
  all_goals
    obtain ⟨⟨digits, after⟩, taken, same⟩ := Option.map_eq_some_iff.1 read
    cases same
  · exact (readDigits_consumes taken).cons rfl
  · exact (readDigits_consumes taken).cons rfl
  · exact readDigits_consumes taken

theorem readExponent_consumes {s left : List Char} {exponent : Option Int}
    (read : readExponent s = some (exponent, left)) : Consumes s left := by
  unfold readExponent at read
  split at read
  · cases read
    exact .refl _
  · split at read
    · rename_i letter
      obtain ⟨⟨value, after⟩, taken, same⟩ := Option.map_eq_some_iff.1 read
      cases same
      refine (readSignedExponent_consumes taken).cons ?_
      rcases letter with rfl | rfl <;> rfl
    · cases read
      exact .refl _

theorem readNumberText_consumes {s left : List Char} {text : NumberText}
    (read : readNumberText s = some (text, left)) : Consumes s left := by
  simp only [readNumberText, Option.bind_eq_bind, Option.bind_eq_some_iff] at read
  obtain ⟨⟨whole, afterWhole⟩, digits, read⟩ := read
  split at read
  · cases read
  · simp only [Option.bind_eq_some_iff] at read
    obtain ⟨⟨fraction, afterPoint⟩, point, ⟨exponent, afterAll⟩, power, same⟩ := read
    cases same
    exact (readDigits_consumes digits).trans
      ((readFraction_consumes point).trans (readExponent_consumes power))

theorem readNumber_consumes {s left : List Char} {j : Json}
    (read : readNumber s = some (j, left)) : Consumes s left := by
  unfold readNumber at read
  split at read
  all_goals
    simp only [Option.bind_eq_bind, Option.bind_eq_some_iff, Option.pure_def, Option.some.injEq,
      Prod.mk.injEq] at read
    obtain ⟨⟨text, after⟩, taken, _, -, -, rfl⟩ := read
  · exact (readNumberText_consumes taken).cons rfl
  · exact readNumberText_consumes taken

/-! ## Values -/

/-- The text starts in the middle of a number. -/
def Stuck (left : List Char) : Prop :=
  ∃ c cs, left = c :: cs ∧ inNumber c = true

theorem Stuck.skipSpace {left : List Char} (stuck : Stuck left) : skipSpace left = left := by
  obtain ⟨c, cs, rfl, number⟩ := stuck
  exact skipSpace_cons cs (startsValue_of_inNumber number).1

theorem Stuck.head_ne {c : Char} {cs : List Char} (stuck : Stuck (c :: cs)) {other : Char}
    (outside : inNumber other = false) : c ≠ other := by
  obtain ⟨_, _, same, number⟩ := stuck
  cases same
  rintro rfl
  rw [number] at outside
  cases outside

/-- A reader that takes characters of numbers stops at the end of a text of such characters, or is
stuck in it. -/
theorem Consumes.stuck_or_eq {number rest left : List Char}
    (consumes : Consumes (number ++ rest) left) (numbers : ∀ c ∈ number, inNumber c = true)
    (ends : Ends rest) : Stuck left ∨ left = rest := by
  obtain ⟨taken, same, others⟩ := consumes
  rcases List.append_eq_append_iff.1 same with ⟨beyond, rfl, rfl⟩ | ⟨missing, rfl, rfl⟩
  · cases beyond with
    | nil => exact .inr rfl
    | cons c cs =>
      have inside := others c (List.mem_append_right _ List.mem_cons_self)
      rw [ends c rfl] at inside
      cases inside
  · cases missing with
    | nil => exact .inr rfl
    | cons c cs =>
      exact .inl ⟨c, cs ++ rest, rfl, numbers c (List.mem_append_right _ List.mem_cons_self)⟩

private theorem readValue_number (levels : Nat) {c : Char} (cs : List Char)
    (number : inNumber c = true) : readValue levels (c :: cs) = readNumber (c :: cs) := by
  cases levels <;> exact readValueWith_number cs number

private theorem readValue_plain {j back : Json} {levels : Nat} {rest left : List Char}
    (leaf : j.depth = 0) (integral : j.Integral) (same : j.Echo j) (ends : Ends rest)
    (read : readValue levels (j.chars ++ rest) = some (back, left)) :
    Stuck left ∨ left = rest ∧ j.Echo back := by
  rw [readValue_leaf levels leaf integral ends.endsNumber] at read
  cases read
  exact .inr ⟨rfl, same⟩

private theorem readValue_double {x : Float} {levels : Nat} {rest left : List Char} {j : Json}
    (ends : Ends rest) (read : readValue levels ((float x).chars ++ rest) = some (j, left)) :
    Stuck left ∨ left = rest ∧ Echo (float x) j := by
  rw [chars] at read
  rcases floatText_cases x with none | ⟨c, cs, text, numbers⟩
  · rw [none, readValue_leaf (j := null) levels rfl trivial ends.endsNumber] at read
    cases read
    exact .inr ⟨rfl, .lost x⟩
  · rw [text, List.cons_append, readValue_number levels _ (numbers c List.mem_cons_self)] at read
    refine (Consumes.stuck_or_eq (readNumber_consumes read) numbers ends).imp_right fun same => ?_
    refine ⟨same, ?_⟩
    rcases readNumber_cases read with ⟨n, rfl⟩ | ⟨y, rfl⟩
    · exact .whole x n
    · exact .float x y

private theorem readValueWith_array {nested : Option (Text.Reader Json)} {items : List Json}
    {rest left : List Char} {j : Json}
    (read : readValueWith nested ((array items).chars ++ rest) = some (j, left)) :
    (items = [] ∧ j = array [] ∧ left = rest) ∨
      ∃ item bound others, nested = some item ∧ items ≠ [] ∧ j = array others ∧
        readItems item bound [] (itemChars [] items ++ ']' :: rest) = some (others, left) := by
  rw [chars, List.cons_append, List.append_assoc, List.singleton_append, readValueWith,
    skipSpace_cons _ (by decide)] at read
  obtain ⟨item, given, read⟩ := Option.bind_eq_some_iff.1 read
  cases items with
  | nil =>
    rw [itemChars, List.nil_append, skipSpace_cons rest (by decide)] at read
    cases read
    exact .inl ⟨rfl, rfl, rfl⟩
  | cons first more =>
    obtain ⟨c, cs, text, visible, notClosed⟩ := chars_head first
    have head : itemChars [] (first :: more) ++ ']' :: rest =
        c :: (cs ++ (itemChars [','] more ++ ']' :: rest)) := by
      simp only [itemChars, text, List.nil_append, List.cons_append, List.append_assoc]
    rw [head, skipSpace_cons _ visible, ← head] at read
    split at read
    · next same =>
      rw [head] at same
      cases same
      exact absurd rfl notClosed
    · obtain ⟨⟨others, after⟩, inside, same⟩ := Option.map_eq_some_iff.1 read
      cases same
      exact .inr ⟨item, _, others, given, List.cons_ne_nil _ _, rfl, inside⟩

private theorem readValueWith_object {nested : Option (Text.Reader Json)}
    {fields : List (String × Json)} {rest left : List Char} {j : Json}
    (read : readValueWith nested ((object fields).chars ++ rest) = some (j, left)) :
    (fields = [] ∧ j = object [] ∧ left = rest) ∨
      ∃ item bound others, nested = some item ∧ fields ≠ [] ∧ j = object others ∧
        readFields item bound [] (fieldChars [] fields ++ '\x7d' :: rest) =
          some (others, left) := by
  rw [chars, List.cons_append, List.append_assoc, List.singleton_append, readValueWith,
    skipSpace_cons _ (by decide)] at read
  obtain ⟨item, given, read⟩ := Option.bind_eq_some_iff.1 read
  cases fields with
  | nil =>
    rw [fieldChars, List.nil_append, skipSpace_cons rest (by decide)] at read
    cases read
    exact .inl ⟨rfl, rfl, rfl⟩
  | cons first more =>
    have quoted : skipSpace (fieldChars [] (first :: more) ++ '\x7d' :: rest) =
        fieldChars [] (first :: more) ++ '\x7d' :: rest := skipSpace_cons _ (by decide)
    rw [quoted] at read
    split at read
    · next same => cases same
    · obtain ⟨⟨others, after⟩, inside, same⟩ := Option.map_eq_some_iff.1 read
      cases same
      exact .inr ⟨item, _, others, given, List.cons_ne_nil _ _, rfl, inside⟩

mutual

/-- A value that is read off the text of another one is its echo, unless the reader is stuck. -/
theorem readValue_echo (j : Json) {levels : Nat} {rest left : List Char} {back : Json}
    (ends : Ends rest) (read : readValue levels (j.chars ++ rest) = some (back, left)) :
    Stuck left ∨ left = rest ∧ j.Echo back := by
  cases j with
  | null => exact readValue_plain rfl trivial .null ends read
  | bool b => exact readValue_plain rfl trivial (.bool b) ends read
  | int n => exact readValue_plain rfl trivial (.int n) ends read
  | string s => exact readValue_plain rfl trivial (.string s) ends read
  | float x => exact readValue_double ends read
  | array items =>
    right
    cases levels with
    | zero =>
      rcases readValueWith_array read with ⟨rfl, rfl, rfl⟩ | ⟨_, _, _, given, -⟩
      · exact ⟨rfl, .array .nil⟩
      · cases given
    | succ level =>
      rcases readValueWith_array read with ⟨rfl, rfl, rfl⟩ | ⟨_, _, _, given, some, rfl, inside⟩
      · exact ⟨rfl, .array .nil⟩
      · cases given
        obtain ⟨rfl, more, rfl, echo⟩ := readItems_echo items some inside
        exact ⟨rfl, .array echo⟩
  | object fields =>
    right
    cases levels with
    | zero =>
      rcases readValueWith_object read with ⟨rfl, rfl, rfl⟩ | ⟨_, _, _, given, -⟩
      · exact ⟨rfl, .object .nil⟩
      · cases given
    | succ level =>
      rcases readValueWith_object read with ⟨rfl, rfl, rfl⟩ | ⟨_, _, _, given, some, rfl, inside⟩
      · exact ⟨rfl, .object .nil⟩
      · cases given
        obtain ⟨rfl, more, rfl, echo⟩ := readFields_echo fields some inside
        exact ⟨rfl, .object echo⟩

theorem readItems_echo (items : List Json) {level : Nat} {bound rest left : List Char}
    {taken others : List Json} (some : items ≠ [])
    (read : readItems (readValue level) bound taken (itemChars [] items ++ ']' :: rest) =
      .some (others, left)) :
    left = rest ∧ ∃ more, others = taken.reverse ++ more ∧ EchoItems items more := by
  cases items with
  | nil => exact absurd rfl some
  | cons item next =>
    cases bound with
    | nil => cases read
    | cons b bound =>
      rw [itemChars, List.nil_append, List.append_assoc, readItems] at read
      obtain ⟨⟨value, after⟩, one, read⟩ := Option.bind_eq_some_iff.1 read
      dsimp only at read
      rcases readValue_echo item (ends_items next rest) one with stuck | ⟨rfl, echo⟩
      · rw [stuck.skipSpace] at read
        split at read
        · exact absurd rfl (stuck.head_ne rfl)
        · exact absurd rfl (stuck.head_ne rfl)
        · cases read
      · cases next with
        | nil =>
          rw [itemChars, List.nil_append, skipSpace_cons rest (by decide)] at read
          cases read
          exact ⟨rfl, [value], List.reverse_cons, .cons echo .nil⟩
        | cons second next =>
          rw [itemChars_cons, List.append_assoc, List.singleton_append,
            skipSpace_cons _ (by decide)] at read
          obtain ⟨rfl, more, rfl, inside⟩ :=
            readItems_echo (second :: next) (List.cons_ne_nil _ _) read
          refine ⟨rfl, value :: more, ?_, .cons echo inside⟩
          rw [List.reverse_cons, List.append_assoc, List.singleton_append]

theorem readFields_echo (fields : List (String × Json)) {level : Nat}
    {bound rest left : List Char} {taken others : List (String × Json)} (some : fields ≠ [])
    (read : readFields (readValue level) bound taken (fieldChars [] fields ++ '\x7d' :: rest) =
      .some (others, left)) :
    left = rest ∧ ∃ more,
      others = more.foldl (fun sorted entry => Fields.insert entry.1 entry.2 sorted) taken ∧
        EchoFields fields more := by
  cases fields with
  | nil => exact absurd rfl some
  | cons field next =>
    obtain ⟨key, value⟩ := field
    cases bound with
    | nil => cases read
    | cons b bound =>
      have named := readString_quoted key
        (':' :: (value.chars ++ (fieldChars [','] next ++ '\x7d' :: rest)))
      simp only [fieldChars, quotedChars, List.nil_append, List.append_assoc,
        List.cons_append] at read
      rw [readFields, skipSpace_cons _ (by decide)] at read
      simp only [named, skipSpace_cons _ (c := ':') (by decide), Option.bind_eq_bind,
        Option.bind_some] at read
      obtain ⟨⟨back, after⟩, one, read⟩ := Option.bind_eq_some_iff.1 read
      dsimp only at read
      rcases readValue_echo value (ends_fields next rest) one with stuck | ⟨rfl, echo⟩
      · rw [stuck.skipSpace] at read
        split at read
        · exact absurd rfl (stuck.head_ne rfl)
        · exact absurd rfl (stuck.head_ne rfl)
        · cases read
      · cases next with
        | nil =>
          rw [fieldChars, List.nil_append, skipSpace_cons rest (by decide)] at read
          cases read
          exact ⟨rfl, [(key, back)], rfl, .cons echo .nil⟩
        | cons second next =>
          rw [fieldChars_cons, List.append_assoc, List.singleton_append,
            skipSpace_cons _ (by decide)] at read
          obtain ⟨rfl, more, rfl, inside⟩ :=
            readFields_echo (second :: next) (List.cons_ne_nil _ _) read
          exact ⟨rfl, (key, back) :: more, rfl, .cons echo inside⟩

end

/-- Whatever is read from the compact text of a value is its echo. -/
theorem parse?_compact_echo {j back : Json} (parsed : parse? j.compact = some back) :
    j.Echo back := by
  simp only [parse?, parseNested?, toList_compact, Option.bind_eq_bind,
    Option.bind_eq_some_iff] at parsed
  obtain ⟨⟨value, left⟩, read, parsed⟩ := parsed
  have ends : Ends [] := by
    intro c member
    cases member
  rw [← List.append_nil j.chars] at read
  rcases readValue_echo j ends read with stuck | ⟨rfl, echo⟩
  · obtain ⟨c, cs, rfl, -⟩ := id stuck
    rw [stuck.skipSpace] at parsed
    cases parsed
  · cases parsed
    exact echo

end Relay.Json
