import Relay.Json.Printer

/-! # JSON text as a list of characters

Writing appends to a text, which is how it runs; reading takes characters off the front of a list.
`Json.chars` is the compact text in the second form, built from the value alone, and
`toList_compact` says that the two are the same text. A list whose items are separated is written
with the separator before each item but the first, so that its rest does not depend on what was
written before.
-/

namespace Relay.Json

/-- A string in quotes. -/
def quotedChars (s : String) : List Char :=
  '"' :: (s.toList.flatMap escape ++ ['"'])

mutual

/-- The characters of the compact text of a value. -/
def chars : Json → List Char
  | null => ['n', 'u', 'l', 'l']
  | bool true => ['t', 'r', 'u', 'e']
  | bool false => ['f', 'a', 'l', 's', 'e']
  | int n => (toString n.val).toList
  | float x => (floatText x).toList
  | string s => quotedChars s
  | array items => '[' :: (itemChars [] items ++ [']'])
  | object fields => '\x7b' :: (fieldChars [] fields ++ ['\x7d'])

/-- The characters of items, with a separator before the first one. -/
def itemChars (separator : List Char) : List Json → List Char
  | [] => []
  | item :: rest => separator ++ (item.chars ++ itemChars [','] rest)

/-- The characters of keys and values, with a separator before the first one. -/
def fieldChars (separator : List Char) : List (String × Json) → List Char
  | [] => []
  | (key, value) :: rest =>
    separator ++ (quotedChars key ++ ':' :: (value.chars ++ fieldChars [','] rest))

end

theorem toList_pushAll (text : String) (cs : List Char) :
    (pushAll text cs).toList = text.toList ++ cs := by
  induction cs generalizing text with
  | nil => simp [pushAll]
  | cons c cs ih =>
    change (pushAll (text.push c) cs).toList = _
    rw [ih, String.toList_push, List.append_assoc, List.singleton_append]

private theorem toList_foldl_escape (text : String) (cs : List Char) :
    (cs.foldl (fun text c => pushAll text (escape c)) text).toList =
      text.toList ++ cs.flatMap escape := by
  induction cs generalizing text with
  | nil => simp
  | cons c cs ih => rw [List.foldl_cons, ih, toList_pushAll, List.append_assoc, List.flatMap_cons]

theorem toList_writeString (text s : String) :
    (writeString text s).toList = text.toList ++ quotedChars s := by
  rw [writeString, String.toList_push, toList_foldl_escape, String.toList_push, quotedChars]
  simp only [List.append_assoc, List.cons_append, List.nil_append]

mutual

theorem toList_write (text : String) (j : Json) :
    (write text j).toList = text.toList ++ j.chars := by
  cases j with
  | null => rw [write, String.toList_append]; rfl
  | bool b => cases b <;> (rw [write, String.toList_append]; rfl)
  | int n => rw [write, String.toList_append, chars]
  | float x => rw [write, String.toList_append, chars]
  | string s => rw [write, toList_writeString, chars]
  | array items =>
    rw [write, String.toList_push, toList_writeItems, String.toList_push, chars]
    simp only [String.toList_empty, List.append_assoc, List.cons_append, List.nil_append]
  | object fields =>
    rw [write, String.toList_push, toList_writeFields, String.toList_push, chars]
    simp only [String.toList_empty, List.append_assoc, List.cons_append, List.nil_append]

theorem toList_writeItems (text separator : String) (items : List Json) :
    (writeItems text separator items).toList =
      text.toList ++ itemChars separator.toList items := by
  cases items with
  | nil => rw [writeItems, itemChars, List.append_nil]
  | cons item rest =>
    rw [writeItems, toList_writeItems, toList_write, String.toList_append, itemChars]
    simp only [List.append_assoc]
    rfl

theorem toList_writeFields (text separator : String) (fields : List (String × Json)) :
    (writeFields text separator fields).toList =
      text.toList ++ fieldChars separator.toList fields := by
  cases fields with
  | nil => rw [writeFields, fieldChars, List.append_nil]
  | cons field rest =>
    obtain ⟨key, value⟩ := field
    rw [writeFields, toList_writeFields, toList_write, String.toList_push, toList_writeString,
      String.toList_append, fieldChars]
    simp only [List.append_assoc, List.cons_append, List.nil_append]
    rfl

end

theorem toList_compact (j : Json) : j.compact.toList = j.chars := by
  rw [compact, toList_write, String.toList_empty, List.nil_append]

/-! ## Parts of a text -/

theorem chars_item_sublist {item : Json} {items : List Json} (member : item ∈ items)
    (separator : List Char) : item.chars.Sublist (itemChars separator items) := by
  induction items generalizing separator with
  | nil => exact absurd member List.not_mem_nil
  | cons head rest ih =>
    rw [itemChars]
    refine List.Sublist.trans ?_ (List.sublist_append_right separator _)
    rcases List.mem_cons.1 member with rfl | later
    · exact List.sublist_append_left _ _
    · exact (ih later [',']).trans (List.sublist_append_right _ _)

theorem chars_field_sublist {key : String} {value : Json} {fields : List (String × Json)}
    (member : (key, value) ∈ fields) (separator : List Char) :
    value.chars.Sublist (fieldChars separator fields) := by
  induction fields generalizing separator with
  | nil => exact absurd member List.not_mem_nil
  | cons head rest ih =>
    obtain ⟨name, held⟩ := head
    rw [fieldChars]
    refine List.Sublist.trans ?_ (List.sublist_append_right separator _)
    refine List.Sublist.trans ?_ (List.sublist_append_right (quotedChars name) _)
    refine List.Sublist.trans ?_ (List.sublist_cons_self ':' _)
    rcases List.mem_cons.1 member with same | later
    · cases same
      exact List.sublist_append_left _ _
    · exact (ih later [',']).trans (List.sublist_append_right _ _)

end Relay.Json
