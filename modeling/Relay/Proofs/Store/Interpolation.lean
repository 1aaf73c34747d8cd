import Relay.Proofs.Store.Resolve

/-! # Texts put together around placeholders

A template is text in which no placeholder opens, followed by placeholders that each have such text
behind them. Written out and filled in it is the same with the value of each name in the place of
the placeholder, `interpolate_text`: text may end in a dollar sign or begin with a bracket, names
may look like placeholders, and so may the values, which are not looked at again.
-/

namespace Relay

/-- Text in which no placeholder opens, followed by placeholders with such text behind them. The
name of a placeholder has at least one character and no closing brace. -/
structure Template where
  first : { text : String // ¬ ['$', '\x7b'] <:+: text.toList }
  slots : List ({ name : String // name ≠ "" ∧ '\x7d' ∉ name.toList } ×
    { text : String // ¬ ['$', '\x7b'] <:+: text.toList })

namespace Template

/-- The template as it is written. -/
def text (t : Template) : String :=
  t.first ++ String.join (t.slots.map fun slot => "$\x7b" ++ slot.1 ++ "\x7d" ++ slot.2)

/-- The template with the values that a store holds under the names of its placeholders. -/
def shown (t : Template) (store : Store) : String :=
  t.first ++ String.join (t.slots.map fun slot => (store.slot slot.1).display ++ slot.2)

variable {f : List Char → List Char}

/-- Text in which no placeholder opens stays, if what follows does not open one with it. -/
theorem filled_literal {literal rest : List Char} (plain : ¬ ['$', '\x7b'] <:+: literal)
    (apart : rest.head? ≠ some '\x7b') :
    filled f none (literal ++ rest) = literal ++ filled f none rest := by
  induction literal with
  | nil => rfl
  | cons c literal ih =>
    have later : ¬ ['$', '\x7b'] <:+: literal := fun within => plain (List.infix_cons within)
    rw [List.cons_append, filled, ih later, List.cons_append]
    rintro others rfl behind
    cases literal with
    | nil =>
      apply apart
      rw [← List.nil_append rest, behind]
      rfl
    | cons d literal =>
      obtain ⟨rfl, -⟩ := List.cons.inj behind
      exact plain ⟨[], literal, rfl⟩

/-- A name is read up to the closing brace. -/
theorem filled_name {name : List Char} (closed : '\x7d' ∉ name) (read rest : List Char) :
    filled f (some read) (name ++ '\x7d' :: rest) =
      filled f (some (name.reverse ++ read)) ('\x7d' :: rest) := by
  induction name generalizing read with
  | nil => rfl
  | cons c name ih =>
    obtain ⟨different, later⟩ := not_or.1 (mt List.mem_cons.2 closed)
    rw [List.cons_append, filled, if_neg (Ne.symm different), ih later, List.reverse_cons,
      List.append_assoc, List.singleton_append]

/-- A placeholder is replaced. -/
theorem filled_placeholder {name : List Char} (named : name ≠ []) (closed : '\x7d' ∉ name)
    (rest : List Char) :
    filled f none ('$' :: '\x7b' :: (name ++ '\x7d' :: rest)) = f name ++ filled f none rest := by
  have some : ¬ (name.reverse ++ []).isEmpty = true := by simpa using named
  rw [filled, filled_name closed, filled, if_pos rfl, if_neg some, List.append_nil,
    List.reverse_reverse]

/-- Filling in goes over a template once and replaces its placeholders one by one. -/
theorem filled_text (t : Template) :
    filled f none t.text.toList =
      t.first.val.toList ++
        t.slots.flatMap fun slot => f slot.1.val.toList ++ slot.2.val.toList := by
  obtain ⟨first, slots⟩ := t
  have opening : "$\x7b".toList = ['$', '\x7b'] := rfl
  have closing : "\x7d".toList = ['\x7d'] := rfl
  simp only [text, String.toList_append, String.toList_join, List.flatMap_map, opening, closing,
    List.append_assoc, List.cons_append, List.nil_append]
  induction slots generalizing first with
  | nil => exact filled_literal first.property (by simp)
  | cons slot slots ih =>
    obtain ⟨name, literal⟩ := slot
    have named : name.val.toList ≠ [] := mt String.toList_eq_nil_iff.1 name.property.1
    simp only [List.flatMap_cons, List.cons_append, List.append_assoc]
    rw [filled_literal first.property (by simp), filled_placeholder named name.property.2,
      ih literal]

end Template

namespace Store

theorem placeholder_toList (store : Store) (name : String) :
    store.placeholder name.toList = (store.slot name).display.toList := by
  rw [placeholder, slot, String.ofList_toList]
  cases store.get? name with
  | none => rfl
  | some value => rfl

/-- A placeholder shows a string as it is, nothing for null or where the store has no value, and
JSON for anything else. -/
theorem display_slot (store : Store) (name : String) :
    (store.slot name).display =
      match store.get? name with
      | none | some .null => ""
      | some (.string s) => s
      | some v => v.compact := by
  rw [slot]
  cases store.get? name with
  | none => rfl
  | some v => cases v <;> rfl

/-- Filling in replaces every placeholder of a template by the value of its name and leaves the rest
as it is. A string is put in as it is, nothing for null or where the store has no value, and JSON
for anything else. Filling in a tree does so with each of its strings, and with nothing else. -/
theorem interpolate_text (store : Store) :
    (∀ t : Template, store.interpolate t.text = t.shown store) ∧
      (∀ name, (store.slot name).display =
        match store.get? name with
        | none | some .null => ""
        | some (.string s) => s
        | some v => v.compact) ∧
      ∀ v : Json, store.resolve v = v.mapLeaves store.resolveLeaf := by
  refine ⟨?_, display_slot store, resolve_eq_mapLeaves store⟩
  intro t
  apply String.toList_inj.1
  rw [interpolate, Template.fill_eq, Template.filled_text, String.toList_ofList, Template.shown]
  simp only [String.toList_append, String.toList_join, List.flatMap_map, placeholder_toList]

/-- A dollar sign before a placeholder, a name that begins like a placeholder, and one without a
value. -/
def priceTag : Template where
  first := ⟨"5$", by decide⟩
  slots := [(⟨"$\x7ba", by decide⟩, ⟨"\x7b", by decide⟩), (⟨"gone", by decide⟩, ⟨"", by decide⟩)]

/-- The value that is put in looks like a placeholder itself. -/
theorem interpolate_text_priceTag :
    priceTag.text = "5$$\x7b$\x7ba\x7d\x7b$\x7bgone\x7d" ∧
      interpolate (Dict.ofList [("$\x7ba", .string "$\x7bb\x7d")]) priceTag.text =
        "5$$\x7bb\x7d\x7b" :=
  ⟨rfl, (interpolate_text _).1 priceTag⟩

end Store

end Relay
