import Relay.Store.Template

/-! # Texts without placeholders

Filling in goes once from left to right, `fill_eq`. A text without placeholders stays as it is,
`fill_eq_self`. What is put into a text may bring new placeholders with it, or make them together
with the text around it; without a dollar sign in what is put in and before a placeholder there are
none afterwards, `not_hasPlaceholder_fill`.
-/

namespace Relay.Template

/-- The text begins with a placeholder. -/
def StartsPlaceholder (text : List Char) : Prop :=
  ∃ name after, text = '$' :: '\x7b' :: (name ++ '\x7d' :: after) ∧ name ≠ [] ∧ '\x7d' ∉ name

/-- There is a placeholder in the text. -/
def HasPlaceholder (text : List Char) : Prop :=
  ∃ later, later <:+ text ∧ StartsPlaceholder later

/-- The text with its placeholders filled in, after an opening bracket and a part of a name, last
character first, if a placeholder is open. -/
def filled (f : List Char → List Char) : Option (List Char) → List Char → List Char
  | none, [] => []
  | some name, [] => '$' :: '\x7b' :: name.reverse
  | some name, c :: rest =>
    if c = '\x7d' then
      if name.isEmpty then '$' :: '\x7b' :: '\x7d' :: filled f none rest
      else f name.reverse ++ filled f none rest
    else filled f (some (c :: name)) rest
  | none, '$' :: '\x7b' :: rest => filled f (some []) rest
  | none, c :: rest => c :: filled f none rest

variable {f : List Char → List Char}

theorem fillFrom_eq (result : List Char) (name : Option (List Char)) (text : List Char) :
    fillFrom f result name text = result.reverse ++ filled f name text := by
  induction result, name, text using fillFrom.induct f with
  | case1 result => simp [fillFrom, filled]
  | case2 result name => simp [fillFrom, filled]
  | case3 result rest name empty ih => simp [fillFrom, filled, empty, ih]
  | case4 result rest name named ih => simp [fillFrom, filled, named, ih]
  | case5 result c rest name inside ih => simp [fillFrom, filled, inside, ih]
  | case6 result rest ih => simp [fillFrom, filled, ih]
  | case7 result c rest plain ih =>
    rw [fillFrom, filled, ih, List.reverse_cons, List.append_assoc, List.singleton_append]
    · exact plain
    · exact plain

theorem fill_eq (text : List Char) : fill f text = filled f none text :=
  fillFrom_eq [] none text

/-! ## Where placeholders are -/

theorem hasPlaceholder_cons {c : Char} {text : List Char} :
    HasPlaceholder (c :: text) ↔ StartsPlaceholder (c :: text) ∨ HasPlaceholder text := by
  constructor
  · rintro ⟨later, suffix, starts⟩
    rcases List.suffix_cons_iff.1 suffix with rfl | behind
    · exact .inl starts
    · exact .inr ⟨later, behind, starts⟩
  · rintro (starts | ⟨later, suffix, starts⟩)
    · exact ⟨c :: text, List.suffix_refl _, starts⟩
    · exact ⟨later, List.suffix_cons_iff.2 (.inr suffix), starts⟩

theorem not_hasPlaceholder_nil : ¬ HasPlaceholder [] := by
  rintro ⟨later, suffix, name, after, rfl, -⟩
  cases List.suffix_nil.1 suffix

theorem HasPlaceholder.of_suffix {later text : List Char} (has : HasPlaceholder later)
    (suffix : later <:+ text) : HasPlaceholder text := by
  obtain ⟨last, inside, starts⟩ := has
  exact ⟨last, inside.trans suffix, starts⟩

theorem StartsPlaceholder.head {c : Char} {text : List Char}
    (starts : StartsPlaceholder (c :: text)) : c = '$' ∧ ∃ rest, text = '\x7b' :: rest := by
  obtain ⟨name, after, same, -⟩ := starts
  cases same
  exact ⟨rfl, _, rfl⟩

/-- What stands before a text brings no placeholder with it if it has no dollar sign. -/
theorem hasPlaceholder_append {before text : List Char} (plain : '$' ∉ before) :
    HasPlaceholder (before ++ text) ↔ HasPlaceholder text := by
  induction before with
  | nil => rfl
  | cons c before ih =>
    obtain ⟨different, rest⟩ := not_or.1 (mt List.mem_cons.2 plain)
    rw [List.cons_append, hasPlaceholder_cons, ih rest]
    refine or_iff_right ?_
    intro starts
    exact different starts.head.1.symm

theorem not_hasPlaceholder_of_notMem {text : List Char} (closed : '\x7d' ∉ text) :
    ¬ HasPlaceholder text := by
  rintro ⟨later, suffix, name, after, rfl, -⟩
  exact closed (suffix.subset (by simp))

/-! ## Filling in -/

/-- What has been read of an open placeholder. -/
def opened : Option (List Char) → List Char
  | none => []
  | some name => '$' :: '\x7b' :: name.reverse

private theorem filled_eq_self (name : Option (List Char)) (text : List Char)
    (inside : ∀ read ∈ name, '\x7d' ∉ read) (free : ¬ HasPlaceholder (opened name ++ text)) :
    filled f name text = opened name ++ text := by
  induction name, text using filled.induct with
  | case1 => rfl
  | case2 name => simp [filled, opened]
  | case3 name rest empty ih =>
    obtain rfl := List.isEmpty_iff.1 empty
    have later : ¬ HasPlaceholder rest :=
      fun has => free (has.of_suffix ⟨['$', '\x7b', '\x7d'], rfl⟩)
    simp [filled, opened, ih nofun later]
  | case4 name rest named ih =>
    have some : name.reverse ≠ [] := by simpa using named
    have closing : '\x7d' ∉ name.reverse := by simpa using inside name rfl
    exact absurd ⟨_, List.suffix_refl _, name.reverse, rest, rfl, some, closing⟩ free
  | case5 name c rest different ih =>
    have same : opened (some (c :: name)) ++ rest = opened (some name) ++ c :: rest := by
      simp [opened]
    have before : ∀ read ∈ some (c :: name), '\x7d' ∉ read := by
      rintro _ ⟨⟩
      exact List.not_mem_cons_of_ne_of_not_mem (Ne.symm different) (inside name rfl)
    rw [filled, if_neg different, ih before (same ▸ free), same]
  | case6 rest ih =>
    rw [filled, ih (by rintro _ ⟨⟩; exact List.not_mem_nil) free]
    rfl
  | case7 c rest plain ih =>
    have later : ¬ HasPlaceholder rest := fun has => free (has.of_suffix (List.suffix_cons c rest))
    rw [filled, ih nofun later]
    · rfl
    · exact plain

private theorem not_hasPlaceholder_filled (plain : ∀ name, '$' ∉ f name)
    (name : Option (List Char)) (text : List Char) (inside : ∀ read ∈ name, '\x7d' ∉ read)
    (single : ¬ ['$', '$', '\x7b'] <:+: text) : ¬ HasPlaceholder (filled f name text) := by
  induction name, text using filled.induct with
  | case1 => exact not_hasPlaceholder_nil
  | case2 name =>
    have closed : '\x7d' ∉ name := inside name rfl
    apply not_hasPlaceholder_of_notMem
    simpa [filled] using closed
  | case3 name rest empty ih =>
    have later := ih nofun fun within => single (List.infix_cons within)
    have shut : ¬ StartsPlaceholder ('$' :: '\x7b' :: '\x7d' :: filled f none rest) := by
      rintro ⟨read, after, same, named, closing⟩
      cases read with
      | nil => exact named rfl
      | cons c read =>
        simp only [List.cons_append, List.cons.injEq] at same
        exact closing (same.2.2.1 ▸ List.mem_cons_self)
    have brackets : '$' ∉ ['\x7b', '\x7d'] := by decide
    rw [filled, if_pos rfl, if_pos empty, hasPlaceholder_cons]
    exact not_or.2 ⟨shut, mt (hasPlaceholder_append brackets).1 later⟩
  | case4 name rest named ih =>
    have later := ih nofun fun within => single (List.infix_cons within)
    rw [filled, if_pos rfl, if_neg named, hasPlaceholder_append (plain _)]
    exact later
  | case5 name c rest different ih =>
    rw [filled, if_neg different]
    refine ih ?_ fun within => single (List.infix_cons within)
    rintro _ ⟨⟩
    exact List.not_mem_cons_of_ne_of_not_mem (Ne.symm different) (inside name rfl)
  | case6 rest ih =>
    rw [filled]
    refine ih ?_ fun within => single (List.infix_cons (List.infix_cons within))
    rintro _ ⟨⟩
    exact List.not_mem_nil
  | case7 c rest apart ih =>
    have later := ih nofun fun within => single (List.infix_cons within)
    rw [filled, hasPlaceholder_cons]
    · refine not_or.2 ⟨fun starts => ?_, later⟩
      -- The bracket behind a dollar sign was behind it before, or behind a second dollar sign.
      obtain ⟨rfl, behind, same⟩ := starts.head
      cases rest with
      | nil => cases same
      | cons d rest =>
        rw [filled] at same
        · cases same
          exact apart rest rfl rfl
        · rintro more rfl rfl
          exact single ⟨[], more, rfl⟩
    · exact apart

/-- A text without placeholders stays as it is. -/
theorem fill_eq_self {text : List Char} (free : ¬ HasPlaceholder text) : fill f text = text := by
  rw [fill_eq]
  exact filled_eq_self none text nofun free

/-- There is no placeholder in a text after filling in if no dollar sign is put in and none stands
before a placeholder. -/
theorem not_hasPlaceholder_fill (plain : ∀ name, '$' ∉ f name) {text : List Char}
    (single : ¬ ['$', '$', '\x7b'] <:+: text) : ¬ HasPlaceholder (fill f text) := by
  rw [fill_eq]
  exact not_hasPlaceholder_filled plain none text nofun single

end Relay.Template
