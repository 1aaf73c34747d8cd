import Relay.Script.Token

/-! # What the removal of comments keeps

The removal of comments goes through the text with one state for what it is in. A text that it keeps
as it is takes it from one state to another, so such texts can be put one behind the other. Every
comment starts with a slash that is taken away, so a text that has kept its slashes is unchanged.
-/

namespace Relay.Script

/-- The removal of comments keeps the text and goes from one state to another, whatever follows. -/
def Passes (start stop : CommentState) (text : List Char) : Prop :=
  ∀ kept rest, removeCommentsFrom start kept (text ++ rest) =
    removeCommentsFrom stop (text.reverse ++ kept) rest

section Passes

variable {start between stop : CommentState} {text more : List Char} {quote c : Char}

theorem passes_nil (state : CommentState) : Passes state state [] :=
  fun _ _ => rfl

theorem Passes.append (first : Passes start between text) (second : Passes between stop more) :
    Passes start stop (text ++ more) := by
  intro kept rest
  rw [List.append_assoc, first, second, List.reverse_append, List.append_assoc]

theorem Passes.cons (first : Passes start between [c]) (second : Passes between stop text) :
    Passes start stop (c :: text) :=
  first.append second

theorem removeComments_of_passes (passes : Passes .code .code text) :
    removeComments text = text := by
  have whole := passes [] []
  rw [List.append_nil, List.append_nil] at whole
  rw [removeComments, whole]
  exact List.reverse_reverse text

/-! ### Quotes -/

theorem passes_open (quotes : quote = '"' ∨ quote = '\'' ∨ quote = '\x60') :
    Passes .code (.quoted quote) [quote] := by
  intro kept rest
  rw [List.singleton_append, removeCommentsFrom.eq_def]
  exact if_pos quotes

theorem passes_close (other : quote ≠ '\\') : Passes (.quoted quote) .code [quote] := by
  intro kept rest
  rw [List.singleton_append, removeCommentsFrom.eq_def]
  dsimp only
  rw [if_neg other, if_pos rfl]
  rfl

theorem passes_inside (inside : c ≠ quote) (plain : c ≠ '\\') :
    Passes (.quoted quote) (.quoted quote) [c] := by
  intro kept rest
  rw [List.singleton_append, removeCommentsFrom.eq_def]
  dsimp only
  rw [if_neg plain, if_neg inside]
  rfl

theorem passes_escape : Passes (.quoted quote) (.quoted quote) ['\\', c] := by
  intro kept rest
  rw [List.cons_append, removeCommentsFrom.eq_def]
  dsimp only
  rw [if_pos rfl, List.singleton_append, removeCommentsFrom.eq_def]
  rfl

/-! ### Code -/

/-- A character that quotes, escapes and comments do not start with. -/
def isPlain (c : Char) : Bool :=
  c ≠ '"' ∧ c ≠ '\'' ∧ c ≠ '\x60' ∧ c ≠ '\\' ∧ c ≠ '/'

theorem passes_code (plain : isPlain c = true) : Passes .code .code [c] := by
  intro kept rest
  obtain ⟨noQuote, noApostrophe, noBackquote, -, noSlash⟩ := of_decide_eq_true plain
  have quoteless : ¬ (c = '"' ∨ c = '\'' ∨ c = '\x60') := by
    rintro (same | same | same)
    · exact noQuote same
    · exact noApostrophe same
    · exact noBackquote same
  rw [List.singleton_append, removeCommentsFrom.eq_def]
  dsimp only
  rw [if_neg quoteless, if_neg noSlash]
  rfl

/-- A slash is kept if what follows does not make it the start of a comment. -/
theorem Passes.slash (passes : Passes .code stop (c :: text)) (line : c ≠ '/') (block : c ≠ '*') :
    Passes .code stop ('/' :: c :: text) := by
  intro kept rest
  have slash : ¬ ('/' = '"' ∨ '/' = '\'' ∨ '/' = '\x60') := by decide
  have next := passes ('/' :: kept) rest
  rw [List.cons_append] at next
  rw [List.cons_append, List.cons_append, removeCommentsFrom.eq_def]
  dsimp only
  rw [if_neg slash, if_pos rfl, List.reverse_cons, List.append_assoc, List.singleton_append, ← next]
  split
  · rename_i same
    cases same
    exact absurd rfl line
  · rename_i same
    cases same
    exact absurd rfl block
  · rfl

theorem passes_plain (plain : ∀ c ∈ text, isPlain c = true) : Passes .code .code text := by
  induction text with
  | nil => exact passes_nil .code
  | cons c text ih =>
    obtain ⟨here, later⟩ := List.forall_mem_cons.1 plain
    exact (passes_code here).cons (ih later)

theorem passes_plain_quoted (quotes : quote = '"' ∨ quote = '\'' ∨ quote = '\x60')
    (plain : ∀ c ∈ text, isPlain c = true) : Passes (.quoted quote) (.quoted quote) text := by
  induction text with
  | nil => exact passes_nil _
  | cons c text ih =>
    obtain ⟨here, later⟩ := List.forall_mem_cons.1 plain
    obtain ⟨noQuote, noApostrophe, noBackquote, noEscape, -⟩ := of_decide_eq_true here
    have inside : c ≠ quote := by
      rcases quotes with rfl | rfl | rfl
      · exact noQuote
      · exact noApostrophe
      · exact noBackquote
    exact (passes_inside inside noEscape).cons (ih later)

theorem removeComments_plain (plain : ∀ c ∈ text, isPlain c = true) : removeComments text = text :=
  removeComments_of_passes (passes_plain plain)

end Passes

/-! ### Slashes -/

/-- The number of slashes. -/
def slashes (text : List Char) : Nat :=
  text.count '/'

theorem slashes_append (text more : List Char) :
    slashes (text ++ more) = slashes text + slashes more :=
  List.count_append

theorem slashes_cons (c : Char) (text : List Char) :
    slashes (c :: text) = slashes [c] + slashes text :=
  slashes_append [c] text

theorem slashes_reverse (text : List Char) : slashes text.reverse = slashes text :=
  List.count_reverse

theorem slashes_eq_zero {text : List Char} (foreign : '/' ∉ text) : slashes text = 0 :=
  List.count_eq_zero_of_not_mem foreign

/-- Outside comments everything is kept. -/
def CommentState.keeps : CommentState → Bool
  | code => true
  | quoted _ => true
  | escaped _ => true
  | line => false
  | block _ => false

/-- What becomes of the text so far and the rest: slashes may go, and some do if outside comments
anything changes. -/
structure Loses (state : CommentState) (kept s out : List Char) : Prop where
  fewer : slashes out ≤ slashes kept + slashes s
  changed : state.keeps = true → out ≠ kept.reverse ++ s → slashes out < slashes kept + slashes s

section Loses

variable {state next : CommentState} {kept rest out : List Char} {c : Char}

/-- A character that is kept moves from the rest to the text so far. -/
private theorem Loses.keep (later : Loses next (c :: kept) rest out)
    (keeps : state.keeps = true → next.keeps = true) : Loses state kept (c :: rest) out := by
  have moved : slashes (c :: kept) + slashes rest = slashes kept + slashes (c :: rest) := by
    rw [slashes_cons c kept, slashes_cons c rest]
    omega
  obtain ⟨fewer, changed⟩ := later
  rw [moved] at fewer changed
  rw [List.reverse_cons, List.append_assoc, List.singleton_append] at changed
  exact ⟨fewer, fun state => changed (keeps state)⟩

/-- In a comment a character is dropped, and something without slashes may be put there. -/
private theorem Loses.drop (put : List Char) (later : Loses next (put ++ kept) rest out)
    (slashless : slashes put = 0) (comment : state.keeps = false) :
    Loses state kept (c :: rest) out where
  fewer := by
    have fewer := later.fewer
    rw [slashes_append, slashless] at fewer
    rw [slashes_cons]
    omega
  changed keeps := by
    rw [comment] at keeps
    cases keeps

/-- The slash that starts a comment goes. -/
private theorem Loses.start (later : Loses next kept rest out) :
    Loses state kept ('/' :: c :: rest) out := by
  have slash : slashes ['/'] = 1 := rfl
  have fewer := later.fewer
  have less : slashes out < slashes kept + slashes ('/' :: c :: rest) := by
    rw [slashes_cons '/', slashes_cons c, slash]
    omega
  exact ⟨Nat.le_of_lt less, fun _ _ => less⟩

theorem removeCommentsFrom_loses (state : CommentState) (kept s : List Char) :
    Loses state kept s (removeCommentsFrom state kept s) := by
  have nothing (state : CommentState) (kept : List Char) : Loses state kept [] kept.reverse :=
    ⟨Nat.le_of_eq (slashes_reverse kept), fun _ changed => absurd (List.append_nil _).symm changed⟩
  fun_induction removeCommentsFrom state kept s with
  | case1 kept star =>
    refine ⟨?_, nofun⟩
    rw [slashes_reverse, slashes_cons]
    exact Nat.le_of_eq (Nat.zero_add _)
  | case2 state kept => exact nothing state kept
  | case3 kept c rest quote next ih =>
    refine ih.keep fun _ => ?_
    dsimp only [next]
    split
    · rfl
    · split <;> rfl
  | case4 _ _ _ _ ih => exact ih.keep fun _ => rfl
  | case5 _ _ ih => exact ih.keep nofun
  | case6 kept _ _ _ ih => exact Loses.drop [] ih rfl rfl
  | case7 kept _ _ _ _ ih => exact Loses.drop [' '] ih rfl rfl
  | case8 kept _ _ _ _ ih => exact Loses.drop [] ih rfl rfl
  | case9 _ _ _ _ ih => exact ih.keep fun _ => rfl
  | case10 _ _ _ ih => exact ih.start
  | case11 _ _ _ ih => exact ih.start
  | case12 _ _ _ _ _ ih => exact ih.keep fun _ => rfl
  | case13 _ _ _ _ _ ih => exact ih.keep fun _ => rfl

/-- If the removal of comments changes a text, the text loses slashes. -/
theorem removeComments_of_slashes {s : List Char} (all : slashes s ≤ slashes (removeComments s)) :
    removeComments s = s := by
  have loses := removeCommentsFrom_loses .code [] s
  refine Decidable.of_not_not fun changed => ?_
  have less := loses.changed rfl changed
  rw [← removeComments] at less
  have none : slashes [] = 0 := rfl
  omega

end Loses

end Relay.Script
