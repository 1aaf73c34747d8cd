import Relay.Proofs.Script.NestingLimit
import Relay.Proofs.Script.Printing

/-! # What parsers answer with enough levels

A family of parsers, one for each number of levels, settles on an answer with some number of levels
if every member from there on gives it. Spaces in front of a text and in front of what is left of it
do not count, since some parsers of the grammar skip the spaces behind what they read and others
leave them. There is one rule for each way of putting parsers together, and one for each step of the
grammar that may use a level.
-/

namespace Relay.Script

open Relay.Script.Parser Relay.Script.Grammar

variable {α β : Type} {k : Nat}

/-! ### Answers -/

/-- With so many levels the parser reads the value from this very text. -/
def Reads (k : Nat) (p : Nat → Parser α) (s : List Char) (a : α) (rest : List Char) : Prop :=
  ∀ levels, k ≤ levels →
    ∃ left, p levels s = .ok (a, left) ∧ Text.skipSpace left = Text.skipSpace rest

/-- With so many levels the parser reads the value from the text, whatever spaces it starts with. -/
def Settles (k : Nat) (p : Nat → Parser α) (s : List Char) (a : α) (rest : List Char) : Prop :=
  ∀ levels, k ≤ levels → ∀ t, Text.skipSpace t = Text.skipSpace s →
    ∃ left, p levels t = .ok (a, left) ∧ Text.skipSpace left = Text.skipSpace rest

section Rules

variable {p : Nat → Parser α} {f : Nat → α → Parser β} {s mid rest : List Char} {a : α} {b : β}

theorem Settles.more {l : Nat} (settles : Settles k p s a rest) (le : k ≤ l) :
    Settles l p s a rest :=
  fun levels above => settles levels (Nat.le_trans le above)

theorem Settles.reads (settles : Settles k p s a rest) : Reads k p s a rest :=
  fun levels above => settles levels above s rfl

/-- Only what is visible of the text matters. -/
theorem Settles.visible {t : List Char} (settles : Settles k p s a rest)
    (same : Text.skipSpace t = Text.skipSpace s) : Settles k p t a rest :=
  fun levels above u shown => settles levels above u (shown.trans same)

theorem Reads.bind (first : Reads k p s a mid)
    (second : Settles k (fun n => f n a) mid b rest) :
    Reads k (fun n => p n >>= f n) s b rest := by
  intro levels above
  obtain ⟨between, taken, shown⟩ := first levels above
  obtain ⟨left, answer, shown'⟩ := second levels above between shown
  exact ⟨left, (bind_ok taken).trans answer, shown'⟩

theorem Settles.bind (first : Settles k p s a mid)
    (second : Settles k (fun n => f n a) mid b rest) :
    Settles k (fun n => p n >>= f n) s b rest := by
  intro levels above t same
  obtain ⟨between, taken, shown⟩ := first levels above t same
  obtain ⟨left, answer, shown'⟩ := second levels above between shown
  exact ⟨left, (bind_ok taken).trans answer, shown'⟩

theorem Reads.left {rest' : List Char} (reads : Reads k p s a rest)
    (same : Text.skipSpace rest = Text.skipSpace rest') : Reads k p s a rest' := by
  intro levels above
  obtain ⟨left, answer, shown⟩ := reads levels above
  exact ⟨left, answer, shown.trans same⟩

theorem settles_pure (a : α) : Settles k (fun _ => (pure a : Parser α)) s a s :=
  fun _ _ t same => ⟨t, rfl, same⟩

theorem Reads.map (reads : Reads k p s a rest) (g : α → β) :
    Reads k (fun n => g <$> p n) s (g a) rest :=
  reads.bind (settles_pure (g a))

theorem Settles.map (settles : Settles k p s a rest) (g : α → β) :
    Settles k (fun n => g <$> p n) s (g a) rest :=
  settles.bind (settles_pure (g a))

/-- A parser that skips spaces first. -/
theorem settles_spaces (reads : Reads k p (Text.skipSpace s) a rest) :
    Settles k (fun n => spaces >>= fun _ => p n) s a rest := by
  intro levels above t same
  obtain ⟨left, answer, shown⟩ := reads levels above
  refine ⟨left, ?_, shown⟩
  have skipped : spaces t = .ok ((), Text.skipSpace s) := by rw [spaces, same]
  exact (bind_ok skipped).trans answer

theorem Settles.congr {q : Nat → Parser α} (settles : Settles k q s a rest)
    (same : ∀ levels, p levels = q levels) : Settles k p s a rest :=
  fun levels above t shown => same levels ▸ settles levels above t shown

/-- A parser that looks at what is visible and goes on with another one behind it. -/
theorem settles_ahead {q : Nat → Parser α}
    (turn : ∀ levels t, Text.skipSpace t = Text.skipSpace s → p levels t = q levels mid)
    (reads : Reads k q mid a rest) : Settles k p s a rest := by
  intro levels above t same
  obtain ⟨left, answer, shown⟩ := reads levels above
  exact ⟨left, (turn levels t same).trans answer, shown⟩

theorem Reads.char (c : Char) (reads : Reads k p s a rest) :
    Reads k (fun n => char c >>= fun _ => p n) (c :: s) a rest := by
  intro levels above
  obtain ⟨left, answer, shown⟩ := reads levels above
  exact ⟨left, (bind_ok (char_self c s)).trans answer, shown⟩

/-- A visible character after spaces. -/
theorem settles_char {c : Char} (ahead : Text.skipSpace s = c :: mid)
    (reads : Reads k p mid a rest) :
    Settles k (fun n => spaces >>= fun _ => char c >>= fun _ => p n) s a rest := by
  refine settles_spaces ?_
  rw [ahead]
  exact reads.char c

/-- A visible character with spaces allowed on both sides. -/
theorem settles_spacedChar {c : Char} (ahead : Text.skipSpace s = c :: mid)
    (settles : Settles k p mid a rest) :
    Settles k (fun n => Parser.spaced (char c) >>= fun _ => p n) s a rest := by
  have taken : Reads k (fun _ => char c) (c :: mid) () mid :=
    fun _ _ => ⟨mid, char_self c mid, rfl⟩
  have around : Settles k (fun _ => Parser.spaced (char c)) s () mid := by
    refine settles_spaces ?_
    rw [ahead]
    refine taken.bind (f := fun _ _ => spaces >>= fun _ => pure ()) ?_
    exact settles_spaces ((settles_pure ()).reads.left (Text.skipSpace_skipSpace mid))
  exact around.bind (f := fun n _ => p n) settles

theorem reads_first {p q : Nat → Parser α} (reads : Reads k p s a rest) :
    Reads k (fun n => p n <|> q n) s a rest := by
  intro levels above
  obtain ⟨left, answer, shown⟩ := reads levels above
  exact ⟨left, orElse_ok answer, shown⟩

theorem reads_second {p q : Nat → Parser α} (missed : ∀ levels, p levels s = .error .mismatch)
    (reads : Reads k q s a rest) : Reads k (fun n => p n <|> q n) s a rest := by
  intro levels above
  obtain ⟨left, answer, shown⟩ := reads levels above
  exact ⟨left, (orElse_mismatch (missed levels)).trans answer, shown⟩

/-- Something in spaces, and a character right behind it. -/
theorem settles_spaced_char {c : Char} {next : List Char} (inside : Settles k p s a mid)
    (ahead : Text.skipSpace mid = c :: next) (more : Reads k (fun n => f n a) next b rest) :
    Settles k (fun n => Parser.spaced (p n) >>= fun a => char c >>= fun _ => f n a) s b rest := by
  intro levels above t same
  have shown : Text.skipSpace (Text.skipSpace t) = Text.skipSpace s := by
    rw [Text.skipSpace_skipSpace, same]
  obtain ⟨between, taken, visible⟩ := inside levels above _ shown
  obtain ⟨left, answer, shown'⟩ := more levels above
  have skipped : spaces t = .ok ((), Text.skipSpace t) := rfl
  have closed : spaces between = .ok ((), c :: next) := by rw [spaces, visible, ahead]
  have around : Parser.spaced (p levels) t = .ok (a, c :: next) := by
    rw [Parser.spaced, bind_ok skipped, bind_ok taken, bind_ok closed, pure_run]
  exact ⟨left, (bind_ok around).trans ((bind_ok (char_self c next)).trans answer), shown'⟩

/-- What is read below may be read with one more level. -/
theorem Reads.enter {p : Grammar → Parser α} (reads : Reads k (fun n => p (ofLevels n)) s a rest) :
    Reads (k + 1) (fun n => enter (belowOf n) p) s a rest := by
  intro levels above
  obtain ⟨fewer, rfl⟩ : ∃ fewer, levels = fewer + 1 := ⟨levels - 1, by omega⟩
  exact reads fewer (Nat.le_of_succ_le_succ above)

theorem Settles.enter {p : Grammar → Parser α}
    (settles : Settles k (fun n => p (ofLevels n)) s a rest) :
    Settles (k + 1) (fun n => enter (belowOf n) p) s a rest := by
  intro levels above
  obtain ⟨fewer, rfl⟩ : ∃ fewer, levels = fewer + 1 := ⟨levels - 1, by omega⟩
  exact settles fewer (Nat.le_of_succ_le_succ above)

end Rules

/-! ### What stands behind -/

/-- What may stand behind a name or a number: nothing that goes on with it. -/
structure Behind (rest : List Char) : Prop where
  apart : Apart rest
  call : ∀ cs, Text.skipSpace rest ≠ '(' :: cs
  fraction : ∀ c cs, rest = '.' :: c :: cs → c.isDigit = false

/-- A text in front of which an expression of the first so many tiers ends. -/
structure Stops (tier : Nat) (rest : List Char) : Prop where
  apart : Apart rest
  call : ∀ cs, Text.skipSpace rest ≠ '(' :: cs
  field : ∀ cs, Text.skipSpace rest ≠ '.' :: cs
  index : ∀ cs, Text.skipSpace rest ≠ '[' :: cs
  operator : ∀ t < tier, operator? t (Text.skipSpace rest) = none

/-- A text in front of which every expression ends. -/
structure Final (rest : List Char) : Prop extends Stops tierCount rest where
  question : ∀ cs, Text.skipSpace rest ≠ '?' :: cs

theorem Stops.behind {tier : Nat} {rest : List Char} (stops : Stops tier rest) : Behind rest where
  apart := stops.apart
  call := stops.call
  fraction c cs same := by
    subst same
    exact absurd (Text.skipSpace_visible _ rfl) (stops.field _)

theorem Stops.fewer {tier fewer : Nat} {rest : List Char} (stops : Stops tier rest)
    (less : fewer ≤ tier) : Stops fewer rest :=
  { stops with operator := fun t below => stops.operator t (Nat.lt_of_lt_of_le below less) }

theorem apart_of_visible {c : Char} {rest more : List Char}
    (visible : Text.skipSpace rest = c :: more) (other : isNameChar c = false) : Apart rest := by
  intro d ds same
  subst same
  cases blank : Text.isSpace d with
  | true =>
    simp only [Text.isSpace, Bool.or_eq_true, decide_eq_true_eq] at blank
    rcases blank with ((rfl | rfl) | rfl) | rfl <;> rfl
  | false =>
    rw [Text.skipSpace_visible ds blank] at visible
    cases visible
    exact other

theorem stops_of_visible {tier : Nat} {c : Char} {rest more : List Char}
    (visible : Text.skipSpace rest = c :: more)
    (head : isNameChar c = false ∧ c ≠ '(' ∧ c ≠ '.' ∧ c ≠ '[')
    (foreign : ∀ t < tier, Foreign t c) : Stops tier rest where
  apart := apart_of_visible visible head.1
  call cs same := by
    cases visible.symm.trans same
    exact absurd rfl head.2.1
  field cs same := by
    cases visible.symm.trans same
    exact absurd rfl head.2.2.1
  index cs same := by
    cases visible.symm.trans same
    exact absurd rfl head.2.2.2
  operator t below := visible ▸ operator?_foreign (foreign t below) more

theorem final_of_visible {c : Char} {rest more : List Char}
    (visible : Text.skipSpace rest = c :: more) (closing : c ∈ [',', ':', ')', ']', '\x7d']) :
    Final rest := by
  have closes : ((isNameChar c = false ∧ c ≠ '(' ∧ c ≠ '.' ∧ c ≠ '[') ∧
      ∀ t < tierCount, Foreign t c) ∧ c ≠ '?' := by
    simp only [List.mem_cons, List.not_mem_nil, or_false] at closing
    rcases closing with rfl | rfl | rfl | rfl | rfl <;> decide
  obtain ⟨⟨head, foreign⟩, other⟩ := closes
  refine { stops_of_visible visible head foreign with question := fun cs same => ?_ }
  cases visible.symm.trans same
  exact other rfl

theorem final_nil : Final [] where
  apart _ _ same := nomatch same
  call _ same := nomatch same
  field _ same := nomatch same
  index _ same := nomatch same
  operator := by decide
  question _ same := nomatch same

/-! ### Lists -/

namespace Layout

variable (layout : Layout)

theorem skipSpace_mark (m : Mark) (s : List Char) :
    Text.skipSpace (layout.mark m ++ s) = m.char :: ((layout.after m).chars ++ s) := by
  rw [mark, List.append_assoc, Text.skipSpace_append _ (layout.before m).blank, List.cons_append]
  cases m <;> rfl

theorem skipSpace_after (m : Mark) (s : List Char) :
    Text.skipSpace ((layout.after m).chars ++ s) = Text.skipSpace s :=
  Text.skipSpace_append s (layout.after m).blank

end Layout

/-- With so many levels the parser finds nothing in the text, whatever spaces it starts with. -/
def Misses (k : Nat) (p : Nat → Parser α) (s : List Char) : Prop :=
  ∀ levels, k ≤ levels → ∀ t, Text.skipSpace t = Text.skipSpace s →
    p levels t = .error .mismatch

/-- The character that stands behind a list. -/
def ClosesList (c : Char) : Prop :=
  c = ')' ∨ c = ']' ∨ c = '\x7d'

section Lists

variable {p : Nat → Parser α} {layout : Layout} {rest more : List Char} {c : Char}

theorem final_of_closes (ahead : Text.skipSpace rest = c :: more) (closes : ClosesList c) :
    Final rest := by
  refine final_of_visible ahead ?_
  rcases closes with rfl | rfl | rfl <;> decide

private theorem comma_mismatch (ahead : Text.skipSpace rest = c :: more) (closes : ClosesList c) :
    spaced (char ',') rest = .error .mismatch := by
  have skipped : spaces rest = .ok ((), c :: more) := by rw [spaces, ahead]
  rw [spaced, bind_ok skipped]
  rcases closes with rfl | rfl | rfl <;> rfl

private theorem final_commas (layout : Layout) (texts : List (List Char))
    (ahead : Text.skipSpace rest = c :: more) (closes : ClosesList c) :
    Final (texts.flatMap (layout.mark .comma ++ ·) ++ rest) := by
  cases texts with
  | nil => exact final_of_closes ahead closes
  | cons text texts =>
    rw [List.flatMap_cons, List.append_assoc, List.append_assoc]
    exact final_of_visible (layout.skipSpace_mark .comma _) (by decide)

private theorem moreFrom_items (layout : Layout) (items : List (List Char × α))
    (each : ∀ item ∈ items, ∀ rest, Final rest → Settles k p (item.1 ++ rest) item.2 rest)
    (ahead : Text.skipSpace rest = c :: more) (closes : ClosesList c) (levels : Nat)
    (above : k ≤ levels) {t bound : List Char} (taken : List α)
    (same : Text.skipSpace t = Text.skipSpace
      ((items.map Prod.fst).flatMap (layout.mark .comma ++ ·) ++ rest))
    (enough : items.length ≤ bound.length) :
    ∃ left, moreFrom (spaced (char ',')) (p levels) bound taken t =
        .ok (taken.reverse ++ items.map Prod.snd, left) ∧
      Text.skipSpace left = Text.skipSpace rest := by
  induction items generalizing t bound taken with
  | nil =>
    refine ⟨t, ?_, same⟩
    rw [List.map_nil, List.append_nil]
    cases bound with
    | nil => rfl
    | cons _ bound =>
      have missed := comma_mismatch (same.trans ahead) closes
      rw [moreFrom, bind_mismatch missed]
  | cons item items ih =>
    obtain ⟨here, later⟩ := List.forall_mem_cons.1 each
    have next := here _ (final_commas layout (items.map Prod.fst) ahead closes)
    have separated : Settles k (fun n => spaced (char ',') >>= fun _ => p n) _ _ _ :=
      settles_spacedChar (layout.skipSpace_mark .comma _)
        (next.visible (layout.skipSpace_after .comma _))
    rw [List.map_cons, List.flatMap_cons, List.append_assoc, List.append_assoc] at same
    obtain ⟨between, first, shown⟩ := separated levels above t same
    cases bound with
    | nil => cases enough
    | cons _ bound =>
      obtain ⟨left, answer, shown'⟩ :=
        ih later (item.2 :: taken) shown (Nat.le_of_succ_le_succ enough)
      refine ⟨left, ?_, shown'⟩
      dsimp only at first
      rw [moreFrom, first]
      rw [List.reverse_cons, List.append_assoc, List.singleton_append] at answer
      exact answer

/-- Items are read one after another as long as commas stand between them. -/
private theorem settles_separated (layout : Layout) (leaves : ∀ n, (p n).Leaves)
    (items : List (List Char × α))
    (each : ∀ item ∈ items, ∀ rest, Final rest → Settles k p (item.1 ++ rest) item.2 rest)
    (none : Misses k p rest) (ahead : Text.skipSpace rest = c :: more) (closes : ClosesList c) :
    Settles k (fun n => separated (spaced (char ',')) (p n))
      (layout.commas (items.map Prod.fst) ++ rest) (items.map Prod.snd) rest := by
  intro levels above t same
  cases items with
  | nil =>
    refine ⟨t, ?_, same⟩
    dsimp only
    rw [separated, none levels above t same]
    rfl
  | cons item items =>
    obtain ⟨here, later⟩ := List.forall_mem_cons.1 each
    have first := here _ (final_commas layout (items.map Prod.fst) ahead closes)
    rw [List.map_cons, Layout.commas, List.append_assoc] at same
    obtain ⟨between, taken, shown⟩ := first levels above t same
    -- The bound may as well be longer, so that it has a turn for every item.
    have longer : between.length ≤ (between ++ items.map fun _ => ' ').length := by
      rw [List.length_append]
      exact Nat.le_add_right _ _
    have bound : moreFrom (spaced (char ',')) (p levels) between [item.2] between =
        moreFrom (spaced (char ',')) (p levels) (between ++ items.map fun _ => ' ') [item.2]
          between :=
      moreFrom_bound separates_comma (leaves levels) (Nat.le_refl _) longer
    have turns : items.length ≤ (between ++ items.map fun _ => ' ').length := by
      rw [List.length_append, List.length_map]
      exact Nat.le_add_left _ _
    obtain ⟨left, answer, shown'⟩ :=
      moreFrom_items layout items later ahead closes levels above [item.2] shown turns
    refine ⟨left, ?_, shown'⟩
    dsimp only
    rw [separated, taken]
    exact bound.trans answer

/-- Items with commas between them are read up to what closes the list. -/
theorem settles_commaList (layout : Layout) (leaves : ∀ n, (p n).Leaves)
    (items : List (List Char × α))
    (each : ∀ item ∈ items, ∀ rest, Final rest → Settles k p (item.1 ++ rest) item.2 rest)
    (none : Misses k p rest) (ahead : Text.skipSpace rest = c :: more) (closes : ClosesList c) :
    Settles k (fun n => commaList (p n)) (layout.commas (items.map Prod.fst) ++ rest)
      (items.map Prod.snd) rest := by
  intro levels above t same
  obtain ⟨left, answer, shown⟩ :=
    settles_separated layout leaves items each none ahead closes levels above t same
  have ends : optional (spaced (char ',')) left = .ok (Option.none, left) := by
    rw [Parser.optional, comma_mismatch (shown.trans ahead) closes]
  refine ⟨left, ?_, shown⟩
  change commaList (p levels) t = _
  rw [commaList]
  exact (bind_ok answer).trans (bind_ok ends)

/-- A list between the characters that open and close it. -/
theorem reads_enclosed {q : Nat → Parser (List α)} {s : List Char} {items : List α}
    (opening : Char) (f : List α → β) (inside : Settles k q s items rest)
    (ahead : Text.skipSpace rest = c :: more) :
    Reads k (fun n => do
      char opening
      spaces
      let items ← q n
      spaces
      char c
      return f items) (opening :: s) (f items) more := by
  have closed : Settles k (fun _ => do spaces; char c; return f items) rest (f items) more :=
    settles_char ahead (settles_pure _).reads
  have opened := inside.bind (f := fun _ items => do spaces; char c; return f items) closed
  exact ((settles_spaces (opened.visible (Text.skipSpace_skipSpace s)).reads).reads).char opening

end Lists

/-! ### Steps of the grammar -/

section Steps

variable {e : Expr} {s mid rest after : List Char} {a : Expr}

theorem settles_postfixRest_end (field : ∀ cs, Text.skipSpace rest ≠ '.' :: cs)
    (index : ∀ cs, Text.skipSpace rest ≠ '[' :: cs) :
    Settles k (fun n => (ofLevels n).postfixRest e) rest e rest := by
  refine fun levels _ t same => ⟨t, ?_, same⟩
  change (ofLevels levels).postfixRest e t = _
  rw [ofLevels_eq_step]
  exact postfixRestStep_end (same ▸ field) (same ▸ index)

theorem settles_postfixRest_field {name : String} {c : Char} {cs : List Char}
    (ahead : Text.skipSpace s = '.' :: (name.toList ++ mid)) (letters : name.toList = c :: cs)
    (start : isNameStart c = true) (shape : ∀ d ∈ cs, isNameChar d = true) (apart : Apart mid)
    (call : ∀ cs, Text.skipSpace mid ≠ '(' :: cs)
    (more : Settles k (fun n => (ofLevels n).postfixRest (.field e name)) mid a rest) :
    Settles (k + 1) (fun n => (ofLevels n).postfixRest e) s a rest := by
  have found : spaced anyName (name.toList ++ mid) = .ok (name, Text.skipSpace mid) := by
    have skipped : spaces (name.toList ++ mid) = .ok ((), name.toList ++ mid) := by
      rw [spaces, letters, List.cons_append, Text.skipSpace_visible _
        (isSpace_of_isNameChar (isNameChar_of_isNameStart start))]
    have read : anyName (name.toList ++ mid) = .ok (name, mid) := by
      rw [letters, anyName_name start shape apart, ← letters, String.ofList_toList]
    rw [spaced, bind_ok skipped, bind_ok read]
    rfl
  have read : Reads k (fun n => member (ofLevels n) e) (name.toList ++ mid) (.field e name) mid :=
    fun levels _ => ⟨_, member_field found call, Text.skipSpace_skipSpace mid⟩
  have both := read.bind (f := fun n => (ofLevels n).postfixRest) more
  refine settles_ahead (fun levels t same => ?_)
    (both.enter (p := fun g => member g e >>= g.postfixRest))
  rw [ofLevels_eq_step]
  exact postfixRestStep_field (same.trans ahead)

theorem settles_postfixRest_index {key : Expr} (ahead : Text.skipSpace s = '[' :: mid)
    (inside : Settles k (fun n => (ofLevels n).expression) mid key (']' :: after))
    (more : Settles k (fun n => (ofLevels n).postfixRest (.index e key)) after a rest) :
    Settles (k + 1) (fun n => (ofLevels n).postfixRest e) s a rest := by
  have closed : Text.skipSpace (']' :: after) = ']' :: after := rfl
  have read : Settles k (fun n => subscript (ofLevels n) e) mid (.index e key) after :=
    settles_spaced_char (f := fun _ key => pure (Expr.index e key)) inside closed
      (settles_pure _).reads
  have both := read.reads.bind (f := fun n => (ofLevels n).postfixRest) more
  refine settles_ahead (fun levels t same => ?_)
    (both.enter (p := fun g => subscript g e >>= g.postfixRest))
  rw [ofLevels_eq_step]
  exact postfixRestStep_index (same.trans ahead)

theorem settles_tierRest_end {tier : Nat} (ends : operator? tier (Text.skipSpace rest) = none) :
    Settles k (fun n => (ofLevels n).tierRest tier e) rest e rest := by
  refine fun levels _ t same => ⟨t, ?_, same⟩
  change (ofLevels levels).tierRest tier e t = _
  rw [ofLevels_eq_step]
  exact tierRestStep_end (same ▸ ends)

theorem settles_tierRest_operator {tier : Nat} {op : BinaryOp} {right : Expr}
    (ahead : operator? tier (Text.skipSpace s) = some (op, mid))
    (operand : Settles k (fun n => (ofLevels n).tier tier) mid right after)
    (more : Settles k (fun n => (ofLevels n).tierRest tier (.binary op e right)) after a rest) :
    Settles (k + 1) (fun n => (ofLevels n).tierRest tier e) s a rest := by
  have both := operand.reads.bind
    (f := fun n right => (ofLevels n).tierRest tier (.binary op e right)) more
  refine settles_ahead (fun levels t same => ?_) (both.enter (p := fun g => do
    let right ← g.tier tier
    g.tierRest tier (.binary op e right)))
  rw [ofLevels_eq_step]
  exact tierRestStep_operator (same ▸ ahead)

theorem settles_tier {tier : Nat} (operand : Settles k (fun n => (ofLevels n).tier tier) s e mid)
    (more : Settles k (fun n => (ofLevels n).tierRest tier e) mid a rest) :
    Settles k (fun n => (ofLevels n).tier (tier + 1)) s a rest := by
  have both := operand.bind (f := fun n => (ofLevels n).tierRest tier) more
  refine both.congr fun levels => ?_
  rw [ofLevels_eq_step]
  rfl

theorem settles_unary {op : UnaryOp} (signed : Signed op (Text.skipSpace s) mid)
    (operand : Settles k (fun n => (ofLevels n).unary) mid e rest) :
    Settles (k + 1) (fun n => (ofLevels n).unary) s (.unary op e) rest := by
  refine settles_ahead (fun levels t same => ?_)
    ((operand.map (Expr.unary op)).reads.enter (p := fun g => Expr.unary op <$> g.unary))
  rw [ofLevels_eq_step]
  exact unaryStep_signed (same ▸ signed)

theorem settles_operand (unsigned : ∀ op rest, ¬ Signed op (Text.skipSpace s) rest)
    (operand : Settles k (fun n => postfixed (belowOf n)) s e rest) :
    Settles k (fun n => (ofLevels n).unary) s e rest := by
  have visible := operand.visible (Text.skipSpace_skipSpace s)
  refine settles_ahead (fun levels t same => ?_) visible.reads
  rw [ofLevels_eq_step]
  exact (unaryStep_operand (same ▸ unsigned)).trans (congrArg _ same)

theorem settles_conditional_end (ends : ∀ cs, Text.skipSpace rest ≠ '?' :: cs) :
    Settles k (fun n => conditionalRest (ofLevels n) e) rest e rest :=
  fun _ _ t same => ⟨t, conditionalRest_end (same ▸ ends), same⟩

theorem settles_conditional {yes no : Expr} {between : List Char}
    (ahead : Text.skipSpace s = '?' :: mid)
    (first : Settles k (fun n => (ofLevels n).expression) mid yes after)
    (colon : Text.skipSpace after = ':' :: between)
    (second : Settles k (fun n => (ofLevels n).expression) between no rest) :
    Settles k (fun n => conditionalRest (ofLevels n) e) s (.conditional e yes no) rest := by
  have last := (second.map (Expr.conditional e yes)).reads
  have both := settles_spaced_char
    (f := fun n yes => Expr.conditional e yes <$> (ofLevels n).expression) first colon last
  exact settles_ahead (fun levels t same => conditionalRest_question (same.trans ahead)) both.reads

theorem settles_expression
    (condition : Settles k (fun n => (ofLevels n).tier tierCount) s e mid)
    (more : Settles k (fun n => conditionalRest (ofLevels n) e) mid a rest) :
    Settles (k + 1) (fun n => (ofLevels n).expression) s a rest := by
  have both := condition.bind (f := fun n => conditionalRest (ofLevels n)) more
  refine (both.enter (p := fun g => g.tier tierCount >>= conditionalRest g)).congr fun levels => ?_
  rw [ofLevels_eq_step]
  rfl

/-- No expression starts with what closes a list. -/
theorem misses_expression {c : Char} (ahead : Text.skipSpace s = c :: mid)
    (closes : c = ')' ∨ c = ']') : Misses (k + 1) (fun n => (ofLevels n).expression) s := by
  intro levels above t same
  obtain ⟨fewer, rfl⟩ : ∃ fewer, levels = fewer + 1 := ⟨levels - 1, by omega⟩
  have shown : Text.skipSpace t = c :: mid := same.trans ahead
  have unsigned (op : UnaryOp) (rest : List Char) : ¬ Signed op (Text.skipSpace t) rest := by
    rintro ⟨signed, -, -⟩
    cases shown.symm.trans signed
    rcases closes with closing | closing <;> cases op <;> cases closing
  have operand : postfixed (belowOf fewer) (c :: mid) = .error .mismatch := by
    refine bind_mismatch ?_
    rcases closes with rfl | rfl <;> rfl
  have unary : unaryStep (belowOf fewer) t = .error .mismatch := by
    rw [unaryStep_operand unsigned, shown, operand]
  have tier (tier : Nat) : tierStep (belowOf fewer) tier t = .error .mismatch := by
    induction tier with
    | zero => exact unary
    | succ tier ih => rw [tierStep, bind_mismatch ih]
  have turn : (ofLevels (fewer + 1)).expression t =
      ((ofLevels fewer).tier tierCount >>= conditionalRest (ofLevels fewer)) t := rfl
  refine turn.trans (bind_mismatch ?_)
  rw [ofLevels_eq_step]
  exact tier tierCount

end Steps

end Relay.Script
