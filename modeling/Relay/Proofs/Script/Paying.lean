import Mathlib.Algebra.GroupWithZero.Nat
import Relay.Proofs.Script.Taking

/-! # What parsers pay for

Every character of a text is worth something, and what is read from the text costs something. A
parser pays if what it reads costs at most the characters that it takes and what was left over from
before. There is one rule for each way in which parsers are put together: what the first one does
not spend is credit for the next.
-/

namespace Relay.Script

/-- What the characters of a text are worth together. -/
def total (worth : Char → Nat) (text : List Char) : Nat :=
  (text.map worth).sum

section Total

variable {worth : Char → Nat}

@[simp] theorem total_nil : total worth [] = 0 := rfl

@[simp] theorem total_cons (c : Char) (text : List Char) :
    total worth (c :: text) = worth c + total worth text := by
  rw [total, List.map_cons, List.sum_cons, total]

@[simp] theorem total_append (text more : List Char) :
    total worth (text ++ more) = total worth text + total worth more := by
  rw [total, List.map_append, List.sum_append, total, total]

@[simp] theorem total_reverse (text : List Char) :
    total worth text.reverse = total worth text := by
  rw [total, List.map_reverse, List.sum_reverse, total]

theorem total_const (each : Nat) (text : List Char) :
    total (fun _ => each) text = each * text.length := by
  rw [total, List.map_const', List.sum_replicate_nat, Nat.mul_comm]

theorem total_skipSpace_le (worth : Char → Nat) (s : List Char) :
    total worth (Text.skipSpace s) ≤ total worth s := by
  conv => rhs; rw [← List.takeWhile_append_dropWhile (p := Text.isSpace) (l := s), total_append]
  exact Nat.le_add_left _ _

/-- What stands behind the spaces is worth no more than all. -/
theorem total_ahead (worth : Char → Nat) {s rest : List Char} {c : Char}
    (ahead : Text.skipSpace s = c :: rest) :
    worth c + total worth rest ≤ total worth s := by
  have visible := total_skipSpace_le worth s
  rwa [ahead, total_cons] at visible

end Total

namespace Parser

variable {α β : Type} {worth : Char → Nat} {credit : Nat} {cost : α → Nat}

/-- Whatever the parser reads costs at most the credit and the worth of the characters that it
takes. -/
def Pays (p : Parser α) (worth : Char → Nat) (credit : Nat) (cost : α → Nat) : Prop :=
  ∀ s a rest, p s = .ok (a, rest) → cost a + total worth rest ≤ credit + total worth s

theorem Takes.pays {R : α → List Char → Prop} {p : Parser α} (takes : p.Takes R)
    (paid : ∀ a front, R a front → cost a ≤ credit + total worth front) :
    p.Pays worth credit cost := by
  intro s a rest read
  obtain ⟨front, rfl, related⟩ := takes s a rest read
  have enough := paid a front related
  rw [total_append]
  omega

theorem Pays.cheaper {p : Parser α} {less : α → Nat} (pays : p.Pays worth credit cost)
    (cheap : ∀ a, less a ≤ cost a) : p.Pays worth credit less :=
  fun s a rest read => Nat.le_trans (Nat.add_le_add_right (cheap a) _) (pays s a rest read)

/-- Credit that is not needed is left. -/
theorem Pays.frame {p : Parser α} (pays : p.Pays worth 0 cost) (credit : Nat) :
    p.Pays worth credit fun a => credit + cost a := by
  intro s a rest read
  have paid := pays s a rest read
  dsimp only
  omega

theorem pays_pure {a : α} (paid : cost a ≤ credit) :
    (pure a : Parser α).Pays worth credit cost := by
  intro s b rest read
  cases read
  exact Nat.add_le_add_right paid _

theorem pays_mismatch : (mismatch : Parser α).Pays worth credit cost :=
  fun _ _ _ read => nomatch read

theorem pays_tooDeep : (tooDeep : Parser α).Pays worth credit cost :=
  fun _ _ _ read => nomatch read

theorem Pays.bind {p : Parser β} {f : β → Parser α} {left : β → Nat}
    (first : p.Pays worth credit left) (second : ∀ b, (f b).Pays worth (left b) cost) :
    (p >>= f).Pays worth credit cost := by
  intro s a rest read
  obtain ⟨b, between, before, after⟩ := bind_eq_ok_iff.1 read
  exact Nat.le_trans (second b between a rest after) (first s b between before)

theorem Pays.map {p : Parser β} {f : β → α} {left : β → Nat} (pays : p.Pays worth credit left)
    (cheap : ∀ b, cost (f b) ≤ left b) : (f <$> p).Pays worth credit cost := by
  intro s a rest read
  rw [map_run] at read
  split at read
  · rename_i b after taken
    cases read
    exact Nat.le_trans (Nat.add_le_add_right (cheap b) _) (pays s b rest taken)
  · cases read

theorem Pays.orElse {p q : Parser α} (first : p.Pays worth credit cost)
    (second : q.Pays worth credit cost) : (p <|> q).Pays worth credit cost := by
  intro s a rest read
  rcases orElse_eq_ok read with left | right
  · exact first s a rest left
  · exact second s a rest right

/-- Without something that may be missing the credit is left. -/
theorem Pays.optional {p : Parser α} (pays : p.Pays worth credit cost) :
    (Parser.optional p).Pays worth credit fun found => found.elim credit cost := by
  intro s found rest read
  rw [Parser.optional] at read
  split at read
  · rename_i a after taken
    cases read
    exact pays s a rest taken
  · cases read
    exact Nat.le_refl _
  · cases read

/-! ### Spaces and characters -/

theorem pays_spaces : spaces.Pays worth credit fun _ => credit := by
  intro s _ rest read
  cases read
  exact Nat.add_le_add_left (total_skipSpace_le worth s) credit

theorem pays_char (c : Char) : (char c).Pays worth credit fun _ => credit + worth c := by
  refine (takes_char c).pays ?_
  rintro _ _ rfl
  exact Nat.le_refl _

theorem Pays.spaced {p : Parser α} (pays : p.Pays worth credit cost) :
    (spaced p).Pays worth credit cost := by
  refine pays_spaces.bind fun _ => ?_
  refine pays.bind fun a => ?_
  exact pays_spaces.bind fun _ => pays_pure (Nat.le_refl _)

theorem pays_keyword (word : String) :
    (keyword word).Pays worth credit fun _ => credit + total worth word.toList := by
  refine (takes_keyword word).pays ?_
  rintro _ _ rfl
  exact Nat.le_refl _

/-! ### Repetition -/

/-- What was read last comes first while a loop runs. -/
theorem pays_taken (taken : List α) :
    (pure taken.reverse : Parser (List α)).Pays worth (credit + (taken.map cost).sum)
      fun items => credit + (items.map cost).sum := by
  refine pays_pure (Nat.le_of_eq ?_)
  rw [List.map_reverse, List.sum_reverse]

private theorem pays_manyFrom {p : Parser α} (pays : p.Pays worth 0 cost) (bound : List Char)
    (taken : List α) :
    (manyFrom p bound taken).Pays worth (credit + (taken.map cost).sum)
      fun items => credit + (items.map cost).sum := by
  -- Items that were read before are credit, so a turn only has to pay for its own item.
  induction bound generalizing taken with
  | nil => exact pays_taken taken
  | cons _ bound ih =>
    intro s items rest read
    rw [manyFrom] at read
    split at read
    · rename_i a after parsed
      have paid := pays s a after parsed
      have others := ih (a :: taken) after items rest read
      rw [List.map_cons, List.sum_cons] at others
      omega
    · exact pays_taken taken s items rest read
    · cases read

theorem Pays.many {p : Parser α} (pays : p.Pays worth 0 cost) :
    (many p).Pays worth credit fun items => credit + (items.map cost).sum :=
  fun s => pays_manyFrom pays (' ' :: s) [] s

private theorem pays_moreFrom {separator : Parser Unit} {p : Parser α}
    (free : separator.Pays worth 0 fun _ => 0) (pays : p.Pays worth 0 cost) (bound : List Char)
    (taken : List α) :
    (moreFrom separator p bound taken).Pays worth (credit + (taken.map cost).sum)
      fun items => credit + (items.map cost).sum := by
  have next : (separator >>= fun _ => p).Pays worth 0 cost := free.bind fun _ => pays
  induction bound generalizing taken with
  | nil => exact pays_taken taken
  | cons _ bound ih =>
    intro s items rest read
    rw [moreFrom] at read
    split at read
    · rename_i a after parsed
      have paid := next s a after parsed
      have others := ih (a :: taken) after items rest read
      rw [List.map_cons, List.sum_cons] at others
      omega
    · exact pays_taken taken s items rest read
    · cases read

theorem Pays.commaList {p : Parser α} (pays : p.Pays worth 0 cost) :
    (commaList p).Pays worth credit fun items => credit + (items.map cost).sum := by
  have comma (credit : Nat) : (Parser.spaced (char ',')).Pays worth credit fun _ => credit :=
    ((pays_char ',').cheaper fun _ => Nat.le_add_right _ _).spaced
  have items : (separated (Parser.spaced (char ',')) p).Pays worth credit
      fun items => credit + (items.map cost).sum := by
    intro s items rest read
    rw [separated] at read
    split at read
    · rename_i a after parsed
      have paid := pays s a after parsed
      have more : (moreFrom _ p after [a]).Pays worth (credit + _) fun items => credit + _ :=
        pays_moreFrom (comma 0) pays after [a]
      have others := more after items rest read
      rw [List.map_singleton, List.sum_singleton] at others
      omega
    · cases read
      exact Nat.le_refl _
    · cases read
  refine items.bind fun found => ?_
  refine (comma _).optional.bind fun trailing => pays_pure ?_
  cases trailing <;> exact Nat.le_refl _

end Parser

end Relay.Script
