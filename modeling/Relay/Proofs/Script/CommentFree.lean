import Relay.Proofs.Script.Precedence
import Relay.Proofs.Script.Spelling

/-! # Programs without comments

An expression on its own is read as it stands, and a program after its comments were removed. So a
program that returns an expression is read as that just if the removal of comments keeps its text.
It does unless a string or a template in the hole of a template has a backquote: there text that is
quoted for the parser is code for the removal of comments, and two slashes in it are a comment.
-/

namespace Relay.Script

open Relay.Script.Parser Relay.Script.Grammar

theorem slashes_blank {s : List Char} (nothing : Text.trimChars s = []) : slashes s = 0 := by
  refine slashes_eq_zero fun member => ?_
  have blank := Text.blank_of_trimChars nothing _ member
  cases blank

/-! ### Reading -/

theorem expression_space (levels : Nat) (s : List Char) :
    (ofLevels levels).expression (' ' :: s) = (ofLevels levels).expression s := by
  have tier (below : Option (Thunk Grammar)) (tier : Nat) :
      tierStep below tier (' ' :: s) = tierStep below tier s := by
    induction tier with
    | zero =>
      change unaryStep below (' ' :: s) = unaryStep below s
      rw [unaryStep, unaryStep, Text.skipSpace_blank s rfl]
    | succ tier ih => rw [tierStep, bind_run, bind_run, ih]
  cases levels with
  | zero => rfl
  | succ levels =>
    have turn (s : List Char) : (ofLevels (levels + 1)).expression s =
        ((ofLevels levels).tier tierCount >>= conditionalRest (ofLevels levels)) s := rfl
    have inside (s : List Char) : (ofLevels levels).tier tierCount s =
        tierStep (belowOf levels) tierCount s := by rw [ofLevels_eq_step]; rfl
    rw [turn, turn, bind_run, bind_run, inside, inside, tier]

/-- The text of a statement that returns an expression has the slashes of the expression. -/
private theorem takes_returning (levels : Nat) :
    (returning (ofLevels levels)).Takes fun stmt text =>
      ∀ e, stmt = .ret (some e) → slashes text = e.marks.slashes := by
  have semicolon : endOfStatement.Takes fun _ text => Bare text := by
    refine takes_spaces.bind fun _ blanks blank => ?_
    refine (takes_char ';').optional.bind fun _ last shape => takes_pure ?_
    rw [List.append_nil]
    refine List.forall_mem_append.2 ⟨blank.bare, ?_⟩
    rcases shape with ⟨_, -, rfl⟩ | ⟨-, rfl⟩
    · exact List.forall_mem_singleton.2 rfl
    · exact List.forall_mem_nil _
  refine (takes_keyword "return").bind fun _ word same => ?_
  refine (spelling_ofLevels levels).expression.optional.bind fun value text shape => ?_
  refine semicolon.bind fun _ last bare => takes_pure fun e returned => ?_
  cases returned
  have front : slashes "return".toList = 0 := rfl
  have back : slashes last = 0 := bare.spells.slashes
  rcases shape with ⟨_, given, written⟩ | ⟨missing, -⟩
  · cases given
    rw [List.append_nil, same, slashes_append, slashes_append, front, back,
      written.spells.slashes, Nat.zero_add, Nat.add_zero]
  · cases missing

/-- Only a statement that returns an expression is read as that, and then the text has the slashes
of the expression. -/
theorem slashes_of_return {levels : Nat} {s rest : List Char} {e : Expr}
    (read : (ofLevels levels).statement s = .ok (.ret (some e), rest)) :
    slashes s = e.marks.slashes + slashes rest := by
  cases levels with
  | zero => cases read
  | succ levels =>
    have turn : (ofLevels (levels + 1)).statement =
        (spaces >>= fun _ => emptyStatement <|> declaration (ofLevels levels) <|>
          branching (ofLevels levels) <|> returning (ofLevels levels) <|>
          (Stmt.block <$> block (ofLevels levels)) <|> assignment (ofLevels levels) <|>
          expressionStatement (ofLevels levels)) := rfl
    rw [turn] at read
    obtain ⟨_, visible, skipped, taken⟩ := bind_eq_ok_iff.1 read
    obtain ⟨blanks, rfl, blank⟩ := takes_spaces s () visible skipped
    rw [slashes_append, blank.bare.spells.slashes]
    generalize grammar : ofLevels levels = g at taken
    -- Every other alternative makes another statement.
    have other {p : Parser Stmt} (answers : p.Answers fun stmt => ∀ value, stmt ≠ .ret value) :
        p visible ≠ .ok (.ret (some e), rest) := fun same => answers _ _ _ same (some e) rfl
    have empty : emptyStatement.Answers fun stmt => ∀ value, stmt ≠ .ret value :=
      .after fun _ => answers_pure nofun
    have declared : (declaration g).Answers fun stmt => ∀ value, stmt ≠ .ret value :=
      .after fun _ => .after fun _ => .after fun _ => .after fun _ => .after fun _ =>
        answers_pure nofun
    have branched : (branching g).Answers fun stmt => ∀ value, stmt ≠ .ret value :=
      .after fun _ => .after fun _ => .after fun _ => .after fun _ => .after fun _ =>
        .after fun _ => answers_pure nofun
    have body : (Stmt.block <$> block g).Answers fun stmt => ∀ value, stmt ≠ .ret value :=
      (answers_any _).map fun _ _ => nofun
    have assigned : (assignment g).Answers fun stmt => ∀ value, stmt ≠ .ret value :=
      .after fun _ => .after fun _ => .after fun _ => .after fun _ => answers_pure nofun
    have evaluated : (expressionStatement g).Answers fun stmt => ∀ value, stmt ≠ .ret value :=
      .after fun _ => .after fun _ => answers_pure nofun
    replace taken := (orElse_eq_ok taken).resolve_left (other empty)
    replace taken := (orElse_eq_ok taken).resolve_left (other declared)
    replace taken := (orElse_eq_ok taken).resolve_left (other branched)
    rcases orElse_eq_ok taken with returned | taken
    · subst grammar
      obtain ⟨text, rfl, count⟩ := takes_returning levels visible _ rest returned
      rw [slashes_append, count e rfl]
      exact Nat.zero_add _
    · replace taken := (orElse_eq_ok taken).resolve_left (other body)
      replace taken := (orElse_eq_ok taken).resolve_left (other assigned)
      exact absurd taken (other evaluated)

theorem parseExpr_eq_ok {source : String} {e : Expr} (parsed : parseExpr source = .ok e) :
    ∃ rest, (ofLevels defaultNesting).expression (Text.trimChars source.toList) = .ok (e, rest) ∧
      Text.trimChars rest = [] := by
  rw [parseExpr] at parsed
  split at parsed
  · cases parsed
  · split at parsed
    · cases parsed
    · cases parsed
    · rename_i read
      split at parsed
      · rename_i blank
        cases parsed
        exact ⟨_, read, blank⟩
      · cases parsed

theorem parseProgram_eq_ok {limit : Nat} {source : String} {program : Program}
    (parsed : parseProgram limit source = .ok program) :
    ∃ rest, many (ofLevels limit).statement (removeComments source.toList) = .ok (program, rest) ∧
      Text.trimChars rest = [] := by
  rw [parseProgram] at parsed
  split at parsed
  · cases parsed
  · rename_i read
    split at parsed
    · rename_i blank
      cases parsed
      exact ⟨_, read, blank⟩
    · cases parsed

private theorem length_manyFrom {α : Type} {p : Parser α} {bound s rest : List Char}
    {taken items : List α} (read : manyFrom p bound taken s = .ok (items, rest)) :
    (items = taken.reverse ∧ rest = s) ∨ taken.length < items.length := by
  induction bound generalizing taken s with
  | nil =>
    cases read
    exact .inl ⟨rfl, rfl⟩
  | cons _ bound ih =>
    rw [manyFrom] at read
    split at read
    · rcases ih read with ⟨rfl, -⟩ | longer
      · rw [List.length_reverse]
        exact .inr (Nat.lt_succ_self _)
      · exact .inr (Nat.lt_of_succ_lt longer)
    · cases read
      exact .inl ⟨rfl, rfl⟩
    · cases read

/-- What is read as one thing is read at the first turn. -/
private theorem many_single {α : Type} {p : Parser α} {s rest : List Char} {a : α}
    (read : many p s = .ok ([a], rest)) : p s = .ok (a, rest) := by
  rw [many, manyFrom] at read
  split at read
  · rename_i b after first
    rcases length_manyFrom read with ⟨same, rfl⟩ | longer
    · cases same
      exact first
    · exact absurd longer (Nat.lt_irrefl 1)
  · cases read
  · cases read

/-- The text of a program that returns the expression of a text. -/
private theorem toList_return (text : String) :
    ("return " ++ text ++ ";").toList = "return".toList ++ ' ' :: (text.toList ++ [';']) := by
  rw [String.toList_append, String.toList_append, List.append_assoc]
  rfl

/-- A trimmed text that is an expression on its own is the same one in a program that returns it,
exactly if the removal of comments keeps the text of the program; and it does if the holes of all
templates are without backquotes. -/
theorem parseProgram_return {text : String} {e : Expr} (trimmed : Text.trim text = text)
    (parsed : parseExpr text = .ok e) :
    (parseProgram 65 ("return " ++ text ++ ";") = .ok [.ret (some e)] ↔
      removeComments ("return " ++ text ++ ";").toList = ("return " ++ text ++ ";").toList) ∧
    (e.marks.clear = true →
      parseProgram 65 ("return " ++ text ++ ";") = .ok [.ret (some e)]) := by
  obtain ⟨rest, read, blank⟩ := parseExpr_eq_ok parsed
  have whole : Text.trimChars text.toList = text.toList := by
    have same := congrArg String.toList trimmed
    rwa [Text.trim, String.toList_ofList] at same
  rw [whole] at read
  obtain ⟨front, shape, written⟩ := (spelling_ofLevels defaultNesting).expression _ e rest read
  have nothing : rest = [] := Text.eq_nil_of_trimmed (shape ▸ whole) blank
  rw [nothing, List.append_nil] at shape
  subst shape
  have letters := toList_return text
  have spells : Spells e.marks ("return " ++ text ++ ";").toList := by
    have word : Bare "return".toList := bare_name (List.all_eq_true.1 rfl)
    rw [letters]
    exact ((written.spells.before (List.forall_mem_singleton.2 rfl)).cons rfl).after word
  have kept (same : removeComments ("return " ++ text ++ ";").toList =
      ("return " ++ text ++ ";").toList) :
      parseProgram 65 ("return " ++ text ++ ";") = .ok [.ret (some e)] := by
    refine parseProgram_single same ?_ ?_
    · rw [letters]
      exact List.cons_ne_nil _ _
    · have agrees :=
        (cutOff_ofLevels .semicolon (Nat.le_refl defaultNesting)).expression text.toList
      have behind : (ofLevels defaultNesting).expression (text.toList ++ [';']) =
          .ok (e, [';']) := by
        rw [read, nothing] at agrees
        generalize (ofLevels defaultNesting).expression (text.toList ++ [';']) = other at agrees ⊢
        cases agrees with
        | read _ _ => rfl
      have apart : Apart (' ' :: (text.toList ++ [';'])) := by
        intro c cs same
        cases same
        decide
      have value := (expression_space defaultNesting _).trans behind
      rw [letters]
      exact statement_return apart value rfl
  refine ⟨⟨fun returned => ?_, kept⟩, fun clear => ?_⟩
  · obtain ⟨rest, read, blank⟩ := parseProgram_eq_ok returned
    have count := slashes_of_return (many_single read)
    rw [slashes_blank blank, Nat.add_zero, ← spells.slashes] at count
    exact removeComments_of_slashes (Nat.le_of_eq count.symm)
  · exact kept (removeComments_of_passes (spells.code clear))

/-- Slashes in a template, the end of a block comment in a string in its hole, and a division. -/
theorem parseProgram_return_quotient :
    ∃ e, Text.trim "`//$\x7bf('*/')\x7d` / 2" = "`//$\x7bf('*/')\x7d` / 2" ∧
      parseExpr "`//$\x7bf('*/')\x7d` / 2" = .ok e ∧ e.marks.clear = true ∧
      parseProgram 65 ("return " ++ "`//$\x7bf('*/')\x7d` / 2" ++ ";") = .ok [.ret (some e)] := by
  have trimmed : Text.trim "`//$\x7bf('*/')\x7d` / 2" = "`//$\x7bf('*/')\x7d` / 2" := by
    decide +kernel
  have clear : (parseExpr "`//$\x7bf('*/')\x7d` / 2").toOption.any (·.marks.clear) = true := by
    decide +kernel
  cases parsed : parseExpr "`//$\x7bf('*/')\x7d` / 2" with
  | error _ =>
    rw [parsed] at clear
    cases clear
  | ok e =>
    rw [parsed] at clear
    exact ⟨e, trimmed, rfl, clear, (parseProgram_return trimmed parsed).2 clear⟩

/-- A template in the hole of a template is taken for code, and two slashes in it for a comment. -/
theorem not_parseProgram_return :
    ∃ e, Text.trim "`$\x7b`//`\x7d`" = "`$\x7b`//`\x7d`" ∧
      parseExpr "`$\x7b`//`\x7d`" = .ok e ∧
      parseProgram 65 ("return " ++ "`$\x7b`//`\x7d`" ++ ";") ≠ .ok [.ret (some e)] := by
  have trimmed : Text.trim "`$\x7b`//`\x7d`" = "`$\x7b`//`\x7d`" := by
    decide +kernel
  have accepted : (parseExpr "`$\x7b`//`\x7d`").toOption.isSome = true := by
    decide +kernel
  have refused : (parseProgram 65 ("return " ++ "`$\x7b`//`\x7d`" ++ ";")).toOption.isSome =
      false := by
    decide +kernel
  cases parsed : parseExpr "`$\x7b`//`\x7d`" with
  | error _ =>
    rw [parsed] at accepted
    cases accepted
  | ok e =>
    refine ⟨e, trimmed, rfl, fun returned => ?_⟩
    rw [returned] at refused
    cases refused

end Relay.Script
