import Relay.Proofs.Script.Marks

/-! # The text of an expression

Whatever an expression is read from has the marks of the expression: its slashes, and what keeps the
removal of comments in step. This holds of every parser of a grammar if it does of those one level
below, with one case for each kind of operand and operator.
-/

namespace Relay.Script

open Relay.Script.Parser

namespace Grammar

/-! ### Operands -/

section Operands

variable {expression : Parser Expr}

private theorem opens_cons {c : Char} (text : List Char) (other : c ≠ '/' ∧ c ≠ '*') :
    Opens (c :: text) :=
  ⟨c, text, rfl, other⟩

private theorem takes_items (inside : expression.Takes Expr.WrittenAs) :
    expression.Takes fun e text => Spells e.marks text :=
  inside.imp fun _ _ written => written.spells

theorem takes_arguments (inside : expression.Takes Expr.WrittenAs) :
    (arguments expression).Takes fun args text => Spells (Expr.marksItems args) text := by
  refine (takes_enclosed (takes_items inside) (by decide) (by decide) id).imp ?_
  rintro args text ⟨items, more, rfl, -, spells⟩
  rw [Expr.marksItems_eq_all]
  exact spells

theorem takes_listLiteral (inside : expression.Takes Expr.WrittenAs) :
    (listLiteral expression).Takes Expr.WrittenAs := by
  refine (takes_enclosed (takes_items inside) (by decide) (by decide) Expr.list).imp ?_
  rintro e text ⟨items, more, rfl, rfl, spells⟩
  refine ⟨?_, opens_cons more (by decide)⟩
  rwa [Expr.marks, Expr.marksItems_eq_all]

private theorem takes_mapEntry (inside : expression.Takes Expr.WrittenAs) :
    (mapEntry expression).Takes fun entry text => Spells (entryMarks entry) text := by
  have name : anyName.Takes fun key text => Spells (.ofText key) text := by
    refine takes_anyName.imp ?_
    rintro _ text ⟨rfl, -, letters⟩
    have bare := bare_name letters
    have none : Marks.ofText (String.ofList text) = 0 := by
      have quiet : text.contains '\x60' = false := by
        rw [Bool.eq_false_iff]
        exact fun member => Bool.false_ne_true (bare _ (List.contains_iff_mem.1 member))
      rw [Marks.ofText, String.toList_ofList, bare.spells.slashes, quiet]
      rfl
    rw [none]
    exact bare.spells
  have key : (quotedString <|> anyName).Takes fun key text => Spells (.ofText key) text :=
    (takes_quotedString.imp fun _ _ written => written.1).orElse name
  refine takes_spaces.bind fun _ first blank => ?_
  refine key.bind fun found text spells => ?_
  refine (takes_char ':').spaced.bind fun _ colon shape => ?_
  refine inside.bind fun value more written => takes_pure ?_
  obtain ⟨before, front, after, rfl, blanks, rfl, others⟩ := shape
  have colon : Bare (before ++ ([':'] ++ after)) :=
    List.forall_mem_append.2 ⟨blanks.bare, List.forall_mem_cons.2 ⟨rfl, others.bare⟩⟩
  rw [List.append_nil]
  exact (spells.append (written.spells.after colon)).after blank.bare

theorem takes_mapLiteral (inside : expression.Takes Expr.WrittenAs) :
    (mapLiteral expression).Takes Expr.WrittenAs := by
  refine (takes_enclosed (takes_mapEntry inside) (by decide) (by decide) Expr.map).imp ?_
  rintro e text ⟨entries, more, rfl, rfl, spells⟩
  refine ⟨?_, opens_cons more (by decide)⟩
  rwa [Expr.marks, Expr.marksEntries_eq_all]

theorem takes_parenthesized (inside : expression.Takes Expr.WrittenAs) :
    (parenthesized expression).Takes Expr.WrittenAs := by
  refine (takes_char '(').bind fun _ opening same => ?_
  refine inside.spaced.bind fun e text shape => ?_
  refine (takes_char ')').bind fun _ closing last => takes_pure ?_
  obtain ⟨before, front, after, rfl, first, written, blanks⟩ := shape
  subst same
  subst last
  refine ⟨?_, opens_cons _ (by decide)⟩
  have whole := written.spells.enclosed first blanks
  have bracket : Bare ([')'] ++ []) := List.forall_mem_singleton.2 rfl
  exact (whole.before bracket).cons rfl

private theorem takes_hole (inside : expression.Takes Expr.WrittenAs) :
    (hole expression).Takes fun e text => Spells e.marks text := by
  refine inside.spaced.bind fun e text shape => ?_
  refine (takes_char '\x7d').bind fun _ closing last => takes_pure ?_
  obtain ⟨before, front, after, rfl, first, written, blanks⟩ := shape
  subst last
  have bracket : Bare (['\x7d'] ++ []) := List.forall_mem_singleton.2 rfl
  exact (written.spells.enclosed first blanks).before bracket

/-- The rest of a template up to its closing backquote, after what has the given marks. -/
private structure Closes (before : Marks) (e : Expr) (back : List Char) : Prop where
  slashes : e.marks.slashes = before.slashes + slashes back
  loud : e.marks.quiet = false
  code : e.marks.clear = true → before.quiet = true ∧ Passes (.quoted '\x60') .code back

private theorem Closes.prepend {before marks : Marks} {e : Expr} {front back : List Char}
    (closes : Closes (before + marks) e back) (count : Script.slashes front = marks.slashes)
    (hole : marks.quiet = true → Passes (.quoted '\x60') (.quoted '\x60') front) :
    Closes before e (front ++ back) where
  slashes := by
    rw [closes.slashes, slashes_append, count, ← Nat.add_assoc]
    rfl
  loud := closes.loud
  code clear := by
    obtain ⟨quiet, passes⟩ := closes.code clear
    obtain ⟨first, second⟩ := Bool.and_eq_true_iff.1 quiet
    exact ⟨first, (hole second).append passes⟩

private theorem ofPiece_cons (c : Char) (text : List Char) :
    Marks.ofPiece (c :: text) = .ofPiece text + .ofPiece [c] := by
  rw [Marks.ofPiece, slashes_cons, Nat.add_comm]
  rfl

private theorem ofPiece_reverse (text : List Char) :
    Marks.ofPiece (String.ofList text.reverse).toList = .ofPiece text := by
  rw [Marks.ofPiece, String.toList_ofList, slashes_reverse, Marks.ofPiece]

private theorem marks_template (holes : List (String × Expr)) (text : List Char) :
    (Expr.template holes.reverse (String.ofList text.reverse)).marks =
      (Marks.all holeMarks holes.reverse + .ofPiece text).template := by
  rw [Expr.marks, Expr.marksHoles_eq_all, ofPiece_reverse]

/-- A hole goes with the piece before it, and a new piece starts behind it. -/
private theorem marks_hole (holes : List (String × Expr)) (text : List Char) (e : Expr) :
    Marks.all holeMarks ((String.ofList text.reverse, e) :: holes).reverse + .ofPiece [] =
      (Marks.all holeMarks holes.reverse + .ofPiece text) + e.marks := by
  have none : Marks.ofPiece [] = 0 := rfl
  rw [none, Marks.add_zero, Marks.all_reverse_cons, holeMarks, ofPiece_reverse, ← Marks.add_assoc]

/-- An escape has as many slashes as the character that it stands for. -/
private theorem slashes_escape (c : Char) :
    slashes ['\\', c] =
      (Marks.ofPiece [if c = 'n' then '\n' else if c = 't' then '\t' else c]).slashes := by
  have backslash : slashes ['\\'] = 0 := rfl
  rw [slashes_cons, backslash, Nat.zero_add, Marks.ofPiece]
  split
  · rename_i same
    rw [same]
    rfl
  split
  · rename_i same
    rw [same]
    rfl
  · rfl

/-- Inside a template pieces and holes follow each other up to the closing backquote. -/
private theorem takes_templateRest (inside : expression.Takes Expr.WrittenAs) (bound : List Char)
    (holes : List (String × Expr)) (text : List Char) :
    (templateRest expression bound holes text).Takes
      (Closes (Marks.all holeMarks holes.reverse + .ofPiece text)) := by
  induction bound generalizing holes text with
  | nil => exact takes_mismatch
  | cons _ bound ih =>
    intro s e rest read
    cases templateFront s with
    | nothing =>
      rw [templateRest_nil] at read
      cases read
    | close rest =>
      cases read
      refine ⟨['\x60'], rfl, ?_, ?_, ?_⟩
      · rw [marks_template]
        rfl
      · rw [marks_template]
        rfl
      · rw [marks_template]
        exact fun clear => ⟨clear, passes_close (by decide)⟩
    | hole rest =>
      rw [templateRest_hole] at read
      split at read
      · rename_i value after found
        obtain ⟨front, rfl, spells⟩ := takes_hole inside rest value after found
        obtain ⟨back, rfl, closes⟩ := ih _ [] after e _ read
        rw [marks_hole] at closes
        have whole := (spells.cons (c := '\x7b') rfl).cons (c := '$') rfl
        refine ⟨'$' :: '\x7b' :: front ++ back, ?_, closes.prepend whole.slashes whole.hole⟩
        rw [List.cons_append, List.cons_append, List.cons_append, List.cons_append,
          List.append_assoc]
      · cases read
    | escape c rest =>
      rw [templateRest_escape] at read
      obtain ⟨back, rfl, closes⟩ := ih _ _ rest e _ read
      rw [ofPiece_cons, ← Marks.add_assoc] at closes
      exact ⟨['\\', c] ++ back, rfl, closes.prepend (slashes_escape c) fun _ => passes_escape⟩
    | backslash =>
      rw [templateRest_backslash] at read
      cases read
    | plain c rest quote escape outside =>
      rw [templateRest_plain quote escape outside] at read
      obtain ⟨back, rfl, closes⟩ := ih _ _ rest e _ read
      rw [ofPiece_cons, ← Marks.add_assoc] at closes
      exact ⟨[c] ++ back, rfl, closes.prepend rfl fun _ => passes_inside quote escape⟩

theorem takes_template (inside : expression.Takes Expr.WrittenAs) :
    (template expression).Takes Expr.WrittenAs := by
  refine (takes_char '\x60').bind fun _ opening same => ?_
  subst same
  intro s e rest read
  obtain ⟨back, rfl, closes⟩ := takes_templateRest inside ('\x60' :: s) [] [] s e rest read
  refine ⟨back, rfl, ⟨?_, fun clear => ?_, fun quiet => ?_⟩, opens_cons back (by decide)⟩
  · have backquote : slashes ['\x60'] = 0 := rfl
    have nothing : (Marks.all holeMarks [] + .ofPiece []).slashes = 0 := rfl
    have count := closes.slashes
    rw [List.reverse_nil, nothing] at count
    rw [slashes_append, backquote, count]
  · exact (passes_open (.inr (.inr rfl))).append (closes.code clear).2
  · rw [closes.loud] at quiet
    cases quiet

theorem takes_callOrName (inside : expression.Takes Expr.WrittenAs) :
    (callOrName expression).Takes Expr.WrittenAs := by
  intro s e rest read
  obtain ⟨found, between, named, -⟩ := bind_eq_ok_iff.1 read
  obtain ⟨front, rfl, -, nonempty, letters⟩ := takes_name s found between named
  have bare := bare_name letters
  have opens := opens_name nonempty letters
  by_cases call : ∃ after, Text.skipSpace between = '(' :: after
  · obtain ⟨after, ahead⟩ := call
    rw [callOrName_call named ahead] at read
    obtain ⟨blanks, shape, blank⟩ := takes_spaces between () ('(' :: after) (by rw [spaces, ahead])
    obtain ⟨text, taken, spells⟩ :=
      (takes_arguments inside).map (R := fun e text => Spells e.marks text)
        (fun args text spells => by rwa [Expr.marks]) ('(' :: after) e rest read
    refine ⟨front ++ (blanks ++ text), ?_, (spells.after blank.bare).after bare, opens.append _⟩
    rw [shape, taken, List.append_assoc, List.append_assoc]
  · rw [callOrName_name named fun after ahead => call ⟨after, ahead⟩] at read
    cases read
    exact ⟨front, rfl, bare.spells, opens⟩

/-- A word for a value without marks. -/
private theorem written_word {e : Expr} (none : e.marks = 0) {text : List Char}
    (nonempty : text ≠ []) (letters : text.all isNameChar = true) : e.WrittenAs text where
  spells := none ▸ (bare_name (List.all_eq_true.1 letters)).spells
  opens := opens_name nonempty (List.all_eq_true.1 letters)

theorem takes_wordLiteral : wordLiteral.Takes Expr.WrittenAs := by
  refine takes_oneOf ?_
  simp only [List.forall_mem_cons]
  exact ⟨written_word rfl (by decide) (by decide), written_word rfl (by decide) (by decide),
    written_word rfl (by decide) (by decide), written_word rfl (by decide) (by decide),
    List.forall_mem_nil _⟩

theorem takes_atom (inside : expression.Takes Expr.WrittenAs) :
    (atom expression).Takes Expr.WrittenAs := by
  refine takes_spaces.bind fun _ before blank => ?_
  have number : number.Takes Expr.WrittenAs := by
    refine takes_number.imp ?_
    rintro e text ⟨value, d, more, rfl, first, others⟩
    have bare : Bare (d :: more) := by
      refine List.forall_mem_cons.2 ⟨(isPlain_of_isDigit first).1, fun c member => ?_⟩
      rcases others c member with digit | rfl
      · exact (isPlain_of_isDigit digit).1
      · rfl
    have none : e.marks = 0 := by
      rcases value with ⟨n, rfl⟩ | ⟨x, rfl⟩ <;> rfl
    exact ⟨none ▸ bare.spells, opens_cons more (isPlain_of_isDigit first).2⟩
  have string : (Expr.string <$> quotedString).Takes Expr.WrittenAs :=
    takes_quotedString.map fun s text ⟨spells, opens⟩ => ⟨spells, opens⟩
  have operand := takes_wordLiteral.orElse <| number.orElse <| string.orElse <|
    (takes_template inside).orElse <| (takes_listLiteral inside).orElse <|
    (takes_mapLiteral inside).orElse <| (takes_parenthesized inside).orElse
    (takes_callOrName inside)
  exact operand.imp fun e text written =>
    ⟨written.spells.after blank.bare, written.opens.after blank⟩

end Operands

/-! ### Operators -/

/-- The parser makes a greater expression of one that was read before, and the text that it takes
has the marks that come with that. -/
def GoesOn (e : Expr) (p : Parser Expr) : Prop :=
  p.Takes fun whole text => ∃ marks, whole.marks = e.marks + marks ∧ Spells marks text

/-- Each parser of expressions takes a text that the expression may have. -/
structure Spelling (g : Grammar) : Prop where
  expression : g.expression.Takes Expr.WrittenAs
  unary : g.unary.Takes Expr.WrittenAs
  tier : ∀ tier, (g.tier tier).Takes Expr.WrittenAs
  tierRest : ∀ tier e, GoesOn e (g.tierRest tier e)
  postfixRest : ∀ e, GoesOn e (g.postfixRest e)

section Operators

variable {e : Expr} {p : Parser Expr} {g : Grammar} {below : Option (Thunk Grammar)}
  {s rest : List Char}

theorem GoesOn.bind {f : Expr → Parser Expr} (first : GoesOn e p) (second : ∀ a, GoesOn a (f a)) :
    GoesOn e (p >>= f) := by
  refine Takes.bind first fun a text shape => ?_
  obtain ⟨marks, same, spells⟩ := shape
  refine (second a).imp ?_
  rintro whole more ⟨others, greater, next⟩
  exact ⟨marks + others, by rw [greater, same, Marks.add_assoc], spells.append next⟩

theorem takes_goesOn {f : Expr → Parser Expr} (takes : p.Takes Expr.WrittenAs)
    (second : ∀ a, GoesOn a (f a)) : (p >>= f).Takes Expr.WrittenAs := by
  refine takes.bind fun a text written => (second a).imp ?_
  rintro whole more ⟨marks, greater, spells⟩
  exact ⟨greater ▸ written.spells.append spells, written.opens.append more⟩

/-- Nothing more is read. -/
private theorem stays (e : Expr) (s : List Char) :
    ∃ front, s = front ++ s ∧ ∃ marks, e.marks = e.marks + marks ∧ Spells marks front :=
  ⟨[], rfl, 0, (Marks.add_zero _).symm, Bare.spells (List.forall_mem_nil _)⟩

/-- A parser that goes by the character behind the spaces goes on if what follows does. -/
private theorem goesOn_ahead (takes : GoesOn e p) {whole : Expr} {c : Char} {after : List Char}
    (ahead : Text.skipSpace s = c :: rest) (plain : isPlain c = true)
    (read : p rest = .ok (whole, after)) :
    ∃ front, s = front ++ after ∧ ∃ marks, whole.marks = e.marks + marks ∧ Spells marks front := by
  obtain ⟨before, front, shape, blank, marks, same, spells⟩ := takes_ahead takes ahead read
  exact ⟨before ++ c :: front, shape, marks, same, (spells.cons plain).after blank.bare⟩

private theorem goesOn_enter {p : Grammar → Parser Expr}
    (spelling : ∀ g, below = some g → Spelling g.get)
    (inside : ∀ g, Spelling g → GoesOn e (p g)) : GoesOn e (enter below p) := by
  cases below with
  | none => exact takes_tooDeep
  | some g => exact inside g.get (spelling g rfl)

theorem marks_methodCall (receiver : Expr) (method : String) (args : List Expr) :
    (methodCall receiver method args).marks = receiver.marks + Expr.marksItems args := by
  have general : (Expr.call method (receiver :: args)).marks =
      receiver.marks + Expr.marksItems args := by
    rw [Expr.marks, Expr.marksItems]
  rw [methodCall.eq_def]
  split
  · rename_i name
    have none : (Expr.ident name).marks = 0 := rfl
    rw [none, Marks.zero_add] at general ⊢
    split
    · rfl
    split
    · rfl
    split
    · rfl
    · exact general
  · exact general

private theorem goesOn_member (spelling : Spelling g) (e : Expr) : GoesOn e (member g e) := by
  refine takes_anyName.spaced.bind fun found text shape => ?_
  obtain ⟨before, front, after, rfl, first, ⟨-, -, letters⟩, last⟩ := shape
  have bare : Bare (before ++ (front ++ after)) :=
    List.forall_mem_append.2 ⟨first.bare, List.forall_mem_append.2 ⟨bare_name letters, last.bare⟩⟩
  intro s whole rest read
  dsimp only at read
  split at read
  · have call : (methodCall e found <$> arguments g.expression).Takes fun whole text =>
        ∃ marks, whole.marks = e.marks + marks ∧ Spells marks text :=
      (takes_arguments spelling.expression).map fun args text spells =>
        ⟨_, marks_methodCall e found args, spells⟩
    obtain ⟨text, shape, marks, same, spells⟩ := call _ whole rest read
    exact ⟨text, shape, marks, same, spells.after bare⟩
  · cases read
    refine ⟨[], rfl, 0, ?_, ?_⟩
    · rw [Marks.add_zero, Expr.marks]
    · rw [List.append_nil]
      exact bare.spells

private theorem goesOn_subscript (spelling : Spelling g) (e : Expr) : GoesOn e (subscript g e) := by
  refine spelling.expression.spaced.bind fun key text shape => ?_
  refine (takes_char ']').bind fun _ closing same => takes_pure ?_
  obtain ⟨before, front, after, rfl, first, written, last⟩ := shape
  subst same
  have bracket : Bare ([']'] ++ []) := List.forall_mem_singleton.2 rfl
  exact ⟨key.marks, by rw [Expr.marks], (written.spells.enclosed first last).before bracket⟩

private theorem goesOn_postfixRestStep (spelling : ∀ g, below = some g → Spelling g.get)
    (e : Expr) : GoesOn e (postfixRestStep below e) := by
  intro s whole rest read
  by_cases field : ∃ more, Text.skipSpace s = '.' :: more
  · obtain ⟨more, ahead⟩ := field
    rw [postfixRestStep_field ahead] at read
    refine goesOn_ahead (goesOn_enter spelling fun g inside => ?_) ahead rfl read
    exact (goesOn_member inside e).bind inside.postfixRest
  by_cases index : ∃ more, Text.skipSpace s = '[' :: more
  · obtain ⟨more, ahead⟩ := index
    rw [postfixRestStep_index ahead] at read
    refine goesOn_ahead (goesOn_enter spelling fun g inside => ?_) ahead rfl read
    exact (goesOn_subscript inside e).bind inside.postfixRest
  rw [postfixRestStep_end (fun more same => field ⟨more, same⟩)
    (fun more same => index ⟨more, same⟩)] at read
  cases read
  exact stays e s

private theorem goesOn_conditionalRest (spelling : Spelling g) (e : Expr) :
    GoesOn e (conditionalRest g e) := by
  have alternatives : GoesOn e
      (do
        let yes ← spaced g.expression
        char ':'
        let no ← g.expression
        return .conditional e yes no) := by
    refine spelling.expression.spaced.bind fun yes text shape => ?_
    refine (takes_char ':').bind fun _ colon same => ?_
    refine spelling.expression.bind fun no more written => takes_pure ?_
    obtain ⟨before, front, after, rfl, first, inside, last⟩ := shape
    subst same
    refine ⟨yes.marks + no.marks, by rw [Expr.marks], ?_⟩
    rw [List.append_nil]
    exact (inside.spells.enclosed first last).append (written.spells.cons rfl)
  intro s whole rest read
  by_cases question : ∃ more, Text.skipSpace s = '?' :: more
  · obtain ⟨more, ahead⟩ := question
    rw [conditionalRest_question ahead] at read
    exact goesOn_ahead alternatives ahead rfl read
  · rw [conditionalRest_end fun more same => question ⟨more, same⟩] at read
    cases read
    exact stays e s

private theorem takes_expressionStep (spelling : ∀ g, below = some g → Spelling g.get) :
    (expressionStep below).Takes Expr.WrittenAs := by
  cases below with
  | none => exact takes_tooDeep
  | some g =>
    have inside := spelling g rfl
    exact takes_goesOn (inside.tier tierCount) (goesOn_conditionalRest inside)

private theorem takes_postfixed (spelling : ∀ g, below = some g → Spelling g.get) :
    (postfixed below).Takes Expr.WrittenAs :=
  takes_goesOn (takes_atom (takes_expressionStep spelling)) (goesOn_postfixRestStep spelling)

private theorem takes_unaryStep (spelling : ∀ g, below = some g → Spelling g.get) :
    (unaryStep below).Takes Expr.WrittenAs := by
  intro s e rest read
  obtain ⟨before, shape, blank⟩ := takes_spaces s () (Text.skipSpace s) rfl
  by_cases signed : ∃ op rest, Signed op (Text.skipSpace s) rest
  · obtain ⟨op, more, here⟩ := signed
    rw [unaryStep_signed here] at read
    have sign : isPlain (sign op) = true ∧ sign op ≠ '/' ∧ sign op ≠ '*' := by
      cases op <;> decide
    cases below with
    | none => cases read
    | some g =>
      have operand : (Expr.unary op <$> g.get.unary).Takes fun e text => Spells e.marks text :=
        (spelling g rfl).unary.map fun operand text written => by
          rw [Expr.marks]
          exact written.spells
      obtain ⟨text, rfl, spells⟩ := operand more e rest read
      refine ⟨before ++ _ :: text, ?_, (spells.cons sign.1).after blank.bare,
        (opens_cons text sign.2).after blank⟩
      rw [List.append_assoc, List.cons_append, ← here.ahead, ← shape]
  · have here (op : UnaryOp) (more : List Char) : ¬ Signed op (Text.skipSpace s) more :=
      fun found => signed ⟨op, more, found⟩
    rw [unaryStep_operand here] at read
    obtain ⟨front, taken, written⟩ := takes_postfixed spelling _ e rest read
    refine ⟨before ++ front, ?_, written.spells.after blank.bare, written.opens.after blank⟩
    rw [List.append_assoc, ← taken, ← shape]

private theorem goesOn_tierRestStep (spelling : ∀ g, below = some g → Spelling g.get) (tier : Nat)
    (e : Expr) : GoesOn e (tierRestStep below tier e) := by
  intro s whole rest read
  cases found : operator? tier (Text.skipSpace s) with
  | none =>
    rw [tierRestStep_end found] at read
    cases read
    exact stays e s
  | some out =>
    obtain ⟨op, more⟩ := out
    rw [tierRestStep_operator found] at read
    obtain ⟨token, member, same⟩ := operator?_eq_some found
    obtain ⟨before, shape, blank⟩ := takes_spaces s () (Text.skipSpace s) rfl
    have operands (g : Grammar) (inside : Spelling g) :
        (do
          let right ← g.tier tier
          g.tierRest tier (.binary op e right) : Parser Expr).Takes fun whole text =>
            ∃ marks, whole.marks = e.marks + marks ∧ Spells marks (token.toList ++ text) := by
      refine (inside.tier tier).bind fun right text written => ?_
      refine (inside.tierRest tier _).imp ?_
      rintro whole back ⟨marks, greater, spells⟩
      refine ⟨.ofOperator op + right.marks + marks, ?_, ?_⟩
      · rw [greater, Expr.marks, Marks.add_assoc]
      · rw [← List.append_assoc]
        exact (written.operator member).append spells
    cases below with
    | none => cases read
    | some g =>
      obtain ⟨text, rfl, marks, greater, spells⟩ :=
        operands g.get (spelling g rfl) more whole rest read
      refine ⟨before ++ (token.toList ++ text), ?_, marks, greater, spells.after blank.bare⟩
      rw [List.append_assoc, List.append_assoc, ← same, ← shape]

private theorem takes_tierStep (spelling : ∀ g, below = some g → Spelling g.get) (tier : Nat) :
    (tierStep below tier).Takes Expr.WrittenAs := by
  induction tier with
  | zero => exact takes_unaryStep spelling
  | succ tier ih => exact takes_goesOn ih (goesOn_tierRestStep spelling tier)

theorem spelling_step (spelling : ∀ g, below = some g → Spelling g.get) :
    Spelling (step below) where
  expression := takes_expressionStep spelling
  unary := takes_unaryStep spelling
  tier := takes_tierStep spelling
  tierRest := goesOn_tierRestStep spelling
  postfixRest := goesOn_postfixRestStep spelling

end Operators

/-- Whatever an expression is read from is a text that it may have. -/
theorem spelling_ofLevels (levels : Nat) : Spelling (ofLevels levels) := by
  induction levels with
  | zero => exact spelling_step fun g same => nomatch same
  | succ levels ih =>
    refine spelling_step fun g same => ?_
    cases same
    exact ih

end Grammar

end Relay.Script
