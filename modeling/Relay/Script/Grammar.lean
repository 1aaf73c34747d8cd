import Relay.Script.Token
import Relay.Text.Blank
import Relay.Text.Quoted

/-!
# The grammar of scripts

Nesting is bounded: a statement, a conditional, an operator and each step of a postfix chain holds
one level while what belongs to it is read. The parsers that may use a given number of levels form a
`Grammar`, and the grammar of one more level is made from the one below it, so that running out of
levels ends every recursion. The grammar below is made when a text first goes down to it, so that a
limit far above what the text needs costs nothing.
-/

namespace Relay.Script

/-- The parsers for text that may use a given number of levels. -/
structure Grammar where
  /-- An expression, down to conditionals. -/
  expression : Parser Expr
  /-- An operand with the operators in front of it. -/
  unary : Parser Expr
  /-- An expression of the first so many tiers of binary operators. -/
  tier : Nat → Parser Expr
  /-- The operators of one more tier and their right operands, after a left operand. -/
  tierRest : Nat → Expr → Parser Expr
  /-- Fields, indices and method calls after an expression. -/
  postfixRest : Expr → Parser Expr
  /-- A statement. -/
  statement : Parser Stmt

/-- A method call. The methods of the logger and of the http object leave the script; those of
`JSON`, `Math` and `Object` are functions of a compound name; any other method is a function of the
receiver and the arguments. -/
def methodCall (receiver : Expr) (method : String) (args : List Expr) : Expr :=
  match receiver with
  | .ident name =>
    if name = "logger" ∨ name = "console" then .invoke .logger method args
    else if name = "http" then .invoke .http method args
    else if name = "JSON" ∨ name = "Math" ∨ name = "Object" then
      .call (name ++ "." ++ method) args
    else .call method (receiver :: args)
  | _ => .call method (receiver :: args)

namespace Grammar

variable {α : Type}

/-- Go one level down, if there is one. -/
def enter (below : Option (Thunk Grammar)) (p : Grammar → Parser α) : Parser α :=
  match below with
  | none => Parser.tooDeep
  | some g => p g.get

@[simp] theorem enter_none (p : Grammar → Parser α) : enter none p = Parser.tooDeep := rfl

@[simp] theorem enter_some (g : Grammar) (p : Grammar → Parser α) :
    enter (some ⟨fun _ => g⟩) p = p g := rfl

open Relay.Script.Parser

/-! ### Operands -/

/-- The arguments of a call in their parentheses. -/
def arguments (expression : Parser Expr) : Parser (List Expr) := do
  char '('
  spaces
  let args ← commaList expression
  spaces
  char ')'
  return args

/-- A list in its brackets. -/
def listLiteral (expression : Parser Expr) : Parser Expr := do
  char '['
  spaces
  let items ← commaList expression
  spaces
  char ']'
  return .list items

/-- One entry of a map: its key is a name or a string. -/
def mapEntry (expression : Parser Expr) : Parser (String × Expr) := do
  spaces
  let key ← quotedString <|> anyName
  spaced (char ':')
  let value ← expression
  return (key, value)

/-- A map in its braces. -/
def mapLiteral (expression : Parser Expr) : Parser Expr := do
  char '\x7b'
  spaces
  let entries ← commaList (mapEntry expression)
  spaces
  char '\x7d'
  return .map entries

/-- An expression in parentheses. -/
def parenthesized (expression : Parser Expr) : Parser Expr := do
  char '('
  let e ← spaced expression
  char ')'
  return e

/-- A function call, or a name on its own. -/
def callOrName (expression : Parser Expr) : Parser Expr := do
  let found ← name
  let next ← fun s => .ok (Text.skipSpace s, s)
  match next with
  | '(' :: _ => do
    spaces
    let args ← arguments expression
    return .call found args
  | _ => return .ident found

/-- The rest of a template after its opening quote. Holes that were read and the text since the last
one are held last first. A backslash stands for a line end, a tab or the next character. The first
argument bounds the number of characters and holes. -/
def templateRest (expression : Parser Expr) (bound : List Char) (holes : List (String × Expr))
    (text : List Char) : Parser Expr :=
  fun s =>
    match bound with
    | [] => .error .mismatch
    | _ :: bound =>
      match s with
      | [] => .error .mismatch
      | '\x60' :: rest => .ok (.template holes.reverse (String.ofList text.reverse), rest)
      | '$' :: '\x7b' :: rest =>
        match (do let e ← spaced expression; char '\x7d'; return e) rest with
        | .ok (e, rest) =>
          templateRest expression bound ((String.ofList text.reverse, e) :: holes) [] rest
        | .error e => .error e
      | '\\' :: c :: rest =>
        let written := if c = 'n' then '\n' else if c = 't' then '\t' else c
        templateRest expression bound holes (written :: text) rest
      | ['\\'] => .error .mismatch
      | c :: rest => templateRest expression bound holes (c :: text) rest

/-- A template between backquotes. -/
def template (expression : Parser Expr) : Parser Expr := do
  char '\x60'
  fun s => templateRest expression ('\x60' :: s) [] [] s

/-- An operand without operators. -/
def atom (expression : Parser Expr) : Parser Expr := do
  spaces
  wordLiteral <|> number <|> (Expr.string <$> quotedString) <|> template expression
    <|> listLiteral expression <|> mapLiteral expression <|> parenthesized expression
    <|> callOrName expression

/-! ### Operators -/

/-- What follows a dot: a field, or a method with its arguments. -/
def member (g : Grammar) (e : Expr) : Parser Expr := do
  let found ← spaced anyName
  fun s =>
    match s with
    | '(' :: _ => (methodCall e found <$> arguments g.expression) s
    | _ => .ok (.field e found, s)

/-- What follows an opening bracket: an index. -/
def subscript (g : Grammar) (e : Expr) : Parser Expr := do
  let key ← spaced g.expression
  char ']'
  return .index e key

/-- Fields, indices and method calls after an expression. -/
def postfixRestStep (below : Option (Thunk Grammar)) (e : Expr) : Parser Expr :=
  fun s =>
    match Text.skipSpace s with
    | '.' :: rest => enter below (fun g => member g e >>= g.postfixRest) rest
    | '[' :: rest => enter below (fun g => subscript g e >>= g.postfixRest) rest
    | _ => .ok (e, s)

/-- What follows a condition: the two alternatives of a conditional, if there is a question mark. -/
def conditionalRest (g : Grammar) (condition : Expr) : Parser Expr :=
  fun s =>
    match Text.skipSpace s with
    | '?' :: rest =>
      (do
        let yes ← spaced g.expression
        char ':'
        let no ← g.expression
        return .conditional condition yes no : Parser Expr) rest
    | _ => .ok (condition, s)

/-- The number of tiers of binary operators. -/
def tierCount : Nat := 6

/-- An expression. -/
def expressionStep (below : Option (Thunk Grammar)) : Parser Expr :=
  enter below fun g => g.tier tierCount >>= conditionalRest g

/-- An operand with fields, indices and method calls. -/
def postfixed (below : Option (Thunk Grammar)) : Parser Expr :=
  atom (expressionStep below) >>= postfixRestStep below

/-- An operand with the operators in front of it. `!=`, `--` and `-=` are not such operators. -/
def unaryStep (below : Option (Thunk Grammar)) : Parser Expr :=
  fun s =>
    match Text.skipSpace s with
    | '!' :: '=' :: rest => postfixed below ('!' :: '=' :: rest)
    | '!' :: rest => enter below (fun g => Expr.unary .not <$> g.unary) rest
    | '-' :: '-' :: rest => postfixed below ('-' :: '-' :: rest)
    | '-' :: '=' :: rest => postfixed below ('-' :: '=' :: rest)
    | '-' :: rest => enter below (fun g => Expr.unary .neg <$> g.unary) rest
    | s => postfixed below s

/-- The operators of a tier and their right operands, after a left operand. -/
def tierRestStep (below : Option (Thunk Grammar)) (tier : Nat) (left : Expr) : Parser Expr :=
  fun s =>
    match operator? tier (Text.skipSpace s) with
    | none => .ok (left, s)
    | some (op, rest) =>
      enter below (fun g => do
        let right ← g.tier tier
        g.tierRest tier (.binary op left right)) rest

/-- An expression of the first so many tiers; operators of one tier group to the left. -/
def tierStep (below : Option (Thunk Grammar)) : Nat → Parser Expr
  | 0 => unaryStep below
  | tier + 1 => tierStep below tier >>= tierRestStep below tier

/-! ### Statements -/

/-- The end of a statement: an optional semicolon. -/
def endOfStatement : Parser Unit := do
  spaces
  let _ ← optional (char ';')
  return ()

/-- A semicolon on its own. -/
def emptyStatement : Parser Stmt := do
  char ';'
  return .block []

/-- The declaration of a local. -/
def declaration (g : Grammar) : Parser Stmt := do
  let constant ← (do keyword "let"; return false) <|> (do keyword "const"; return true)
    <|> (do keyword "var"; return false)
  let found ← spaced name
  char '='
  let value ← g.expression
  endOfStatement
  return .declare constant found value

/-- Statements in braces. -/
def block (g : Grammar) : Parser (List Stmt) := do
  char '\x7b'
  let body ← many g.statement
  spaces
  char '\x7d'
  return body

/-- What a branch runs: a block or one statement. -/
def branchBody (g : Grammar) : Parser (List Stmt) :=
  fun s =>
    match s with
    | '\x7b' :: _ => block g s
    | _ => (([·]) <$> g.statement) s

/-- The other branch, if the text goes on with `else`. -/
def elseBranch (g : Grammar) : Parser (List Stmt) :=
  fun s =>
    match keyword "else" (Text.skipSpace s) with
    | .ok (_, rest) => branchBody g (Text.skipSpace rest)
    | .error _ => .ok ([], s)

/-- A branching statement. -/
def branching (g : Grammar) : Parser Stmt := do
  keyword "if"
  spaced (char '(')
  let condition ← g.expression
  spaced (char ')')
  let yes ← branchBody g
  let no ← elseBranch g
  return .branch condition yes no

/-- The end of the program, with or without a value. -/
def returning (g : Grammar) : Parser Stmt := do
  keyword "return"
  let value ← optional g.expression
  endOfStatement
  return .ret value

/-- The steps of an assignment target, after those that were read before, which are held last first.
They hold no levels. The first argument bounds their number. -/
def placeRest (g : Grammar) (bound : List Char) (taken : List PathStep) : Parser (List PathStep) :=
  fun s =>
    match bound with
    | [] => .ok (taken.reverse, s)
    | _ :: bound =>
      match Text.skipSpace s with
      | '.' :: rest =>
        match spaced anyName rest with
        | .ok (found, rest) => placeRest g bound (.field found :: taken) rest
        | .error e => .error e
      | '[' :: rest =>
        match (do let key ← spaced g.expression; char ']'; return key) rest with
        | .ok (key, rest) => placeRest g bound (.index key :: taken) rest
        | .error e => .error e
      | _ => .ok (taken.reverse, s)

/-- An assignment target. -/
def place (g : Grammar) : Parser Place := do
  let root ← name
  let path ← fun s => placeRest g s [] s
  return ⟨root, path⟩

/-- An assignment operator; a single `=` is not the start of `==`. -/
def assignOp : Parser AssignOp
  | '+' :: '=' :: rest => .ok (.add, rest)
  | '-' :: '=' :: rest => .ok (.sub, rest)
  | '*' :: '=' :: rest => .ok (.mul, rest)
  | '/' :: '=' :: rest => .ok (.div, rest)
  | '=' :: '=' :: _ => .error .mismatch
  | '=' :: rest => .ok (.set, rest)
  | _ => .error .mismatch

/-- What an assignment does to its place: a step up or down by one, or an operator and a value. -/
def assignedValue (g : Grammar) : Parser (AssignOp × Expr)
  | '+' :: '+' :: rest => .ok ((.add, .int 1), rest)
  | '-' :: '-' :: rest => .ok ((.sub, .int 1), rest)
  | s =>
    (do
      let op ← assignOp
      let value ← g.expression
      return (op, value) : Parser (AssignOp × Expr)) s

/-- An assignment. -/
def assignment (g : Grammar) : Parser Stmt := do
  let target ← place g
  spaces
  let (op, value) ← assignedValue g
  endOfStatement
  return .assign target op value

/-- An expression as a statement. -/
def expressionStatement (g : Grammar) : Parser Stmt := do
  let e ← g.expression
  endOfStatement
  return .eval e

/-- A statement. -/
def statementStep (below : Option (Thunk Grammar)) : Parser Stmt := do
  spaces
  enter below fun g =>
    emptyStatement <|> declaration g <|> branching g <|> returning g <|> (Stmt.block <$> block g)
      <|> assignment g <|> expressionStatement g

/-- The grammar of one more level than the one below. -/
def step (below : Option (Thunk Grammar)) : Grammar where
  expression := expressionStep below
  unary := unaryStep below
  tier := tierStep below
  tierRest := tierRestStep below
  postfixRest := postfixRestStep below
  statement := statementStep below

/-- The grammar of so many levels. -/
def ofLevels : Nat → Grammar
  | 0 => step none
  | levels + 1 => step (some ⟨fun _ => ofLevels levels⟩)

end Grammar

/-- Why a text is not a script. -/
inductive SyntaxError where
  | emptyExpression
  | noExpression
  /-- What is left of the text after the last statement. -/
  | unexpected (rest : List Char)
  /-- What is left of the text after the expression. -/
  | trailing (rest : List Char)
  | tooDeep (limit : Nat)
deriving DecidableEq, Repr

/-- The greatest number of characters of the rest that a message shows. -/
def shownChars : Nat := 40

/-- The error in words. -/
def SyntaxError.message : SyntaxError → String
  | emptyExpression => "empty expression"
  | noExpression => "Parsing Error"
  | unexpected rest => "unexpected input: " ++ Text.quoted (rest.take shownChars)
  | trailing rest => "unexpected trailing input: " ++ Text.quoted rest
  | tooDeep limit => "nesting exceeds limit of " ++ toString limit

/-- How deep an expression on its own may nest. -/
def defaultNesting : Nat := 64

/-- Parse a program that nests at most the given number of levels. -/
def parseProgram (limit : Nat) (source : String) : Except SyntaxError Program :=
  let code := removeComments source.toList
  match Parser.many (Grammar.ofLevels limit).statement code with
  | .error _ => .error (.tooDeep limit)
  | .ok (body, rest) =>
    match Text.trimChars rest with
    | [] => .ok body
    | rest => .error (.unexpected rest)

/-- Parse an expression on its own. -/
def parseExpr (source : String) : Except SyntaxError Expr :=
  match Text.trimChars source.toList with
  | [] => .error .emptyExpression
  | code =>
    match (Grammar.ofLevels defaultNesting).expression code with
    | .error .tooDeep => .error (.tooDeep defaultNesting)
    | .error .mismatch => .error .noExpression
    | .ok (e, rest) =>
      match Text.trimChars rest with
      | [] => .ok e
      | rest => .error (.trailing rest)

end Relay.Script
