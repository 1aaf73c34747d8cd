import Relay.Script.Syntax
import Relay.Script.Parser
import Relay.Text.Alphanumeric
import Relay.Decimal.Reading

/-!
# Words, literals and comments

The smallest parts of a script: names and keywords, numbers, strings in either quote, and the
operators of each tier of precedence. Comments are taken out before a program is parsed; what looks
like a comment inside quotes stays.
-/

namespace Relay.Script

/-- A character of a name, after the first one. -/
def isNameChar (c : Char) : Bool :=
  Text.isAlphanumeric c || c = '_' || c = '$'

/-- A character that a name may start with. -/
def isNameStart (c : Char) : Bool :=
  c.isAlpha || c = '_' || c = '$'

/-- Names that are reserved for statements. -/
def reservedNames : List String := ["let", "const", "var", "if", "else", "return"]

namespace Parser

/-- A word that is not the start of a longer name. -/
def keyword (word : String) : Parser Unit :=
  fun s =>
    match Text.afterWord? word.toList s with
    | none => .error .mismatch
    | some [] => .ok ((), [])
    | some (c :: rest) => if isNameChar c then .error .mismatch else .ok ((), c :: rest)

/-- A name, reserved or not. -/
def anyName : Parser String
  | [] => .error .mismatch
  | c :: rest =>
    if isNameStart c then
      .ok (String.ofList (c :: rest.takeWhile isNameChar), rest.dropWhile isNameChar)
    else .error .mismatch

/-- A name that is not reserved. -/
def name : Parser String := do
  let found ← anyName
  if found ∈ reservedNames then mismatch else return found

/-- The first of some alternatives that one of the words decides. -/
def oneOf (words : List (String × Expr)) : Parser Expr :=
  words.foldr (fun (word, e) other => (do keyword word; return e) <|> other) mismatch

/-- Null, a truth value, or a word for one. -/
def wordLiteral : Parser Expr :=
  oneOf [("null", .null), ("undefined", .null), ("true", .bool true), ("false", .bool false)]

/-- A number without a sign: an integer of 64 bits, or a double if it has a fraction. -/
def number : Parser Expr :=
  fun s =>
    match s.takeWhile Char.isDigit, s.dropWhile Char.isDigit with
    | [], _ => .error .mismatch
    | whole, rest =>
      let integer : Except Refusal (Expr × List Char) :=
        let n := Decimal.natOfDigits whole
        if n < 0x8000_0000_0000_0000 then .ok (.int (Int64.ofNat n), rest) else .error .mismatch
      match rest with
      | '.' :: after =>
        match after.takeWhile Char.isDigit with
        | [] => integer
        | fraction =>
          let x := Decimal.nearest (Decimal.natOfDigits (whole ++ fraction)) (-fraction.length)
          .ok (.float x, after.dropWhile Char.isDigit)
      | _ => integer

/-- What a backslash and the next character stand for in a string: the quote, the backslash and the
three common controls lose the backslash, any other character keeps it. -/
def unescape (quote c : Char) : List Char :=
  if c = 'n' then ['\n']
  else if c = 't' then ['\t']
  else if c = 'r' then ['\r']
  else if c = '\\' then ['\\']
  else if c = quote then [quote]
  else ['\\', c]

/-- The rest of a string after its opening quote; the characters so far are held last first. -/
def stringRest (quote : Char) (taken : List Char) : Parser String
  | [] => .error .mismatch
  | c :: rest =>
    if c = quote then .ok (String.ofList taken.reverse, rest)
    else if c = '\\' then
      match rest with
      | [] => .error .mismatch
      | escaped :: rest => stringRest quote ((unescape quote escaped).reverse ++ taken) rest
    else stringRest quote (c :: taken) rest

/-- A string in the given quotes. -/
def quotedWith (quote : Char) : Parser String := do
  char quote
  stringRest quote []

/-- A string in double or single quotes. -/
def quotedString : Parser String :=
  quotedWith '"' <|> quotedWith '\''

end Parser

/-- The tiers of binary operators, the strongest first, with the tokens of each tier in the order in
which they are tried. -/
def operatorTiers : List (List (String × BinaryOp)) := [
  [("*", .mul), ("/", .div), ("%", .rem)],
  [("+", .add), ("-", .sub)],
  [("<=", .le), (">=", .ge), ("<", .lt), (">", .gt)],
  [("===", .eq), ("!==", .ne), ("==", .eq), ("!=", .ne)],
  [("&&", .and)],
  [("||", .or)]]

/-- Whether a tier refuses a token of one character before `=` or before itself, since `+=`, `++`
and the like belong to statements. The order comparisons do not. -/
def refusesDoubled (tier : Nat) : Bool :=
  tier ≠ 2

/-- The first token of a tier that the text starts with, and what follows it. -/
def firstToken? (tokens : List (String × BinaryOp)) (s : List Char) :
    Option (String × BinaryOp × List Char) :=
  tokens.findSome? fun (token, op) =>
    (Text.afterWord? token.toList s).map fun rest => (token, op, rest)

/-- The binary operator of a tier at the front of the text. -/
def operator? (tier : Nat) (s : List Char) : Option (BinaryOp × List Char) :=
  match firstToken? (operatorTiers.getD tier []) s with
  | none => none
  | some (token, op, rest) =>
    match token.toList, rest with
    | [c], next :: _ =>
      if refusesDoubled tier ∧ (next = '=' ∨ next = c) then none else some (op, rest)
    | _, _ => some (op, rest)

/-- Where the removal of comments stands in a program. -/
inductive CommentState where
  | code
  | quoted (quote : Char)
  /-- After a backslash inside quotes. -/
  | escaped (quote : Char)
  | line
  /-- Inside a block comment, and whether the last character was a star. -/
  | block (star : Bool)
deriving DecidableEq, Repr

/-- Remove comments; the text so far is held last character first. A line comment ends before the
end of its line, and a block comment leaves one space. -/
def removeCommentsFrom (state : CommentState) (kept : List Char) : List Char → List Char
  | [] =>
    match state with
    | .block _ => (' ' :: kept).reverse
    | _ => kept.reverse
  | c :: rest =>
    match state with
    | .quoted quote =>
      let next := if c = '\\' then .escaped quote else if c = quote then .code else .quoted quote
      removeCommentsFrom next (c :: kept) rest
    | .escaped quote => removeCommentsFrom (.quoted quote) (c :: kept) rest
    | .line =>
      if c = '\n' then removeCommentsFrom .code (c :: kept) rest
      else removeCommentsFrom .line kept rest
    | .block star =>
      if star ∧ c = '/' then removeCommentsFrom .code (' ' :: kept) rest
      else removeCommentsFrom (.block (c = '*')) kept rest
    | .code =>
      if c = '"' ∨ c = '\'' ∨ c = '\x60' then removeCommentsFrom (.quoted c) (c :: kept) rest
      else if c = '/' then
        match rest with
        | '/' :: rest => removeCommentsFrom .line kept rest
        | '*' :: rest => removeCommentsFrom (.block false) kept rest
        | rest => removeCommentsFrom .code (c :: kept) rest
      else removeCommentsFrom .code (c :: kept) rest

/-- A program without its comments. -/
def removeComments (s : List Char) : List Char :=
  removeCommentsFrom .code [] s

end Relay.Script
