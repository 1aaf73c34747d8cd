import Relay.Text.Scan

/-!
# Parsers of the script language

A parser takes characters from the front of the text. It can refuse in two ways: a mismatch, after
which another alternative is tried, and a nesting that is too deep, which ends the whole parse. The
loops take the text that remains as their bound: each turn uses at least one of its characters.
-/

namespace Relay.Script

/-- Why a parser refuses a text. -/
inductive Refusal where
  | mismatch
  | tooDeep
deriving DecidableEq, Repr

/-- A parser answers with a value and the rest of the text. -/
def Parser (α : Type) : Type :=
  List Char → Except Refusal (α × List Char)

namespace Parser

variable {α β : Type}

/-- Take nothing. -/
protected def pure (a : α) : Parser α :=
  fun s => .ok (a, s)

/-- One parser after another; the second may depend on what the first one read. -/
protected def bind (p : Parser α) (f : α → Parser β) : Parser β :=
  fun s =>
    match p s with
    | .ok (a, rest) => f a rest
    | .error e => .error e

instance : Monad Parser where
  pure := Parser.pure
  bind := Parser.bind

@[simp] theorem pure_run (a : α) (s : List Char) : (pure a : Parser α) s = .ok (a, s) := rfl

@[simp] theorem bind_run (p : Parser α) (f : α → Parser β) (s : List Char) :
    (p >>= f) s =
      match p s with
      | .ok (a, rest) => f a rest
      | .error e => .error e := rfl

@[simp] theorem map_run (g : α → β) (p : Parser α) (s : List Char) :
    (g <$> p) s =
      match p s with
      | .ok (a, rest) => .ok (g a, rest)
      | .error e => .error e := rfl

/-- Refuse with a mismatch. -/
def mismatch : Parser α :=
  fun _ => .error .mismatch

/-- Refuse because the nesting is too deep. -/
def tooDeep : Parser α :=
  fun _ => .error .tooDeep

/-- Try one parser, and another one if the first mismatches. -/
protected def orElse (p : Parser α) (q : Unit → Parser α) : Parser α :=
  fun s =>
    match p s with
    | .error .mismatch => q () s
    | other => other

instance : OrElse (Parser α) := ⟨Parser.orElse⟩

/-- Read something if it is there. -/
def optional (p : Parser α) : Parser (Option α) :=
  fun s =>
    match p s with
    | .ok (a, rest) => .ok (some a, rest)
    | .error .mismatch => .ok (none, s)
    | .error .tooDeep => .error .tooDeep

/-- Skip spaces. -/
def spaces : Parser Unit :=
  fun s => .ok ((), Text.skipSpace s)

/-- One given character. -/
def char (c : Char) : Parser Unit
  | [] => .error .mismatch
  | d :: rest => if d = c then .ok ((), rest) else .error .mismatch

/-- A parser with spaces allowed on both sides. -/
def spaced (p : Parser α) : Parser α := do
  spaces
  let a ← p
  spaces
  return a

/-- As many as there are, after those that were read before, which are held last first. -/
def manyFrom (p : Parser α) (bound : List Char) (taken : List α) : Parser (List α) :=
  fun s =>
    match bound with
    | [] => .ok (taken.reverse, s)
    | _ :: bound =>
      match p s with
      | .ok (a, rest) => manyFrom p bound (a :: taken) rest
      | .error .mismatch => .ok (taken.reverse, s)
      | .error .tooDeep => .error .tooDeep

/-- As many as there are. The bound is one turn more than there are characters: the turn that ends
the loop may still find that the nesting is too deep. -/
def many (p : Parser α) : Parser (List α) :=
  fun s => manyFrom p (' ' :: s) [] s

/-- More items, each after a separator. A separator without an item after it is left in the text. -/
def moreFrom (separator : Parser Unit) (p : Parser α) (bound : List Char) (taken : List α) :
    Parser (List α) :=
  fun s =>
    match bound with
    | [] => .ok (taken.reverse, s)
    | _ :: bound =>
      match (separator >>= fun _ => p) s with
      | .ok (a, rest) => moreFrom separator p bound (a :: taken) rest
      | .error .mismatch => .ok (taken.reverse, s)
      | .error .tooDeep => .error .tooDeep

/-- Items with separators between them, possibly none. -/
def separated (separator : Parser Unit) (p : Parser α) : Parser (List α) :=
  fun s =>
    match p s with
    | .ok (a, rest) => moreFrom separator p rest [a] rest
    | .error .mismatch => .ok ([], s)
    | .error .tooDeep => .error .tooDeep

/-- Items between commas, with an optional comma after the last one. -/
def commaList (p : Parser α) : Parser (List α) := do
  let items ← separated (spaced (char ',')) p
  let _ ← optional (spaced (char ','))
  return items

end Parser

end Relay.Script
