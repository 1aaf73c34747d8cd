import Relay.Script.Operator
import Relay.Json.Parser
import Relay.Decimal.Literal
import Relay.Text.Case
import Relay.Text.Search

/-!
# Built-in functions

Functions that every script can call, most of them under a short name and under the name of a
method. A method call passes the receiver as the first argument.
-/

namespace Relay.Script

/-- The built-in functions. -/
inductive Builtin where
  | len
  | toString
  | parseInt
  | parseFloat
  | lower
  | upper
  | trim
  | includes
  | startsWith
  | endsWith
  | split
  | join
  | keys
  | abs
  | min
  | max
  | floor
  | ceil
  | round
  | stringify
  | parseJson
deriving DecidableEq, Repr

namespace Builtin

/-- The function that a name in a script stands for. -/
def ofName? : String → Option Builtin
  | "len" | "length" => some len
  | "str" | "String" | "toString" => some toString
  | "int" | "parseInt" => some parseInt
  | "float" | "parseFloat" | "Number" => some parseFloat
  | "lower" | "toLowerCase" => some lower
  | "upper" | "toUpperCase" => some upper
  | "trim" => some trim
  | "contains" | "includes" => some includes
  | "startsWith" | "starts_with" => some startsWith
  | "endsWith" | "ends_with" => some endsWith
  | "split" => some split
  | "join" => some join
  | "keys" | "Object.keys" => some keys
  | "abs" | "Math.abs" => some abs
  | "min" | "Math.min" => some min
  | "max" | "Math.max" => some max
  | "Math.floor" => some floor
  | "Math.ceil" => some ceil
  | "Math.round" => some round
  | "JSON.stringify" => some stringify
  | "JSON.parse" => some parseJson
  | _ => none

/-- The name of a function in messages. -/
def shownName : Builtin → String
  | len => "len"
  | toString => "toString"
  | parseInt => "parseInt"
  | parseFloat => "parseFloat"
  | lower => "toLowerCase"
  | upper => "toUpperCase"
  | trim => "trim"
  | includes => "includes"
  | startsWith => "startsWith"
  | endsWith => "endsWith"
  | split => "split"
  | join => "join"
  | keys => "keys"
  | abs => "abs"
  | min => "min"
  | max => "max"
  | floor => "floor"
  | ceil => "ceil"
  | round => "round"
  | stringify => "JSON.stringify"
  | parseJson => "JSON.parse"

/-- A count as a value. -/
def count (n : Nat) : Value :=
  .int (Int64.ofNat n)

/-- The number of characters, items or entries. -/
def applyLen : Value → Except ScriptError Value
  | .string s => .ok (count s.length)
  | .list items => .ok (count items.length)
  | .map entries => .ok (count entries.length)
  | other => .error (.mismatch (.argument "len" "string, list, or map" other.type))

/-- Conversion to an integer, toward zero; null where there is none. -/
def applyParseInt : Value → Value
  | .int n => .int n
  | .float x => if x.isFinite then .int x.toInt64 else .null
  | .bool b => .int (if b then 1 else 0)
  | .string s =>
    match Decimal.integer? (Text.trimChars s.toList) with
    | some n =>
      if -0x8000_0000_0000_0000 ≤ n ∧ n < 0x8000_0000_0000_0000 then .int (Int64.ofInt n) else .null
    | none => .null
  | _ => .null

/-- Conversion to a double; null where there is none. -/
def applyParseFloat : Value → Value
  | .int n => .float (nearestDouble n)
  | .float x => .float x
  | .bool b => .float (if b then 1 else 0)
  | .string s =>
    match Decimal.float? (Text.trimChars s.toList) with
    | some x => .float x
    | none => .null
  | _ => .null

/-- A function on strings. -/
def onString (f : Builtin) (apply : String → Value) : Value → Except ScriptError Value
  | .string s => .ok (apply s)
  | other => .error (.mismatch (.argument f.shownName "string" other.type))

/-- A function on two strings. -/
def onStrings (f : Builtin) (apply : String → String → Value) :
    Value → Value → Except ScriptError Value
  | .string s, .string t => .ok (apply s t)
  | a, b => .error (.mismatch (.arguments f.shownName "(string, string)" a.type b.type))

/-- Whether a string contains another one, a list an item that is the same, or a map a key. -/
def applyIncludes (whole part : Value) : Except ScriptError Value :=
  match whole, part with
  | .string s, .string t => .ok (.bool (Text.containsWord t.toList s.toList))
  | .list items, v => .ok (.bool (items.any fun item => item.same v))
  | .map entries, .string key => .ok (.bool (entries.lookup key).isSome)
  | a, b =>
    .error (.mismatch (.arguments "includes" "(string, string) or (list, value)" a.type b.type))

/-- The items of a list as text, with a string between them. -/
def applyJoin (items separator : Value) : Except ScriptError Value :=
  match items, separator with
  | .list items, .string separator => .ok (.string (Text.join separator (items.map Value.display)))
  | a, b => .error (.mismatch (.arguments "join" "(list, string)" a.type b.type))

/-- The keys of a map in ascending order. -/
def applyKeys : Value → Except ScriptError Value
  | .map entries => .ok (.list (entries.map fun entry => .string entry.1))
  | other => .error (.mismatch (.argument "keys" "map" other.type))

/-- The magnitude of a number. The least integer has none and gives the greatest. -/
def applyAbs : Value → Except ScriptError Value
  | .int n => .ok (.int (Int64.ofInt (Min.min (n.toInt.natAbs : Int) 0x7fff_ffff_ffff_ffff)))
  | .float x => .ok (.float x.abs)
  | other => .error (.mismatch (.argument "abs" "number" other.type))

/-- The one of two doubles that is chosen; one that is not a number never is, if there is another.
-/
def chooseFloat (second : Float → Float → Bool) (a b : Float) : Float :=
  if a.isNaN then b else if b.isNaN then a else if second a b then b else a

/-- The lesser or the greater of two numbers. `second` says when it is the second one. -/
def applyChoice (f : Builtin) (secondInt : Int → Int → Bool) (second : Float → Float → Bool)
    (left right : Value) : Except ScriptError Value :=
  match left, right with
  | .int a, .int b => .ok (.int (if secondInt a.toInt b.toInt then b else a))
  | .float a, .float b => .ok (.float (chooseFloat second a b))
  | .int a, .float b => .ok (.float (chooseFloat second (nearestDouble a) b))
  | .float a, .int b => .ok (.float (chooseFloat second a (nearestDouble b)))
  | a, b => .error (.mismatch (.arguments f.shownName "numbers" a.type b.type))

/-- Rounding to an integer. A double that is not finite stays as it is. -/
def applyRounding (f : Builtin) (apply : Float → Float) : Value → Except ScriptError Value
  | .int n => .ok (.int n)
  | .float x => .ok (if x.isFinite then .int (apply x).toInt64 else .float x)
  | other => .error (.mismatch (.argument f.shownName "number" other.type))

/-- The value that JSON text writes. -/
def applyParseJson : Value → Except ScriptError Value
  | .string s =>
    match Json.parse? s with
    | some j => .ok (.ofJson j)
    | none => .error (.fault .notJson)
  | other => .error (.mismatch (.argument "JSON.parse" "string" other.type))

/-- Functions of one argument; `none` for the others. -/
def unary? (f : Builtin) : Option (Value → Except ScriptError Value) :=
  match f with
  | len => some applyLen
  | toString => some fun v => .ok (.string v.display)
  | parseInt => some fun v => .ok (applyParseInt v)
  | parseFloat => some fun v => .ok (applyParseFloat v)
  | lower => some (onString lower fun s => .string (Text.lowercase s))
  | upper => some (onString upper fun s => .string (Text.uppercase s))
  | trim => some (onString trim fun s => .string (Text.trim s))
  | keys => some applyKeys
  | abs => some applyAbs
  | floor => some (applyRounding floor Float.floor)
  | ceil => some (applyRounding ceil Float.ceil)
  | round => some (applyRounding round Float.round)
  | stringify => some fun v => .ok (.string v.toJson.compact)
  | parseJson => some applyParseJson
  | _ => none

/-- A function of two arguments. -/
def binary (f : Builtin) (a b : Value) : Except ScriptError Value :=
  match f with
  | startsWith =>
    onStrings startsWith (fun s t => .bool (Text.afterWord? t.toList s.toList).isSome) a b
  | endsWith =>
    onStrings endsWith
      (fun s t => .bool (Text.afterWord? t.toList.reverse s.toList.reverse).isSome) a b
  | split => onStrings split (fun s t => .list ((Text.split t s).map .string)) a b
  | join => applyJoin a b
  | min => applyChoice min (fun a b => b < a) (fun a b => b < a) a b
  | max => applyChoice max (fun a b => a < b) (fun a b => a < b) a b
  | _ => applyIncludes a b

/-- Call a function. Every function takes a fixed number of arguments, one or two. -/
def apply (f : Builtin) (args : List Value) : Except ScriptError Value :=
  match f.unary?, args with
  | some run, [a] => run a
  | some _, args => .error (.mismatch (.argumentCount f.shownName "1" args.length))
  | none, [a, b] => f.binary a b
  | none, args => .error (.mismatch (.argumentCount f.shownName "2" args.length))

end Builtin

/-- Call a function by its name. -/
def callFunction (name : String) (args : List Value) : Except ScriptError Value :=
  match Builtin.ofName? name with
  | some f => f.apply args
  | none => .error (.undefinedFunction name)

end Relay.Script
