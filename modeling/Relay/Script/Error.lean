import Relay.Script.Grammar
import Relay.Script.Value

/-!
# What goes wrong in a script

Each failure is a cause with what it is about; `ScriptError.message` puts it into words.
-/

namespace Relay.Script

/-- A setting that no sandbox accepts. -/
inductive ConfigFlaw where
  | timeoutTooShort
  | timeoutTooLong (got : Nat)
  | noSourceBytes
  | noStringBytes
  | noValueBytes
  | nestingOutOfRange (got : Nat)
deriving DecidableEq, Repr

/-- A fault: the types are right, but the script goes beyond what it may do. -/
inductive Fault where
  | rebind (name : String)
  | constant (name : String)
  /-- An assignment to the store as a whole. -/
  | wholeStore (name : String)
  | positionTooLarge (position : Nat)
  | stringTooLong (bytes limit : Nat)
  | tooDeep (limit : Nat)
  | valueTooLarge (bytes limit : Nat)
  | holdsTooMuch (bytes limit : Nat)
  | sourceTooLong (bytes limit : Nat)
  | integerOverflow
  | divisionByZero
  | moduloByZero
  | notJson
  /-- A fault reported from outside the script. -/
  | reported (reason : String)
deriving DecidableEq, Repr

/-- A value of a type that an operation has no use for. -/
inductive Mismatch where
  | fieldOfNull (name : String)
  | index (base key : ValueType)
  | position (got : ValueType)
  /-- A number that is not a position, in an assignment. -/
  | assignedIndex (shown : String)
  | assign (key : Key) (target : ValueType)
  | negate (operand : ValueType)
  | add (left right : ValueType)
  | arithmetic (symbol : String) (left right : ValueType)
  | divide (left right : ValueType)
  | remainder (left right : ValueType)
  | compare (left right : ValueType)
  | argumentCount (function expected : String) (got : Nat)
  | argument (function expected : String) (got : ValueType)
  | arguments (function expected : String) (first second : ValueType)
deriving DecidableEq, Repr

/-- Why a script fails. -/
inductive ScriptError where
  | timeout (ms : Nat)
  | parse (cause : SyntaxError)
  | fault (cause : Fault)
  | mismatch (cause : Mismatch)
  | undefinedVariable (name : String)
  | undefinedFunction (name : String)
  | capability (reason : String)
  | invalidConfig (flaw : ConfigFlaw)
deriving DecidableEq, Repr

/-- The flaw in words. -/
def ConfigFlaw.message : ConfigFlaw → String
  | timeoutTooShort => "timeout_ms must be at least 1"
  | timeoutTooLong got => "timeout_ms must not exceed 60000 (got " ++ toString got ++ ")"
  | noSourceBytes => "max_source_bytes must be greater than zero"
  | noStringBytes => "max_string_bytes must be greater than zero"
  | noValueBytes => "max_value_bytes must be greater than zero"
  | nestingOutOfRange got => "max_nesting must be between 1 and 256 (got " ++ toString got ++ ")"

/-- The fault in words. -/
def Fault.message : Fault → String
  | rebind name => "cannot rebind '" ++ name ++ "'"
  | constant name => "assignment to constant variable '" ++ name ++ "'"
  | wholeStore name => "cannot assign to '" ++ name ++ "' itself"
  | positionTooLarge position => "index " ++ toString position ++ " exceeds the value size limit"
  | stringTooLong bytes limit =>
    "string of " ++ toString bytes ++ " bytes exceeds limit of " ++ toString limit ++ " bytes"
  | tooDeep limit => "value nests deeper than " ++ toString limit ++ " levels"
  | valueTooLarge bytes limit =>
    "value of about " ++ toString bytes ++ " bytes exceeds limit of " ++ toString limit ++ " bytes"
  | holdsTooMuch bytes limit =>
    "script holds about " ++ toString bytes ++ " bytes, limit is " ++ toString limit ++ " bytes"
  | sourceTooLong bytes limit =>
    "script source is " ++ toString bytes ++ " bytes, limit is " ++ toString limit
  | integerOverflow => "integer overflow"
  | divisionByZero => "division by zero"
  | moduloByZero => "modulo by zero"
  | notJson => "JSON.parse: "
  | reported reason => reason

/-- A key in messages about assignments. -/
def Key.described : Key → String
  | name s => "property '" ++ s ++ "'"
  | position n => "index " ++ toString n

/-- The mismatch in words. -/
def Mismatch.message : Mismatch → String
  | fieldOfNull name => "cannot read property '" ++ name ++ "' of null"
  | index base key => "cannot index " ++ base.text ++ " with " ++ key.text
  | position got => "list index must be a number, got " ++ got.text
  | assignedIndex shown => "invalid assignment index " ++ shown
  | assign key target => "cannot assign " ++ key.described ++ " on " ++ target.text
  | negate operand => "cannot negate " ++ operand.text
  | add left right => "cannot add " ++ left.text ++ " and " ++ right.text
  | arithmetic symbol left right =>
    "cannot apply '" ++ symbol ++ "' to " ++ left.text ++ " and " ++ right.text
  | divide left right => "cannot divide " ++ left.text ++ " by " ++ right.text
  | remainder left right => "cannot compute " ++ left.text ++ " % " ++ right.text
  | compare left right => "cannot compare " ++ left.text ++ " and " ++ right.text
  | argumentCount function expected got =>
    function ++ "() expects " ++ expected ++ " argument(s), got " ++ toString got
  | argument function expected got => function ++ "() expects " ++ expected ++ ", got " ++ got.text
  | arguments function expected first second =>
    function ++ "() expects " ++ expected ++ ", got (" ++ first.text ++ ", " ++ second.text ++ ")"

namespace ScriptError

/-- The error in words. -/
def message : ScriptError → String
  | timeout ms => "script timed out after " ++ toString ms ++ "ms"
  | parse cause => "script parse error: " ++ cause.message
  | fault cause => "script fault: " ++ cause.message
  | mismatch cause => "type error: " ++ cause.message
  | undefinedVariable name => name ++ " is not defined"
  | undefinedFunction name => "unknown function: " ++ name
  | capability reason => "capability error: " ++ reason
  | invalidConfig flaw => "invalid sandbox config: " ++ flaw.message

/-- The code of the error in failure values. -/
def code : ScriptError → String
  | timeout _ => "SCRIPT_TIMEOUT"
  | _ => "SCRIPT_FAULT"

end ScriptError

end Relay.Script
