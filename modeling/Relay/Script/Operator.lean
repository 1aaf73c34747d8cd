import Relay.Script.Error

/-!
# Operators on values

Arithmetic on integers is exact or fails: it never wraps. Division of integers stays an integer when
it leaves no remainder and the quotient fits. An integer beside a double is converted first.
Equality of two numbers of which one is a double allows for the last bit near one; everything else
is equal when it is the same.
-/

namespace Relay.Script

/-- A result that has to fit a signed word of 64 bits. -/
def exactInt (n : Int) : Except ScriptError Value :=
  if -0x8000_0000_0000_0000 ≤ n ∧ n < 0x8000_0000_0000_0000 then .ok (.int (Int64.ofInt n))
  else .error (.fault .integerOverflow)

/-- An operator in front of a value. -/
def applyUnary : UnaryOp → Value → Except ScriptError Value
  | .not, v => .ok (.bool (!v.truthy))
  | .neg, .int n => exactInt (-n.toInt)
  | .neg, .float x => .ok (.float (-x))
  | .neg, v => .error (.mismatch (.negate v.type))

/-- Numbers add up, strings and lists are joined; a string on one side turns the other side into
text. -/
def add (left right : Value) : Except ScriptError Value :=
  match left, right with
  | .int a, .int b => exactInt (a.toInt + b.toInt)
  | .float a, .float b => .ok (.float (a + b))
  | .int a, .float b => .ok (.float (nearestDouble a + b))
  | .float a, .int b => .ok (.float (a + nearestDouble b))
  | .string a, b => .ok (.string (a ++ b.display))
  | a, .string b => .ok (.string (a.display ++ b))
  | .list a, .list b => .ok (.list (a ++ b))
  | a, b => .error (.mismatch (.add a.type b.type))

/-- An operation that is defined on numbers alone. -/
def arithmetic (symbol : String) (exact : Int → Int → Int) (approximate : Float → Float → Float)
    (left right : Value) : Except ScriptError Value :=
  match left, right with
  | .int a, .int b => exactInt (exact a.toInt b.toInt)
  | .float a, .float b => .ok (.float (approximate a b))
  | .int a, .float b => .ok (.float (approximate (nearestDouble a) b))
  | .float a, .int b => .ok (.float (approximate a (nearestDouble b)))
  | a, b => .error (.mismatch (.arithmetic symbol a.type b.type))

/-- Whether a quotient of integers is an integer that fits. -/
def dividesExactly (a b : Int64) : Bool :=
  a.toInt.tmod b.toInt = 0 && a.toInt.tdiv b.toInt < 0x8000_0000_0000_0000

/-- Division; a zero divisor of either type is a fault. -/
def divide (left right : Value) : Except ScriptError Value :=
  match left, right with
  | .int a, .int b =>
    if b = 0 then .error (.fault .divisionByZero)
    else if dividesExactly a b then exactInt (a.toInt.tdiv b.toInt)
    else .ok (.float (nearestDouble a / nearestDouble b))
  | .float a, .float b =>
    if b == 0 then .error (.fault .divisionByZero) else .ok (.float (a / b))
  | .int a, .float b =>
    if b == 0 then .error (.fault .divisionByZero) else .ok (.float (nearestDouble a / b))
  | .float a, .int b =>
    if b = 0 then .error (.fault .divisionByZero) else .ok (.float (a / nearestDouble b))
  | a, b => .error (.mismatch (.divide a.type b.type))

/-- The remainder of integers, with the sign of the dividend. It overflows where the quotient
does. -/
def remainder (left right : Value) : Except ScriptError Value :=
  match left, right with
  | .int a, .int b =>
    if b = 0 then .error (.fault .moduloByZero)
    else if a.toInt.tdiv b.toInt < 0x8000_0000_0000_0000 then exactInt (a.toInt.tmod b.toInt)
    else .error (.fault .integerOverflow)
  | a, b => .error (.mismatch (.remainder a.type b.type))

/-- Equality. -/
def equal (left right : Value) : Bool :=
  match left, right with
  | .int a, .float b => (nearestDouble a - b).abs < Decimal.epsilon
  | .float a, .int b => (nearestDouble b - a).abs < Decimal.epsilon
  | .float a, .float b => (a - b).abs < Decimal.epsilon
  | a, b => a.same b

/-- The order of two doubles; there is none if one is not a number. -/
def compareFloats (a b : Float) : Option Ordering :=
  if a < b then some .lt else if a == b then some .eq else if b < a then some .gt else none

/-- The order of two numbers or two strings. -/
def order? (left right : Value) : Except ScriptError (Option Ordering) :=
  match left, right with
  | .int a, .int b => .ok (some (compare a.toInt b.toInt))
  | .float a, .float b => .ok (compareFloats a b)
  | .int a, .float b => .ok (compareFloats (nearestDouble a) b)
  | .float a, .int b => .ok (compareFloats a (nearestDouble b))
  | .string a, .string b => .ok (some (compare a b))
  | a, b => .error (.mismatch (.compare a.type b.type))

/-- A comparison; without an order it is false. -/
def comparison (holds : Ordering → Bool) (left right : Value) : Except ScriptError Value := do
  let order ← order? left right
  return .bool (order.any holds)

/-- An operator between two values. The logical operators yield one of them. -/
def applyBinary (op : BinaryOp) (left right : Value) : Except ScriptError Value :=
  match op with
  | .add => add left right
  | .sub => arithmetic "-" (· - ·) (· - ·) left right
  | .mul => arithmetic "*" (· * ·) (· * ·) left right
  | .div => divide left right
  | .rem => remainder left right
  | .eq => .ok (.bool (equal left right))
  | .ne => .ok (.bool (!equal left right))
  | .lt => comparison Ordering.isLT left right
  | .le => comparison Ordering.isLE left right
  | .gt => comparison Ordering.isGT left right
  | .ge => comparison Ordering.isGE left right
  | .and => .ok (if left.truthy then right else left)
  | .or => .ok (if left.truthy then left else right)

end Relay.Script
