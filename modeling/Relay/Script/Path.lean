import Relay.Script.Error

/-!
# Reading and writing parts of values

Expressions read a field or an item of a value, and assignments write at the end of a path of names
and positions. Reading along a path never fails: what is missing reads as null. Writing makes maps
where the path meets nothing and pads lists with nulls.
-/

namespace Relay.Script

namespace Value

/-- Whether a double is a whole number. -/
def isWhole (x : Float) : Bool :=
  x.isFinite && x.floor == x

/-- A value as a position in a list. A number that is negative or not whole addresses nothing. -/
def position? : Value → Except ScriptError (Option Nat)
  | int n => .ok (if 0 ≤ n.toInt then some n.toInt.toNat else none)
  | float x => .ok (if isWhole x ∧ 0 ≤ x then some x.toUInt64.toNat else none)
  | other => .error (.mismatch (.position other.type))

/-- A field of a value. Strings and lists have a length; what else is missing is null. -/
def field (v : Value) (name : String) : Except ScriptError Value :=
  match v with
  | map entries => .ok ((entries.lookup name).getD null)
  | string s => .ok (if name = "length" then int (Int64.ofNat s.length) else null)
  | list items => .ok (if name = "length" then int (Int64.ofNat items.length) else null)
  | null => .error (.mismatch (.fieldOfNull name))
  | _ => .ok null

/-- An item of a list, a character of a string or an entry of a map. -/
def index (v key : Value) : Except ScriptError Value :=
  match v with
  | list items => do
    let at? ← key.position?
    return (at?.bind (items[·]?)).getD null
  | string s => do
    let at? ← key.position?
    return ((at?.bind (s.toList[·]?)).map fun c => string (String.singleton c)).getD null
  | map entries =>
    match key with
    | string name => .ok ((entries.lookup name).getD null)
    | int _ => .ok ((entries.lookup key.display).getD null)
    | float _ => .ok ((entries.lookup key.display).getD null)
    | other => .error (.mismatch (.index .map other.type))
  | other => .error (.mismatch (.index other.type key.type))

/-- A value as a step of an assignment path. -/
def toKey : Value → Except ScriptError Key
  | string s => .ok (.name s)
  | v => do
    match ← v.position? with
    | some n => return .position n
    | none => .error (.mismatch (.assignedIndex v.display))

/-- The value one step further, if there is one. -/
def step? (v : Value) (key : Key) : Option Value :=
  match v, key with
  | map entries, key => entries.lookup key.text
  | list items, .position n => items[n]?
  | _, _ => none

/-- The value at the end of a path, null when a step is missing. -/
def getPath (v : Value) : List Key → Value
  | [] => v
  | key :: rest =>
    match v.step? key with
    | some next => getPath next rest
    | none => null

/-- A list with the item at a position replaced; positions past the end are filled with nulls. -/
def setItem (items : List Value) (n : Nat) (item : Value) : List Value :=
  if n < items.length then items.set n item
  else items ++ (List.replicate (n - items.length) null ++ [item])

/-- Replace the value at the end of a path. Null along the way becomes a map. -/
def setPath (target : Value) (path : List Key) (new : Value) : Except ScriptError Value :=
  match path with
  | [] => .ok new
  | key :: rest =>
    match target, key with
    | null, key => do
      let inner ← setPath null rest new
      return map [(key.text, inner)]
    | map entries, key => do
      let inner ← setPath ((entries.lookup key.text).getD null) rest new
      return map (Fields.insert key.text inner entries)
    | list items, .position n => do
      let inner ← setPath (items[n]?.getD null) rest new
      return list (setItem items n inner)
    | target, key => .error (.mismatch (.assign key target.type))

end Value

end Relay.Script
