import Relay.Json.Basic

/-!
# Tables under construction

A TOML document fills its tables bit by bit. Where a table comes from decides how it may still grow:
one that a header opened is closed to dotted keys, one that only stands on the path of a header may
be opened later, and one that a dotted key made grows by dotted keys alone.
-/

namespace Relay.Toml

/-- How a table came to be. -/
inductive Origin where
  /-- It was opened: the document itself, or the table of a header. -/
  | opened
  /-- It is on the path of a header. -/
  | implied
  /-- It is on the path of a dotted key. -/
  | dotted
deriving DecidableEq, Repr

/-- What a key stands for. -/
inductive Node where
  | value (j : Json)
  | table (origin : Origin) (entries : List (String × Node))
  /-- An array of tables. Only its last table grows; the earlier ones are finished and held last
  first. -/
  | tables (earlier : List Json) (last : List (String × Node))

mutual

/-- A node as JSON. -/
def Node.toJson : Node → Json
  | .value j => j
  | .table _ entries => .object (entriesToJson entries)
  | .tables earlier last => .array (earlier.reverse ++ [.object (entriesToJson last)])

/-- Entries as JSON. -/
def entriesToJson : List (String × Node) → List (String × Json)
  | [] => []
  | (key, node) :: rest => Fields.insert key node.toJson (entriesToJson rest)

end

/-- A table. -/
structure Table where
  origin : Origin := .opened
  entries : List (String × Node) := []

namespace Table

/-- The table as JSON. -/
def toJson (t : Table) : Json :=
  .object (entriesToJson t.entries)

/-- Put a node under a key. -/
def insert (t : Table) (key : String) (node : Node) : Table :=
  { t with entries := Fields.insert key node t.entries }

/-- Change the table at the end of a path. Tables that are missing on the way are made, with the
given origin; a path of dotted keys does not lead through opened tables. -/
def within (made : Origin) (change : Table → Option Table) : List String → Table → Option Table
  | [], t => change t
  | key :: rest, t =>
    match t.entries.lookup key with
    | none => do
      let inner ← within made change rest ⟨made, []⟩
      return t.insert key (.table inner.origin inner.entries)
    | some (.value _) => none
    | some (.table origin entries) => do
      if made = .dotted ∧ origin = .opened then none
      let inner ← within made change rest ⟨origin, entries⟩
      return t.insert key (.table inner.origin inner.entries)
    | some (.tables earlier last) => do
      let inner ← within made change rest ⟨.opened, last⟩
      return t.insert key (.tables earlier inner.entries)

/-- Add a value under the last part of a dotted key. -/
def addValue (path : List String) (key : String) (j : Json) : Table → Option Table :=
  within .dotted
    (fun t =>
      if t.origin = .dotted ↔ path = [] then none
      else if (t.entries.lookup key).isSome then none
      else some (t.insert key (.value j)))
    path

/-- Open the table of a header. -/
def openTable (path : List String) (key : String) : Table → Option Table :=
  within .implied
    (fun t =>
      match t.entries.lookup key with
      | none => some (t.insert key (.table .opened []))
      | some (.table .implied entries) => some (t.insert key (.table .opened entries))
      | some _ => none)
    path

/-- Open a further table of an array of tables. -/
def openItem (path : List String) (key : String) : Table → Option Table :=
  within .implied
    (fun t =>
      match t.entries.lookup key with
      | none => some (t.insert key (.tables [] []))
      | some (.tables earlier last) =>
        some (t.insert key (.tables (.object (entriesToJson last) :: earlier) []))
      | some _ => none)
    path

end Table

end Relay.Toml
