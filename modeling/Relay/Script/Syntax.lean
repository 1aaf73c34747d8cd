/-!
# Scripts as trees

The script language has statements over places and expressions without loops or functions of its
own. `ctx` and `context` name the store of the invocation; every other name is a local.
-/

namespace Relay.Script

/-- Operators before their operand. -/
inductive UnaryOp where
  | not
  | neg
deriving DecidableEq, Repr

/-- Operators between two operands. -/
inductive BinaryOp where
  | add
  | sub
  | mul
  | div
  | rem
  | eq
  | ne
  | lt
  | le
  | gt
  | ge
  | and
  | or
deriving DecidableEq, Repr

/-- Objects outside the script that it may call methods of. -/
inductive Capability where
  | logger
  | http
deriving DecidableEq, Repr

/-- An expression. -/
inductive Expr where
  | null
  | bool (b : Bool)
  | int (n : Int64)
  | float (x : Float)
  | string (s : String)
  /-- Text with holes: each hole stands after a piece of text, which may be empty, and one piece
  ends the template. -/
  | template (holes : List (String × Expr)) (tail : String)
  | list (items : List Expr)
  | map (entries : List (String × Expr))
  | ident (name : String)
  | field (base : Expr) (name : String)
  | index (base key : Expr)
  | unary (op : UnaryOp) (operand : Expr)
  | binary (op : BinaryOp) (left right : Expr)
  | conditional (condition yes no : Expr)
  | call (name : String) (args : List Expr)
  | invoke (capability : Capability) (method : String) (args : List Expr)
deriving Inhabited

/-- How an assignment changes its place. -/
inductive AssignOp where
  | set
  | add
  | sub
  | mul
  | div
deriving DecidableEq, Repr

/-- The operator that a compound assignment applies to the old value and the new one. -/
def AssignOp.binary? : AssignOp → Option BinaryOp
  | set => none
  | add => some .add
  | sub => some .sub
  | mul => some .mul
  | div => some .div

/-- One step from a value into a part of it. -/
inductive PathStep where
  | field (name : String)
  | index (key : Expr)

/-- What an assignment writes to: a name and steps into its value. -/
structure Place where
  root : String
  path : List PathStep

/-- A statement. -/
inductive Stmt where
  | declare (constant : Bool) (name : String) (value : Expr)
  | assign (place : Place) (op : AssignOp) (value : Expr)
  | branch (condition : Expr) (yes no : List Stmt)
  | ret (value : Option Expr)
  | block (body : List Stmt)
  | eval (value : Expr)
deriving Inhabited

/-- A program is a list of statements. -/
abbrev Program := List Stmt

/-- The names of the store. -/
def isStoreName (name : String) : Bool :=
  name = "ctx" || name = "context"

end Relay.Script
