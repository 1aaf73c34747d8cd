import Relay.Script.Run
import Relay.Script.Path
import Relay.Script.Builtin

/-!
# Evaluating expressions

Evaluation reads the scope and never changes it. Every node of an expression that is evaluated
counts one step, save the base of a field of the store, which is read directly. Texts, lists, maps,
sums, results of functions and answers to requests are measured when they are built.
-/

namespace Relay.Script

/-- The level of a method of the logger. -/
def logLevel? : String → Option Level
  | "trace" | "debug" => some .debug
  | "info" | "log" => some .info
  | "warn" => some .warn
  | "error" => some .error
  | _ => none

/-- Call a method of the logger: the arguments as text, with spaces between them, are one line. -/
def callLogger (method : String) (args : List Value) : Metered Value := do
  match logLevel? method with
  | some level =>
    note (.log level (Text.join " " (args.map Value.display)))
    return .null
  | none => throw (.undefinedFunction ("logger." ++ method))

/-- The verb, the address and the body of a request by one of the methods of the http object. -/
def requestParts (method : String) (args : List Value) :
    Except ScriptError (String × Value × Option Value) :=
  let wrongCount (expected : String) : Except ScriptError (String × Value × Option Value) :=
    .error (.mismatch (.argumentCount ("http." ++ method) expected args.length))
  match method with
  | "get" | "delete" =>
    match args with
    | [url] => .ok (Text.uppercase method, url, none)
    | _ => wrongCount "1"
  | "post" | "put" | "patch" =>
    match args with
    | [url] => .ok (Text.uppercase method, url, none)
    | [url, body] => .ok (Text.uppercase method, url, some body)
    | _ => wrongCount "1 or 2"
  | "request" =>
    match args with
    | [verb, url] => .ok (Text.uppercase verb.display, url, none)
    | [verb, url, body] => .ok (Text.uppercase verb.display, url, some body)
    | _ => wrongCount "2 or 3"
  | other => .error (.undefinedFunction ("http." ++ other))

/-- Call a method of the http object and wait for the answer. -/
def callHttp (setting : Setting) (method : String) (args : List Value) : Metered Value := do
  match setting.http with
  | none => throw (.capability "http is not available in this sandbox")
  | some answer =>
    let (verb, url, body) ← requestParts method args
    match url with
    | .string url =>
      let call : HttpCall := ⟨verb, url, body.map Value.toJson⟩
      let reply := answer (← get).events call
      note (.http call)
      pass setting reply.delay
      match reply.result with
      | .ok j => setting.limits.accept (.ofJson j)
      | .error reason => throw (.capability reason)
    | other =>
      throw (.mismatch (.argument ("http." ++ method) "a string url" other.type))

/-- Apply an operator; the result of an addition is measured. -/
def applyMeasured (limits : Limits) (op : BinaryOp) (left right : Value) :
    Except ScriptError Value := do
  let v ← applyBinary op left right
  if op = .add then limits.accept v else return v

mutual

/-- Evaluate an expression. -/
def eval (setting : Setting) (scope : Scope) (e : Expr) : Metered Value := do
  tick setting
  match e with
  | .null => return .null
  | .bool b => return .bool b
  | .int n => return .int n
  | .float x => return .float x
  | .string s => return .string s
  | .template holes tail =>
    let text ← evalHoles setting scope "" holes
    setting.limits.accept (.string (text ++ tail))
  | .list items =>
    let values ← evalList setting scope [] items
    setting.limits.accept (.list values)
  | .map entries =>
    let values ← evalEntries setting scope [] entries
    setting.limits.accept (.map values)
  | .ident name => scope.lookup name
  | .field base name =>
    match base with
    | .ident root =>
      if isStoreName root then return scope.entry name
      else
        let v ← eval setting scope (.ident root)
        v.field name
    | base =>
      let v ← eval setting scope base
      v.field name
  | .index base key =>
    let v ← eval setting scope base
    let k ← eval setting scope key
    v.index k
  | .unary op operand =>
    let v ← eval setting scope operand
    applyUnary op v
  | .binary op left right =>
    let l ← eval setting scope left
    match op with
    | .and => if l.truthy then eval setting scope right else return l
    | .or => if l.truthy then return l else eval setting scope right
    | op =>
      let r ← eval setting scope right
      applyMeasured setting.limits op l r
  | .conditional condition yes no =>
    let c ← eval setting scope condition
    if c.truthy then eval setting scope yes else eval setting scope no
  | .call name args =>
    let values ← evalList setting scope [] args
    let v ← callFunction name values
    setting.limits.accept v
  | .invoke capability method args =>
    let values ← evalList setting scope [] args
    match capability with
    | .logger => callLogger method values
    | .http => callHttp setting method values

/-- Evaluate expressions in order, after those that are evaluated, which are held last first. -/
def evalList (setting : Setting) (scope : Scope) (values : List Value) :
    List Expr → Metered (List Value)
  | [] => return values.reverse
  | e :: rest => do
    let v ← eval setting scope e
    evalList setting scope (v :: values) rest

/-- Evaluate the entries of a map in order; a later entry replaces an earlier one of the same key.
-/
def evalEntries (setting : Setting) (scope : Scope) (entries : List (String × Value)) :
    List (String × Expr) → Metered (List (String × Value))
  | [] => return entries
  | (key, e) :: rest => do
    let v ← eval setting scope e
    evalEntries setting scope (Fields.insert key v entries) rest

/-- Evaluate the holes of a template in order and put their text between the pieces of text. -/
def evalHoles (setting : Setting) (scope : Scope) (text : String) :
    List (String × Expr) → Metered String
  | [] => return text
  | (before, e) :: rest => do
    let v ← eval setting scope e
    evalHoles setting scope (text ++ before ++ v.display) rest

end

end Relay.Script
