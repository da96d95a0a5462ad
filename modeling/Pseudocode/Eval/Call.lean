import Pseudocode.Eval.Control

set_option autoImplicit false

namespace Pseudocode

namespace Eval

open Exec

variable (rec : Node → Exec Value)

def define (node : Node) : Exec Value := do
  let parameters ← child node 0
  let body ← child node 1
  let result ← child node 2
  let f ← onStore fun store => .ok (store.makeFunction node.name parameters body result)
  assign node.name (.function f)
  pure (.function f)

def bindArguments : List Node → List Value → Table → Exec Table
  | parameter :: parameters, value :: values, table => do
    let copy ← onStore fun store => store.copy value
    bindArguments parameters values (table.set parameter.name copy)
  | _, _, table => pure table

def inCall {α : Type} (x : Exec α) : Exec α :=
  fun m =>
    match x { m with calls := m.calls + 1 } with
    | .ok (value, after) => .ok (value, { after with calls := after.calls - 1 })
    | .error (cause, after) => .error (cause, { after with calls := after.calls - 1 })
    | .unfinished => .unfinished

def runBody (f : Function) (table : Table) : Exec Value := do
  -- A value returned outside the function must not end its body.
  let pending ← read (·.returned)
  modify fun m => { m with scopes := m.scopes.push table, returned := none }
  let _ ← rec f.body
  let result ← match ← read (·.returned) with
    | some value => pure value
    | none => rec f.result
  modify fun m => { m with scopes := m.scopes.pop, returned := pending }
  pure result

def apply (name : Option String) (f : Function) (arguments : List Value) : Exec Value := do
  let parameters := f.parameters.children
  if parameters.length ≠ arguments.length then
    fail (.arguments name parameters.length arguments.length)
  else
    let table ← bindArguments parameters arguments [(name, .function f)]
    runBody rec f table

def call (limit : Int) (node : Node) : Exec Value := do
  let calls ← read (·.calls)
  if (calls : Int) ≥ limit then fail (.depth limit)
  else
    let value ← lookup .function node.name
    match value, ← tag value with
    | .function f, _ => do
      -- Arguments are evaluated in the caller's table, before the call counts.
      let arguments ← values rec node.children
      inCall (apply rec node.name f arguments)
    | _, _ => fail (.notA .function node.name)

def returnValue (node : Node) : Exec Value := do
  let value ← rec (← child node 0)
  let value ← onStore fun store => .ok (store.settle value)
  modify fun m => { m with returned := some value }
  pure value

end Eval

end Pseudocode
