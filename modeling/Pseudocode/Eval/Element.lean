import Pseudocode.Eval.Control

set_option autoImplicit false

namespace Pseudocode

namespace Eval

open Exec

variable (rec : Node → Exec Value)

def listNamed (name : Option String) : Exec Nat := do
  let value ← lookup .array name
  match value, ← tag value with
  | .list reference, _ => pure reference
  | _, _ => fail (.notA .array name)

def itemsOf (reference : Nat) : Exec (Array Value) :=
  read (·.store.items reference)

def elementAt (which : Axis) (items : Array Value) (index : Int) : Exec Value :=
  if index < 1 then fail (.outOfBounds which index)
  else match items[(index - 1).toNat]? with
    | some value => pure value
    | none => fail (.outOfBounds which index)

def whole (value : Value) : Exec Int :=
  ofExcept value.toWhole

def indexPair (row column : Value) : Exec (Int × Int) := do
  requireNumber .indices row
  requireNumber .indices column
  pure (← whole row, ← whole column)

def elementAccess (node : Node) : Exec Value := do
  let reference ← listNamed node.name
  match node.children with
  | [first] => do
    let index ← rec first
    requireNumber .index index
    let place ← whole index
    elementAt .only (← itemsOf reference) place
  | [first, second] => do
    let row ← rec first
    let column ← rec second
    let (r, c) ← indexPair row column
    match ← elementAt .row (← itemsOf reference) r with
    | .list inner => elementAt .column (← itemsOf inner) c
    | _ => fail .rowShape
  | _ => fail .dimensions

def padZeros (length : Nat) (items : Array Value) : Array Value :=
  items ++ Array.replicate (length - items.size) (.number 0.0)

def modifyList (reference : Nat) (change : Array Value → Array Value) : Exec Unit :=
  modify fun m => { m with store := m.store.modify reference change }

def writeElement (which : Axis) (reference : Nat) (index : Int) (value : Value) : Exec Unit :=
  if index < 1 then fail (.outOfBounds which index)
  else
    let length := index.toNat
    modifyList reference fun items => (padZeros length items).setIfInBounds (length - 1) value

def padRows (reference : Nat) : Nat → Exec Unit
  | 0 => pure ()
  | missing + 1 => do
    let row ← makeList #[]
    modifyList reference (·.push row)
    padRows reference missing

def rowOf (reference : Nat) (row : Nat) : Exec Nat := do
  let items ← itemsOf reference
  let value := items.getD row .empty
  match value, ← tag value with
  | .list inner, _ => pure inner
  | _, _ => do
    let fresh ← makeList #[]
    modifyList reference (·.setIfInBounds row fresh)
    match fresh with
    | .list inner => pure inner
    | _ => fail .rowShape

def writeCell (reference : Nat) (row column : Int) (value : Value) : Exec Unit := do
  if row < 1 then fail (.outOfBounds .row row)
  else
    let items ← itemsOf reference
    -- New rows stay even if the column is out of bounds.
    padRows reference (row.toNat - items.size)
    let inner ← rowOf reference (row.toNat - 1)
    writeElement .column inner column value

def elementAssign (node : Node) : Exec Value := do
  let reference ← listNamed node.name
  match node.children.getLast? with
  | none => fail .missingChild
  | some last => do
    -- The value is evaluated before the indices.
    let value ← rec last
    match node.children with
    | [first, _] => do
      let index ← rec first
      requireNumber .index index
      writeElement .only reference (← whole index) value
      pure value
    | [first, second, _] => do
      let row ← rec first
      let column ← rec second
      let (r, c) ← indexPair row column
      writeCell reference r c value
      pure value
    | _ => fail .dimensions

end Eval

end Pseudocode
