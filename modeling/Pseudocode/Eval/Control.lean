import Pseudocode.Machine
import Pseudocode.Operator

set_option autoImplicit false

namespace Pseudocode

namespace Eval

open Exec

variable (rec : Node → Exec Value)

def operands (node : Node) : Exec (Value × Value) := do
  let left ← rec (← child node 0)
  let right ← rec (← child node 1)
  pure (left, right)

def values : List Node → Exec (List Value)
  | [] => pure []
  | node :: rest => do
    let first ← rec node
    let others ← values rest
    pure (first :: others)

def block : List Node → Value → Exec Value
  | [], last => pure last
  | statement :: rest, _ => do
    let value ← rec statement
    match ← read (·.returned) with
    | some result => pure result
    | none => block rest value

def sequence : List Node → Value → Exec Value
  | [], last => pure last
  | statement :: rest, _ => do
    let value ← rec statement
    sequence rest value

def holds (cause : Fault) (value : Value) : Exec Bool :=
  ofExcept (Operator.holds cause value)

def ifThen (node : Node) : Exec Value := do
  let condition ← rec (← child node 0)
  if ← holds .ifCondition condition then rec (← child node 1) else pure .empty

def ifElse (node : Node) : Exec Value := do
  let condition ← rec (← child node 0)
  if ← holds .ifCondition condition then rec (← child node 1) else rec (← child node 2)

def whileRounds (condition body : Node) : Nat → Value → Exec Value
  | 0, _ => unfinished
  | n + 1, last => do
    let value ← rec condition
    if ← holds .whileCondition value then
      let value ← rec body
      match ← read (·.returned) with
      | some result => pure result
      | none => whileRounds condition body n value
    else pure last

def whileLoop (n : Nat) (node : Node) : Exec Value := do
  let condition ← child node 0
  let body ← child node 1
  whileRounds rec condition body n .empty

def repeatRounds (body condition : Node) : Nat → Exec Value
  | 0 => unfinished
  | n + 1 => do
    let value ← rec body
    match ← read (·.returned) with
    | some result => pure result
    | none => do
      let found ← rec condition
      if ← holds .untilCondition found then pure value else repeatRounds body condition n

def repeatUntil (n : Nat) (node : Node) : Exec Value := do
  let body ← child node 0
  let condition ← child node 1
  repeatRounds rec body condition n

def counter (name : Option String) : Exec Float := do
  let value ← lookup .variable name
  ofExcept value.toNumber

def continues (increment x final : Float) : Bool :=
  if increment ≥ 0.0 then x ≤ final else x ≥ final

def forRounds (name : Option String) (final : Value) (increment : Float) (body : Node) :
    Nat → Value → Exec Value
  | 0, _ => unfinished
  | n + 1, last => do
    let x ← counter name
    let bound ← ofExcept final.toNumber
    if continues increment x bound then
      let value ← rec body
      match ← read (·.returned) with
      | some result => pure result
      | none => do
        -- The body may have changed the variable; the step is added to what it holds now.
        let x ← counter name
        assign name (.number (x + increment))
        forRounds name final increment body n value
    else pure last

def requireNumber (cause : Fault) (value : Value) : Exec Unit := do
  if (← tag value) ≠ .number then fail cause else pure ()

def forLoop (n : Nat) (node : Node) : Exec Value := do
  let start ← rec (← child node 0)
  let final ← rec (← child node 1)
  let increment ← rec (← child node 2)
  let body ← child node 3
  -- All three bounds have been evaluated before the first of them is checked.
  requireNumber .forBounds start
  requireNumber .forBounds final
  requireNumber .forBounds increment
  assign node.name start
  let increment ← ofExcept increment.toNumber
  forRounds rec node.name final increment body n .empty

/-- Whether a node after the value of a case is a statement by its kind. Any other node there is the
upper end of a range. -/
def isCaseStatement (kind : Node.Kind) : Bool :=
  kind = .block || kind = .print || kind = .input || kind = .read

def inRange (subject low high : Value) : Exec Bool := do
  requireNumber .rangeBounds low
  requireNumber .rangeBounds high
  requireNumber .rangeBounds subject
  let x ← ofExcept subject.toNumber
  let least ← ofExcept low.toNumber
  if x ≥ least then pure (x ≤ (← ofExcept high.toNumber)) else pure false

def caseItems (subject : Value) : List Node → Exec Value
  | [] => pure .empty
  | item :: rest => do
    if item.kind = .caseOtherwise then rec item
    else
      let value ← rec (← child item 0)
      match item.children with
      | _ :: upper :: body =>
        -- An item does not say whether its second child is a statement or the end of a range.
        if isCaseStatement upper.kind then
          if ← ofOutcomeEqual subject value then sequence rec (upper :: body) .empty
          else caseItems subject rest
        else do
          let high ← rec upper
          if ← inRange subject value high then sequence rec body .empty
          else caseItems subject rest
      | _ =>
        if ← ofOutcomeEqual subject value then pure .empty else caseItems subject rest
where
  ofOutcomeEqual (v w : Value) : Exec Bool :=
    fun m => (ofOutcome (m.store.equal v w)) m

def caseOf (node : Node) : Exec Value := do
  let subject ← lookup .variable node.name
  caseItems rec subject node.children

def connective (op : Connective) (node : Node) : Exec Value := do
  let left ← rec (← child node 0)
  match ← ofExcept (Operator.decided? op left) with
  | some result => pure result
  | none => do
    let right ← rec (← child node 1)
    ofExcept (Operator.connective op left right)

end Eval

end Pseudocode
