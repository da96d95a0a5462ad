import Pseudocode.Fault

set_option autoImplicit false

namespace Pseudocode

structure Function where
  serial : Nat
  name : Option String
  parameters : Node
  body : Node
  result : Node

inductive Value where
  | empty
  | number (x : Float)
  | truth (x : Float) (name : Option String)
  | text (s : String)
  | list (reference : Nat)
  | function (f : Function)
  | plain (p : Plain)

inductive Tag where
  | number
  | text
  | list
  | function
  deriving Repr, DecidableEq

namespace Value

def ofBool (b : Bool) : Value :=
  if b then .truth 1.0 (some "TRUE") else .truth 0.0 (some "FALSE")

def tag : Value → Except Fault Tag
  | .empty | .number _ | .truth _ _ => .ok .number
  | .text _ => .ok .text
  | .list _ => .ok .list
  | .function _ => .ok .function
  | .plain p => .error (.noMember p.holder .type)

def toNumber : Value → Except Fault Float
  | .number x | .truth x _ => .ok x
  | .empty => .error (.noMember .nothing .value)
  | .list _ => .error (.noMember .list .value)
  | .function _ => .error (.noMember .function .value)
  | .plain p => .error (.noMember p.holder .value)
  | .text _ => .error .textPlusNumber

def numberOrZero : Value → Float
  | .number x | .truth x _ => x
  | _ => 0.0

def toWhole (v : Value) : Except Fault Int := do
  match Number.truncate (← v.toNumber) with
  | .ok n => .ok n
  | .error cause => .error (.notWhole cause)

/-- Whether a host takes the value for present. Each value of the language is, the empty one too; plain
data is if it counts as true. -/
def isPresent : Value → Bool
  | .plain p => p.isTrue
  | _ => true

def ofPlainItem : Plain → Value
  | .flag b => .number (if b then 1.0 else 0.0)
  | .number x => .number x
  | .text s => .text s
  | _ => .number 0.0

def toItem : Value → Value
  | .plain p => ofPlainItem p
  | v => v

end Value

end Pseudocode
