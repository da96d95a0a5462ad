import Pseudocode.Value.Store

set_option autoImplicit false

namespace Pseudocode

namespace Operator

def zeroFault? : Arithmetic → Option Fault
  | .divide | .wholeDivide => some .divisionByZero
  | .modulo => some .moduloByZero
  | _ => none

def checkDivisor (op : Arithmetic) (y : Float) : Except Fault Unit :=
  match zeroFault? op with
  | some cause => if y == 0.0 then .error cause else .ok ()
  | none => .ok ()

def numbers (op : Arithmetic) (left right : Value) : Except Fault (Float × Float) := do
  if (← left.tag) ≠ .number then throw (.operands op)
  if (← right.tag) ≠ .number then throw (.operands op)
  let y ← right.toNumber
  -- The left operand may be empty; a zero divisor is found first.
  checkDivisor op y
  pure (← left.toNumber, y)

def power (x y : Float) : Except Fault Float :=
  match Number.power x y with
  | .ok z => .ok z
  | .error cause => .error (.power cause)

def wholeQuotient (x y : Float) : Except Fault Float :=
  let quotient := Number.wholeQuotient x y
  match Number.truncate quotient with
  | .ok _ => .ok (quotient + 0.0)
  | .error cause => .error (.notWhole cause)

def onNumbers (op : Arithmetic) (x y : Float) : Except Fault Float :=
  match op with
  | .add => .ok (x + y)
  | .subtract => .ok (x - y)
  | .multiply => .ok (x * y)
  | .divide => .ok (x / y)
  | .power => power x y
  | .modulo => .ok (Number.remainder x y)
  | .wholeDivide => wholeQuotient x y

def indexLimit : Int := .ofNat (1 <<< 63)

def sizeLimit : Nat := 1 <<< 40

def copies (size : Nat) (count : Int) (tooLong : Fault) : Except Fault Nat :=
  if count ≥ indexLimit || count < -indexLimit then .error .copiesNotIndex
  else if (size * count.toNat : Nat) ≥ indexLimit then .error tooLong
  else if size * count.toNat ≥ sizeLimit then .error .outOfMemory
  else .ok (if size = 0 then 0 else count.toNat)

def repeatText (s : String) (count : Int) : Except Fault String := do
  let n ← copies s.length count .textTooLong
  pure (String.join (List.replicate n s))

def repeatItems (items : Array Value) (count : Int) : Except Fault (Array Value) := do
  let n ← copies items.size count .outOfMemory
  pure (List.replicate n (items.toList.map Value.toItem)).flatten.toArray

def multiply (store : Store) (left right : Value) : Except Fault (Value × Store) := do
  match left, ← left.tag with
  | _, .number =>
    match right, ← right.tag with
    | _, .number => pure (.number ((← left.toNumber) * (← right.toNumber)), store)
    | .text s, _ => pure (.text (← repeatText s (← left.toWhole)), store)
    | _, _ => throw (.operands .multiply)
  | .text s, _ =>
    if (← right.tag) ≠ .number then throw (.operands .multiply)
    pure (.text (← repeatText s (← right.toWhole)), store)
  | .list reference, _ =>
    if (← right.tag) ≠ .number then throw (.operands .multiply)
    pure (store.make (← repeatItems (store.items reference) (← right.toWhole)))
  | _, _ => throw (.operands .multiply)

def addSettled (store : Store) (left right : Value) : Outcome Fault (Value × Store) :=
  match left, right with
  | .text s, .text t => .ok (.text (s ++ t), store)
  | .list a, .list b =>
    .ok (store.make ((store.items a ++ store.items b).map Value.toItem))
  | _, _ =>
    match left.tag, right.tag with
    | .ok .number, .ok .number => .ok (.number (left.numberOrZero + right.numberOrZero), store)
    | _, _ => do
      let s ← store.display left
      let t ← store.display right
      pure (.text (s ++ t), store)

def add (store : Store) (left right : Value) : Outcome Fault (Value × Store) :=
  let (left, store) := store.settle left
  let (right, store) := store.settle right
  addSettled store left right

def arithmetic (op : Arithmetic) (store : Store) (left right : Value) :
    Outcome Fault (Value × Store) :=
  match op with
  | .add => add store left right
  | .multiply => .ofExcept (multiply store left right)
  | _ => .ofExcept do
    let (x, y) ← numbers op left right
    pure (.number (← onNumbers op x y), store)

def compareNumbers (op : Comparison) (x y : Float) : Bool :=
  match op with
  | .equal => x == y
  | .notEqual => x != y
  | .less => x < y
  | .greater => x > y
  | .lessEqual => x ≤ y
  | .greaterEqual => x ≥ y

def compareTexts (op : Comparison) (s t : String) : Bool :=
  match op with
  | .equal => s == t
  | .notEqual => s != t
  | .less => decide (s < t)
  | .greater => decide (t < s)
  | .lessEqual => decide (s ≤ t)
  | .greaterEqual => decide (t ≤ s)

def compareSettled (op : Comparison) (left right : Value) : Except Fault Bool :=
  match left, right with
  | .text s, .text t => .ok (compareTexts op s t)
  | _, _ =>
    match left.tag, right.tag with
    | .ok .number, .ok .number => .ok (compareNumbers op left.numberOrZero right.numberOrZero)
    | _, _ =>
      match op with
      | .equal => .ok false
      | .notEqual => .ok true
      | _ => .error .incomparable

def comparison (op : Comparison) (store : Store) (left right : Value) :
    Except Fault (Value × Store) := do
  let (left, store) := store.settle left
  let (right, store) := store.settle right
  pure (.ofBool (← compareSettled op left right), store)

def holds (cause : Fault) (v : Value) : Except Fault Bool := do
  if (← v.tag) ≠ .number then throw cause
  pure ((← v.toNumber) != 0.0)

def sign (op : Sign) (v : Value) : Except Fault Value := do
  if (← v.tag) ≠ .number then throw (.signOperand op)
  match op with
  | .plus => pure v
  | .minus => pure (.number (-(← v.toNumber)))
  | .not => pure (.ofBool ((← v.toNumber) == 0.0))

def decisive : Connective → Bool
  | .and => false
  | .or => true

def decided? (op : Connective) (left : Value) : Except Fault (Option Value) := do
  if (← left.tag) ≠ .number then pure none
  else if ((← left.toNumber) != 0.0) == decisive op then pure (some (.ofBool (decisive op)))
  else pure none

def connective (op : Connective) (left right : Value) : Except Fault Value := do
  if (← left.tag) ≠ .number then throw (.connectiveOperands op)
  if (← right.tag) ≠ .number then throw (.connectiveOperands op)
  let x := (← left.toNumber) != 0.0
  let y := (← right.toNumber) != 0.0
  pure (.ofBool (match op with
    | .and => x && y
    | .or => x || y))

end Operator

end Pseudocode
