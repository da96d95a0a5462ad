import Pseudocode.Number.Display

set_option autoImplicit false

namespace Pseudocode.Number

def copySign (magnitude sign : Float) : Float :=
  if isNegative magnitude == isNegative sign then magnitude else -magnitude

def Binary.remainder (a b : Binary) : Binary :=
  let exponent := min a.exponent b.exponent
  let dividend := a.mantissa <<< (a.exponent - exponent).toNat
  let divisor := b.mantissa <<< (b.exponent - exponent).toNat
  ⟨a.negative, dividend % divisor, exponent⟩

def truncatedRemainder (x y : Float) : Float :=
  match size x, size y with
  | .finite a, .finite b => (a.remainder b).toFloat
  | .finite _, .infinite _ => x
  | _, _ => 0.0 / 0.0

def remainder (x y : Float) : Float :=
  let rest := truncatedRemainder x y
  if rest == 0.0 then copySign 0.0 y
  else if (y < 0.0) != (rest < 0.0) then rest + y else rest

def wholeQuotient (x y : Float) : Float :=
  let rest := truncatedRemainder x y
  let exact := (x - rest) / y
  let quotient := if rest != 0.0 && (y < 0.0) != (rest < 0.0) then exact - 1.0 else exact
  if quotient == 0.0 then copySign 0.0 (x / y)
  else
    -- Division may have rounded to just below a whole number.
    let below := quotient.floor
    if quotient - below > 0.5 then below + 1.0 else below

def isOddWhole (x : Float) : Bool :=
  match size x with
  | .finite b => b.isWhole && b.truncate % 2 == 1
  | _ => false

inductive PowerError where
  | tooLarge
  | tooLargeComplex
  | zeroToNegative
  deriving Repr, DecidableEq

def finitePower (x y : Float) : Except PowerError Float :=
  if x < 0.0 && y.floor != y then
    if (Float.pow x.abs y).isInf then .error .tooLargeComplex else .ok 0.0
  else
    let negate := x < 0.0 && isOddWhole y
    let magnitude := if x.abs == 1.0 then 1.0 else Float.pow x.abs y
    if magnitude.isInf then .error .tooLarge
    else .ok (if negate then -magnitude else magnitude)

def power (x y : Float) : Except PowerError Float :=
  if y == 0.0 then .ok 1.0
  else if x.isNaN then .ok x
  else if y.isNaN then .ok (if x == 1.0 then 1.0 else y)
  else if y.isInf then
    if x.abs == 1.0 then .ok 1.0
    else if (y > 0.0) == (x.abs > 1.0) then .ok y.abs
    else .ok 0.0
  else if x.isInf then
    if y > 0.0 then .ok (if isOddWhole y then x else x.abs)
    else .ok (if isOddWhole y then copySign 0.0 x else 0.0)
  else if x == 0.0 then
    if y < 0.0 then .error .zeroToNegative
    else .ok (if isOddWhole y then x else 0.0)
  else finitePower x y

end Pseudocode.Number
