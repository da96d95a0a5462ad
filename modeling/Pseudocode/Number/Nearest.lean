import Pseudocode.Number.Binary

set_option autoImplicit false

namespace Pseudocode.Number

def roundQuotient (num den : Nat) : Nat :=
  let quotient := num / den
  let rest := 2 * (num % den)
  if rest > den || (rest == den && quotient % 2 == 1) then quotient + 1 else quotient

def inUnits (num den : Nat) (exponent : Int) : Nat × Nat :=
  (num <<< (-exponent).toNat, den <<< exponent.toNat)

def unitExponent (num den : Nat) : Int :=
  let first := max ((Nat.log2 num : Nat) - (Nat.log2 den : Nat) - 53 : Int) (-1074)
  let (n, d) := inUnits num den first
  if n / d ≥ 1 <<< 53 then first + 1 else first

def nearest (negative : Bool) (num den : Nat) : Float :=
  if num == 0 then Binary.toFloat ⟨negative, 0, 0⟩
  else
    let exponent := unitExponent num den
    let (n, d) := inUnits num den exponent
    Binary.toFloat ⟨negative, roundQuotient n d, exponent⟩

end Pseudocode.Number
