set_option autoImplicit false

namespace Pseudocode.Number

/-- `mantissa * 2 ^ exponent`, negated if `negative`. -/
structure Binary where
  negative : Bool
  mantissa : Nat
  exponent : Int
  deriving Repr, DecidableEq

inductive Size where
  | nan
  | infinite (negative : Bool)
  | finite (form : Binary)
  deriving Repr, DecidableEq

def size (x : Float) : Size :=
  let bits := x.toBits.toNat
  let negative := bits >>> 63 == 1
  let field : Nat := bits >>> 52 % 1 <<< 11
  let fraction := bits % 1 <<< 52
  if field == 2047 then
    if fraction == 0 then .infinite negative else .nan
  else if field == 0 then .finite ⟨negative, fraction, -1074⟩
  else .finite ⟨negative, 1 <<< 52 + fraction, Int.ofNat field - 1075⟩

def isNegative (x : Float) : Bool :=
  x.toBits.toNat >>> 63 == 1

namespace Binary

def signed (negative : Bool) (n : Nat) : Int :=
  if negative then -(n : Int) else n

def truncate (b : Binary) : Int :=
  match b.exponent with
  | .ofNat e => signed b.negative (b.mantissa <<< e)
  | .negSucc e => signed b.negative (b.mantissa >>> (e + 1))

def isWhole (b : Binary) : Bool :=
  match b.exponent with
  | .ofNat _ => true
  | .negSucc e => b.mantissa % 1 <<< (e + 1) == 0

def toFloat (b : Binary) : Float :=
  let sign : Nat := if b.negative then 1 <<< 63 else 0
  let exponent : Int := max (b.exponent + b.mantissa.log2 - 52) (-1074)
  let fraction := b.mantissa <<< (b.exponent - exponent).toNat >>> (exponent - b.exponent).toNat
  let magnitude :=
    if b.mantissa == 0 then 0
    else if exponent > 971 then 2047 <<< 52
    -- The leading bit of a fraction that has one counts in the field of the exponent.
    else (exponent + 1074).toNat <<< 52 + fraction
  Float.ofBits (UInt64.ofNat (sign + magnitude))

end Binary

end Pseudocode.Number
