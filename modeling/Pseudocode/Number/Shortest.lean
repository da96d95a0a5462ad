import Pseudocode.Number.Binary

set_option autoImplicit false

namespace Pseudocode.Number

structure Decimal where
  digits : Nat
  exponent : Int
  deriving Repr, DecidableEq

/-- The decimals that round to a double lie between `low` and `high`, its own place being `middle`,
all counted in quarters of its last binary place. The ends belong to the interval iff `closed`. -/
structure Rounding where
  low : Nat
  middle : Nat
  high : Nat
  closed : Bool

def Rounding.ofBinary (b : Binary) : Rounding where
  low := if b.mantissa == 1 <<< 52 && b.exponent != -1074 then 4 * b.mantissa - 1
    else 4 * b.mantissa - 2
  middle := 4 * b.mantissa
  high := 4 * b.mantissa + 2
  closed := b.mantissa % 2 == 0

structure Grid where
  exponent : Int
  up : Nat
  down : Nat

def Grid.of (binaryExponent decimalExponent : Int) : Grid where
  exponent := decimalExponent
  up := Nat.pow 10 (-decimalExponent).toNat <<< (binaryExponent - 2).toNat
  down := Nat.pow 10 decimalExponent.toNat <<< (2 - binaryExponent).toNat

def Rounding.admits (r : Rounding) (g : Grid) (n : Nat) : Bool :=
  if r.closed then r.low * g.up ≤ n * g.down && n * g.down ≤ r.high * g.up
  else r.low * g.up < n * g.down && n * g.down < r.high * g.up

def Rounding.nearest? (r : Rounding) (g : Grid) : Option Nat :=
  let below := r.middle * g.up / g.down
  let above := below + 1
  match r.admits g below, r.admits g above with
  | true, true =>
    let toBelow := r.middle * g.up - below * g.down
    let toAbove := above * g.down - r.middle * g.up
    if toBelow < toAbove then some below
    else if toAbove < toBelow then some above
    else if below % 2 == 0 then some below else some above
  | true, false => some below
  | false, true => some above
  | false, false => none

def Rounding.search (r : Rounding) (binaryExponent : Int) : (steps : Nat) → (grid : Int) → Decimal
  | 0, grid => ⟨r.middle * (Grid.of binaryExponent grid).up / (Grid.of binaryExponent grid).down, grid⟩
  | steps + 1, grid =>
    match r.nearest? (Grid.of binaryExponent grid) with
    | some digits => ⟨digits, grid⟩
    | none => r.search binaryExponent steps (grid - 1)

def reaches (m : Nat) (e d : Int) : Bool :=
  Nat.pow 10 d.toNat <<< (-e).toNat ≤ m <<< e.toNat * Nat.pow 10 (-d).toNat

def leadingExponent (m : Nat) (e : Int) : Int :=
  let guess := (((Nat.log2 m : Nat) + e) * 30103).fdiv 100000
  if reaches m e (guess + 1) then guess + 1
  else if reaches m e guess then guess
  else guess - 1

def Decimal.dropZeros : (steps : Nat) → Decimal → Decimal
  | 0, d => d
  | steps + 1, d =>
    if d.digits != 0 && d.digits % 10 == 0 then
      dropZeros steps ⟨d.digits / 10, d.exponent + 1⟩
    else d

def shortest (b : Binary) : Decimal :=
  if b.mantissa == 0 then ⟨0, 0⟩
  else
    ((Rounding.ofBinary b).search b.exponent 17 (leadingExponent b.mantissa b.exponent)).dropZeros 20

end Pseudocode.Number
