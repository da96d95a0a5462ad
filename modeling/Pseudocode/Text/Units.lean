set_option autoImplicit false

namespace Pseudocode.Text

def charUnits (c : Char) : Nat :=
  if c.toNat < 0x10000 then 1 else 2

def units : List Char → Nat
  | [] => 0
  | c :: rest => charUnits c + units rest

theorem units_append (s t : List Char) : units (s ++ t) = units s + units t := by
  induction s with
  | nil => simp [units]
  | cons c rest ih => simp [units, ih]; omega

end Pseudocode.Text
