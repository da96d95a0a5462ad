import Pseudocode.Number.Nearest
import Pseudocode.Text.Class

set_option autoImplicit false

namespace Pseudocode.Number

def hugePlaces : Int := 310

def tinyPlaces : Int := -330

def places : (steps : Nat) → (n : Nat) → Nat
  | 0, _ => 0
  | steps + 1, n => if n == 0 then 0 else places steps (n / 10) + 1

def ofDecimal (negative : Bool) (digits : Nat) (width : Nat) (exponent : Int) : Float :=
  let count : Int := places width digits
  if digits == 0 || count + exponent < tinyPlaces then nearest negative 0 1
  else if count + exponent > hugePlaces then
    if negative then -(1.0 / 0.0) else 1.0 / 0.0
  else nearest negative (digits * Nat.pow 10 exponent.toNat) (Nat.pow 10 (-exponent).toNat)

def digitsValue? (digits : List Char) : Option Nat :=
  digits.foldlM (fun n c => (Text.decimalValue? c).map (10 * n + ·)) 0

def literal? (whole fraction : List Char) : Option Float :=
  (digitsValue? (whole ++ fraction)).map fun digits =>
    ofDecimal false digits (whole.length + fraction.length) (-(fraction.length : Int))

def plainChar (c : Char) : Char :=
  if c.toNat < 0x7f then c
  else if Text.isBlank c then ' '
  else match Text.decimalValue? c with
    | some d => Char.ofNat ('0'.toNat + d)
    | none => '?'

def isPadding (c : Char) : Bool :=
  c == ' ' || ('\t' ≤ c && c ≤ '\r')

def trimmed (text : List Char) : List Char :=
  ((text.dropWhile isPadding).reverse.dropWhile isPadding).reverse

def joinGroups : (afterDigit : Bool) → List Char → Option (List Char)
  | _, [] => some []
  | afterDigit, '_' :: c :: rest =>
    if afterDigit && c.isDigit then (joinGroups true rest).map (c :: ·) else none
  | _, c :: rest =>
    if c == '_' then none else (joinGroups c.isDigit rest).map (c :: ·)

def takeSign : List Char → Bool × List Char
  | '-' :: rest => (true, rest)
  | '+' :: rest => (false, rest)
  | text => (false, text)

def exponent? : List Char → Option Int
  | [] => some 0
  | c :: rest =>
    let (negative, digits) := takeSign rest
    if (c == 'e' || c == 'E') && !digits.isEmpty && digits.all Char.isDigit then
      (digitsValue? digits).map (Binary.signed negative)
    else none

def unsigned? (negative : Bool) (text : List Char) : Option Float :=
  match String.ofList (text.map Char.toLower) with
  | "inf" | "infinity" => some (if negative then -(1.0 / 0.0) else 1.0 / 0.0)
  | "nan" => some (0.0 / 0.0)
  | _ =>
    let whole := text.takeWhile Char.isDigit
    let afterWhole := text.dropWhile Char.isDigit
    let (fraction, rest) := match afterWhole with
      | '.' :: more => (more.takeWhile Char.isDigit, more.dropWhile Char.isDigit)
      | other => ([], other)
    if whole.isEmpty && fraction.isEmpty then none
    else do
      let digits ← digitsValue? (whole ++ fraction)
      let exponent ← exponent? rest
      pure (ofDecimal negative digits (whole.length + fraction.length)
        (exponent - (fraction.length : Int)))

def parse? (reply : String) : Option Float := do
  let chars := reply.toList
  let plain := if chars.all (fun c => c.toNat < 0x80) then chars else chars.map plainChar
  let text ← joinGroups false (trimmed plain)
  let (negative, body) := takeSign text
  unsigned? negative body

end Pseudocode.Number
