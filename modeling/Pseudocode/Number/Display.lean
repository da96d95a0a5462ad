import Pseudocode.Number.Shortest

set_option autoImplicit false

namespace Pseudocode.Number

structure Layout where
  least : Int
  most : Int
  width : Nat

def layout : Layout := ⟨-4, 16, 2⟩

def digitText (n : Nat) : List Char :=
  Nat.toDigits 10 n

def zeros (n : Nat) : List Char :=
  List.replicate n '0'

def padded (width : Nat) (n : Nat) : List Char :=
  let digits := digitText n
  zeros (width - digits.length) ++ digits

def Layout.positional (digits : List Char) (point : Int) : List Char :=
  if point ≤ 0 then '0' :: '.' :: (zeros (-point).toNat ++ digits)
  else if digits.length ≤ point.toNat then
    digits ++ zeros (point.toNat - digits.length) ++ ['.', '0']
  else digits.take point.toNat ++ '.' :: digits.drop point.toNat

def Layout.scientific (l : Layout) (digits : List Char) (exponent : Int) : List Char :=
  let mantissa := match digits with
    | [] => []
    | [d] => [d]
    | d :: rest => d :: '.' :: rest
  let sign := if exponent < 0 then '-' else '+'
  mantissa ++ 'e' :: sign :: padded l.width exponent.natAbs

def Layout.write (l : Layout) (d : Decimal) : List Char :=
  let digits := digitText d.digits
  if d.digits == 0 then ['0', '.', '0']
  else
    let point := digits.length + d.exponent
    if l.least ≤ point - 1 && point - 1 < l.most then positional digits point
    else l.scientific digits (point - 1)

def withSign (negative : Bool) (text : List Char) : String :=
  String.ofList (if negative then '-' :: text else text)

def exactText (x : Float) : String :=
  match size x with
  | .nan => "nan"
  | .infinite negative => if negative then "-inf" else "inf"
  | .finite b => withSign b.negative (layout.write (shortest b))

inductive NotWhole where
  | nan
  | infinite
  deriving Repr, DecidableEq

def truncate (x : Float) : Except NotWhole Int :=
  match size x with
  | .nan => .error .nan
  | .infinite _ => .error .infinite
  | .finite b => .ok b.truncate

def display (x : Float) : Except NotWhole String :=
  match size x with
  | .nan => .error .nan
  | .infinite _ => .error .infinite
  | .finite b =>
    .ok (if b.isWhole then toString b.truncate
      else withSign b.negative (layout.write (shortest b)))

end Pseudocode.Number
