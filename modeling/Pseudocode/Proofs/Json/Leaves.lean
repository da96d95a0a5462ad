import Mathlib
import Pseudocode.Json.Read
import Pseudocode.Json.Write

set_option autoImplicit false

namespace Pseudocode

namespace Json

section Units

end Units

section Texts

end Texts

section Numbers

def EndsNumber (rest : List Char) : Prop :=
  ∀ c more, rest = c :: more → c = ',' ∨ c = '\n'

theorem EndsNumber.cases {rest : List Char} (ends : EndsNumber rest) :
    rest = [] ∨ (∃ more, rest = ',' :: more) ∨ ∃ more, rest = '\n' :: more := by
  cases rest with
  | nil => exact .inl rfl
  | cons c more =>
    rcases ends c more rfl with rfl | rfl
    · exact .inr (.inl ⟨more, rfl⟩)
    · exact .inr (.inr ⟨more, rfl⟩)

def readFraction (sign units after : List Char) : Outcome Failure (Json × List Char) :=
  let (fraction, afterFraction) := fractionDigits after
  match fraction, exponentDigits afterFraction with
  | [], none =>
    if units.length > digitLimit then .error (.digits units.length)
    else
      let n : Int := (Number.digitsValue? units).getD 0
      .ok (.whole (if sign.isEmpty then n else -n), afterFraction)
  | _, exponent =>
    let (written, rest) := exponent.getD ([], afterFraction)
    let digits := sign ++ units ++ (if fraction.isEmpty then [] else '.' :: fraction) ++ written
    .ok (.fractional ((Number.parse? (String.ofList digits)).getD 0.0), rest)

theorem readNumber_minus (source : List Char) :
    readNumber ('-' :: source) = match wholeDigits source with
      | none => failAt .value ('-' :: source)
      | some (units, after) => readFraction ['-'] units after :=
  rfl

theorem readNumber_plain {c : Char} (plain : c ≠ '-') (source : List Char) :
    readNumber (c :: source) = match wholeDigits (c :: source) with
      | none => failAt .value (c :: source)
      | some (units, after) => readFraction [] units after := by
  unfold readNumber
  split
  next unsigned same =>
    split at same
    next minus => exact absurd (List.cons.inj minus).1 plain
    next => 
      cases same
      rfl

end Numbers

section Whole

theorem digitsValue?_concat (digits : List Char) (d : Char) :
    Number.digitsValue? (digits ++ [d]) =
      (Number.digitsValue? digits).bind fun n => (Text.decimalValue? d).map (10 * n + ·) := by
  simp [Number.digitsValue?, List.foldlM_append]

end Whole

section Steps

variable {rec : List Char → Outcome Failure (Json × List Char)} {n : Nat}

end Steps

section Fractional

end Fractional

section Plain

def IsPlain (c : Char) : Prop :=
  c.toNat < 0x80 ∧ c ≠ '\r'

instance : DecidablePred IsPlain :=
  fun _ => inferInstanceAs (Decidable (_ ∧ _))

theorem isPlain_of_all {text : List Char} (all : text.all (decide <| IsPlain ·) = true) :
    ∀ c ∈ text, IsPlain c := by
  simpa using all

end Plain

end Json

end Pseudocode
