import Pseudocode.Eval

set_option autoImplicit false

namespace Pseudocode

def Fault.misfit : Fault → Bool
  | .missingChild | .noRule _ | .strayCaseItem | .readName => true
  | _ => false

variable {α β : Type}

namespace Operator

def Benign (x : Except Fault α) : Prop :=
  ∀ cause, x = .error cause → cause.misfit = false

theorem benign_ok (a : α) : Benign (.ok a) := nofun

theorem benign_error {cause : Fault} (fits : cause.misfit = false) :
    Benign (.error cause : Except Fault α) := by
  rintro _ ⟨⟩
  exact fits

theorem Benign.bind {x : Except Fault α} {f : α → Except Fault β} (first : Benign x)
    (next : ∀ a, Benign (f a)) : Benign (x >>= f) := by
  cases x with
  | ok a => exact next a
  | error cause => exact benign_error (first cause rfl)

theorem benign_tag (v : Value) : Benign v.tag := by
  cases v with
  | plain p => exact benign_error rfl
  | empty | number _ | truth _ _ | text _ | list _ | function _ => exact benign_ok _

theorem benign_toNumber (v : Value) : Benign v.toNumber := by
  cases v with
  | number _ | truth _ _ => exact benign_ok _
  | empty | text _ | list _ | function _ | plain _ => exact benign_error rfl

theorem benign_toWhole (v : Value) : Benign v.toWhole := by
  refine (benign_toNumber v).bind fun x => ?_
  split
  · exact benign_ok _
  · exact benign_error rfl

theorem benign_copies (size : Nat) (count : Int) {tooLong : Fault} (fits : tooLong.misfit = false) :
    Benign (copies size count tooLong) := by
  unfold copies
  split
  · exact benign_error rfl
  · split
    · exact benign_error fits
    · split
      · exact benign_error rfl
      · exact benign_ok _

theorem benign_repeatText (s : String) (count : Int) : Benign (repeatText s count) :=
  (benign_copies _ _ rfl).bind fun _ => benign_ok _

theorem benign_repeatItems (items : Array Value) (count : Int) : Benign (repeatItems items count) :=
  (benign_copies _ _ rfl).bind fun _ => benign_ok _

theorem benign_number (v : Value) {cause : Fault} {rest : Except Fault α}
    (fits : cause.misfit = false) (next : Benign rest) :
    Benign (v.tag >>= fun tag => if tag ≠ .number then throw cause else rest) := by
  refine (benign_tag v).bind fun tag => ?_
  split
  · exact benign_error fits
  · exact next

theorem benign_checkDivisor (op : Arithmetic) (y : Float) : Benign (checkDivisor op y) := by
  unfold checkDivisor
  cases op with
  | divide | wholeDivide | modulo =>
    dsimp only [zeroFault?]
    split
    · exact benign_error rfl
    · exact benign_ok _
  | add | subtract | multiply | power => exact benign_ok _

theorem benign_numbers (op : Arithmetic) (v w : Value) : Benign (numbers op v w) := by
  refine benign_number v rfl (benign_number w rfl ?_)
  refine (benign_toNumber w).bind fun y => (benign_checkDivisor op y).bind fun _ => ?_
  exact (benign_toNumber v).bind fun _ => benign_ok _

theorem benign_onNumbers (op : Arithmetic) (x y : Float) : Benign (onNumbers op x y) := by
  cases op with
  | add | subtract | multiply | divide | modulo => exact benign_ok _
  | power =>
    rw [onNumbers, power]
    split
    · exact benign_ok _
    · exact benign_error rfl
  | wholeDivide =>
    rw [onNumbers, wholeQuotient]
    split
    · exact benign_ok _
    · exact benign_error rfl

theorem benign_multiply (s : Store) (v w : Value) : Benign (multiply s v w) := by
  refine (benign_tag v).bind fun tag => ?_
  split
  · refine (benign_tag w).bind fun tag => ?_
    split
    · exact (benign_toNumber _).bind fun _ => (benign_toNumber _).bind fun _ => benign_ok _
    · exact (benign_toWhole _).bind fun _ => (benign_repeatText _ _).bind fun _ => benign_ok _
    · exact benign_error rfl
  · refine benign_number w rfl ?_
    exact (benign_toWhole _).bind fun _ => (benign_repeatText _ _).bind fun _ => benign_ok _
  · refine benign_number w rfl ?_
    exact (benign_toWhole _).bind fun _ => (benign_repeatItems _ _).bind fun _ => benign_ok _
  · exact benign_error rfl

theorem benign_comparison (op : Comparison) (s : Store) (v w : Value) :
    Benign (comparison op s v w) := by
  refine Benign.bind ?_ fun _ => benign_ok _
  unfold compareSettled
  split
  · exact benign_ok _
  · split
    · exact benign_ok _
    · cases op with
      | equal | notEqual => exact benign_ok _
      | less | greater | lessEqual | greaterEqual => exact benign_error rfl

theorem benign_holds {cause : Fault} (fits : cause.misfit = false) (v : Value) :
    Benign (holds cause v) :=
  benign_number v fits ((benign_toNumber v).bind fun _ => benign_ok _)

theorem benign_sign (op : Sign) (v : Value) : Benign (sign op v) := by
  refine benign_number v rfl ?_
  cases op with
  | plus => exact benign_ok _
  | minus | not => exact (benign_toNumber v).bind fun _ => benign_ok _

theorem benign_decided (op : Connective) (v : Value) : Benign (decided? op v) := by
  refine (benign_tag v).bind fun tag => ?_
  split
  · exact benign_ok _
  · refine (benign_toNumber v).bind fun x => ?_
    split <;> exact benign_ok _

theorem benign_connective (op : Connective) (v w : Value) : Benign (connective op v w) := by
  refine benign_number v rfl (benign_number w rfl ?_)
  exact (benign_toNumber v).bind fun _ => (benign_toNumber w).bind fun _ => benign_ok _

end Operator

namespace Outcome

def Benign (x : Outcome Fault α) : Prop :=
  ∀ cause, x = .error cause → cause.misfit = false

theorem benign_ok (a : α) : Benign (.ok a) := nofun

theorem benign_unfinished : Benign (.unfinished : Outcome Fault α) := nofun

theorem benign_error {cause : Fault} (fits : cause.misfit = false) :
    Benign (.error cause : Outcome Fault α) := by
  rintro _ ⟨⟩
  exact fits

theorem Benign.bind {x : Outcome Fault α} {f : α → Outcome Fault β} (first : Benign x)
    (next : ∀ a, Benign (f a)) : Benign (x >>= f) := by
  cases x with
  | ok a => exact next a
  | error cause => exact benign_error (first cause rfl)
  | unfinished => exact benign_unfinished

theorem benign_ofExcept {x : Except Fault α} (benign : Operator.Benign x) : Benign (.ofExcept x) := by
  cases x with
  | ok a => exact benign_ok a
  | error cause => exact benign_error (benign cause rfl)

theorem benign_mapM {f : α → Outcome Fault β} (benign : ∀ a, Benign (f a)) (items : List α) :
    Benign (items.mapM f) := by
  suffices loop : ∀ done, Benign (List.mapM.loop f items done) from loop []
  induction items with
  | nil => exact fun done => benign_ok _
  | cons item rest ih => exact fun done => (benign item).bind fun _ => ih _

end Outcome

namespace Store

open Outcome

theorem benign_displayNumber (x : Float) : Operator.Benign (displayNumber x) := by
  unfold displayNumber
  split
  · exact Operator.benign_ok _
  · exact Operator.benign_error rfl

theorem benign_displayTruth (x : Float) (name : Option String) :
    Operator.Benign (displayTruth x name) := by
  unfold displayTruth
  split
  · split
    · exact benign_displayNumber x
    · exact Operator.benign_ok _
  · exact benign_displayNumber x

theorem benign_displayTo (s : Store) (n : Nat) (v : Value) : (s.displayTo n v).Benign := by
  induction n generalizing v with
  | zero => exact benign_unfinished
  | succ n ih =>
    cases v with
    | number x => exact benign_ofExcept (benign_displayNumber x)
    | truth x name => exact benign_ofExcept (benign_displayTruth x name)
    | list reference => exact (benign_mapM ih _).bind fun _ => benign_ok _
    | empty | text _ | function _ | plain _ => exact benign_ok _

theorem benign_display (s : Store) (v : Value) : (s.display v).Benign :=
  benign_displayTo s _ v

theorem benign_copyAll {copy : Store → Value → Outcome Fault (Value × Store)}
    (benign : ∀ s v, (copy s v).Benign) (s : Store) (items : List Value) :
    (copyAll copy s items).Benign := by
  induction items generalizing s with
  | nil => exact benign_ok _
  | cons item rest ih =>
    exact (benign s item).bind fun first => (ih first.2).bind fun _ => benign_ok _

theorem benign_copyTo (n : Nat) (s : Store) (v : Value) : (copyTo n s v).Benign := by
  induction n generalizing s v with
  | zero => exact benign_unfinished
  | succ n ih =>
    cases v with
    | empty => exact benign_error rfl
    | list reference => exact (benign_copyAll ih s _).bind fun _ => benign_ok _
    | number _ | truth _ _ | text _ | function _ | plain _ => exact benign_ok _

theorem benign_allEqual {equal : Value → Value → Outcome Fault Bool}
    (benign : ∀ v w, (equal v w).Benign) (left right : List Value) :
    (allEqual equal left right).Benign := by
  induction left generalizing right with
  | nil => cases right <;> exact benign_ok _
  | cons v left ih =>
    cases right with
    | nil => exact benign_ok _
    | cons w right =>
      refine (benign v w).bind fun same => ?_
      split
      · exact ih right
      · exact benign_ok _

theorem benign_equalTo (s : Store) (n : Nat) (v w : Value) : (s.equalTo n v w).Benign := by
  induction n generalizing v w with
  | zero => exact benign_unfinished
  | succ n ih =>
    unfold equalTo
    split
    all_goals try exact benign_ok _
    -- Only two lists ask for their elements.
    dsimp only
    split
    · exact benign_allEqual ih _ _
    · exact benign_ok _

theorem benign_equal (s : Store) (v w : Value) : (s.equal v w).Benign :=
  benign_equalTo s _ v w

end Store

namespace Operator

theorem benign_addSettled (s : Store) (v w : Value) : (addSettled s v w).Benign := by
  unfold addSettled
  split
  · exact Outcome.benign_ok _
  · exact Outcome.benign_ok _
  · split
    · exact Outcome.benign_ok _
    · exact (s.benign_display _).bind fun _ => (s.benign_display _).bind fun _ => Outcome.benign_ok _

theorem benign_arithmetic (op : Arithmetic) (s : Store) (v w : Value) :
    (arithmetic op s v w).Benign := by
  cases op with
  | add => exact benign_addSettled _ _ _
  | multiply => exact Outcome.benign_ofExcept (benign_multiply s v w)
  | subtract | divide | power | modulo | wholeDivide =>
    refine Outcome.benign_ofExcept ((benign_numbers _ v w).bind fun pair => ?_)
    exact (benign_onNumbers _ _ _).bind fun _ => benign_ok _

end Operator

theorem Eval.benign_included (around : Surroundings) (name : String) :
    Operator.Benign (included around name) := by
  unfold included
  split
  · split
    · exact Operator.benign_ok _
    · exact Operator.benign_error rfl
  · split
    · exact Operator.benign_ok _
    · split
      · exact Operator.benign_ok _
      · exact Operator.benign_error rfl

theorem Eval.benign_program (source : String) : (program source).Benign := by
  unfold program
  split
  · exact Outcome.benign_error rfl
  · next tokens _ =>
    cases Node.ofTokens tokens with
    | ok tree => exact Outcome.benign_ok _
    | error cause => exact Outcome.benign_error rfl
    | unfinished => exact Outcome.benign_unfinished

end Pseudocode
