import Mathlib
import Pseudocode.Proofs.Nesting

set_option autoImplicit false

namespace Pseudocode

theorem Number.beq_self {x : Float} (number : x.isNaN = false) : (x == x) = true := by
  have number : x.toModel.unpack.isNaN = false := number
  show x.toModel.unpack.beq x.toModel.unpack = true
  generalize x.toModel.unpack = unpacked at number
  cases unpacked with
  | notANumber => cases number
  | infinity sign => cases sign <;> rfl
  | zero sign => rfl
  | finite sign mantissa exponent positive =>
    cases sign <;> simp [Float.Model.UnpackedFloat.beq, Float.Model.UnpackedFloat.compare]

namespace Value

def IsList (v : Value) : Prop :=
  ∃ reference, v = .list reference

/-- Numbers but no NaN, truth values, texts and lists. -/
def Comparable : Value → Prop
  | .number x | .truth x _ => x.isNaN = false
  | .text _ | .list _ => True
  | .empty | .function _ | .plain _ => False

theorem ofBool_inj {a b : Bool} : ofBool a = ofBool b ↔ a = b := by
  cases a <;> cases b <;> simp [ofBool]

end Value

namespace Store

structure Comparable (s : Store) (v : Value) : Prop where
  closed : s.Closed v
  acyclic : s.Acyclic v
  parts : ∀ w, s.Contains v w → w.Comparable

variable {s : Store} {v w : Value} {n k : Nat}

section Ends

theorem allEqual_ok {equal : Value → Value → Outcome Fault Bool} {xs ys : List Value}
    (ends : ∀ x ∈ xs, ∀ y, ∃ same, equal x y = .ok same) : ∃ same, allEqual equal xs ys = .ok same := by
  induction xs generalizing ys with
  | nil => cases ys <;> exact ⟨_, rfl⟩
  | cons x xs ih =>
    rw [List.forall_mem_cons] at ends
    cases ys with
    | nil => exact ⟨_, rfl⟩
    | cons y ys =>
      obtain ⟨same, first⟩ := ends.1 y
      cases same with
      | true => simpa [allEqual, first] using ih ends.2
      | false => exact ⟨false, by simp [allEqual, first]⟩

theorem equalTo_ok (shallow : s.Shallow n v) (room : n ≤ k) : ∃ same, s.equalTo k v w = .ok same := by
  induction n generalizing v w k with
  | zero => exact shallow.elim
  | succ n ih =>
    obtain ⟨k, rfl⟩ : ∃ j, k = j + 1 := ⟨k - 1, by omega⟩
    cases v with
    | list a =>
      cases w with
      | list b =>
        simp only [equalTo]
        split
        · exact allEqual_ok fun x member y =>
            ih (shallow x (Array.mem_toList_iff.mp member)) (Nat.le_of_succ_le_succ room)
        · exact ⟨false, rfl⟩
      | empty | number _ | truth _ _ | text _ | function _ | plain _ => exact ⟨false, rfl⟩
    | empty | number _ | truth _ _ | text _ | function _ | plain _ => cases w <;> exact ⟨_, rfl⟩

end Ends

section Reflexive

theorem allEqual_self {equal : Value → Value → Outcome Fault Bool} {xs : List Value}
    (same : ∀ x ∈ xs, equal x x = .ok true) : allEqual equal xs xs = .ok true := by
  induction xs with
  | nil => rfl
  | cons x xs ih =>
    rw [List.forall_mem_cons] at same
    simp [allEqual, same.1, ih same.2]

theorem equalTo_self (parts : ∀ w, s.Contains v w → w.Comparable) (shallow : s.Shallow n v)
    (room : n ≤ k) : s.equalTo k v v = .ok true := by
  induction n generalizing v k with
  | zero => exact shallow.elim
  | succ n ih =>
    obtain ⟨k, rfl⟩ : ∃ j, k = j + 1 := ⟨k - 1, by omega⟩
    have here := parts v (.self v)
    cases v with
    | list a =>
      simp only [equalTo, beq_self_eq_true, if_true]
      refine allEqual_self fun x member => ?_
      have member := Array.mem_toList_iff.mp member
      exact ih (fun w contains => parts w (.element member contains)) (shallow x member)
        (Nat.le_of_succ_le_succ room)
    | number x | truth x _ => simp [equalTo, Number.beq_self here]
    | text t => simp [equalTo]
    | empty | function _ | plain _ => exact here.elim

end Reflexive

theorem Comparable.shallow (comparable : s.Comparable v) :
    s.Shallow (s.lists.size * s.lists.size + 2) v :=
  -- Nesting is bounded by the number of lists, which is less than the bound of a comparison.
  comparable.acyclic.shallow comparable.closed
    (Nat.lt_of_le_of_lt (Nat.le_mul_self _) (Nat.lt_add_of_pos_right Nat.two_pos))

theorem Comparable.equal_ok (comparable : s.Comparable v) : ∃ same, s.equal v w = .ok same :=
  equalTo_ok comparable.shallow (Nat.le_refl _)

theorem Comparable.equal_self (comparable : s.Comparable v) : s.equal v v = .ok true :=
  equalTo_self comparable.parts comparable.shallow (Nat.le_refl _)

theorem comparable_single (single : ∀ reference, v ≠ .list reference) (here : v.Comparable) :
    s.Comparable v where
  closed := closed_of_single single
  acyclic _ contains := absurd (contains.eq_self single).symm (single _)
  parts _ contains := contains.eq_self single ▸ here

theorem comparison_of_not_lists (left : v.Comparable) (right : w.Comparable)
    (apart : ¬ (v.IsList ∧ w.IsList)) :
    ∃ found, s.equal v w = .ok found ∧ Operator.comparison .equal s v w = .ok (.ofBool found, s) ∧
      Operator.comparison .notEqual s v w = .ok (.ofBool (!found), s) := by
  cases v with
  | empty | function _ | plain _ => exact left.elim
  | list a =>
    cases w with
    | empty | function _ | plain _ => exact right.elim
    | list b => exact absurd ⟨⟨a, rfl⟩, b, rfl⟩ apart
    | number _ | truth _ _ | text _ => exact ⟨false, rfl, rfl, rfl⟩
  | number _ | truth _ _ | text _ =>
    cases w with
    | empty | function _ | plain _ => exact right.elim
    | number _ | truth _ _ | text _ | list _ => exact ⟨_, rfl, rfl, rfl⟩

theorem comparison_of_lists (left : v.IsList) (right : w.IsList) :
    Operator.comparison .equal s v w = .ok (.ofBool false, s) ∧
      Operator.comparison .notEqual s v w = .ok (.ofBool true, s) := by
  obtain ⟨a, rfl⟩ := left
  obtain ⟨b, rfl⟩ := right
  exact ⟨rfl, rfl⟩

end Store

open Store

/-- The operators for equal and unequal always answer, and with opposite truth values; and their answer is
that of the comparison of a case, exactly if the values are not two lists that are equal. In particular a
value is equal to itself exactly if it is no list, while a case always finds it equal to itself. -/
theorem equalities_agree_iff {s : Store} {v w : Value} (left : s.Comparable v) (right : s.Comparable w) :
    (∃ same found, s.equal v w = .ok same ∧
      Operator.comparison .equal s v w = .ok (.ofBool found, s) ∧
      Operator.comparison .notEqual s v w = .ok (.ofBool (!found), s) ∧
      (found = same ↔ ¬ (v.IsList ∧ w.IsList ∧ same = true))) ∧
    s.equal v v = .ok true ∧
      (Operator.comparison .equal s v v = .ok (.ofBool true, s) ↔ ¬ v.IsList) := by
  have self := left.equal_self
  refine ⟨?_, self, ?_⟩
  · by_cases lists : v.IsList ∧ w.IsList
    · obtain ⟨same, compared⟩ := left.equal_ok (w := w)
      obtain ⟨equal, notEqual⟩ := comparison_of_lists (s := s) lists.1 lists.2
      refine ⟨same, false, compared, equal, notEqual, ?_⟩
      cases same <;> simp [lists]
    · obtain ⟨found, compared, equal, notEqual⟩ :=
        comparison_of_not_lists (left.parts v (.self v)) (right.parts w (.self w)) lists
      refine ⟨found, found, compared, equal, notEqual, ?_⟩
      simp only [true_iff]
      exact fun both => lists ⟨both.1, both.2.1⟩
  · by_cases list : v.IsList
    · rw [(comparison_of_lists list list).1]
      simp [list, Value.ofBool_inj]
    · have here := left.parts v (.self v)
      obtain ⟨found, compared, equal, _⟩ := comparison_of_not_lists here here fun both => list both.1
      cases self.symm.trans compared
      simp [equal, list]

theorem truth_equals_number :
    let s : Store := .initial
    s.Comparable (.ofBool true) ∧ s.Comparable (.number 1.0) ∧
      s.equal (.ofBool true) (.number 1.0) = .ok true ∧
      Operator.comparison .equal s (.ofBool true) (.number 1.0) = .ok (.ofBool true, s) ∧
      Operator.comparison .notEqual s (.ofBool true) (.number 1.0) = .ok (.ofBool false, s) := by
  intro s
  have left : s.Comparable (.ofBool true) := comparable_single nofun rfl
  have right : s.Comparable (.number 1.0) := comparable_single nofun rfl
  obtain ⟨⟨same, found, compared, equal, notEqual, agree⟩, _⟩ := equalities_agree_iff left right
  have same_eq : same = true := Outcome.ok.inj (compared.symm.trans rfl)
  have found_eq : found = same := agree.mpr fun lists => nomatch lists.1
  subst found_eq same_eq
  exact ⟨left, right, compared, equal, notEqual⟩

/-- Two lists of one text are equal for a case and unequal for the operator, which takes even a list to be
unequal to itself. -/
theorem equal_lists_found_unequal :
    let s : Store := ⟨#[#[.text "p"], #[.text "p"]], 0⟩
    s.Comparable (.list 0) ∧ s.Comparable (.list 1) ∧
      s.equal (.list 0) (.list 1) = .ok true ∧
      Operator.comparison .equal s (.list 0) (.list 1) = .ok (.ofBool false, s) ∧
      Operator.comparison .notEqual s (.list 0) (.list 1) = .ok (.ofBool true, s) ∧
      Operator.comparison .equal s (.list 0) (.list 0) = .ok (.ofBool false, s) ∧
      Value.ofBool false ≠ .ofBool true := by
  intro s
  have items (outer : Nat) (item : Value) (member : item ∈ s.items outer) : item = .text "p" := by
    rcases outer with _ | _ | outer
    · simpa [s, Store.items] using member
    · simpa [s, Store.items] using member
    · simp [s, Store.items] at member
  have comparable (reference : Nat) (held : reference < 2) : s.Comparable (.list reference) := by
    refine ⟨closed_of_items (fun _ _ member => by cases items _ _ member) ?_,
      acyclic_of_items (fun _ _ member => by cases items _ _ member) _, ?_⟩
    · rintro _ ⟨⟩
      exact held
    · rintro w (_ | ⟨member, contains⟩)
      · trivial
      · cases items _ _ member
        cases contains
        trivial
  exact ⟨comparable 0 (by decide), comparable 1 (by decide), rfl, rfl, rfl, rfl, by rintro ⟨⟩⟩

end Pseudocode
