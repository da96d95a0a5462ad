import Pseudocode.Session
import Pseudocode.Proofs.Room

set_option autoImplicit false

namespace Pseudocode

theorem Machine.after_empty (m : Machine) : m.after "" = m := by
  rw [after, String.empty_append]

namespace Ending

def Stops (e : Ending) : Prop :=
  (∃ cause, e.result = .error cause) ∨ e.machine.returned ≠ none

/-- The same machine and the same fault, if any, and the same value unless one has been returned. -/
structure Same (e e' : Ending) : Prop where
  machine : e.machine = e'.machine
  fault (cause : Fault) : e.result = .error cause ↔ e'.result = .error cause
  value : e.machine.returned = none → e.result = e'.result

def after (e : Ending) (earlier : String) : Ending :=
  { e with machine := e.machine.after earlier }

variable {e e' e'' : Ending}

theorem after_empty (e : Ending) : e.after "" = e := by
  rw [after, e.machine.after_empty]

theorem Same.refl (e : Ending) : e.Same e :=
  ⟨rfl, fun _ => Iff.rfl, fun _ => rfl⟩

theorem Same.symm (same : e.Same e') : e'.Same e :=
  ⟨same.machine.symm, fun cause => (same.fault cause).symm,
    fun clear => (same.value (same.machine ▸ clear)).symm⟩

theorem Same.trans (first : e.Same e') (second : e'.Same e'') : e.Same e'' :=
  ⟨first.machine.trans second.machine, fun cause => (first.fault cause).trans (second.fault cause),
    fun clear => (first.value clear).trans (second.value (first.machine ▸ clear))⟩

theorem clear_of_not_stops (goesOn : ¬ e.Stops) : e.machine.returned = none :=
  Classical.byContradiction fun returned => goesOn (.inr returned)

theorem Same.stops_iff (same : e.Same e') : e.Stops ↔ e'.Stops := by
  simp only [Stops, same.machine, same.fault]

theorem same_of_returned {m : Machine} (returned : m.returned ≠ none) (v w : Value) :
    Same ⟨.ok v, m⟩ ⟨.ok w, m⟩ :=
  ⟨rfl, fun _ => ⟨nofun, nofun⟩, fun clear => absurd clear returned⟩

structure SameEndings (R R' : Ending → Prop) : Prop where
  left {e : Ending} : R e → ∃ e', R' e' ∧ e.Same e'
  right {e' : Ending} : R' e' → ∃ e, R e ∧ e.Same e'

/-- The endings of two runs of which the second goes on where the first does not stop. -/
inductive InTurn (R : Ending → Prop) (next : Machine → Ending → Prop) : Ending → Prop
  | stopped {e : Ending} : R e → e.Stops → InTurn R next e
  | both {first e : Ending} : R first → ¬ first.Stops → next first.machine e → InTurn R next e

namespace SameEndings

variable {R R' R'' : Ending → Prop} {next next' : Machine → Ending → Prop}

theorem of_iff (same : ∀ e, R e ↔ R' e) : SameEndings R R' :=
  ⟨fun {e} ends => ⟨e, (same e).mp ends, .refl e⟩, fun {e} ends => ⟨e, (same e).mpr ends, .refl e⟩⟩

theorem refl (R : Ending → Prop) : SameEndings R R :=
  of_iff fun _ => Iff.rfl

theorem symm (same : SameEndings R R') : SameEndings R' R where
  left ends :=
    have ⟨e, ends, same⟩ := same.right ends
    ⟨e, ends, same.symm⟩
  right ends :=
    have ⟨e, ends, same⟩ := same.left ends
    ⟨e, ends, same.symm⟩

theorem trans (first : SameEndings R R') (second : SameEndings R' R'') : SameEndings R R'' where
  left ends :=
    have ⟨_, ends, same⟩ := first.left ends
    have ⟨e, ends, same'⟩ := second.left ends
    ⟨e, ends, same.trans same'⟩
  right ends :=
    have ⟨_, ends, same⟩ := second.right ends
    have ⟨e, ends, same'⟩ := first.right ends
    ⟨e, ends, same'.trans same⟩

theorem inTurn (first : SameEndings R R')
    (second : ∀ m : Machine, m.returned = none → SameEndings (next m) (next' m)) :
    SameEndings (InTurn R next) (InTurn R' next') := by
  constructor
  · rintro e (⟨ends, stops⟩ | ⟨ends, goesOn, later⟩)
    · obtain ⟨e', ends, same⟩ := first.left ends
      exact ⟨e', .stopped ends (same.stops_iff.mp stops), same⟩
    · obtain ⟨middle, ends, same⟩ := first.left ends
      obtain ⟨e', later, sameLater⟩ := (second _ (clear_of_not_stops goesOn)).left later
      exact ⟨e', .both ends (goesOn ∘ same.stops_iff.mpr) (same.machine ▸ later), sameLater⟩
  · rintro e (⟨ends, stops⟩ | ⟨ends, goesOn, later⟩)
    · obtain ⟨e', ends, same⟩ := first.right ends
      exact ⟨e', .stopped ends (same.stops_iff.mpr stops), same⟩
    · obtain ⟨middle, ends, same⟩ := first.right ends
      obtain ⟨e', later, sameLater⟩ := (second _ (clear_of_not_stops goesOn)).right later
      exact ⟨e', .both ends (goesOn ∘ same.stops_iff.mp) (same.machine ▸ later), sameLater⟩

end SameEndings

end Ending

open Ending

namespace Exec

def ending? : Outcome (Fault × Machine) (Value × Machine) → Option Ending
  | .ok (value, final) => some ⟨.ok value, final⟩
  | .error (cause, final) => some ⟨.error cause, final⟩
  | .unfinished => none

def Ends (X : Nat → Exec Value) (m : Machine) (e : Ending) : Prop :=
  ∃ n, ending? (X n m) = some e

def Grows (X : Nat → Exec Value) : Prop :=
  ∀ ⦃n n' : Nat⦄ ⦃m : Machine⦄ ⦃e : Ending⦄, n ≤ n' → ending? (X n m) = some e →
    ending? (X n' m) = some e

variable {X Z : Nat → Exec Value} {Y : Nat → Value → Exec Value} {x y : Exec Value} {m : Machine}
  {e e' : Ending} {p q : String}

theorem Covers.ending {cut : Fault → Prop} (covers : Covers cut p q x y)
    (ends : ending? (x (m.after p)) = some e) (uncut : ∀ cause, e.result = .error cause → ¬ cut cause) :
    ∃ e' : Ending, e = e'.after p ∧ ending? (y (m.after q)) = some (e'.after q) := by
  have covered := covers m
  cases ran : x (m.after p) with
  | ok found =>
    rw [ran] at covered ends
    obtain ⟨final, same, ran'⟩ := covered
    refine ⟨⟨.ok found.1, final⟩, ?_, by rw [ran']; rfl⟩
    rw [← Option.some.inj ends, same]
    rfl
  | error found =>
    rw [ran] at covered ends
    have failed : e.result = .error found.1 := by rw [← Option.some.inj ends]
    obtain ⟨final, same, ran'⟩ := covered.resolve_left (uncut found.1 failed)
    refine ⟨⟨.error found.1, final⟩, ?_, by rw [ran']; rfl⟩
    rw [← Option.some.inj ends, same]
    rfl
  | unfinished => rw [ran] at ends; cases ends

theorem Covers.ending_eq (covers : Covers (fun _ => False) "" "" x y) (ends : ending? (x m) = some e) :
    ending? (y m) = some e := by
  rw [← m.after_empty] at ends ⊢
  obtain ⟨e', rfl, ends'⟩ := covers.ending ends fun _ _ => id
  exact ends'

theorem grows_of_covers (covers : ∀ n n', n ≤ n' → Covers (fun _ => False) "" "" (X n) (X n')) :
    Grows X :=
  fun n n' _ _ more => (covers n n' more).ending_eq

theorem ends_congr (same : ∀ n, X n m = Z n m) : Ends X m e ↔ Ends Z m e :=
  exists_congr fun n => by rw [same n]

theorem Ends.result (ends : Ends X m e) :
    (∃ v, e.result = .ok v) ∨ ∃ cause, e.result = .error cause := by
  obtain ⟨n, ends⟩ := ends
  cases ran : X n m with
  | ok found => rw [ran] at ends; exact .inl ⟨found.1, Option.some.inj ends ▸ rfl⟩
  | error found => rw [ran] at ends; exact .inr ⟨found.1, Option.some.inj ends ▸ rfl⟩
  | unfinished => rw [ran] at ends; cases ends

theorem Ends.unique (first : Ends X m e) (grows : Grows X) (second : Ends X m e') : e = e' := by
  obtain ⟨n, first⟩ := first
  obtain ⟨n', second⟩ := second
  have first := grows (Nat.le_max_left n n') first
  have second := grows (Nat.le_max_right n n') second
  exact Option.some.inj (first.symm.trans second)

theorem ends_bind (grows : Grows X) (growsNext : ∀ v, Grows fun n => Y n v) :
    Ends (fun n => X n >>= Y n) m e ↔
      Ends X m e ∧ (∃ cause, e.result = .error cause) ∨
        ∃ v middle, Ends X m ⟨.ok v, middle⟩ ∧ Ends (fun n => Y n v) middle e := by
  constructor
  · rintro ⟨n, ends⟩
    dsimp only at ends
    rw [bind_apply] at ends
    cases ran : X n m with
    | ok found =>
      rw [ran] at ends
      exact .inr ⟨found.1, found.2, ⟨n, by rw [ran]; rfl⟩, n, ends⟩
    | error found =>
      rw [ran] at ends
      obtain rfl := Option.some.inj ends
      exact .inl ⟨⟨n, by rw [ran]; rfl⟩, found.1, rfl⟩
    | unfinished => rw [ran] at ends; cases ends
  · rintro (⟨⟨n, ends⟩, cause, failed⟩ | ⟨v, middle, ⟨n, first⟩, n', second⟩)
    · refine ⟨n, ?_⟩
      dsimp only
      rw [bind_apply]
      cases ran : X n m with
      | ok found =>
        rw [ran] at ends
        obtain rfl := Option.some.inj ends
        cases failed
      | error found => rw [ran] at ends; exact ends
      | unfinished => rw [ran] at ends; cases ends
    · -- The larger of the two bounds suffices for both parts.
      have first := grows (Nat.le_max_left n n') first
      have second := growsNext v (Nat.le_max_right n n') second
      refine ⟨max n n', ?_⟩
      dsimp only
      rw [bind_apply]
      cases ran : X (max n n') m with
      | ok found =>
        rw [ran] at first
        cases Option.some.inj first
        exact second
      | error found => rw [ran] at first; cases Option.some.inj first
      | unfinished => rw [ran] at first; cases first

end Exec

namespace Eval

open Exec

variable {around : Surroundings} {node : Node} {m : Machine} {e : Ending}

def TreeEnds (around : Surroundings) (node : Node) : Machine → Ending → Prop :=
  Ends fun n => eval around n node

theorem covers_larger {cut : Fault → Prop} {p q : String} {n n' : Nat} (more : n ≤ n') (node : Node) :
    Covers cut p q (eval around n node) (eval around n' node) :=
  covers_eval more (.inl rfl) node

theorem grows_eval : Grows fun n => eval around n node :=
  grows_of_covers fun _ _ more => covers_larger more node

theorem grows_block (nodes : List Node) (last : Value) : Grows fun n => block (eval around n) nodes last :=
  grows_of_covers fun _ _ more => covers_block (covers_larger more) nodes last

theorem treeEnds_step :
    TreeEnds around node m e ↔ Ends (fun n => step around (eval around n) n node) m e := by
  constructor
  · rintro ⟨n, ends⟩
    cases n with
    | zero => cases ends
    | succ n => exact ⟨n, ends⟩
  · rintro ⟨n, ends⟩
    exact ⟨n + 1, ends⟩

theorem treeEnds_after (earlier : String) :
    TreeEnds around node (m.after earlier) e ↔ ∃ e', TreeEnds around node m e' ∧ e = e'.after earlier := by
  constructor
  · -- The same run, once after the earlier output and once after none.
    rintro ⟨n, ends⟩
    obtain ⟨e', rfl, alone⟩ :=
      (covers_larger (Nat.le_refl n) node : Covers _ earlier "" _ _).ending ends fun _ _ => id
    refine ⟨e'.after "", ⟨n, m.after_empty ▸ alone⟩, ?_⟩
    rw [e'.after_empty]
  · rintro ⟨e', ⟨n, ends⟩, rfl⟩
    rw [← m.after_empty] at ends
    obtain ⟨e', rfl, later⟩ :=
      (covers_larger (Nat.le_refl n) node : Covers _ "" earlier _ _).ending ends fun _ _ => id
    rw [e'.after_empty]
    exact ⟨n, later⟩

end Eval

namespace Run

variable {around : Surroundings} {node : Node} {m : Machine} {e : Ending}

def Ends (around : Surroundings) (node : Node) (m : Machine) (e : Ending) : Prop :=
  Eval.TreeEnds around node { m with output := "" } e

def EndsAfter (around : Surroundings) (node : Node) (m : Machine) (e : Ending) : Prop :=
  ∃ own, Ends around node m own ∧ e = own.after m.output

theorem endsAfter_iff : EndsAfter around node m e ↔ Eval.TreeEnds around node m e := by
  have same : ({ m with output := "" } : Machine).after m.output = m := by
    rw [Machine.after, String.append_empty]
  rw [← same, Eval.treeEnds_after, same]
  rfl

end Run

end Pseudocode
