import Pseudocode.Proofs.CountedLoop

set_option autoImplicit false

namespace Pseudocode

namespace Eval

open Exec

variable {rec : Node → Exec Value} {m after : Machine} {value last : Value} {n : Nat}

theorem block_cons_eq_ok {statement : Node} {rest : List Node}
    (ran : block rec (statement :: rest) last m = .ok (value, after)) :
    ∃ first middle, rec statement m = .ok (first, middle) ∧
      (middle.returned ≠ none ∧ after = middle ∨
        middle.returned = none ∧ block rec rest first middle = .ok (value, after)) := by
  obtain ⟨first, middle, started, ran⟩ := bind_eq_ok.mp ran
  refine ⟨first, middle, started, ?_⟩
  cases returned : middle.returned with
  | some result =>
    rw [bind_of_ok (read_returned returned)] at ran
    cases ran
    exact .inl ⟨nofun, rfl⟩
  | none =>
    rw [bind_of_ok (read_returned returned)] at ran
    exact .inr ⟨rfl, ran⟩

theorem bodyValue_eq_ok {f : Function} (ran : bodyValue rec f m = .ok (value, after)) :
    ∃ last middle, rec f.body m = .ok (last, middle) ∧
      (middle.returned = some value ∨ middle.returned = none ∧ rec f.result middle = .ok (value, after)) := by
  obtain ⟨last, middle, body, ran⟩ := bind_eq_ok.mp ran
  refine ⟨last, middle, body, ?_⟩
  cases returned : middle.returned with
  | some result =>
    rw [bind_of_ok (read_returned returned)] at ran
    cases ran
    exact .inl rfl
  | none =>
    rw [bind_of_ok (read_returned returned)] at ran
    exact .inr ⟨rfl, ran⟩

theorem ofExcept_same {α : Type} {found : Except Fault α} {a : α}
    (ran : ofExcept found m = .ok (a, after)) : after = m := by
  cases found with
  | ok _ =>
    cases ran
    rfl
  | error _ => cases ran

theorem lookup_eq_ok {role : Role} {name : Option String} (ran : lookup role name m = .ok (value, after)) :
    m.scopes.find? name = some value ∧ after = m := by
  unfold lookup at ran
  split at ran
  next found =>
    cases ran
    exact ⟨found, rfl⟩
  next => cases ran

theorem counter_same {name : Option String} {x : Float} (ran : counter name m = .ok (x, after)) : after = m := by
  obtain ⟨_, _, looked, converted⟩ := bind_eq_ok.mp ran
  exact (ofExcept_same converted).trans (lookup_eq_ok looked).2

theorem onStore_eq_ok {α : Type} {f : Store → Outcome Fault (α × Store)} {a : α}
    (ran : onStore f m = .ok (a, after)) : ∃ store, f m.store = .ok (a, store) ∧ after = { m with store } := by
  unfold onStore at ran
  split at ran
  next store changed =>
    cases ran
    exact ⟨store, changed, rfl⟩
  next => cases ran
  next => cases ran

theorem assignment_eq_ok {target : Option String} {part : Node}
    (ran : assignment rec (.named .assign target [part]) m = .ok (value, after)) :
    ∃ middle, rec part m = .ok (value, middle) ∧
      after = { middle with scopes := middle.scopes.set target value } := by
  obtain ⟨_, middle, evaluated, assigned⟩ := bind_eq_ok.mp ((child_bind rfl).symm.trans ran)
  cases assigned
  exact ⟨middle, evaluated, rfl⟩

theorem operands_eq_ok {kind : Node.Kind} {left right : Node} {v w : Value}
    (ran : operands rec (.of kind [left, right]) m = .ok ((v, w), after)) :
    ∃ middle, rec left m = .ok (v, middle) ∧ rec right middle = .ok (w, after) := by
  obtain ⟨_, middle, first, ran⟩ := bind_eq_ok.mp ((child_bind rfl).symm.trans ran)
  obtain ⟨_, _, second, ran⟩ := bind_eq_ok.mp ((child_bind rfl).symm.trans ran)
  cases ran
  exact ⟨middle, first, second⟩

theorem ifThen_eq_ok {condition body : Node}
    (ran : ifThen rec (.of .ifThen [condition, body]) m = .ok (value, after)) :
    ∃ found middle, rec condition m = .ok (found, middle) ∧
      (rec body middle = .ok (value, after) ∨ after = middle) := by
  obtain ⟨found, middle, asked, ran⟩ := bind_eq_ok.mp ((child_bind rfl).symm.trans ran)
  obtain ⟨held, same, decided, ran⟩ := bind_eq_ok.mp ran
  obtain rfl : same = middle := ofExcept_same decided
  refine ⟨found, same, asked, ?_⟩
  cases held with
  | true => exact .inl ((child_bind rfl).symm.trans ran)
  | false =>
    cases ran
    exact .inr rfl

theorem requireNumber_same {cause : Fault} {v : Value} (ran : requireNumber cause v m = .ok ((), after)) :
    after = m := by
  obtain ⟨kind, _, tagged, ran⟩ := bind_eq_ok.mp ran
  split at ran
  · cases ran
  · cases ran
    exact ofExcept_same tagged

theorem forLoop_eq_ok {name : Option String} {start final increment body : Node}
    (ran : forLoop rec n (.named .forLoop name [start, final, increment, body]) m = .ok (value, after)) :
    ∃ low first high second amount ready z, rec start m = .ok (low, first) ∧
      rec final first = .ok (high, second) ∧ rec increment second = .ok (amount, ready) ∧
      forRounds rec name high z body n .empty { ready with scopes := ready.scopes.set name low } =
        .ok (value, after) := by
  obtain ⟨low, first, startRan, ran⟩ := bind_eq_ok.mp ((child_bind rfl).symm.trans ran)
  obtain ⟨high, second, finalRan, ran⟩ := bind_eq_ok.mp ((child_bind rfl).symm.trans ran)
  obtain ⟨amount, ready, incrementRan, ran⟩ := bind_eq_ok.mp ((child_bind rfl).symm.trans ran)
  obtain ⟨_, one, lowChecked, ran⟩ := bind_eq_ok.mp ((child_bind rfl).symm.trans ran)
  obtain ⟨_, two, highChecked, ran⟩ := bind_eq_ok.mp ran
  obtain ⟨_, three, amountChecked, ran⟩ := bind_eq_ok.mp ran
  obtain ⟨_, _, assigned, ran⟩ := bind_eq_ok.mp ran
  cases assigned
  obtain ⟨z, four, converted, ran⟩ := bind_eq_ok.mp ran
  have checked : three = ready := (requireNumber_same amountChecked).trans <|
    (requireNumber_same highChecked).trans (requireNumber_same lowChecked)
  rw [ofExcept_same converted, checked] at ran
  exact ⟨low, first, high, second, amount, ready, z, startRan, finalRan, incrementRan, ran⟩

theorem forRounds_of_failing {name : Option String} {final : Value} {z : Float} {body : Node}
    (fails : ∀ found, rec body m ≠ .ok found)
    (ran : forRounds rec name final z body n last m = .ok (value, after)) : after = m := by
  cases n with
  | zero => cases ran
  | succ n =>
    obtain ⟨x, middle, counted, afterCounter⟩ := bind_eq_ok.mp ran
    obtain ⟨y, same, bounded, rounds⟩ := bind_eq_ok.mp afterCounter
    obtain rfl : same = m := (ofExcept_same bounded).trans (counter_same counted)
    split at rounds
    · obtain ⟨_, _, round, _⟩ := bind_eq_ok.mp rounds
      exact absurd round (fails _)
    · cases rounds
      rfl

end Eval

end Pseudocode
