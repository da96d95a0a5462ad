import Pseudocode.Proofs.Invariant.Run

/-!
Watched runs. A watch checks the machine whenever a node is visited: when the visit begins, and when it
ends with a value or with a fault. A watched evaluator raises an alarm at the first check that fails, and
no construct holds an alarm up. So all checks of a run succeed exactly if the watched evaluator does what
the evaluator does, whatever the alarm.
-/

set_option autoImplicit false

namespace Pseudocode

structure Watch where
  enters : Machine → Prop
  leaves : Value → Machine → Prop
  faults : Machine → Prop

namespace Watch

open Exec

open Classical in
noncomputable def guard (w : Watch) (alarm : Fault) (visit : Exec Value) : Exec Value :=
  fun m =>
    if w.enters m then
      match visit m with
      | .ok (value, after) =>
        if w.leaves value after then .ok (value, after) else .error (alarm, after)
      | .error (cause, after) =>
        if w.faults after then .error (cause, after) else .error (alarm, after)
      | .unfinished => .unfinished
    else .error (alarm, m)

noncomputable def eval (w : Watch) (alarm : Fault) (around : Surroundings) : Nat → Node → Exec Value
  | 0, _ => unfinished
  | n + 1, node => w.guard alarm (Eval.step around (w.eval alarm around n) n node)

def Passes (w : Watch) (around : Surroundings) (node : Node) (m : Machine) : Prop :=
  ∀ n alarm, w.eval alarm around n node m = Eval.eval around n node m

variable {w : Watch} {around : Surroundings} {m : Machine} {alarm : Fault}

theorem guard_apply {visit : Exec Value} (enters : w.enters m)
    (leaves : ∀ value after, visit m = .ok (value, after) → w.leaves value after)
    (faults : ∀ cause after, visit m = .error (cause, after) → w.faults after) :
    w.guard alarm visit m = visit m := by
  rw [guard, if_pos enters]
  cases h : visit m with
  | ok found => exact if_pos (leaves found.1 found.2 h)
  | error found => exact if_pos (faults found.1 found.2 h)
  | unfinished => rfl

end Watch

theorem Invariant.passes {around : Surroundings} (I : Invariant around) (w : Watch) {node : Node}
    {m : Machine} (enters : ∀ {m}, I.holds m → w.enters m)
    (leaves : ∀ {m after value}, I.holds m → I.kept m after → I.value after.store value →
      w.leaves value after)
    (faults : ∀ {m after}, I.holds m → I.left m after → w.faults after) (tree : I.tree node)
    (holds : I.holds m) : w.Passes around node m := by
  intro n alarm
  have agree : I.Agree m I.value (Eval.eval around n node) (w.eval alarm around n node) := by
    induction n generalizing node m with
    | zero => exact Invariant.agree_unfinished
    | succ n ih =>
      -- The parts agree, so one step does; then its own checks succeed.
      obtain ⟨same, ended⟩ := Eval.agree_step (fun _ _ => ih) n tree holds
      refine ⟨?_, ended⟩
      change w.guard alarm _ m = Eval.step around (Eval.eval around n) n node m
      rw [Watch.guard_apply (enters holds), same]
      · intro value after ran
        rw [same] at ran
        rw [ran] at ended
        exact leaves holds ended.1 ended.2
      · intro cause after ran
        rw [same] at ran
        rw [ran] at ended
        exact faults holds ended
  exact agree.1

end Pseudocode
