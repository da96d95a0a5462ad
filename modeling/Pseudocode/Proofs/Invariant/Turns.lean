import Pseudocode.Proofs.Invariant.Values
import Pseudocode.Proofs.Isolation

set_option autoImplicit false

namespace Pseudocode

namespace Domain

variable {D : Domain} {m : Machine}

theorem holds_initial (D : Domain) : D.Holds Machine.initial where
  tables := by
    intro table member binding bound
    rw [List.mem_singleton.mp member] at bound
    nomatch bound
  sound := by
    intro reference item member
    simp [Machine.initial, Store.initial, Store.items] at member
  returned := nofun

theorem holds_given {given : List (String × Plain)}
    (admitted : ∀ s, ∀ binding ∈ given, D.value s (.plain binding.2)) (holds : D.Holds m) :
    D.Holds (given.foldl (fun m (name, value) => m.set name (.plain value)) m) := by
  induction given generalizing m with
  | nil => exact holds
  | cons binding rest ih =>
    refine ih (fun s binding member => admitted s binding (by simp [member])) ?_
    exact holds.set (admitted _ binding (by simp))

theorem holds_start (platform : Platform) {given : List (String × Plain)}
    (admitted : ∀ s, ∀ binding ∈ given, D.value s (.plain binding.2)) :
    D.Holds (Machine.start platform given) := by
  have number {m : Machine} (holds : D.Holds m) (name : String) (x : Float) :
      D.Holds (m.set name (.number x)) := holds.set (D.number _ _)
  have constants := number (number (holds_given admitted D.holds_initial) "TRUE" 1.0) "FALSE" 0.0
  rw [Machine.start, Machine.withConstants]
  dsimp only
  split
  · exact number constants "OS" _
  · exact constants

theorem holds_tree (around : Surroundings) {tree : Node} (admitted : D.tree tree) (holds : D.Holds m) :
    D.Holds (Run.tree around tree m).machine ∧
      ∀ value, (Run.tree around tree m).result = .ok value →
        D.value (Run.tree around tree m).machine.store value := by
  have ready : D.Holds { m with output := "" } := { holds with }
  have agree : (D.invariant around).Agree { m with output := "" } D.value
      (Eval.eval around Run.bound tree) (Eval.eval around Run.bound tree) :=
    Eval.agree_eval Run.bound admitted ready
  have ended := agree.2
  unfold Run.tree
  dsimp only
  cases h : Eval.eval around Run.bound tree { m with output := "" } with
  | ok found =>
    rw [h] at ended
    obtain ⟨⟨_, _, admits⟩, admitted⟩ := ended
    refine ⟨admits ready, ?_⟩
    rintro value ⟨⟩
    exact admitted
  | error found =>
    rw [h] at ended
    exact ⟨ended ready, nofun⟩
  | unfinished => exact ⟨ready, nofun⟩

theorem holds_take (turn : Turn) (holds : D.Holds m) :
    D.Holds (turn.take m).machine ∧
      ∀ value, (turn.take m).result = .ok value → D.value (turn.take m).machine.store value := by
  have prepared : D.Holds (m.prepare turn.input) := { holds with }
  unfold Turn.take Run.source
  cases read : Eval.program turn.text with
  | ok tree => exact holds_tree turn.around (D.program read) prepared
  | error cause => exact ⟨prepared, nofun⟩
  | unfinished => exact ⟨prepared, nofun⟩

theorem holds_afterTurns (turns : List Turn) (holds : D.Holds m) : D.Holds (m.afterTurns turns) := by
  induction turns generalizing m with
  | nil => exact holds
  | cons turn rest ih => exact ih (holds_take turn holds).1

theorem taken_of_endings {turns : List Turn} {ending : Ending} (holds : D.Holds m)
    (member : ending ∈ m.endings turns) :
    ∃ turn before, D.Holds before ∧ ending = Turn.take turn before := by
  induction turns generalizing m with
  | nil => nomatch member
  | cons turn rest ih =>
    rcases List.mem_cons.mp member with rfl | member
    · exact ⟨turn, m, holds, rfl⟩
    · exact ih (holds_take turn holds).1 member

end Domain

end Pseudocode
