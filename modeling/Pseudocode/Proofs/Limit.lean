import Pseudocode.Proofs.Ends

set_option autoImplicit false

namespace Pseudocode

open Exec

variable {around : Surroundings} {node : Node} {m : Machine} {e : Ending} {limit : Int}

/-- The limit on open calls has ended the run. -/
def Ending.CutOff (e : Ending) : Prop :=
  ∃ limit, e.result = .error (.depth limit)

theorem Eval.treeEnds_higher (higher : around.limit ≤ limit) (ends : TreeEnds around node m e)
    (uncut : ¬ e.CutOff) : TreeEnds { around with limit } node m e := by
  obtain ⟨n, ends⟩ := ends
  -- The two runs go in step: the lower limit is asked for nothing but whether to cut off.
  have covers : Covers (Eq (.depth around.limit)) "" "" (eval around n node)
      (eval { around with limit } n node) :=
    covers_eval (Nat.le_refl n) (.inr ⟨higher, rfl⟩) node
  have other (cause : Fault) (failed : e.result = .error cause) : .depth around.limit ≠ cause := by
    rintro rfl
    exact uncut ⟨around.limit, failed⟩
  rw [← m.after_empty] at ends
  obtain ⟨e', rfl, ends'⟩ := covers.ending ends other
  rw [m.after_empty] at ends'
  exact ⟨n, ends'⟩

/-- A run that the limit on open calls does not cut off ends with a higher limit too, and in no other
way: with the same value or fault, and on the same machine. -/
theorem higher_limit_ends_alike (around : Surroundings) (node : Node) (m : Machine) (e : Ending)
    (limit : Int) (higher : around.limit ≤ limit) (ends : Run.Ends around node m e)
    (uncut : ¬ e.CutOff) (e' : Ending) :
    Run.Ends { around with limit } node m e' ↔ e' = e := by
  have endsHigher : Run.Ends { around with limit } node m e := Eval.treeEnds_higher higher ends uncut
  constructor
  · intro other
    exact other.unique Eval.grows_eval endsHigher
  · rintro rfl
    exact endsHigher

theorem nested_calls_end_alike :
    let text (s : String) := Node.named .string (some s) []
    let call (name : String) := Node.named .call (some name) []
    let function (name : String) (body : List Node) : Node :=
      Node.named .define (some name) [Node.of .parameters [], Node.block body, Node.null]
    let node := Node.block
      [function "f" [Node.of .print [text "in"], Node.named .access (some "x") []],
       function "g" [call "f"], call "g"]
    let around (limit : Int) : Surroundings := ⟨⟨[], []⟩, "", limit⟩
    ∃ e, Run.Ends (around 2) node .initial e ∧ ¬ e.CutOff ∧ e.machine.output = "in\n" ∧
      e.result = .error (.undefined .variable (some "x")) ∧
      (∀ e', Run.Ends (around 1000) node .initial e' ↔ e' = e) ∧
      ∃ cut, Run.Ends (around 1) node .initial cut ∧ cut.CutOff := by
  intro text call function node around
  obtain ⟨e, ends, output, failed⟩ : ∃ e, Run.Ends (around 2) node .initial e ∧
      e.machine.output = "in\n" ∧ e.result = .error (.undefined .variable (some "x")) :=
    ⟨_, ⟨7, rfl⟩, rfl, rfl⟩
  have uncut : ¬ e.CutOff := by
    rintro ⟨limit, cut⟩
    rw [failed] at cut
    cases cut
  refine ⟨e, ends, uncut, output, failed, ?_, _, ⟨7, rfl⟩, 1, rfl⟩
  exact higher_limit_ends_alike (around 2) node .initial e 1000 (by decide) ends uncut

end Pseudocode
