import Pseudocode.Proofs.CallEffect
import Pseudocode.Proofs.Invariant.Watch
import Pseudocode.Proofs.Isolation

set_option autoImplicit false

namespace Pseudocode

/-- One table for each open call and the global one, and no more open calls than allowed. -/
structure Machine.Balanced (limit : Int) (m : Machine) : Prop where
  depth : m.scopes.depth = m.calls + 1
  allowed : (m.calls : Int) ≤ max limit 0

theorem Machine.Effect.balanced {m after : Machine} {limit : Int} (effect : m.Effect after)
    (balanced : m.Balanced limit) : after.Balanced limit where
  depth := by
    rw [Scopes.depth, effect.outer, effect.calls]
    exact balanced.depth
  allowed := by
    rw [effect.calls]
    exact balanced.allowed

theorem Machine.Balanced.opened {m : Machine} {limit : Int} (balanced : m.Balanced limit)
    (below : (m.calls : Int) < limit) (table : Table) : (m.opened m.store table).Balanced limit where
  depth := by
    have depth := balanced.depth
    simp only [Scopes.depth] at depth
    simp [Machine.opened, Scopes.depth, Scopes.push, depth]
  allowed := by
    -- A call is opened only below the limit.
    simp only [Machine.opened]
    omega

theorem Machine.balanced_of_rest {m : Machine} (outer : m.scopes.outer = []) (calls : m.calls = 0)
    (limit : Int) : m.Balanced limit where
  depth := by simp [Scopes.depth, outer, calls]
  allowed := by
    rw [calls]
    omega

def Eval.balance (around : Surroundings) : Invariant around :=
  effectsWith around (Machine.Balanced around.limit) (fun balanced effect => effect.balanced balanced)
    fun table balanced below => balanced.opened below table

def balanceWatch (limit : Int) : Watch where
  enters := Machine.Balanced limit
  leaves _ := Machine.Balanced limit
  faults _ := True

/-- In a run that starts with no call open, tables and open calls are in balance whenever a node is
visited. A run that ends with a value leaves the global table and no open call, and one that ends with a
fault leaves no open call. -/
theorem run_balances_tables_and_calls (around : Surroundings) (node : Node) (m : Machine)
    (outer : m.scopes.outer = []) (calls : m.calls = 0) :
    (balanceWatch around.limit).Passes around node { m with output := "" } ∧
      (∀ value, (Run.tree around node m).result = .ok value →
        (Run.tree around node m).machine.scopes.outer = [] ∧
          (Run.tree around node m).machine.calls = 0) ∧
      ∀ cause, (Run.tree around node m).result = .error cause →
        (Run.tree around node m).machine.calls = 0 := by
  obtain ⟨sameCalls, sameOuter⟩ := tree_frame around node m
  refine ⟨?_, ?_, ?_⟩
  · apply (Eval.balance around).passes (balanceWatch around.limit) id
      (fun holds kept _ => kept.balanced holds) (fun _ _ => trivial) trivial
    exact Machine.balanced_of_rest (m := { m with output := "" }) outer calls around.limit
  · intro value ended
    exact ⟨(sameOuter value ended).trans outer, sameCalls.trans calls⟩
  · intro cause _
    exact sameCalls.trans calls

theorem recursion_balances_tables_and_calls :
    let around : Surroundings := ⟨Library.disk ["home"], "", 2⟩
    let again : Node := Node.named .call (some "f") [Node.named .access (some "x") []]
    let node : Node := Node.block [
      Node.named .define (some "f")
        [Node.of .parameters [Node.named .parameter (some "x") []], Node.block [again], Node.null],
      Node.named .call (some "f") [Node.named .boolean (some "TRUE") []]]
    let m := Machine.initial
    m.scopes.outer = [] ∧ m.calls = 0 ∧ (Run.tree around node m).result = .error (.depth 2) ∧
      (balanceWatch around.limit).Passes around node { m with output := "" } ∧
      (Run.tree around node m).machine.calls = 0 := by
  intro around again node m
  have stopped : (Run.tree around node m).result = .error (.depth 2) := rfl
  obtain ⟨passes, _, failed⟩ := run_balances_tables_and_calls around node m rfl rfl
  exact ⟨rfl, rfl, stopped, passes, failed _ stopped⟩

end Pseudocode
