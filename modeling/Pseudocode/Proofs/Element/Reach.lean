import Pseudocode.Proofs.Ends
import Pseudocode.Proofs.Invariant.Values

set_option autoImplicit false

namespace Pseudocode

namespace Machine

/-- The list is bound to a name, or is held in a list within reach. -/
inductive Reaches (m : Machine) : Nat → Prop
  | bound {table : Table} {name : Option String} {reference : Nat} : table ∈ m.scopes.tables →
      (name, .list reference) ∈ table → Reaches m reference
  | inside {outer reference : Nat} : Reaches m outer → .list reference ∈ m.store.items outer →
      Reaches m reference

def Held (m : Machine) : Prop :=
  ∀ reference, m.Reaches reference → reference < m.store.lists.size

structure Grown (m after : Machine) : Prop where
  rest : after = { m with store := after.store }
  size : m.store.lists.size ≤ after.store.lists.size
  items : ∀ reference < m.store.lists.size, after.store.items reference = m.store.items reference

/-- All names are bound as they were, and all lists within reach have the elements they had. -/
structure Unchanged (m after : Machine) : Prop where
  scopes : after.scopes = m.scopes
  items : ∀ reference, m.Reaches reference → after.store.items reference = m.store.items reference

variable {m middle after : Machine} {name : Option String} {reference : Nat}

theorem reaches_of_find? (found : m.scopes.find? name = some (.list reference)) :
    m.Reaches reference := by
  obtain ⟨table, member, bound⟩ := Scopes.mem_of_findIn found
  exact .bound member bound

theorem held_of_lists
    (tables : ∀ table ∈ m.scopes.tables, ∀ name reference, (name, .list reference) ∈ table →
      reference < m.store.lists.size)
    (lists : ∀ outer reference, .list reference ∈ m.store.items outer →
      reference < m.store.lists.size) : m.Held := by
  rintro reference (⟨member, binding⟩ | ⟨_, element⟩)
  · exact tables _ member _ _ binding
  · exact lists _ _ element

theorem Held.bound (held : m.Held) (found : m.scopes.find? name = some (.list reference)) :
    reference < m.store.lists.size :=
  held reference (reaches_of_find? found)

namespace Grown

theorem refl (m : Machine) : m.Grown m :=
  ⟨rfl, Nat.le_refl _, fun _ _ => rfl⟩

theorem trans (first : m.Grown middle) (second : middle.Grown after) : m.Grown after where
  rest := by rw [second.rest, first.rest]
  size := Nat.le_trans first.size second.size
  items reference inside := by
    rw [second.items reference (Nat.lt_of_lt_of_le inside first.size), first.items reference inside]

theorem scopes (grown : m.Grown after) : after.scopes = m.scopes := by
  rw [grown.rest]

theorem unchanged (grown : m.Grown after) (held : m.Held) : m.Unchanged after :=
  ⟨grown.scopes, fun reference reached => grown.items reference (held reference reached)⟩

end Grown

end Machine

namespace Exec

variable {x : Outcome (Fault × Machine) (Value × Machine)} {v : Value} {cause : Fault} {after : Machine}

theorem ending?_eq_ok : ending? x = some ⟨.ok v, after⟩ ↔ x = .ok (v, after) := by
  rcases x with found | found | _ <;> simp [ending?, Prod.ext_iff]

theorem ending?_eq_error : ending? x = some ⟨.error cause, after⟩ ↔ x = .error (cause, after) := by
  rcases x with found | found | _ <;> simp [ending?, Prod.ext_iff]

end Exec

namespace Eval

open Exec

variable {around : Surroundings} {node : Node} {m after : Machine} {v : Value}

/-- The tree has the value and is evaluated without side effects. -/
structure Yields (around : Surroundings) (node : Node) (m : Machine) (v : Value) (after : Machine) :
    Prop where
  ends : TreeEnds around node m ⟨.ok v, after⟩
  grown : m.Grown after

theorem TreeEnds.eventually (ends : TreeEnds around node m ⟨.ok v, after⟩) :
    ∃ n, ∀ k, n ≤ k → eval around k node m = .ok (v, after) := by
  obtain ⟨n, ends⟩ := ends
  exact ⟨n, fun k more => ending?_eq_ok.mp (grows_eval more ends)⟩

theorem treeEnds_of_step {n : Nat} {e : Ending}
    (ends : ending? (step around (eval around n) n node m) = some e) : TreeEnds around node m e :=
  treeEnds_step.mpr ⟨n, ends⟩

end Eval

end Pseudocode
