import Pseudocode.Proofs.Invariant.Run

set_option autoImplicit false

namespace Pseudocode

structure Frame where
  kept : Machine → Machine → Prop
  left : Machine → Machine → Prop
  refl (m : Machine) : kept m m
  trans {a b c : Machine} : kept a b → kept b c → kept a c
  stop (m : Machine) : left m m
  later {a b c : Machine} : kept a b → left b c → left a c
  store (m : Machine) (store : Store) : kept m { m with store }
  set (m : Machine) (name : Option String) (value : Value) :
    kept m { m with scopes := m.scopes.set name value }
  returned (m : Machine) (value : Value) : kept m { m with returned := some value }
  output (m : Machine) (text : String) : kept m { m with output := m.output ++ text }
  reply (m : Machine) (prompts : String) (input : Input) : kept m { m with prompts, input }
  call {m after : Machine} {store : Store} {table : Table} :
    kept (m.opened store table) after → kept m (m.closed after)
  callFault {m after : Machine} {store : Store} {table : Table} :
    left (m.opened store table) after → left m { after with calls := after.calls - 1 }

namespace Exec

variable {α : Type}

def Keeps (F : Frame) (x : Exec α) : Prop :=
  ∀ m, match x m with
    | .ok (_, after) => F.kept m after
    | .error (_, after) => F.left m after
    | .unfinished => True

end Exec

def Frame.invariant (F : Frame) (around : Surroundings) : Invariant around where
  toDomain := .all
  holds _ := True
  kept m after := F.kept m after ∧ m.store.lists.size ≤ after.store.lists.size ∧
    after.calls = m.calls
  left := F.left
  refl m := ⟨F.refl m, Nat.le_refl _, rfl⟩
  trans first second := ⟨F.trans first.1 second.1, Nat.le_trans first.2.1 second.2.1,
    second.2.2.trans first.2.2⟩
  keep _ _ := trivial
  size kept := kept.2.1
  calls kept := kept.2.2
  stop _ := F.stop _
  later first second := F.later first.1 second
  sound _ _ _ _ := trivial
  found _ _ := trivial
  pending _ _ := trivial
  store _ size _ := ⟨F.store _ _, size, rfl⟩
  set _ _ := ⟨F.set _ _ _, Nat.le_refl _, rfl⟩
  returned _ _ := ⟨F.returned _ _, Nat.le_refl _, rfl⟩
  output _ _ := ⟨F.output _ _, Nat.le_refl _, rfl⟩
  reply _ _ _ := ⟨F.reply _ _ _, Nat.le_refl _, rfl⟩
  opened _ _ _ := trivial
  closed := by
    intro m after table _ _ inner
    obtain ⟨kept, size, calls⟩ := inner
    refine ⟨F.call kept, size, ?_⟩
    simp only [Machine.opened] at calls
    simp [Machine.closed, calls]
  fault _ _ inner := F.callFault inner

theorem Eval.keeps_eval {F : Frame} (around : Surroundings) (n : Nat) (node : Node) :
    Exec.Keeps F (eval around n node) := by
  intro m
  have agree : (F.invariant around).Agree m (F.invariant around).value (eval around n node)
      (eval around n node) := agree_eval n trivial trivial
  have run := agree.2
  cases h : eval around n node m with
  | ok found =>
    rw [h] at run
    exact run.1.1
  | error found =>
    rw [h] at run
    exact run
  | unfinished => trivial

end Pseudocode
