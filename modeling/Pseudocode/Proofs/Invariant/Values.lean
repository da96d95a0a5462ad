import Pseudocode.Proofs.Invariant.Run

set_option autoImplicit false

namespace Pseudocode

namespace Domain

structure Holds (D : Domain) (m : Machine) : Prop where
  tables : ∀ table ∈ m.scopes.tables, ∀ binding ∈ table, D.value m.store binding.2
  sound : D.Sound m.store
  returned : ∀ v, m.returned = some v → D.value m.store v

end Domain

theorem Table.mem_of_find? {table : Table} {name : Option String} {v : Value}
    (found : table.find? name = some v) : (name, v) ∈ table := by
  induction table with
  | nil => nomatch found
  | cons binding rest ih =>
    obtain ⟨n, w⟩ := binding
    rw [Table.find?] at found
    split at found
    next same =>
      cases found
      rw [same]
      exact List.mem_cons_self ..
    next => exact List.mem_cons_of_mem _ (ih found)

theorem Scopes.mem_of_findIn {tables : List Table} {name : Option String} {v : Value}
    (found : Scopes.findIn name tables = some v) : ∃ table ∈ tables, (name, v) ∈ table := by
  induction tables with
  | nil => nomatch found
  | cons table rest ih =>
    rw [Scopes.findIn] at found
    split at found
    next here =>
      cases found
      exact ⟨table, List.mem_cons_self .., Table.mem_of_find? here⟩
    next =>
      obtain ⟨inner, member, bound⟩ := ih found
      exact ⟨inner, List.mem_cons_of_mem _ member, bound⟩

theorem Scopes.mem_of_pop {scopes : Scopes} {table : Table} (member : table ∈ scopes.pop.tables) :
    table ∈ scopes.tables := by
  obtain ⟨current, outer⟩ := scopes
  cases outer with
  | nil => exact member
  | cons first rest => exact List.mem_cons_of_mem _ member

namespace Domain.Holds

variable {D : Domain} {m after : Machine} {v : Value}

theorem found {name : Option String} (holds : D.Holds m) (found : m.scopes.find? name = some v) :
    D.value m.store v := by
  obtain ⟨table, member, bound⟩ := Scopes.mem_of_findIn found
  exact holds.tables table member _ bound

theorem store {store : Store} (holds : D.Holds m) (grown : m.store.lists.size ≤ store.lists.size)
    (sound : D.Sound store) : D.Holds { m with store } where
  tables table member binding bound := D.grow grown (holds.tables table member binding bound)
  sound := sound
  returned v pending := D.grow grown (holds.returned v pending)

theorem set {name : Option String} (holds : D.Holds m) (admitted : D.value m.store v) :
    D.Holds { m with scopes := m.scopes.set name v } where
  tables := by
    intro table member binding bound
    rcases List.mem_cons.mp member with rfl | member
    · rcases Table.mem_set bound with rfl | bound
      · exact admitted
      · exact holds.tables _ (List.mem_cons_self ..) binding bound
    · exact holds.tables table (List.mem_cons_of_mem _ member) binding bound
  sound := holds.sound
  returned := holds.returned

theorem opened {table : Table} (holds : D.Holds m)
    (bound : ∀ binding ∈ table, D.value m.store binding.2) :
    D.Holds (m.opened m.store table) where
  tables := by
    intro other member
    rcases List.mem_cons.mp member with rfl | member
    · exact bound
    · exact holds.tables other member
  sound := holds.sound
  returned := nofun

theorem closed (holds : D.Holds m) (body : D.Holds after)
    (grown : m.store.lists.size ≤ after.store.lists.size) : D.Holds (m.closed after) where
  tables table member := body.tables table (Scopes.mem_of_pop member)
  sound := body.sound
  returned v pending := D.grow grown (holds.returned v pending)

end Domain.Holds

def Domain.invariant (D : Domain) (around : Surroundings) : Invariant around where
  toDomain := D
  holds := D.Holds
  kept m after := m.store.lists.size ≤ after.store.lists.size ∧ after.calls = m.calls ∧
    (D.Holds m → D.Holds after)
  left m after := D.Holds m → D.Holds after
  refl _ := ⟨Nat.le_refl _, rfl, id⟩
  trans first second := ⟨Nat.le_trans first.1 second.1, second.2.1.trans first.2.1,
    second.2.2 ∘ first.2.2⟩
  keep holds kept := kept.2.2 holds
  size kept := kept.1
  calls kept := kept.2.1
  stop _ := id
  later first second := second ∘ first.2.2
  sound holds := holds.sound
  found := Holds.found
  pending holds pending := holds.returned _ pending
  store _ grown sound := ⟨grown, rfl, fun holds => holds.store grown sound⟩
  set _ admitted := ⟨Nat.le_refl _, rfl, fun holds => holds.set admitted⟩
  returned _ admitted := ⟨Nat.le_refl _, rfl, fun holds =>
    { holds with returned := by rintro _ ⟨⟩; exact admitted }⟩
  output _ _ := ⟨Nat.le_refl _, rfl, fun holds => { holds with }⟩
  reply _ _ _ := ⟨Nat.le_refl _, rfl, fun holds => { holds with }⟩
  opened holds _ bound := holds.opened bound
  closed := by
    intro m after table holds opened body
    obtain ⟨grown, calls, admits⟩ := body
    refine ⟨grown, ?_, fun holds => holds.closed (admits opened) grown⟩
    simp only [Machine.opened] at calls
    simp [Machine.closed, calls]
  fault _ opened admits _ := { admits opened with }

end Pseudocode
