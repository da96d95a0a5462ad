import Pseudocode.Proofs.Call
import Pseudocode.Proofs.Invariant.Domain

set_option autoImplicit false

namespace Pseudocode

def Input.Follows : Input → Input → Prop
  | .console rest, .console lines => rest <:+ lines
  | .dialogs rest, .dialogs answers => rest <:+ answers
  | _, _ => False

structure Invariant (around : Surroundings) extends Domain where
  holds : Machine → Prop
  kept : Machine → Machine → Prop
  left : Machine → Machine → Prop
  refl (m : Machine) : kept m m
  trans {a b c : Machine} : kept a b → kept b c → kept a c
  keep {a b : Machine} : holds a → kept a b → holds b
  size {a b : Machine} : kept a b → a.store.lists.size ≤ b.store.lists.size
  calls {a b : Machine} : kept a b → b.calls = a.calls
  stop {m : Machine} : holds m → left m m
  later {a b c : Machine} : kept a b → left b c → left a c
  sound {m : Machine} : holds m → toDomain.Sound m.store
  found {m : Machine} {name : Option String} {v : Value} :
    holds m → m.scopes.find? name = some v → value m.store v
  pending {m : Machine} {v : Value} : holds m → m.returned = some v → value m.store v
  store {m : Machine} {store : Store} : holds m → m.store.lists.size ≤ store.lists.size →
    toDomain.Sound store → kept m { m with store }
  set {m : Machine} {name : Option String} {v : Value} :
    holds m → value m.store v → kept m { m with scopes := m.scopes.set name v }
  returned {m : Machine} {v : Value} :
    holds m → value m.store v → kept m { m with returned := some v }
  output {m : Machine} (text : String) : holds m → kept m { m with output := m.output ++ text }
  reply {m : Machine} {input : Input} (asked : String) : holds m → input.Follows m.input →
    kept m { m with prompts := m.prompts ++ asked, input }
  opened {m : Machine} {table : Table} : holds m → (m.calls : Int) < around.limit →
    (∀ binding ∈ table, value m.store binding.2) → holds (m.opened m.store table)
  closed {m after : Machine} {table : Table} : holds m → holds (m.opened m.store table) →
    kept (m.opened m.store table) after → kept m (m.closed after)
  fault {m after : Machine} {table : Table} : holds m → holds (m.opened m.store table) →
    left (m.opened m.store table) after → left m { after with calls := after.calls - 1 }

namespace Invariant

open Exec

variable {around : Surroundings} {α β : Type}

def Agree (I : Invariant around) (m : Machine) (post : Store → α → Prop) (x y : Exec α) : Prop :=
  y m = x m ∧
    match x m with
    | .ok (a, after) => I.kept m after ∧ post after.store a
    | .error (_, after) => I.left m after
    | .unfinished => True

variable {I : Invariant around} {m : Machine} {post : Store → α → Prop} {post' : Store → β → Prop}

theorem agree_pure {a : α} (ok : post m.store a) : I.Agree m post (pure a) (pure a) :=
  ⟨rfl, I.refl m, ok⟩

theorem agree_fail (holds : I.holds m) (cause : Fault) : I.Agree m post (fail cause) (fail cause) :=
  ⟨rfl, I.stop holds⟩

theorem agree_unfinished : I.Agree m post unfinished unfinished :=
  ⟨rfl, trivial⟩

theorem agree_read {f : Machine → α} (ok : post m.store (f m)) :
    I.Agree m post (read f) (read f) :=
  ⟨rfl, I.refl m, ok⟩

theorem agree_modify {f : Machine → Machine} {post : Store → Unit → Prop} (kept : I.kept m (f m))
    (ok : post (f m).store ()) : I.Agree m post (modify f) (modify f) :=
  ⟨rfl, kept, ok⟩

theorem Agree.bind {x y : Exec α} {f g : α → Exec β} (first : I.Agree m post x y)
    (holds : I.holds m)
    (next : ∀ a after, I.holds after → I.kept m after → post after.store a →
      I.Agree after post' (f a) (g a)) : I.Agree m post' (x >>= f) (y >>= g) := by
  obtain ⟨same, begun⟩ := first
  unfold Agree
  simp only [bind_apply, same]
  cases h : x m with
  | ok found =>
    obtain ⟨a, after⟩ := found
    rw [h] at begun
    obtain ⟨kept, ok⟩ := begun
    obtain ⟨sameNext, ended⟩ := next a after (I.keep holds kept) kept ok
    refine ⟨sameNext, ?_⟩
    dsimp only
    cases h' : f a after with
    | ok found =>
      rw [h'] at ended
      exact ⟨I.trans kept ended.1, ended.2⟩
    | error found =>
      rw [h'] at ended
      exact I.later kept ended
    | unfinished => trivial
  | error found =>
    rw [h] at begun
    exact ⟨rfl, begun⟩
  | unfinished => exact ⟨rfl, trivial⟩

theorem agree_ite {condition : Prop} [Decidable condition] {x y x' y' : Exec α}
    (yes : condition → I.Agree m post x x') (no : ¬ condition → I.Agree m post y y') :
    I.Agree m post (if condition then x else y) (if condition then x' else y') := by
  split
  next h => exact yes h
  next h => exact no h

theorem agree_ofExcept (holds : I.holds m) {x : Except Fault α} (ok : ∀ a, x = .ok a → post m.store a) :
    I.Agree m post (ofExcept x) (ofExcept x) := by
  cases x with
  | ok a => exact ⟨rfl, I.refl m, ok a rfl⟩
  | error cause => exact ⟨rfl, I.stop holds⟩

theorem agree_ofOutcome (holds : I.holds m) {x : Machine → Outcome Fault α}
    (ok : ∀ a, x m = .ok a → post m.store a) :
    I.Agree m post (fun m => ofOutcome (x m) m) (fun m => ofOutcome (x m) m) := by
  refine ⟨rfl, ?_⟩
  simp only [ofOutcome]
  cases h : x m with
  | ok a => exact ⟨I.refl m, ok a h⟩
  | error cause => exact I.stop holds
  | unfinished => trivial

theorem agree_onStore (holds : I.holds m) {f : Store → Outcome Fault (α × Store)}
    (ok : ∀ a store, f m.store = .ok (a, store) →
      m.store.lists.size ≤ store.lists.size ∧ I.Sound store ∧ post store a) :
    I.Agree m post (onStore f) (onStore f) := by
  refine ⟨rfl, ?_⟩
  simp only [onStore]
  cases h : f m.store with
  | ok found =>
    obtain ⟨size, sound, made⟩ := ok found.1 found.2 h
    exact ⟨I.store holds size sound, made⟩
  | error cause => exact I.stop holds
  | unfinished => trivial

theorem agree_makes (holds : I.holds m) {f : Store → Outcome Fault (Value × Store)}
    (makes : ∀ found, f m.store = .ok found → I.Makes m.store found) :
    I.Agree m I.value (onStore f) (onStore f) :=
  agree_onStore holds fun v store ran =>
    have made := makes (v, store) ran
    ⟨made.size, made.sound, made.value⟩

theorem agree_position (holds : I.holds m) (node : Node) (position : Nat) :
    I.Agree m (fun _ part => node.children[position]? = some part) (child node position)
      (child node position) := by
  unfold child
  split
  next part found => exact agree_pure found
  next => exact agree_fail holds _

theorem agree_child (holds : I.holds m) (node : Node) (position : Nat) :
    I.Agree m (fun _ part => part ∈ node.children) (child node position) (child node position) := by
  unfold child
  split
  next part found => exact agree_pure (List.mem_of_getElem? found)
  next => exact agree_fail holds _

theorem agree_lookup (holds : I.holds m) (role : Role) (name : Option String) :
    I.Agree m I.value (lookup role name) (lookup role name) := by
  refine ⟨rfl, ?_⟩
  simp only [lookup]
  cases h : m.scopes.find? name with
  | some value => exact ⟨I.refl m, I.found holds h⟩
  | none => exact I.stop holds

theorem agree_assign (holds : I.holds m) (name : Option String) {v : Value}
    (admitted : I.value m.store v) :
    I.Agree m (fun _ _ => True) (assign name v) (assign name v) :=
  agree_modify (I.set holds admitted) trivial

theorem agree_makeList (holds : I.holds m) {elements : Array Value}
    (admitted : ∀ item ∈ elements, I.value m.store item) :
    I.Agree m I.value (makeList elements) (makeList elements) := by
  refine agree_makes holds fun found ran => ?_
  cases ran
  exact Domain.makes_make (I.sound holds) admitted

theorem agree_display (holds : I.holds m) (v : Value) :
    I.Agree m (fun _ _ => True) (display v) (display v) :=
  agree_ofOutcome holds fun _ _ => trivial

theorem agree_tag (holds : I.holds m) (v : Value) : I.Agree m (fun _ _ => True) (tag v) (tag v) :=
  agree_ofExcept holds fun _ _ => trivial

end Invariant

end Pseudocode
