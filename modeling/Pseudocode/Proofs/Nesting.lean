import Mathlib.Data.List.Forall2
import Mathlib.Data.List.Perm.Subperm
import Pseudocode.Proofs.Element.Store

set_option autoImplicit false

namespace Pseudocode

namespace Store

/-- The second value is the first, or lies in a list that the first is or contains. -/
inductive Contains (s : Store) : Value → Value → Prop
  | self (v : Value) : Contains s v v
  | element {reference : Nat} {item inner : Value} : item ∈ s.items reference →
      Contains s item inner → Contains s (.list reference) inner

def Closed (s : Store) (v : Value) : Prop :=
  ∀ reference, s.Contains v (.list reference) → reference < s.lists.size

/-- No list that the value contains lies within itself. -/
def Acyclic (s : Store) (v : Value) : Prop :=
  ∀ reference, s.Contains v (.list reference) →
    ∀ item ∈ s.items reference, ¬ s.Contains item (.list reference)

def Shallow (s : Store) : Nat → Value → Prop
  | 0, _ => False
  | n + 1, .list reference => ∀ item ∈ s.items reference, Shallow s n item
  | _ + 1, _ => True

structure Extends (s t : Store) : Prop where
  size : s.lists.size ≤ t.lists.size
  items : ∀ reference < s.lists.size, t.items reference = s.items reference
  functions : t.functions = s.functions

variable {s t u : Store} {v w : Value} {reference n : Nat}

theorem contains_element {item : Value} (member : item ∈ s.items reference) :
    s.Contains (.list reference) item :=
  .element member (.self item)

theorem Contains.eq_self (single : ∀ reference, v ≠ .list reference) (contains : s.Contains v w) :
    w = v := by
  cases contains with
  | self => rfl
  | element => exact absurd rfl (single _)

theorem Closed.element {item : Value} (closed : s.Closed (.list reference))
    (member : item ∈ s.items reference) : s.Closed item :=
  fun _ contains => closed _ (.element member contains)

theorem Closed.here (closed : s.Closed (.list reference)) : reference < s.lists.size :=
  closed reference (.self _)

theorem closed_of_single (single : ∀ reference, v ≠ .list reference) : s.Closed v := by
  intro reference contains
  exact absurd (contains.eq_self single).symm (single reference)

theorem closed_of_items
    (inside : ∀ outer inner, .list inner ∈ s.items outer → inner < s.lists.size)
    (here : ∀ reference, v = .list reference → reference < s.lists.size) : s.Closed v := by
  intro reference contains
  generalize same : Value.list reference = w at contains
  induction contains with
  | self v => exact here reference same.symm
  | element member _ ih => exact ih (fun inner list => inside _ inner (list ▸ member)) same

theorem Acyclic.element {item : Value} (acyclic : s.Acyclic (.list reference))
    (member : item ∈ s.items reference) : s.Acyclic item :=
  fun _ contains => acyclic _ (.element member contains)

theorem acyclic_of_items (descending : ∀ outer inner, .list inner ∈ s.items outer → inner < outer)
    (v : Value) : s.Acyclic v := by
  have least (outer reference : Nat) (contains : s.Contains (.list outer) (.list reference)) :
      reference ≤ outer := by
    generalize source : Value.list outer = w, target : Value.list reference = x at contains
    induction contains generalizing outer with
    | self v =>
      cases source.trans target.symm
      exact Nat.le_refl _
    | @element outer' item _ member contains ih =>
      cases source
      cases item with
      | list inner => exact Nat.le_of_lt (Nat.lt_of_le_of_lt (ih inner rfl target) (descending _ _ member))
      | empty | number _ | truth _ _ | text _ | function _ | plain _ =>
        rw [← target] at contains
        cases contains
  intro reference _ item member contains
  cases item with
  | list inner => exact Nat.not_lt_of_le (least inner reference contains) (descending _ _ member)
  | empty | number _ | truth _ _ | text _ | function _ | plain _ => cases contains

namespace Extends

theorem refl (s : Store) : s.Extends s :=
  ⟨Nat.le_refl _, fun _ _ => rfl, rfl⟩

theorem trans (first : s.Extends t) (second : t.Extends u) : s.Extends u where
  size := Nat.le_trans first.size second.size
  items reference inside := by
    rw [second.items reference (Nat.lt_of_lt_of_le inside first.size), first.items reference inside]
  functions := second.functions.trans first.functions

theorem make (s : Store) (elements : Array Value) : s.Extends (s.make elements).2 where
  size := by rw [size_make]; omega
  items reference inside := by rw [Domain.items_make, if_neg (by omega)]
  functions := rfl

theorem contains (extended : s.Extends t) (closed : s.Closed v) (contains : t.Contains v w) :
    s.Contains v w := by
  induction contains with
  | self v => exact .self v
  | element member _ ih =>
    rw [extended.items _ closed.here] at member
    exact .element member (ih (closed.element member))

end Extends

theorem length_le_of_nodup {path : List Nat} {size : Nat} (different : path.Nodup)
    (below : ∀ reference ∈ path, reference < size) : path.length ≤ size := by
  have subset : path ⊆ List.range size := fun reference member =>
    List.mem_range.mpr (below reference member)
  simpa using (List.subperm_of_subset different subset).length_le

theorem shallow_below (path : List Nat) (different : path.Nodup)
    (below : ∀ reference ∈ path, reference < s.lists.size)
    (left : ∀ reference ∈ path, ¬ s.Contains v (.list reference)) (closed : s.Closed v)
    (acyclic : s.Acyclic v) (room : s.lists.size < path.length + n) : s.Shallow n v := by
  -- The lists on the way down to a value are all different, so there is an end to the way.
  induction n generalizing v path with
  | zero =>
    have fits := length_le_of_nodup different below
    omega
  | succ n ih =>
    cases v with
    | list reference =>
      intro item member
      have fresh : reference ∉ path := fun earlier => left reference earlier (.self _)
      apply ih (reference :: path) (List.nodup_cons.mpr ⟨fresh, different⟩)
      · intro other there
        rcases List.mem_cons.mp there with rfl | there
        · exact closed.here
        · exact below other there
      · intro other there contains
        rcases List.mem_cons.mp there with rfl | there
        · exact acyclic other (.self _) item member contains
        · exact left other there (.element member contains)
      · exact closed.element member
      · exact acyclic.element member
      · rw [List.length_cons]
        omega
    | empty | number _ | truth _ _ | text _ | function _ | plain _ => trivial

theorem Acyclic.shallow (acyclic : s.Acyclic v) (closed : s.Closed v) (room : s.lists.size < n) :
    s.Shallow n v :=
  shallow_below [] List.nodup_nil nofun nofun closed acyclic (by simpa using room)

end Store

end Pseudocode
