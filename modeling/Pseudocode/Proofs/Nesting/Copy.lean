import Pseudocode.Proofs.Nesting

set_option autoImplicit false

namespace Pseudocode

namespace Store

/-- A value of one store has the contents of a value of another: lists element by element, anything else
by being the same. -/
inductive Alike (s t : Store) : Value → Value → Prop
  | single {v : Value} : (∀ reference, v ≠ .list reference) → Alike s t v v
  | list {a b : Nat} : List.Forall₂ (Alike s t) (s.items a).toList (t.items b).toList →
      Alike s t (.list a) (.list b)

def New (t : Store) (baseline : Nat) (w : Value) : Prop :=
  ∀ reference, t.Contains w (.list reference) → baseline ≤ reference ∧ reference < t.lists.size

variable {s t u : Store} {v w : Value} {xs ys : List Value} {baseline n : Nat}

theorem New.closed (new : t.New baseline w) : t.Closed w :=
  fun reference contains => (new reference contains).2

theorem New.extend (new : t.New baseline w) (extended : t.Extends u) : u.New baseline w := by
  intro reference contains
  obtain ⟨after, inside⟩ := new reference (extended.contains new.closed contains)
  exact ⟨after, Nat.lt_of_lt_of_le inside extended.size⟩

theorem New.since {earlier : Nat} (new : t.New baseline w) (before : earlier ≤ baseline) :
    t.New earlier w := by
  intro reference contains
  obtain ⟨after, inside⟩ := new reference contains
  exact ⟨Nat.le_trans before after, inside⟩

theorem new_single (single : ∀ reference, w ≠ .list reference) : t.New baseline w :=
  fun reference contains => absurd (contains.eq_self single).symm (single reference)

theorem forall₂_imp_mem {R S : Value → Value → Prop} (related : List.Forall₂ R xs ys)
    (imp : ∀ x ∈ xs, ∀ y ∈ ys, R x y → S x y) : List.Forall₂ S xs ys := by
  obtain ⟨length, pairs⟩ := List.forall₂_iff_zip.mp related
  refine List.forall₂_iff_zip.mpr ⟨length, fun {x y} paired => ?_⟩
  obtain ⟨left, right⟩ := List.of_mem_zip paired
  exact imp x left y right (pairs paired)

theorem Alike.extend (alike : Alike s t v w) (shallow : s.Shallow n v) (closed : t.Closed w)
    (extended : t.Extends u) : Alike s u v w := by
  induction n generalizing v w with
  | zero => exact shallow.elim
  | succ n ih =>
    cases alike with
    | single single => exact .single single
    | @list a b elements =>
      refine .list ?_
      rw [extended.items b closed.here]
      refine forall₂_imp_mem elements fun x left y right alike => ?_
      exact ih alike (shallow x (Array.mem_toList_iff.mp left))
        (closed.element (Array.mem_toList_iff.mp right))

theorem alike_extend (alike : List.Forall₂ (Alike s t) xs ys) (shallow : ∀ x ∈ xs, s.Shallow n x)
    (closed : ∀ y ∈ ys, t.Closed y) (extended : t.Extends u) : List.Forall₂ (Alike s u) xs ys :=
  forall₂_imp_mem alike fun x left y right alike => alike.extend (shallow x left) (closed y right) extended

structure Copied (s t : Store) (v : Value) (made : Value × Store) : Prop where
  extended : t.Extends made.2
  alike : Alike s made.2 v made.1
  new : made.2.New t.lists.size made.1

theorem copied_make {a : Nat} (extended : t.Extends u) (shallow : s.Shallow (n + 1) (.list a))
    (alike : List.Forall₂ (Alike s u) (s.items a).toList ys) (new : ∀ y ∈ ys, u.New t.lists.size y) :
    Copied s t (.list a) (u.make ys.toArray) := by
  have made := Extends.make u ys.toArray
  have items : (u.make ys.toArray).2.items u.lists.size = ys.toArray := by
    rw [Domain.items_make, if_pos rfl]
  refine ⟨extended.trans made, .list ?_, ?_⟩
  · rw [items]
    exact alike_extend alike (fun x member => shallow x (Array.mem_toList_iff.mp member))
      (fun y member => (new y member).closed) made
  · intro reference contains
    cases contains with
    | self => exact ⟨extended.size, by rw [size_make]; omega⟩
    | element member contains =>
      rw [items] at member
      exact (new _ (List.mem_toArray.mp member)).extend made reference contains

theorem copyAll_copied {copy : Store → Value → Outcome Fault (Value × Store)}
    (copies : ∀ x ∈ xs, ∀ u, s.Extends u → ∃ made, copy u x = .ok made ∧ Copied s u x made)
    (shallow : ∀ x ∈ xs, s.Shallow n x) (extended : s.Extends t) :
    ∃ ys u, copyAll copy t xs = .ok (ys, u) ∧ t.Extends u ∧ List.Forall₂ (Alike s u) xs ys ∧
      ∀ y ∈ ys, u.New t.lists.size y := by
  induction xs generalizing t with
  | nil => exact ⟨[], t, rfl, .refl t, .nil, nofun⟩
  | cons x xs ih =>
    rw [List.forall_mem_cons] at copies shallow
    obtain ⟨⟨y, u⟩, copied, first⟩ := copies.1 t extended
    obtain ⟨ys, last, rest, grown, alike, new⟩ := ih copies.2 shallow.2 (extended.trans first.extended)
    refine ⟨y :: ys, last, by simp [copyAll, copied, rest], first.extended.trans grown,
      .cons (first.alike.extend shallow.1 first.new.closed grown) alike, ?_⟩
    rw [List.forall_mem_cons]
    -- The first copy has been made before the others.
    exact ⟨first.new.extend grown, fun y member => (new y member).since first.extended.size⟩

theorem copyTo_copied (shallow : s.Shallow n v) (closed : s.Closed v) (full : ¬ s.Contains v .empty)
    (extended : s.Extends t) : ∃ made, copyTo n t v = .ok made ∧ Copied s t v made := by
  induction n generalizing v t with
  | zero => exact shallow.elim
  | succ n ih =>
    cases v with
    | empty => exact absurd (.self _) full
    | list a =>
      have items : t.items a = s.items a := extended.items a closed.here
      have copies : ∀ x ∈ (s.items a).toList, ∀ u, s.Extends u →
          ∃ made, copyTo n u x = .ok made ∧ Copied s u x made := by
        intro x member u extended
        have member := Array.mem_toList_iff.mp member
        exact ih (shallow x member) (closed.element member)
          (fun contains => full (.element member contains)) extended
      obtain ⟨ys, u, copied, grown, alike, new⟩ := copyAll_copied copies
        (fun x member => shallow x (Array.mem_toList_iff.mp member)) extended
      exact ⟨_, by simp [copyTo, items, copied], copied_make grown shallow alike new⟩
    | number _ | truth _ _ | text _ | function _ | plain _ =>
      exact ⟨_, rfl, .refl t, .single (by simp), new_single (by simp)⟩

def emptyFault : Fault := .noMember .nothing .value

theorem copyAll_empty {copy : Store → Value → Outcome Fault (Value × Store)}
    (copies : ∀ x ∈ xs, ∀ u, s.Extends u →
      copy u x = .error emptyFault ∨ ∃ made, copy u x = .ok made ∧ Copied s u x made)
    (empty : ∃ x ∈ xs, ∀ u, s.Extends u → copy u x = .error emptyFault) (extended : s.Extends t) :
    copyAll copy t xs = .error emptyFault := by
  induction xs generalizing t with
  | nil =>
    obtain ⟨x, member, _⟩ := empty
    cases member
  | cons x xs ih =>
    rw [List.forall_mem_cons] at copies
    -- The copy of an element before the empty one is in vain.
    rcases copies.1 t extended with failed | ⟨made, copied, first⟩
    · simp [copyAll, failed]
    · obtain ⟨y, member, fails⟩ := empty
      rcases List.mem_cons.mp member with rfl | member
      · rw [fails t extended] at copied
        cases copied
      · have rest := ih copies.2 ⟨y, member, fails⟩ (extended.trans first.extended)
        simp [copyAll, copied, rest]

theorem copyTo_empty (shallow : s.Shallow n v) (closed : s.Closed v) (empty : s.Contains v .empty)
    (extended : s.Extends t) : copyTo n t v = .error emptyFault := by
  induction n generalizing v t with
  | zero => exact shallow.elim
  | succ n ih =>
    cases empty with
    | self => rfl
    | @element a item _ member contains =>
      have items : t.items a = s.items a := extended.items a closed.here
      have fails (x : Value) (member : x ∈ s.items a) (empty : s.Contains x .empty) (u : Store)
          (extended : s.Extends u) : copyTo n u x = .error emptyFault :=
        ih (shallow x member) (closed.element member) empty extended
      have copies : ∀ x ∈ (s.items a).toList, ∀ u, s.Extends u →
          copyTo n u x = .error emptyFault ∨ ∃ made, copyTo n u x = .ok made ∧ Copied s u x made := by
        intro x member u extended
        have member := Array.mem_toList_iff.mp member
        by_cases empty : s.Contains x .empty
        · exact .inl (fails x member empty u extended)
        · exact .inr (copyTo_copied (shallow x member) (closed.element member) empty extended)
      have failed := copyAll_empty copies ⟨item, Array.mem_toList_iff.mpr member,
        fails item member contains⟩ extended
      simp [copyTo, items, failed]

section Display

theorem mapM_alike {f g : Value → Outcome Fault String}
    (related : List.Forall₂ (fun x y => g y = f x) xs ys) : ys.mapM g = xs.mapM f := by
  suffices loop : ∀ texts, List.mapM.loop g ys texts = List.mapM.loop f xs texts from loop []
  induction related with
  | nil => exact fun _ => rfl
  | cons first _ ih =>
    intro texts
    simp only [List.mapM.loop, first, ih]

theorem displayTo_alike {k : Nat} (alike : Alike s t v w) (shallow : s.Shallow n v) (room : n ≤ k) :
    t.displayTo k w = s.displayTo n v := by
  induction n generalizing v w k with
  | zero => exact shallow.elim
  | succ n ih =>
    obtain ⟨k, rfl⟩ : ∃ j, k = j + 1 := ⟨k - 1, by omega⟩
    cases alike with
    | single single =>
      cases v with
      | list a => exact absurd rfl (single a)
      | empty | number _ | truth _ _ | text _ | function _ | plain _ => rfl
    | list elements =>
      have texts := mapM_alike <| forall₂_imp_mem elements fun x left y _ alike =>
        ih alike (shallow x (Array.mem_toList_iff.mp left)) (Nat.le_of_succ_le_succ room)
      simp only [displayTo, texts]

end Display

theorem copy_copied (closed : s.Closed v) (acyclic : s.Acyclic v) (full : ¬ s.Contains v .empty)
    (extended : s.Extends t) : ∃ made, t.copy v = .ok made ∧ Copied s t v made :=
  copyTo_copied (acyclic.shallow closed (Nat.lt_succ_of_le extended.size)) closed full extended

theorem copy_empty (closed : s.Closed v) (acyclic : s.Acyclic v) (empty : s.Contains v .empty)
    (extended : s.Extends t) : t.copy v = .error emptyFault :=
  copyTo_empty (acyclic.shallow closed (Nat.lt_succ_of_le extended.size)) closed empty extended

theorem copy_eq_error_iff (closed : s.Closed v) (acyclic : s.Acyclic v) :
    s.copy v = .error emptyFault ↔ s.Contains v .empty := by
  constructor
  · intro failed
    by_contra full
    obtain ⟨made, copied, _⟩ := copy_copied closed acyclic full (.refl s)
    rw [copied] at failed
    cases failed
  · intro empty
    exact copy_empty closed acyclic empty (.refl s)

theorem display_copied {made : Value × Store} (closed : s.Closed v) (acyclic : s.Acyclic v)
    (copied : Copied s s v made) : made.2.display made.1 = s.display v :=
  displayTo_alike copied.alike (acyclic.shallow closed (Nat.lt_succ_self _))
    (Nat.succ_le_succ copied.extended.size)

end Store

end Pseudocode
