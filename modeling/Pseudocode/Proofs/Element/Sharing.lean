import Pseudocode.Proofs.Element.Access
import Pseudocode.Proofs.Element.Failure
import Pseudocode.Value.View

set_option autoImplicit false

namespace Pseudocode

namespace Store

def seenFirst (s : Store) (reference : Nat) : Option View :=
  (s.items reference)[0]?.map (s.viewTo (s.lists.size + 1) [reference])

theorem seenFirst_of_view {s t : Store} {reference : Nat}
    (same : s.view (.list reference) = t.view (.list reference)) :
    s.seenFirst reference = t.seenFirst reference := by
  have lists := congrArg List.head? (View.list.inj same)
  simpa [seenFirst, List.head?_map, List.head?_eq_getElem?] using lists

end Store

namespace Machine

def seen (m : Machine) (name : Option String) : Option (View × Outcome Fault String) :=
  (m.scopes.find? name).map fun v => (m.store.view v, m.store.display v)

variable {m : Machine} {name : Option String} {reference : Nat}

theorem seen_of_find? {v : Value} (found : m.scopes.find? name = some v) :
    m.seen name = some (m.store.view v, m.store.display v) := by
  rw [seen, found, Option.map_some]

theorem Held.set (held : m.Held) (reached : m.Reaches reference) :
    Held { m with scopes := m.scopes.set name (.list reference) } := by
  intro inner reachedInner
  refine held inner ?_
  induction reachedInner with
  | bound member binding =>
    rcases List.mem_cons.mp member with rfl | member
    · rcases Table.mem_set binding with same | binding
      · cases same
        exact reached
      · exact .bound List.mem_cons_self binding
    · exact .bound (List.mem_cons_of_mem _ member) binding
  | inside _ element ih => exact .inside ih element

end Machine

namespace Exec

variable {α β : Type} {x : Exec α} {f : α → Exec β} {m : Machine} {P : Machine → Prop}

structure Leaves (P : Machine → Prop) (x : Exec α) (m : Machine) : Prop where
  ok {a : α} {after : Machine} : x m = .ok (a, after) → P after
  error : FailsWith P x m

theorem Leaves.bind (first : Leaves P x m)
    (next : ∀ a middle, x m = .ok (a, middle) → P middle → Leaves P (f a) middle) :
    Leaves P (x >>= f) m where
  ok ran := by
    obtain ⟨a, middle, ran, later⟩ := bind_eq_ok.mp ran
    exact (next a middle ran (first.ok ran)).ok later
  error := first.error.bind fun a middle ran => (next a middle ran (first.ok ran)).error

theorem Still.leaves (still : Still x) (here : P m) : Leaves P x m where
  ok ran := still.ok ran ▸ here
  error := still.fails here

theorem leaves_of_ok {a : α} {after : Machine} (ran : x m = .ok (a, after)) (here : P after) :
    Leaves P x m where
  ok ran' := by
    cases ran.symm.trans ran'
    exact here
  error _ _ failed := by cases ran.symm.trans failed

theorem Leaves.ending {x : Exec Value} {e : Ending} (leaves : Leaves P x m)
    (ends : ending? (x m) = some e) : P e.machine := by
  cases ran : x m with
  | ok found =>
    rw [ran] at ends
    exact Option.some.inj ends ▸ leaves.ok ran
  | error found =>
    rw [ran] at ends
    exact Option.some.inj ends ▸ leaves.error _ _ ran
  | unfinished => rw [ran] at ends; cases ends

end Exec

namespace Eval

open Exec

section Writes

variable {m : Machine} {scopes : Scopes} {reference : Nat} {value : Value}

theorem leaves_writeElement {which : Axis} {index : Int} (here : m.scopes = scopes) :
    Leaves (·.scopes = scopes) (writeElement which reference index value) m := by
  unfold writeElement
  split
  · exact (still_fail _).leaves here
  · exact leaves_of_ok rfl here

theorem leaves_rowOf {row : Nat} (here : m.scopes = scopes) :
    Leaves (·.scopes = scopes) (rowOf reference row) m := by
  refine (leaves_of_ok rfl here).bind fun items middle _ here => ?_
  refine ((still_tag _).leaves here).bind fun tag middle _ here => ?_
  split
  · exact leaves_of_ok rfl here
  · exact leaves_of_ok rfl here

theorem leaves_writeCell {row column : Int} (here : m.scopes = scopes) :
    Leaves (·.scopes = scopes) (writeCell reference row column value) m := by
  unfold writeCell
  split
  · exact (still_fail _).leaves here
  · refine (leaves_of_ok rfl here).bind fun items middle _ here => ?_
    refine (leaves_of_ok (padRows_apply ..) here).bind fun _ middle _ here => ?_
    exact (leaves_rowOf here).bind fun inner middle _ here => leaves_writeElement here

end Writes

variable {around : Surroundings} {name : Option String} {value : Node} {indices : List Node}
  {m after : Machine} {e : Ending}

theorem QuietInTurn.leaves {node : Node} {rest : List Node} {n : Nat} {scopes : Scopes}
    (quiet : QuietInTurn around (node :: rest) m) (here : m.scopes = scopes) :
    Leaves (·.scopes = scopes) (eval around n node) m where
  ok ran := (quiet.next ran).1.grown.scopes.trans here
  error := quiet.fails.mono fun _ grown => grown.scopes.trans here

theorem scopes_of_elementAssign (count : indices.length = 1 ∨ indices.length = 2)
    (quiet : QuietInTurn around (value :: indices) m)
    (ends : TreeEnds around (Node.named .elementAssign name (indices ++ [value])) m e) :
    e.machine.scopes = m.scopes := by
  obtain ⟨n, ends⟩ := treeEnds_step.mp ends
  suffices leaves : Leaves (·.scopes = m.scopes)
      (elementAssign (eval around n) (Node.named .elementAssign name (indices ++ [value]))) m from
    leaves.ending ends
  refine ((still_listNamed _).leaves (P := (·.scopes = m.scopes)) rfl).bind
    fun reference middle named here => ?_
  obtain rfl := (still_listNamed _).ok named
  rcases count with one | two
  · obtain ⟨first, rfl⟩ := List.length_eq_one_iff.mp one
    refine (quiet.leaves here).bind fun v middle ran here => ?_
    replace quiet := (quiet.next ran).2
    refine (quiet.leaves here).bind fun index ready _ here => ?_
    refine ((still_requireNumber _ _).leaves here).bind fun _ _ _ here => ?_
    refine ((still_whole _).leaves here).bind fun _ _ _ here => ?_
    exact (leaves_writeElement here).bind fun _ _ _ here => leaves_of_ok rfl here
  · match indices, two with
    | [first, second], _ =>
      refine (quiet.leaves here).bind fun v middle ran here => ?_
      replace quiet := (quiet.next ran).2
      refine (quiet.leaves here).bind fun row third ran here => ?_
      replace quiet := (quiet.next ran).2
      refine (quiet.leaves here).bind fun column ready _ here => ?_
      refine ((still_indexPair _ _).leaves here).bind fun _ _ _ here => ?_
      exact (leaves_writeCell here).bind fun _ _ _ here => leaves_of_ok rfl here

/-- Assignments to elements of the lists of the names, one after another, each with one index or two and
with operands that are evaluated without side effects. One that fails may have changed its list as well. -/
inductive ElementAssignments (around : Surroundings) (names : List (Option String)) :
    Machine → Machine → Prop
  | none (m : Machine) : ElementAssignments around names m m
  | next {name : Option String} {indices : List Node} {value : Node} {m after : Machine} {e : Ending} :
      name ∈ names → indices.length = 1 ∨ indices.length = 2 →
      QuietInTurn around (value :: indices) m →
      TreeEnds around (Node.named .elementAssign name (indices ++ [value])) m e →
      ElementAssignments around names e.machine after → ElementAssignments around names m after

theorem ElementAssignments.scopes {names : List (Option String)}
    (run : ElementAssignments around names m after) : after.scopes = m.scopes := by
  induction run with
  | none => rfl
  | next _ count quiet ends _ ih => rw [ih, scopes_of_elementAssign count quiet ends]

section Shared

variable {a b : Option String} {reference : Nat}

/-- Nothing tells the two names apart: they are shown alike, and all accesses end alike. -/
structure ReadAlike (around : Surroundings) (m : Machine) (a b : Option String) : Prop where
  seen : m.seen a = m.seen b
  access (e : Ending) :
    TreeEnds around (Node.named .access a []) m e ↔ TreeEnds around (Node.named .access b []) m e
  element (indices : List Node) (e : Ending) :
    TreeEnds around (Node.named .elementAccess a indices) m e ↔
      TreeEnds around (Node.named .elementAccess b indices) m e

theorem elementAccess_shared {rec : Node → Exec Value} {node other : Node}
    (children : node.children = other.children)
    (found : m.scopes.find? node.name = some (.list reference))
    (otherFound : m.scopes.find? other.name = some (.list reference)) :
    elementAccess rec node m = elementAccess rec other m := by
  rw [elementAccess, elementAccess, bind_of_ok (listNamed_ok found), bind_of_ok (listNamed_ok otherFound),
    children]

theorem readAlike_of_find? (found : m.scopes.find? a = some (.list reference))
    (other : m.scopes.find? b = some (.list reference)) : ReadAlike around m a b where
  seen := by rw [Machine.seen_of_find? found, Machine.seen_of_find? other]
  access e := by
    rw [treeEnds_step, treeEnds_step]
    refine ends_congr fun n => ?_
    show lookup .variable a m = lookup .variable b m
    rw [lookup, lookup, found, other]
  element indices e := by
    rw [treeEnds_step, treeEnds_step]
    exact ends_congr fun n => elementAccess_shared rfl found other

theorem exists_write_first (held : m.Held) (found : m.scopes.find? name = some (.list reference))
    (text : String) : ∃ after, ElementAssignments around [name] m after ∧
      after.store.seenFirst reference = some (.text text) := by
  let first : Node := Node.number (some (.number 1.0))
  let last : Node := Node.named .string (some text) []
  have number : Yields around first m (.number 1.0) m := ⟨⟨1, rfl⟩, .refl m⟩
  have value : Yields around last m (.text text) m := ⟨⟨1, rfl⟩, .refl m⟩
  obtain ⟨after, ends, written, _⟩ := assign_element held found (Nat.le_refl 1) value number rfl
  have ends : TreeEnds around (Node.named .elementAssign name ([first] ++ [last])) m _ := ends
  have quiet : QuietInTurn around [last, first] m :=
    quietInTurn_cons value (quietInTurn_cons number trivial)
  refine ⟨after, .next List.mem_cons_self (.inl rfl) quiet ends (.none after), ?_⟩
  rw [Store.seenFirst, written.list.here]
  rfl

theorem exists_visible_write (held : m.Held) (found : m.scopes.find? name = some (.list reference)) :
    ∃ after, ElementAssignments around [name] m after ∧
      after.store.view (.list reference) ≠ m.store.view (.list reference) := by
  -- Some assignment changes what is seen of a list: one of two texts was not its first element.
  by_cases old : m.store.seenFirst reference = some (.text "x")
  · obtain ⟨after, run, written⟩ := exists_write_first held found "y"
    refine ⟨after, run, fun same => ?_⟩
    rw [Store.seenFirst_of_view same, old] at written
    exact absurd (View.text.inj (Option.some.inj written)) (by decide)
  · obtain ⟨after, run, written⟩ := exists_write_first held found "x"
    exact ⟨after, run, fun same => old (Store.seenFirst_of_view same ▸ written)⟩

end Shared

end Eval

open Eval Exec

/-- An assignment of a list to a name makes no copy: whatever is then assigned to elements of the list,
through the one name or the other, both names are bound to it and nothing tells them apart. So what is seen
through the one is unchanged exactly if what is seen through the other is; and through either name some
assignment changes it. -/
theorem assignment_shares_list {around : Surroundings} {m : Machine} {a b : Option String} {reference : Nat}
    (held : m.Held) (found : m.scopes.find? a = some (.list reference)) :
    ∃ shared, TreeEnds around (Node.named .assign b [Node.named .access a []]) m
        ⟨.ok (.list reference), shared⟩ ∧ shared.seen a = m.seen a ∧
      (∀ after, ElementAssignments around [a, b] shared after →
        ReadAlike around after a b ∧ (after.seen a = shared.seen a ↔ after.seen b = shared.seen b)) ∧
      ∀ through ∈ [a, b], ∃ after, ElementAssignments around [through] shared after ∧
        after.seen a ≠ shared.seen a ∧ after.seen b ≠ shared.seen b := by
  let shared : Machine := { m with scopes := m.scopes.set b (.list reference) }
  have foundFirst : shared.scopes.find? a = some (.list reference) := by
    rw [Scopes.find?_set, found, ite_self]
  have foundSecond : shared.scopes.find? b = some (.list reference) := by
    rw [Scopes.find?_set, if_pos rfl]
  have ran : lookup .variable a m = .ok (.list reference, m) := by rw [lookup, found]
  have assigned : TreeEnds around (Node.named .assign b [Node.named .access a []]) m
      ⟨.ok (.list reference), shared⟩ := ⟨2, ending?_eq_ok.mpr (bind_of_ok ran)⟩
  have both {names : List (Option String)} {after : Machine}
      (run : ElementAssignments around names shared after) :
      after.scopes.find? a = some (.list reference) ∧ after.scopes.find? b = some (.list reference) := by
    rw [run.scopes]
    exact ⟨foundFirst, foundSecond⟩
  refine ⟨shared, assigned, ?_, ?_, ?_⟩
  · rw [Machine.seen_of_find? foundFirst, Machine.seen_of_find? found]
  · intro after run
    have alike : ReadAlike around after a b := readAlike_of_find? (both run).1 (both run).2
    have before : ReadAlike around shared a b := readAlike_of_find? foundFirst foundSecond
    exact ⟨alike, by rw [alike.seen, before.seen]⟩
  · intro through member
    have foundThrough : shared.scopes.find? through = some (.list reference) := by
      rcases List.mem_cons.mp member with rfl | member
      · exact foundFirst
      · exact List.mem_singleton.mp member ▸ foundSecond
    have held : shared.Held := held.set (Machine.reaches_of_find? found)
    obtain ⟨after, run, changed⟩ := exists_visible_write held foundThrough
    refine ⟨after, run, ?_, ?_⟩
    · rw [Machine.seen_of_find? (both run).1, Machine.seen_of_find? foundFirst]
      exact fun same => changed (Prod.mk.inj (Option.some.inj same)).1
    · rw [Machine.seen_of_find? (both run).2, Machine.seen_of_find? foundSecond]
      exact fun same => changed (Prod.mk.inj (Option.some.inj same)).1

theorem nested_list_shared :
    let around : Surroundings := ⟨⟨[], []⟩, "", 1000⟩
    let m : Machine := { Machine.initial with
      store := ⟨#[#[.text "p"], #[.list 0]], 0⟩, scopes := ⟨[], [[(some "a", .list 1)]]⟩ }
    m.Held ∧ ∃ shared,
      TreeEnds around (Node.named .assign (some "b") [Node.named .access (some "a") []]) m
        ⟨.ok (.list 1), shared⟩ ∧
      (∀ after, ElementAssignments around [some "a", some "b"] shared after →
        after.seen (some "a") = after.seen (some "b")) ∧
      ∃ after, ElementAssignments around [some "b"] shared after ∧
        after.seen (some "a") ≠ shared.seen (some "a") := by
  intro around m
  have held : m.Held := by
    refine Machine.held_of_lists (fun table member name reference binding => ?_)
      fun outer reference member => ?_
    · obtain rfl | rfl : table = [] ∨ table = [(some "a", .list 1)] := by
        simpa [m, Scopes.tables] using member
      · cases binding
      · cases List.mem_singleton.mp binding
        decide
    · rcases outer with _ | _ | outer
      · simp [m, Store.items] at member
      · obtain rfl : reference = 0 := by simpa [m, Store.items] using member
        decide
      · simp [m, Store.items] at member
  obtain ⟨shared, assigned, _, alike, changes⟩ :=
    @assignment_shares_list around m (some "a") (some "b") 1 held rfl
  obtain ⟨after, run, changed, _⟩ := changes (some "b") (by simp)
  exact ⟨held, shared, assigned, fun after run => (alike after run).1.seen, after, run, changed⟩

/-- A list is saved under another name and its element is then assigned: both names show the new text. -/
theorem saved_list_changes :
    let around : Surroundings := ⟨⟨[], []⟩, "", 1000⟩
    let m : Machine := { Machine.initial with
      store := ⟨#[#[.text "p"]], 0⟩, scopes := ⟨[(some "a", .list 0)], []⟩ }
    ∃ shared after,
      TreeEnds around (Node.named .assign (some "b") [Node.named .access (some "a") []]) m
        ⟨.ok (.list 0), shared⟩ ∧
      ElementAssignments around [some "b"] shared after ∧
      shared.seen (some "a") = some (.list [.text "p"], .ok "[p]") ∧
      after.seen (some "a") = some (.list [.text "x"], .ok "[x]") := by
  intro around m
  let shared : Machine := { m with scopes := m.scopes.set (some "b") (.list 0) }
  let first : Node := Node.number (some (.number 1.0))
  let last : Node := Node.named .string (some "x") []
  have quiet : QuietInTurn around [last, first] shared :=
    quietInTurn_cons ⟨⟨1, rfl⟩, .refl shared⟩ (quietInTurn_cons ⟨⟨1, rfl⟩, .refl shared⟩ trivial)
  have assigned : TreeEnds around (Node.named .elementAssign (some "b") ([first] ++ [last])) shared
      ⟨.ok (.text "x"), { shared with store := ⟨#[#[.text "x"]], 0⟩ }⟩ := ⟨2, rfl⟩
  exact ⟨shared, _, ⟨2, rfl⟩, .next List.mem_cons_self (.inl rfl) quiet assigned (.none _), rfl, rfl⟩

end Pseudocode
