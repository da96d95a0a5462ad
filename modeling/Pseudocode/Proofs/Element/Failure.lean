import Pseudocode.Proofs.Element.Reach
import Pseudocode.Proofs.Element.Store

set_option autoImplicit false

namespace Pseudocode

namespace Exec

variable {α β : Type} {x : Exec α} {f : α → Exec β} {m : Machine} {P Q : Machine → Prop}

structure Still (x : Exec α) : Prop where
  ok {m after : Machine} {a : α} : x m = .ok (a, after) → after = m
  error {m after : Machine} {cause : Fault} : x m = .error (cause, after) → after = m

theorem still_pure (a : α) : Still (pure a : Exec α) where
  ok := by rintro m _ _ ⟨⟩; rfl
  error := nofun

theorem still_fail (cause : Fault) : Still (fail cause : Exec α) where
  ok := nofun
  error := by rintro m _ _ ⟨⟩; rfl

theorem still_ofExcept (found : Except Fault α) : Still (ofExcept found) := by
  cases found with
  | ok a => exact still_pure a
  | error cause => exact still_fail cause

theorem still_lookup (role : Role) (name : Option String) : Still (lookup role name) where
  ok := by
    intro m after a ran
    simp only [lookup] at ran
    split at ran <;> cases ran
    rfl
  error := by
    intro m after cause failed
    simp only [lookup] at failed
    split at failed <;> cases failed
    rfl

theorem Still.bind (first : Still x) (next : ∀ a, Still (f a)) : Still (x >>= f) where
  ok := by
    intro m after b ran
    obtain ⟨a, middle, ran, later⟩ := bind_eq_ok.mp ran
    rw [(next a).ok later, first.ok ran]
  error := by
    intro m after cause failed
    rw [bind_apply] at failed
    split at failed
    next ran => rw [(next _).error failed, first.ok ran]
    next ran => cases failed; exact first.error ran
    next => cases failed

def FailsWith (P : Machine → Prop) (x : Exec α) (m : Machine) : Prop :=
  ∀ cause after, x m = .error (cause, after) → P after

theorem FailsWith.bind (first : FailsWith P x m)
    (next : ∀ a middle, x m = .ok (a, middle) → FailsWith P (f a) middle) :
    FailsWith P (x >>= f) m := by
  intro cause after failed
  rw [bind_apply] at failed
  split at failed
  next ran => exact next _ _ ran cause after failed
  next ran => cases failed; exact first _ _ ran
  next => cases failed

theorem fails_pure (a : α) : FailsWith P (pure a : Exec α) m := by
  intro cause after failed
  cases failed

theorem Still.fails (still : Still x) (here : P m) : FailsWith P x m :=
  fun _ _ failed => still.error failed ▸ here

theorem FailsWith.still_bind (still : Still x) (here : P m)
    (next : ∀ a, x m = .ok (a, m) → FailsWith P (f a) m) : FailsWith P (x >>= f) m := by
  refine .bind (still.fails here) fun a middle ran => ?_
  obtain rfl := still.ok ran
  exact next a ran

theorem FailsWith.mono (failed : FailsWith P x m) (weaker : ∀ after, P after → Q after) :
    FailsWith Q x m :=
  fun cause after ran => weaker after (failed cause after ran)

end Exec

namespace Eval

open Exec

variable {around : Surroundings} {n : Nat} {node first second last : Node} {indices : List Node}
  {m middle third ready after : Machine} {reference inner : Nat} {i j : Int} {v x y : Value}
  {cause : Fault}

section Still

theorem still_tag (value : Value) : Still (tag value) :=
  still_ofExcept _

theorem still_listNamed (name : Option String) : Still (listNamed name) := by
  refine (still_lookup _ _).bind fun value => (still_tag _).bind fun _ => ?_
  split
  next => exact still_pure _
  next => exact still_fail _

theorem still_requireNumber (cause : Fault) (value : Value) : Still (requireNumber cause value) := by
  refine (still_tag _).bind fun tag => ?_
  split
  · exact still_fail _
  · exact still_pure _

theorem still_whole (value : Value) : Still (whole value) :=
  still_ofExcept _

theorem still_indexPair (row column : Value) : Still (indexPair row column) := by
  refine (still_requireNumber _ _).bind fun _ => (still_requireNumber _ _).bind fun _ => ?_
  exact (still_whole _).bind fun _ => (still_whole _).bind fun _ => still_pure _

theorem toWhole_of_whole (ran : whole x m = .ok (i, after)) : x.toWhole = .ok i := by
  simp only [whole, Exec.ofExcept] at ran
  split at ran
  next number => cases ran; exact number
  next => cases ran

theorem find?_of_listNamed {name : Option String} (ran : listNamed name m = .ok (reference, after)) :
    m.scopes.find? name = some (.list reference) := by
  obtain ⟨value, _, looked, ran⟩ := bind_eq_ok.mp ran
  obtain ⟨tag, _, tagged, named⟩ := bind_eq_ok.mp ran
  have found : m.scopes.find? name = some value := by
    simp only [lookup] at looked
    split at looked
    next found => cases looked; exact found
    next => cases looked
  split at named <;> cases named
  exact found

theorem toWhole_of_indexPair {pair : Int × Int} (ran : indexPair x y m = .ok (pair, after)) :
    x.toWhole = .ok pair.1 ∧ y.toWhole = .ok pair.2 := by
  obtain ⟨_, _, _, ran⟩ := bind_eq_ok.mp ran
  obtain ⟨_, _, _, ran⟩ := bind_eq_ok.mp ran
  obtain ⟨row, _, rowRan, ran⟩ := bind_eq_ok.mp ran
  obtain ⟨column, _, columnRan, ran⟩ := bind_eq_ok.mp ran
  cases ran
  exact ⟨toWhole_of_whole rowRan, toWhole_of_whole columnRan⟩

end Still

def QuietInTurn (around : Surroundings) : List Node → Machine → Prop
  | [], _ => True
  | node :: rest, m => ∀ e, TreeEnds around node m e →
      m.Grown e.machine ∧ ∀ v, e.result = .ok v → QuietInTurn around rest e.machine

theorem QuietInTurn.fails {rest : List Node} (quiet : QuietInTurn around (node :: rest) m) :
    FailsWith m.Grown (eval around n node) m := by
  intro cause after failed
  exact (quiet ⟨.error cause, after⟩ ⟨n, ending?_eq_error.mpr failed⟩).1

theorem QuietInTurn.next {rest : List Node} (quiet : QuietInTurn around (node :: rest) m)
    (ran : eval around n node m = .ok (v, after)) :
    Yields around node m v after ∧ QuietInTurn around rest after := by
  have ends : TreeEnds around node m ⟨.ok v, after⟩ := ⟨n, ending?_eq_ok.mpr ran⟩
  obtain ⟨grown, later⟩ := quiet _ ends
  exact ⟨⟨ends, grown⟩, later v rfl⟩

theorem quietInTurn_cons {rest : List Node} (yields : Yields around node m v after)
    (later : QuietInTurn around rest after) : QuietInTurn around (node :: rest) m := by
  intro e ends
  obtain rfl := ends.unique grows_eval yields.ends
  exact ⟨yields.grown, fun _ _ => later⟩

theorem writeElement_error {which : Axis} {index : Int}
    (failed : writeElement which reference index v m = .error (cause, after)) :
    index < 1 ∧ after = m := by
  unfold writeElement at failed
  split at failed <;> cases failed
  next below => exact ⟨below, rfl⟩

theorem fails_one (children : node.children = [first, last])
    (quiet : QuietInTurn around [last, first] m) :
    FailsWith m.Grown (elementAssign (eval around n) node) m := by
  refine .still_bind (still_listNamed _) (.refl m) fun reference _ => ?_
  rw [children]
  refine .bind quiet.fails fun v middle valueRan => ?_
  obtain ⟨value, quiet⟩ := quiet.next valueRan
  refine .bind (quiet.fails.mono fun _ => value.grown.trans) fun x ready indexRan => ?_
  have grown := value.grown.trans (quiet.next indexRan).1.grown
  refine .still_bind (still_requireNumber _ _) grown fun _ _ => ?_
  refine .still_bind (still_whole _) grown fun i _ => ?_
  refine .bind (fun _ _ failed => ?_) fun _ _ _ => fails_pure v
  rw [(writeElement_error failed).2]
  exact grown

theorem items_of_row {s store : Store} {row : Nat} (counted : 1 ≤ row)
    (opened : RowOpened s reference row inner store)
    (old : (s.items reference)[row - 1]? = some (.list inner)) (other : Nat) :
    store.items other = s.items other := by
  by_cases here : other = reference
  · subst here
    obtain ⟨inside, _⟩ := Array.getElem?_eq_some_iff.mp old
    have size := opened.size
    refine Array.ext_getElem? fun k => ?_
    by_cases place : k = row - 1
    · rw [place, opened.here, old]
    by_cases within : k < (s.items other).size
    · exact opened.others k within (by omega)
    · rw [Array.getElem?_eq_none (by omega), Array.getElem?_eq_none (by omega)]
  · exact opened.kept other here

theorem fails_writeCell (held : reference < m.store.lists.size)
    (inVain : ∀ row : Nat, i = row → 1 ≤ row → j < 1 →
      (∃ old, (m.store.items reference)[row - 1]? = some (.list old)) ∨
        ∃ p, (m.store.items reference)[row - 1]? = some (.plain p)) :
    FailsWith m.Grown (writeCell reference i j v) m := by
  -- A cell is refused before anything is changed, unless the row is opened and the column index is then
  -- found to be out of bounds.
  by_cases below : i < 1
  · rw [writeCell, if_pos below]
    exact (still_fail _).fails (.refl m)
  obtain ⟨row, rfl⟩ := Int.eq_ofNat_of_zero_le (a := i) (by omega)
  have counted : 1 ≤ row := by omega
  rw [writeCell_eq counted]
  by_cases plain : ∃ p, (m.store.items reference)[row - 1]? = some (.plain p)
  · obtain ⟨p, plain⟩ := plain
    rintro cause after failed
    rw [bind_of_error (openRow_plain counted plain)] at failed
    cases failed
    exact .refl m
  · obtain ⟨inner, store, ran, opened⟩ := openRow_ok counted held fun p found => plain ⟨p, found⟩
    rintro cause after failed
    rw [bind_of_ok ran] at failed
    obtain ⟨outside, rfl⟩ := writeElement_error failed
    obtain ⟨old, found⟩ := (inVain row rfl counted outside).resolve_right plain
    have old : (m.store.items reference)[row - 1]? = some (.list inner) := by
      rcases opened.row with same | ⟨noList, _⟩
      · exact same
      · exact absurd found (noList old)
    exact ⟨rfl, opened.lists, fun other _ => items_of_row counted opened old other⟩

/-- The row index is at least one and the column index is not, and the row is yet to be opened: the list
ends before it, or another value of the language is there. -/
def OpensRowInVain (around : Surroundings) (node : Node) (m : Machine) : Prop :=
  ∃ first second last reference v x y middle third ready, ∃ (i : Nat) (j : Int),
    node.children = [first, second, last] ∧ m.scopes.find? node.name = some (.list reference) ∧
    Yields around last m v middle ∧ Yields around first middle x third ∧
    Yields around second third y ready ∧ x.toWhole = .ok i ∧ y.toWhole = .ok j ∧ 1 ≤ i ∧ j < 1 ∧
    (∀ old, (m.store.items reference)[i - 1]? ≠ some (.list old)) ∧
    ∀ p, (m.store.items reference)[i - 1]? ≠ some (.plain p)

theorem fails_two (held : m.Held) (children : node.children = [first, second, last])
    (quiet : QuietInTurn around [last, first, second] m) (kept : ¬ OpensRowInVain around node m) :
    FailsWith m.Grown (elementAssign (eval around n) node) m := by
  refine .still_bind (still_listNamed _) (.refl m) fun reference named => ?_
  have found := find?_of_listNamed named
  rw [children]
  refine .bind quiet.fails fun v middle valueRan => ?_
  obtain ⟨value, quiet⟩ := quiet.next valueRan
  refine .bind (quiet.fails.mono fun _ => value.grown.trans) fun x third rowRan => ?_
  obtain ⟨row, quiet⟩ := quiet.next rowRan
  have toThird := value.grown.trans row.grown
  refine .bind (quiet.fails.mono fun _ => toThird.trans) fun y ready columnRan => ?_
  have column := (quiet.next columnRan).1
  have grown := toThird.trans column.grown
  refine .still_bind (still_indexPair _ _) grown fun (i, j) numbers => ?_
  obtain ⟨rowNumber, columnNumber⟩ := toWhole_of_indexPair numbers
  refine .bind (.mono (fails_writeCell ?_ ?_) fun _ => grown.trans) fun _ _ _ => fails_pure v
  · exact Nat.lt_of_lt_of_le (held.bound found) grown.size
  · intro place same counted outside
    rw [grown.items reference (held.bound found)]
    refine Classical.byContradiction fun noRow => kept ?_
    exact ⟨first, second, last, reference, v, x, y, middle, third, ready, place, j, children, found, value,
      row, column, same ▸ rowNumber, columnNumber, counted, outside,
      fun old there => noRow (.inl ⟨old, there⟩), fun p there => noRow (.inr ⟨p, there⟩)⟩

theorem opensRowInVain_changes (held : m.Held) (kind : node.kind = .elementAssign)
    (vain : OpensRowInVain around node m) :
    ∃ cause after, TreeEnds around node m ⟨.error cause, after⟩ ∧ ¬ m.Unchanged after := by
  obtain ⟨first, second, last, reference, v, x, y, middle, third, ready, i, j, children, found, value,
    row, column, rowNumber, columnNumber, counted, outside, noList, noPlain⟩ := vain
  have grown := (value.grown.trans row.grown).trans column.grown
  have bound := held.bound found
  have same := grown.items reference bound
  obtain ⟨inner, store, ran, opened⟩ :=
    openRow_ok (m := ready) counted (Nat.lt_of_lt_of_le bound grown.size) (same ▸ noPlain)
  have failed : writeCell reference i j v ready = .error (.outOfBounds .column j, { ready with store }) := by
    rw [writeCell_eq counted, bind_of_ok ran, writeElement_below outside]
  obtain ⟨n, valueRan⟩ := value.ends.eventually
  obtain ⟨k, rowRan⟩ := row.ends.eventually
  obtain ⟨l, columnRan⟩ := column.ends.eventually
  refine ⟨.outOfBounds .column j, { ready with store },
    treeEnds_of_step (n := max n (max k l)) (ending?_eq_error.mpr ?_), fun unchanged => ?_⟩
  · rw [step, kind]
    refine (elementAssign_two children found (valueRan _ (by omega)) (rowRan _ (by omega))
      (columnRan _ (by omega)) rowNumber columnNumber).trans ?_
    rw [bind_of_error failed]
  · have items : store.items reference = m.store.items reference :=
      unchanged.items reference (Machine.reaches_of_find? found)
    exact noList inner (items ▸ opened.here)

end Eval

open Eval

/-- If an assignment to an element with one or two indices, evaluated without side effects, fails, then
nothing within reach has changed, exactly if the assignment has not opened a row in vain. -/
theorem failed_assignment_unchanged_iff {around : Surroundings} {node last : Node} {indices : List Node}
    {m after : Machine} {cause : Fault} (held : m.Held) (kind : node.kind = .elementAssign)
    (children : node.children = indices ++ [last]) (count : indices.length = 1 ∨ indices.length = 2)
    (quiet : QuietInTurn around (last :: indices) m)
    (failed : TreeEnds around node m ⟨.error cause, after⟩) :
    m.Unchanged after ↔ ¬ OpensRowInVain around node m := by
  constructor
  · intro unchanged vain
    obtain ⟨_, _, ends, changed⟩ := opensRowInVain_changes held kind vain
    cases failed.unique grows_eval ends
    exact changed unchanged
  · intro kept
    obtain ⟨n, failed⟩ := treeEnds_step.mp failed
    have failed : elementAssign (eval around n) node m = .error (cause, after) := by
      dsimp only at failed
      rw [step, kind] at failed
      exact Exec.ending?_eq_error.mp failed
    rcases count with one | two
    · obtain ⟨first, rfl⟩ := List.length_eq_one_iff.mp one
      exact (fails_one children quiet cause after failed).unchanged held
    · match indices, two with
      | [first, second], _ => exact (fails_two held children quiet kept cause after failed).unchanged held

theorem refused_index_changes_nothing :
    let around : Surroundings := ⟨⟨[], []⟩, "", 1000⟩
    let m : Machine := { Machine.initial with
      store := ⟨#[#[.text "p"]], 0⟩, scopes := ⟨[(some "a", .list 0)], []⟩ }
    let zero : Node := Node.number (some (.number 0.0))
    let value : Node := Node.named .string (some "x") []
    let node : Node := Node.named .elementAssign (some "a") [zero, value]
    m.Held ∧ QuietInTurn around [value, zero] m ∧
      TreeEnds around node m ⟨.error (.outOfBounds .only 0), m⟩ ∧ m.Unchanged m := by
  intro around m zero value node
  have held : m.Held := by
    refine Machine.held_of_lists (by simp [m, Scopes.tables]) fun outer reference inside => ?_
    cases outer <;> simp [m, Store.items] at inside
  have quiet : QuietInTurn around [value, zero] m :=
    quietInTurn_cons ⟨⟨1, rfl⟩, .refl m⟩ (quietInTurn_cons ⟨⟨1, rfl⟩, .refl m⟩ trivial)
  have failed : TreeEnds around node m ⟨.error (.outOfBounds .only 0), m⟩ := ⟨2, rfl⟩
  refine ⟨held, quiet, failed, ?_⟩
  refine (failed_assignment_unchanged_iff held rfl rfl (.inl rfl) quiet failed).mpr ?_
  rintro ⟨_, _, _, _, _, _, _, _, _, _, _, _, children, _⟩
  cases children

/-- A column index of zero is refused, but the text in the row has become an empty list. -/
theorem refused_column_replaces_row :
    let around : Surroundings := ⟨⟨[], []⟩, "", 1000⟩
    let m : Machine := { Machine.initial with
      store := ⟨#[#[.text "p"]], 0⟩, scopes := ⟨[(some "a", .list 0)], []⟩ }
    let number (x : Float) : Node := Node.number (some (.number x))
    let value : Node := Node.named .string (some "x") []
    let node : Node := Node.named .elementAssign (some "a") [number 1.0, number 0.0, value]
    QuietInTurn around [value, number 1.0, number 0.0] m ∧ m.Reaches 0 ∧
      m.store.items 0 = #[.text "p"] ∧
      ∃ after, TreeEnds around node m ⟨.error (.outOfBounds .column 0), after⟩ ∧
        after.store.items 0 = #[.list 1] ∧ ¬ m.Unchanged after := by
  intro around m number value node
  have quiet : QuietInTurn around [value, number 1.0, number 0.0] m :=
    quietInTurn_cons ⟨⟨1, rfl⟩, .refl m⟩
      (quietInTurn_cons ⟨⟨1, rfl⟩, .refl m⟩ (quietInTurn_cons ⟨⟨1, rfl⟩, .refl m⟩ trivial))
  have table : [(some "a", .list 0)] ∈ m.scopes.tables := List.mem_cons_self
  have reached : m.Reaches 0 := .bound table List.mem_cons_self
  refine ⟨quiet, reached, rfl, _, ⟨2, rfl⟩, rfl, fun unchanged => ?_⟩
  cases unchanged.items 0 reached

end Pseudocode
