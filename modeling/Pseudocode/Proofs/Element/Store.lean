import Pseudocode.Proofs.Call
import Pseudocode.Proofs.Invariant.Domain

set_option autoImplicit false

namespace Pseudocode

open Domain (items_make items_modify)

structure PutAt (before : Array Value) (place : Nat) (value : Value) (after : Array Value) : Prop where
  size : after.size = max before.size place
  here : after[place - 1]? = some value
  others : ∀ k < before.size, k + 1 ≠ place → after[k]? = before[k]?
  zeros : ∀ k, before.size ≤ k → k + 1 < place → after[k]? = some (.number 0.0)

structure RowOpened (before : Store) (reference row inner : Nat) (after : Store) : Prop where
  lists : before.lists.size ≤ after.lists.size
  size : (after.items reference).size = max (before.items reference).size row
  here : (after.items reference)[row - 1]? = some (.list inner)
  others : ∀ k < (before.items reference).size, k + 1 ≠ row →
    (after.items reference)[k]? = (before.items reference)[k]?
  -- Rows that had to be added before it are empty lists of their own.
  added : ∀ k, (before.items reference).size ≤ k → k + 1 < row →
    ∃ fresh, (after.items reference)[k]? = some (.list fresh) ∧ before.lists.size ≤ fresh ∧
      fresh ≠ inner
  -- A row that was a list stays that list; otherwise it is a new one.
  row : (before.items reference)[row - 1]? = some (.list inner) ∨
    (∀ old, (before.items reference)[row - 1]? ≠ some (.list old)) ∧
      before.lists.size ≤ inner ∧ inner < after.lists.size
  kept : ∀ other ≠ reference, after.items other = before.items other

namespace Store

variable {s : Store} {reference : Nat}

theorem items_of_le {other : Nat} (beyond : s.lists.size ≤ other) : s.items other = #[] := by
  simp [items, Array.getD_eq_getD_getElem?, Array.getElem?_eq_none beyond]

theorem size_modify (s : Store) (reference : Nat) (change : Array Value → Array Value) :
    (s.modify reference change).lists.size = s.lists.size := by
  simp [modify]

theorem size_make (s : Store) (elements : Array Value) :
    (s.make elements).2.lists.size = s.lists.size + 1 := by
  simp [make]

def addRow (s : Store) (reference : Nat) : Store :=
  (s.make #[]).2.modify reference (·.push (.list s.lists.size))

def addRows (s : Store) (reference : Nat) : Nat → Store
  | 0 => s
  | missing + 1 => (s.addRow reference).addRows reference missing

theorem items_addRow_self (held : reference < s.lists.size) :
    (s.addRow reference).items reference = (s.items reference).push (.list s.lists.size) := by
  have inside : reference < (s.make #[]).2.lists.size := by rw [size_make]; omega
  rw [addRow, items_modify, if_pos ⟨rfl, inside⟩, items_make, if_neg (by omega)]

theorem items_addRow_other {other : Nat} (apart : other ≠ reference) :
    (s.addRow reference).items other = s.items other := by
  rw [addRow, items_modify, if_neg (fun here => apart here.1), items_make]
  split
  next new => rw [items_of_le (Nat.le_of_eq new.symm)]
  next => rfl

theorem size_addRow : (s.addRow reference).lists.size = s.lists.size + 1 := by
  rw [addRow, size_modify, size_make]

theorem size_addRows (missing : Nat) :
    (s.addRows reference missing).lists.size = s.lists.size + missing := by
  induction missing generalizing s with
  | zero => rfl
  | succ missing ih => rw [addRows, ih, size_addRow]; omega

theorem items_addRows_other {other : Nat} (apart : other ≠ reference) (missing : Nat) :
    (s.addRows reference missing).items other = s.items other := by
  induction missing generalizing s with
  | zero => rfl
  | succ missing ih => rw [addRows, ih, items_addRow_other apart]

theorem items_addRows_self (held : reference < s.lists.size) (missing k : Nat) :
    ((s.addRows reference missing).items reference)[k]? =
      if k < (s.items reference).size then (s.items reference)[k]?
      else if k < (s.items reference).size + missing then
        some (.list (s.lists.size + (k - (s.items reference).size)))
      else none := by
  induction missing generalizing s with
  | zero =>
    simp only [addRows]
    split
    · rfl
    · rw [Array.getElem?_eq_none (by omega), if_neg (by omega)]
  | succ missing ih =>
    have more : reference < (s.addRow reference).lists.size := by rw [size_addRow]; omega
    rw [addRows, ih more, items_addRow_self held, size_addRow, Array.size_push, Array.getElem?_push]
    grind

theorem size_items_addRows (held : reference < s.lists.size) (missing : Nat) :
    ((s.addRows reference missing).items reference).size = (s.items reference).size + missing := by
  induction missing generalizing s with
  | zero => rfl
  | succ missing ih =>
    have more : reference < (s.addRow reference).lists.size := by rw [size_addRow]; omega
    rw [addRows, ih more, items_addRow_self held, Array.size_push]
    omega

end Store

namespace Eval

open Exec

variable {m : Machine} {reference row : Nat} {which : Axis} {value : Value}

theorem putAt_padZeros (items : Array Value) {place : Nat} (counted : 1 ≤ place) (value : Value) :
    PutAt items place value ((padZeros place items).setIfInBounds (place - 1) value) where
  size := by simp [padZeros]; omega
  here := by
    rw [Array.getElem?_setIfInBounds_self, if_pos]
    simp [padZeros]; omega
  others k inside apart := by
    rw [Array.getElem?_setIfInBounds_ne (by omega), padZeros, Array.getElem?_append_left inside]
  zeros k beyond before := by
    rw [Array.getElem?_setIfInBounds_ne (by omega), padZeros, Array.getElem?_append_right beyond,
      Array.getElem?_replicate, if_pos (by omega)]

theorem writeElement_below {index : Int} (below : index < 1) :
    writeElement which reference index value m = .error (.outOfBounds which index, m) := by
  rw [writeElement, if_pos below]
  rfl

theorem writeElement_ok (m : Machine) (which : Axis) (value : Value) {place : Nat} (counted : 1 ≤ place)
    (held : reference < m.store.lists.size) :
    ∃ store, writeElement which reference place value m = .ok ((), { m with store }) ∧
      store.lists.size = m.store.lists.size ∧
      PutAt (m.store.items reference) place value (store.items reference) ∧
      ∀ other ≠ reference, store.items other = m.store.items other := by
  refine ⟨_, by rw [writeElement, if_neg (by omega)]; rfl, Store.size_modify .., ?_, ?_⟩
  · rw [items_modify, if_pos ⟨rfl, held⟩]
    exact putAt_padZeros _ counted value
  · intro other apart
    rw [items_modify, if_neg fun here => apart here.1]

theorem padRows_apply (missing : Nat) (m : Machine) :
    padRows reference missing m = .ok ((), { m with store := m.store.addRows reference missing }) := by
  induction missing generalizing m with
  | zero => rfl
  | succ missing ih => exact ih { m with store := m.store.addRow reference }

theorem rowOf_list {inner : Nat} (found : (m.store.items reference)[row]? = some (.list inner)) :
    rowOf reference row m = .ok (inner, m) := by
  have value : (m.store.items reference).getD row .empty = .list inner := by
    rw [Array.getD_eq_getD_getElem?, found, Option.getD_some]
  simp only [rowOf, bind_apply, itemsOf, Exec.read, value]
  rfl

theorem rowOf_other {other : Value} {tag : Tag} (found : (m.store.items reference)[row]? = some other)
    (tagged : other.tag = .ok tag) (noList : tag ≠ .list) :
    rowOf reference row m = .ok (m.store.lists.size, { m with
      store := (m.store.make #[]).2.modify reference
        (·.setIfInBounds row (.list m.store.lists.size)) }) := by
  have value : (m.store.items reference).getD row .empty = other := by
    rw [Array.getD_eq_getD_getElem?, found, Option.getD_some]
  simp only [rowOf, bind_apply, itemsOf, Exec.read, value, Exec.tag, Exec.ofExcept, tagged]
  cases other with
  | list inner => cases tagged; exact absurd rfl noList
  | empty | number _ | truth _ _ | text _ | function _ | plain _ => rfl

theorem rowOf_plain {p : Plain} (found : (m.store.items reference)[row]? = some (.plain p)) :
    rowOf reference row m = .error (.noMember p.holder .type, m) := by
  have value : (m.store.items reference).getD row .empty = .plain p := by
    rw [Array.getD_eq_getD_getElem?, found, Option.getD_some]
  simp only [rowOf, bind_apply, itemsOf, Exec.read, value]
  rfl

def openRow (reference row : Nat) : Exec Nat := do
  let items ← itemsOf reference
  padRows reference (row - items.size)
  rowOf reference (row - 1)

theorem writeCell_eq {row : Nat} (counted : 1 ≤ row) (column : Int) :
    writeCell reference row column value =
      openRow reference row >>= fun inner => writeElement .column inner column value := by
  rw [writeCell, if_neg (by omega), Int.toNat_natCast, openRow]
  simp only [Exec.bind_assoc]

theorem openRow_apply (m : Machine) :
    openRow reference row m = rowOf reference (row - 1)
      { m with store := m.store.addRows reference (row - (m.store.items reference).size) } := by
  simp only [openRow, bind_apply, itemsOf, Exec.read, padRows_apply]

theorem openRow_beyond (counted : 1 ≤ row) (held : reference < m.store.lists.size)
    (beyond : (m.store.items reference).size < row) :
    ∃ inner store, openRow reference row m = .ok (inner, { m with store }) ∧
      RowOpened m.store reference row inner store := by
  let store := m.store.addRows reference (row - (m.store.items reference).size)
  let inner := m.store.lists.size + (row - 1 - (m.store.items reference).size)
  have items (k : Nat) : (store.items reference)[k]? = _ := Store.items_addRows_self held _ k
  have found : (store.items reference)[row - 1]? = some (.list inner) := by
    rw [items, if_neg (by omega), if_pos (by omega)]
  have opened : rowOf reference (row - 1) { m with store } = .ok (inner, { m with store }) :=
    rowOf_list found
  refine ⟨inner, store, by rw [openRow_apply, opened], ?_⟩
  exact
    { lists := by rw [Store.size_addRows]; omega
      size := by rw [Store.size_items_addRows held]; omega
      here := found
      others := fun k inside _ => by rw [items, if_pos inside]
      added := fun k past before =>
        ⟨_, by rw [items, if_neg (by omega), if_pos (by omega)], by omega, by omega⟩
      row := .inr ⟨fun old => by rw [Array.getElem?_eq_none (by omega)]; exact nofun, by omega,
        by rw [Store.size_addRows]; omega⟩
      kept := fun other apart => Store.items_addRows_other apart _ }

theorem openRow_within (within : row ≤ (m.store.items reference).size) :
    openRow reference row m = rowOf reference (row - 1) m := by
  rw [openRow_apply, Nat.sub_eq_zero_of_le within]
  rfl

theorem openRow_list {inner : Nat} (within : row ≤ (m.store.items reference).size)
    (found : (m.store.items reference)[row - 1]? = some (.list inner)) :
    openRow reference row m = .ok (inner, m) ∧ RowOpened m.store reference row inner m.store := by
  refine ⟨by rw [openRow_within within, rowOf_list found], ?_⟩
  exact
    { lists := Nat.le_refl _
      size := by omega
      here := found
      others := fun _ _ _ => rfl
      added := fun k past before => by omega
      row := .inl found
      kept := fun _ _ => rfl }

theorem openRow_other {other : Value} {tag : Tag} (counted : 1 ≤ row)
    (held : reference < m.store.lists.size) (within : row ≤ (m.store.items reference).size)
    (found : (m.store.items reference)[row - 1]? = some other) (tagged : other.tag = .ok tag)
    (noList : tag ≠ .list) :
    ∃ inner store, openRow reference row m = .ok (inner, { m with store }) ∧
      RowOpened m.store reference row inner store := by
  refine ⟨_, _, by rw [openRow_within within, rowOf_other found tagged noList], ?_⟩
  have inside : reference < (m.store.make #[]).2.lists.size := by rw [Store.size_make]; omega
  have items (other : Nat) :
      ((m.store.make #[]).2.modify reference
        (·.setIfInBounds (row - 1) (.list m.store.lists.size))).items other =
        if other = reference then
          (m.store.items reference).setIfInBounds (row - 1) (.list m.store.lists.size)
        else m.store.items other := by
    by_cases here : other = reference
    · rw [items_modify, if_pos ⟨here, inside⟩, if_pos here, items_make, if_neg (by omega)]
    · rw [items_modify, if_neg fun both => here both.1, if_neg here, items_make]
      split
      next new => rw [Store.items_of_le (Nat.le_of_eq new.symm)]
      next => rfl
  exact
    { lists := by rw [Store.size_modify, Store.size_make]; omega
      size := by rw [items, if_pos rfl, Array.size_setIfInBounds]; omega
      here := by rw [items, if_pos rfl, Array.getElem?_setIfInBounds_self, if_pos (by omega)]
      others := fun k _ apart => by
        rw [items, if_pos rfl, Array.getElem?_setIfInBounds_ne (by omega)]
      added := fun k past before => by omega
      row := .inr ⟨fun old same => by
          rw [found, Option.some.injEq] at same
          subst same
          cases tagged
          exact noList rfl, Nat.le_refl _,
        by rw [Store.size_modify, Store.size_make]; omega⟩
      kept := fun other apart => by rw [items, if_neg apart] }

theorem openRow_plain {p : Plain} (counted : 1 ≤ row)
    (plain : (m.store.items reference)[row - 1]? = some (.plain p)) :
    openRow reference row m = .error (.noMember p.holder .type, m) := by
  obtain ⟨inside, _⟩ := Array.getElem?_eq_some_iff.mp plain
  rw [openRow_within (by omega), rowOf_plain plain]

theorem openRow_ok (counted : 1 ≤ row) (held : reference < m.store.lists.size)
    (language : ∀ p, (m.store.items reference)[row - 1]? ≠ some (.plain p)) :
    ∃ inner store, openRow reference row m = .ok (inner, { m with store }) ∧
      RowOpened m.store reference row inner store := by
  by_cases beyond : (m.store.items reference).size < row
  · exact openRow_beyond counted held beyond
  have within : row ≤ (m.store.items reference).size := Nat.le_of_not_lt beyond
  obtain ⟨other, found⟩ : ∃ other, (m.store.items reference)[row - 1]? = some other :=
    ⟨_, Array.getElem?_eq_getElem (by omega)⟩
  cases other with
  | plain p => exact absurd found (language p)
  | list inner =>
    obtain ⟨opened, spec⟩ := openRow_list within found
    exact ⟨inner, m.store, opened, spec⟩
  | empty | number _ | truth _ _ | text _ | function _ =>
    exact openRow_other counted held within found rfl nofun

section Assign

variable {rec : Node → Exec Value} {name : Option String} {node first second last : Node}
  {m middle third ready : Machine} {reference : Nat} {v x y : Value} {i j : Int} {cause : Fault}

theorem listNamed_ok (found : m.scopes.find? name = some (.list reference)) :
    listNamed name m = .ok (reference, m) := by
  have value : lookup .array name m = .ok (.list reference, m) := by rw [lookup, found]
  exact bind_of_ok value

theorem requireNumber_ok (number : x.toWhole = .ok i) : requireNumber cause x m = .ok ((), m) := by
  cases x with
  | number _ | truth _ _ => rfl
  | empty | text _ | list _ | function _ | plain _ => cases number

theorem whole_ok (number : x.toWhole = .ok i) : whole x m = .ok (i, m) := by
  simp only [whole, Exec.ofExcept, number]

theorem indexPair_ok (row : x.toWhole = .ok i) (column : y.toWhole = .ok j) :
    indexPair x y m = .ok ((i, j), m) := by
  rw [indexPair, bind_of_ok (requireNumber_ok row), bind_of_ok (requireNumber_ok column),
    bind_of_ok (whole_ok row), bind_of_ok (whole_ok column)]
  rfl

theorem elementAssign_one (children : node.children = [first, last])
    (found : m.scopes.find? node.name = some (.list reference)) (value : rec last m = .ok (v, middle))
    (index : rec first middle = .ok (x, ready)) (number : x.toWhole = .ok i) :
    elementAssign rec node m = (writeElement .only reference i v >>= fun _ => pure v) ready := by
  obtain ⟨kind, payload, name, _⟩ := node
  subst children
  calc elementAssign rec ⟨kind, payload, name, [first, last]⟩ m
    _ = _ := bind_of_ok (listNamed_ok found)
    _ = _ := bind_of_ok value
    _ = _ := bind_of_ok index
    _ = _ := bind_of_ok (requireNumber_ok number)
    _ = _ := bind_of_ok (whole_ok number)

theorem elementAssign_two (children : node.children = [first, second, last])
    (found : m.scopes.find? node.name = some (.list reference)) (value : rec last m = .ok (v, middle))
    (row : rec first middle = .ok (x, third)) (column : rec second third = .ok (y, ready))
    (rowNumber : x.toWhole = .ok i) (columnNumber : y.toWhole = .ok j) :
    elementAssign rec node m = (writeCell reference i j v >>= fun _ => pure v) ready := by
  obtain ⟨kind, payload, name, _⟩ := node
  subst children
  calc elementAssign rec ⟨kind, payload, name, [first, second, last]⟩ m
    _ = _ := bind_of_ok (listNamed_ok found)
    _ = _ := bind_of_ok value
    _ = _ := bind_of_ok row
    _ = _ := bind_of_ok column
    _ = _ := bind_of_ok (indexPair_ok rowNumber columnNumber)

end Assign

end Eval

end Pseudocode
