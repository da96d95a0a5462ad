import Pseudocode.Proofs.Element.Reach
import Pseudocode.Proofs.Element.Store

set_option autoImplicit false

namespace Pseudocode

/-- A list got a value at a place. The machine is `ready` once the value and the index have been
evaluated, which may have made new lists. -/
structure Machine.ElementWritten (m ready after : Machine) (reference place : Nat) (value : Value) :
    Prop where
  rest : after = { m with store := after.store }
  list : PutAt (m.store.items reference) place value (after.store.items reference)
  others : ∀ other < ready.store.lists.size, other ≠ reference →
    after.store.items other = ready.store.items other

structure Machine.CellWritten (m ready after : Machine) (reference row column : Nat) (value : Value) :
    Prop where
  rest : after = { m with store := after.store }
  size : (after.store.items reference).size = max (m.store.items reference).size row
  rows : ∀ k < (m.store.items reference).size, k + 1 ≠ row →
    (after.store.items reference)[k]? = (m.store.items reference)[k]?
  added : ∀ k, (m.store.items reference).size ≤ k → k + 1 < row →
    ∃ fresh, ready.store.lists.size ≤ fresh ∧
      (after.store.items reference)[k]? = some (.list fresh) ∧ after.store.items fresh = #[]
  -- The list in the row is the old one if there was one, and otherwise new.
  row : ∃ inner, (after.store.items reference)[row - 1]? = some (.list inner) ∧
    ((m.store.items reference)[row - 1]? = some (.list inner) ∧
        PutAt (m.store.items inner) column value (after.store.items inner) ∨
      (∀ old, (m.store.items reference)[row - 1]? ≠ some (.list old)) ∧
        ready.store.lists.size ≤ inner ∧ PutAt #[] column value (after.store.items inner)) ∧
    ∀ other < ready.store.lists.size, other ≠ reference → other ≠ inner →
      after.store.items other = ready.store.items other

namespace Eval

open Exec

section Steps

variable {rec : Node → Exec Value} {name : Option String} {first second : Node} {m middle ready : Machine}
  {reference : Nat} {v x y : Value}

theorem elementAt_ok {which : Axis} {items : Array Value} {place : Nat} (counted : 1 ≤ place)
    (found : items[place - 1]? = some v) : elementAt which items place m = .ok (v, m) := by
  have position : ((place : Int) - 1).toNat = place - 1 := by omega
  rw [elementAt, if_neg (by omega), position, found]
  rfl

theorem elementAccess_one {place : Nat} (found : m.scopes.find? name = some (.list reference))
    (index : rec first m = .ok (x, ready)) (number : x.toWhole = .ok place) (counted : 1 ≤ place)
    (element : (ready.store.items reference)[place - 1]? = some v) :
    elementAccess rec (Node.named .elementAccess name [first]) m = .ok (v, ready) := by
  calc elementAccess rec (Node.named .elementAccess name [first]) m
    _ = _ := bind_of_ok (listNamed_ok found)
    _ = _ := bind_of_ok index
    _ = _ := bind_of_ok (requireNumber_ok number)
    _ = _ := bind_of_ok (whole_ok number)
    _ = _ := elementAt_ok counted element

theorem elementAccess_two {row column inner : Nat}
    (found : m.scopes.find? name = some (.list reference))
    (firstRan : rec first m = .ok (x, middle)) (secondRan : rec second middle = .ok (y, ready))
    (rowNumber : x.toWhole = .ok row) (columnNumber : y.toWhole = .ok column)
    (rowCounted : 1 ≤ row) (columnCounted : 1 ≤ column)
    (rowList : (ready.store.items reference)[row - 1]? = some (.list inner))
    (element : (ready.store.items inner)[column - 1]? = some v) :
    elementAccess rec (Node.named .elementAccess name [first, second]) m = .ok (v, ready) := by
  have items : itemsOf reference ready = .ok (ready.store.items reference, ready) := rfl
  calc elementAccess rec (Node.named .elementAccess name [first, second]) m
    _ = _ := bind_of_ok (listNamed_ok found)
    _ = _ := bind_of_ok firstRan
    _ = _ := bind_of_ok secondRan
    _ = _ := bind_of_ok (indexPair_ok rowNumber columnNumber)
    _ = _ := bind_of_ok items
    _ = _ := bind_of_ok (elementAt_ok rowCounted rowList)
    _ = _ := elementAt_ok columnCounted element

end Steps

variable {around : Surroundings} {name : Option String} {first second last : Node}
  {m middle third ready after : Machine} {reference i j : Nat} {v x y : Value}

theorem assign_element (held : m.Held) (found : m.scopes.find? name = some (.list reference))
    (counted : 1 ≤ i) (value : Yields around last m v middle)
    (index : Yields around first middle x ready) (number : x.toWhole = .ok i) :
    ∃ after, TreeEnds around (Node.named .elementAssign name [first, last]) m ⟨.ok v, after⟩ ∧
      m.ElementWritten ready after reference i v ∧ reference < after.store.lists.size := by
  have grown := value.grown.trans index.grown
  have bound := held.bound found
  obtain ⟨store, written, size, list, others⟩ :=
    writeElement_ok ready .only v counted (Nat.lt_of_lt_of_le bound grown.size)
  obtain ⟨n, valueRan⟩ := value.ends.eventually
  obtain ⟨k, indexRan⟩ := index.ends.eventually
  refine ⟨{ ready with store }, treeEnds_of_step (n := max n k) (ending?_eq_ok.mpr ?_), ?_, ?_⟩
  · refine (elementAssign_one rfl found (valueRan _ (Nat.le_max_left ..))
      (indexRan _ (Nat.le_max_right ..)) number).trans ?_
    rw [bind_of_ok written]
    rfl
  · refine ⟨by rw [grown.rest], ?_, fun other _ apart => others other apart⟩
    rw [← grown.items reference bound]
    exact list
  · exact Nat.lt_of_lt_of_le bound (size ▸ grown.size)

theorem access_element (found : m.scopes.find? name = some (.list reference)) (counted : 1 ≤ i)
    (held : reference < m.store.lists.size) (element : (m.store.items reference)[i - 1]? = some v)
    (index : Yields around first m x ready) (number : x.toWhole = .ok i) :
    TreeEnds around (Node.named .elementAccess name [first]) m ⟨.ok v, ready⟩ := by
  obtain ⟨n, ran⟩ := index.ends.eventually
  rw [← index.grown.items reference held] at element
  exact treeEnds_of_step (n := n)
    (ending?_eq_ok.mpr (elementAccess_one found (ran n (Nat.le_refl n)) number counted element))

theorem inner_held {s store : Store} {row inner : Nat} (held : reference < s.lists.size)
    (rows : ∀ inner, .list inner ∈ s.items reference → inner < s.lists.size)
    (apart : .list reference ∉ s.items reference) (opened : RowOpened s reference row inner store) :
    inner < store.lists.size ∧ inner ≠ reference := by
  rcases opened.row with old | ⟨_, new, inside⟩
  · have member := Array.mem_of_getElem? old
    refine ⟨Nat.lt_of_lt_of_le (rows inner member) opened.lists, ?_⟩
    rintro rfl
    exact apart member
  · exact ⟨inside, by omega⟩

theorem writeCell_ok {row column : Nat} (rowCounted : 1 ≤ row) (columnCounted : 1 ≤ column)
    (held : reference < m.store.lists.size)
    (rows : ∀ inner, .list inner ∈ m.store.items reference → inner < m.store.lists.size)
    (apart : .list reference ∉ m.store.items reference)
    (language : ∀ p, (m.store.items reference)[row - 1]? ≠ some (.plain p)) :
    ∃ inner opened store, writeCell reference row column v m = .ok ((), { m with store }) ∧
      RowOpened m.store reference row inner opened ∧ inner ≠ reference ∧
      store.lists.size = opened.lists.size ∧ inner < store.lists.size ∧
      PutAt (opened.items inner) column v (store.items inner) ∧
      ∀ other ≠ inner, store.items other = opened.items other := by
  obtain ⟨inner, opened, ran, spec⟩ := openRow_ok rowCounted held language
  obtain ⟨inside, noSelf⟩ := inner_held held rows apart spec
  obtain ⟨store, written, size, list, others⟩ :=
    writeElement_ok { m with store := opened } .column v columnCounted inside
  refine ⟨inner, opened, store, ?_, spec, noSelf, size, size ▸ inside, list, others⟩
  rw [writeCell_eq rowCounted, bind_of_ok ran, written]

theorem assign_cell (held : m.Held) (found : m.scopes.find? name = some (.list reference))
    (apart : .list reference ∉ m.store.items reference)
    (language : ∀ p, (m.store.items reference)[i - 1]? ≠ some (.plain p))
    (rowCounted : 1 ≤ i) (columnCounted : 1 ≤ j) (value : Yields around last m v middle)
    (row : Yields around first middle x third) (column : Yields around second third y ready)
    (rowNumber : x.toWhole = .ok i) (columnNumber : y.toWhole = .ok j) :
    ∃ after inner,
      TreeEnds around (Node.named .elementAssign name [first, second, last]) m ⟨.ok v, after⟩ ∧
      m.CellWritten ready after reference i j v ∧ reference < after.store.lists.size ∧
      inner < after.store.lists.size ∧ (after.store.items reference)[i - 1]? = some (.list inner) ∧
      (after.store.items inner)[j - 1]? = some v := by
  have grown := (value.grown.trans row.grown).trans column.grown
  have bound := held.bound found
  have same := grown.items reference bound
  have rows (inner : Nat) (member : .list inner ∈ m.store.items reference) :
      inner < m.store.lists.size := held inner (.inside (Machine.reaches_of_find? found) member)
  obtain ⟨inner, opened, store, written, spec, noSelf, size, inside, list, others⟩ :=
    writeCell_ok (m := ready) (v := v) rowCounted columnCounted (Nat.lt_of_lt_of_le bound grown.size)
      (fun inner member => Nat.lt_of_lt_of_le (rows inner (same ▸ member)) grown.size)
      (same ▸ apart) (same ▸ language)
  have selfItems : store.items reference = opened.items reference := others reference noSelf.symm
  have oldItems : opened.items inner = ready.store.items inner := spec.kept inner noSelf
  obtain ⟨n, valueRan⟩ := value.ends.eventually
  obtain ⟨k, rowRan⟩ := row.ends.eventually
  obtain ⟨l, columnRan⟩ := column.ends.eventually
  refine ⟨{ ready with store }, inner,
    treeEnds_of_step (n := max n (max k l)) (ending?_eq_ok.mpr ?_), ?_, ?_, inside, ?_, list.here⟩
  · refine (elementAssign_two rfl found (valueRan _ (by omega)) (rowRan _ (by omega))
      (columnRan _ (by omega)) rowNumber columnNumber).trans ?_
    rw [bind_of_ok written]
    rfl
  · have here := spec.here
    have row := spec.row
    rw [same] at row
    exact
      { rest := by rw [grown.rest]
        size := by rw [selfItems, spec.size, same]
        rows := fun k within other => by rw [selfItems, spec.others k (same ▸ within) other, same]
        added := fun k past before => by
          obtain ⟨fresh, placed, new, noInner⟩ := spec.added k (same ▸ past) before
          have noSelf : fresh ≠ reference := by
            have := grown.size
            omega
          refine ⟨fresh, new, by rw [selfItems]; exact placed, ?_⟩
          rw [others fresh noInner, spec.kept fresh noSelf, Store.items_of_le new]
        row := by
          refine ⟨inner, by rw [selfItems]; exact here, ?_, ?_⟩
          · rcases row with old | ⟨noList, new, _⟩
            · refine .inl ⟨old, ?_⟩
              rw [← grown.items inner (rows inner (Array.mem_of_getElem? old)), ← oldItems]
              exact list
            · refine .inr ⟨noList, new, ?_⟩
              rw [oldItems, Store.items_of_le new] at list
              exact list
          · intro other _ noReference noInner
            rw [others other noInner, spec.kept other noReference] }
  · have := spec.lists
    have := grown.size
    show reference < store.lists.size
    omega
  · rw [selfItems]
    exact spec.here

theorem access_cell {inner : Nat} (found : m.scopes.find? name = some (.list reference))
    (rowCounted : 1 ≤ i) (columnCounted : 1 ≤ j) (held : reference < m.store.lists.size)
    (innerHeld : inner < m.store.lists.size)
    (rowList : (m.store.items reference)[i - 1]? = some (.list inner))
    (element : (m.store.items inner)[j - 1]? = some v) (row : Yields around first m x middle)
    (column : Yields around second middle y ready) (rowNumber : x.toWhole = .ok i)
    (columnNumber : y.toWhole = .ok j) :
    TreeEnds around (Node.named .elementAccess name [first, second]) m ⟨.ok v, ready⟩ := by
  have grown := row.grown.trans column.grown
  obtain ⟨n, rowRan⟩ := row.ends.eventually
  obtain ⟨k, columnRan⟩ := column.ends.eventually
  rw [← grown.items reference held] at rowList
  rw [← grown.items inner innerHeld] at element
  exact treeEnds_of_step (n := max n k) (ending?_eq_ok.mpr (elementAccess_two found
    (rowRan _ (by omega)) (columnRan _ (by omega)) rowNumber columnNumber rowCounted columnCounted
    rowList element))

end Eval

open Eval

/-- An assignment to an element of a list, with one index or with two, succeeds if the indices are at least
one. It puts the value there, pads the list as far as needed and changes nothing else; and then an access
with the same indices, however they are written, gives the value. -/
theorem written_element_reads_back {around : Surroundings} {m : Machine} {name : Option String}
    {reference : Nat} (held : m.Held) (found : m.scopes.find? name = some (.list reference))
    (apart : .list reference ∉ m.store.items reference) :
    (∀ (first last : Node) (v x : Value) (i : Nat) (middle ready : Machine), 1 ≤ i →
      Yields around last m v middle → Yields around first middle x ready → x.toWhole = .ok i →
      ∃ after, TreeEnds around (Node.named .elementAssign name [first, last]) m ⟨.ok v, after⟩ ∧
        m.ElementWritten ready after reference i v ∧
        ∀ (index : Node) (y : Value) (final : Machine),
          Yields around index after y final → y.toWhole = .ok i →
          TreeEnds around (Node.named .elementAccess name [index]) after ⟨.ok v, final⟩) ∧
    ∀ (first second last : Node) (v x y : Value) (i j : Nat) (middle third ready : Machine),
      1 ≤ i → 1 ≤ j → (∀ p, (m.store.items reference)[i - 1]? ≠ some (.plain p)) →
      Yields around last m v middle → Yields around first middle x third →
      Yields around second third y ready → x.toWhole = .ok i → y.toWhole = .ok j →
      ∃ after, TreeEnds around (Node.named .elementAssign name [first, second, last]) m ⟨.ok v, after⟩ ∧
        m.CellWritten ready after reference i j v ∧
        ∀ (row column : Node) (z w : Value) (between final : Machine),
          Yields around row after z between → Yields around column between w final →
          z.toWhole = .ok i → w.toWhole = .ok j →
          TreeEnds around (Node.named .elementAccess name [row, column]) after ⟨.ok v, final⟩ := by
  constructor
  · intro first last v x i middle ready counted value index number
    obtain ⟨after, ends, written, inside⟩ := assign_element held found counted value index number
    refine ⟨after, ends, written, fun index y final read again => ?_⟩
    have found' : after.scopes.find? name = some (.list reference) := by rw [written.rest]; exact found
    exact access_element found' counted inside written.list.here read again
  · intro first second last v x y i j middle third ready rowCounted columnCounted language value row
      column rowNumber columnNumber
    obtain ⟨after, inner, ends, written, inside, innerInside, rowList, element⟩ :=
      assign_cell held found apart language rowCounted columnCounted value row column rowNumber
        columnNumber
    refine ⟨after, ends, written,
      fun row column z w between final readRow readColumn rowAgain columnAgain => ?_⟩
    have found' : after.scopes.find? name = some (.list reference) := by rw [written.rest]; exact found
    exact access_cell found' rowCounted columnCounted inside innerInside rowList element readRow
      readColumn rowAgain columnAgain

theorem grown_list_reads_back :
    let around : Surroundings := ⟨⟨[], []⟩, "", 1000⟩
    let m : Machine := { Machine.initial with
      store := ⟨#[#[.text "p"]], 0⟩, scopes := ⟨[(some "a", .list 0)], []⟩ }
    let number (x : Float) : Node := Node.number (some (.number x))
    let value : Node := Node.named .string (some "x") []
    m.Held ∧ .list 0 ∉ m.store.items 0 ∧
    (∃ after,
      TreeEnds around (Node.named .elementAssign (some "a") [number 3.5, value]) m
        ⟨.ok (.text "x"), after⟩ ∧
      m.ElementWritten m after 0 3 (.text "x") ∧
      TreeEnds around (Node.named .elementAccess (some "a") [number 3.0]) after
        ⟨.ok (.text "x"), after⟩) ∧
    ∃ after,
      TreeEnds around (Node.named .elementAssign (some "a") [number 2.0, number 3.5, value]) m
        ⟨.ok (.text "x"), after⟩ ∧
      m.CellWritten m after 0 2 3 (.text "x") ∧
      TreeEnds around (Node.named .elementAccess (some "a") [number 2.0, number 3.0]) after
        ⟨.ok (.text "x"), after⟩ := by
  intro around m number value
  have held : m.Held := by
    refine Machine.held_of_lists (by simp [m, Scopes.tables]) fun outer reference inside => ?_
    cases outer <;> simp [m, Store.items] at inside
  have apart : .list 0 ∉ m.store.items 0 := by simp [m, Store.items]
  have found : m.scopes.find? (some "a") = some (.list 0) := rfl
  have text : Yields around value m (.text "x") m := ⟨⟨1, rfl⟩, .refl m⟩
  have yields (m : Machine) (x : Float) : Yields around (number x) m (.number x) m :=
    ⟨⟨1, rfl⟩, .refl m⟩
  obtain ⟨one, two⟩ := @written_element_reads_back around m (some "a") 0 held found apart
  refine ⟨held, apart, ?_, ?_⟩
  · obtain ⟨after, ends, written, reads⟩ := one _ value _ _ 3 _ _ (by decide) text (yields m 3.5) rfl
    exact ⟨after, ends, written, reads _ _ _ (yields after 3.0) rfl⟩
  · have language : ∀ p, (m.store.items 0)[2 - 1]? ≠ some (.plain p) := by
      intro p same
      cases same
    obtain ⟨after, ends, written, reads⟩ := two _ _ value _ _ _ 2 3 _ _ _ (by decide) (by decide)
      language text (yields m 2.0) (yields m 3.5) rfl rfl
    exact ⟨after, ends, written, reads _ _ _ _ _ _ (yields after 2.0) (yields after 3.0) rfl rfl⟩

end Pseudocode
