import Pseudocode.Proofs.Case.Selection
import Pseudocode.Proofs.Return.Passing

set_option autoImplicit false

namespace Pseudocode

open Exec Eval

section Meaning

def returning (turn : Nat) (node : Node) : Exec Value := fun m =>
  if node.returns then
    .ok (.text "", { m with calls := m.calls + 1, returned := some (.text "") })
  else .ok (.number (if m.calls < turn then 1.0 else 0.0), { m with calls := m.calls + 1 })

def cutting (turn : Nat) (mark : Fault) (node : Node) : Exec Value :=
  if node.returns then returning turn node >>= fun _ => fail mark else returning turn node

variable {turn : Nat} {node : Node} {m : Machine}

theorem cutting_plain (plain : node.returns = false) (mark : Fault) :
    cutting turn mark node = returning turn node := by
  rw [cutting, plain]
  rfl

theorem returning_before (plain : node.returns = false) (early : m.calls < turn) :
    returning turn node m = .ok (.number 1.0, { m with calls := m.calls + 1 }) := by
  simp [returning, plain, early]

theorem returning_since (plain : node.returns = false) (late : turn ≤ m.calls) :
    returning turn node m = .ok (.number 0.0, { m with calls := m.calls + 1 }) := by
  simp [returning, plain, Nat.not_lt.mpr late]

theorem returning_return (returns : node.returns = true) :
    returning turn node m =
      .ok (.text "", { m with calls := m.calls + 1, returned := some (.text "") }) := by
  simp [returning, returns]

theorem cutting_return (returns : node.returns = true) (mark : Fault) :
    cutting turn mark node m =
      .error (mark, { m with calls := m.calls + 1, returned := some (.text "") }) := by
  rw [cutting, returns]
  exact bind_of_ok (returning_return returns)

theorem cutOff_cutting (turn : Nat) (node : Node) : CutOff (returning turn) (cutting turn) node where
  cuts m := by
    cases returns : node.returns with
    | true => exact .inr ⟨_, _, _, cutting_return returns, rfl, returning_return returns⟩
    | false => exact .same fun mark => by rw [cutting_plain returns]
  same := cutting_plain

end Meaning

section Refuting

variable {α β : Type} {m m' after last : Machine} {x : Exec α} {y : Fault → Exec α}
  {x' : Exec α} {y' : Fault → Exec α}

theorem cutsAt_congr (first : x m = x' m') (second : ∀ mark, y mark m = y' mark m') :
    CutsAt m x y ↔ CutsAt m' x' y' := by
  simp only [CutsAt, first, second]

theorem not_cutsAt_of_ok {w : α} (cut : ∀ mark, y mark m = .error (mark, after))
    (ran : x m = .ok (w, last)) (further : after.calls < last.calls) : ¬ CutsAt m x y := by
  rintro (equal | ⟨_, _, at_, cut', _, ended⟩)
  · have same := equal .ifCondition
    rw [cut, ran] at same
    cases same
  · have cutThere := cut' .ifCondition
    rw [cut] at cutThere
    rw [ran] at ended
    cases cutThere
    cases ended
    exact Nat.lt_irrefl _ further

theorem not_cutsAt_of_error {found : Fault × Machine} (cut : ∀ mark, y mark m = .error (mark, after))
    (failed : x m = .error found) : ¬ CutsAt m x y := by
  rintro (equal | ⟨_, _, _, _, _, ended⟩)
  · have one := (cut .ifCondition).symm.trans ((equal _).trans failed)
    have two := (cut .whileCondition).symm.trans ((equal _).trans failed)
    have equal := one.trans two.symm
    cases equal
  · rw [failed] at ended
    cases ended

end Refuting

section Statements

variable (turn : Nat) (last : Value) (m : Machine) {statements : List Node}

theorem sequence_returning (statements : List Node) :
    ∃ w after, sequence (returning turn) statements last m = .ok (w, after) ∧
      after.calls = m.calls + statements.length := by
  induction statements generalizing m last with
  | nil => exact ⟨last, m, rfl, rfl⟩
  | cons statement rest ih =>
    have ran : ∃ value middle, returning turn statement m = .ok (value, middle) ∧
        middle.calls = m.calls + 1 := by
      unfold returning
      split
      · exact ⟨_, _, rfl, rfl⟩
      · exact ⟨_, _, rfl, rfl⟩
    obtain ⟨value, middle, ran, counted⟩ := ran
    obtain ⟨w, after, rest, calls⟩ := ih value middle
    refine ⟨w, after, (bind_of_ok ran).trans rest, ?_⟩
    rw [calls, counted, List.length_cons]
    omega

theorem sequence_cutting (early : Node.lastOnly statements = false) :
    ∃ after, (∀ mark, sequence (cutting turn mark) statements last m = .error (mark, after)) ∧
      after.calls < m.calls + statements.length := by
  induction statements generalizing m last with
  | nil => cases early
  | cons statement rest ih =>
    cases rest with
    | nil => cases early
    | cons second others =>
      cases returns : statement.returns with
      | true =>
        refine ⟨_, fun mark => bind_of_error (cutting_return returns mark), ?_⟩
        simp only [List.length_cons]
        omega
      | false =>
        simp only [Node.lastOnly, List.dropLast_cons_cons, List.all_cons, returns, Bool.not_false,
          Bool.true_and] at early ih
        let middle := { m with calls := m.calls + 1 }
        obtain ⟨after, cut, calls⟩ := ih (.number (if m.calls < turn then 1.0 else 0.0)) middle early
        refine ⟨after, fun mark => ?_, ?_⟩
        · have ran : cutting turn mark statement m =
              .ok (.number (if m.calls < turn then 1.0 else 0.0), middle) := by
            simp [cutting, returning, returns, middle]
          exact (bind_of_ok ran).trans (cut mark)
        · simp only [middle, List.length_cons] at calls ⊢
          omega

theorem not_cuts_sequence (early : Node.lastOnly statements = false) :
    ¬ CutsAt m (sequence (returning turn) statements last) fun mark =>
      sequence (cutting turn mark) statements last := by
  obtain ⟨after, cut, fewer⟩ := sequence_cutting turn last m early
  obtain ⟨w, final, ran, calls⟩ := sequence_returning turn last m statements
  exact not_cutsAt_of_ok cut ran (by omega)

end Statements

section Items

variable {rec : Node → Exec Value} {subject value : Value} {item first second : Node}
  {rest tail body : List Node} {m middle : Machine} {turn : Nat}

theorem caseItems_value (other : item.kind ≠ .caseOtherwise) (children : item.children = [first])
    (ran : rec first m = .ok (value, middle)) :
    caseItems rec subject (item :: rest) m =
      ((caseItems.ofOutcomeEqual subject value : Exec Bool) >>= fun equal =>
        if equal = true then pure .empty else caseItems rec subject rest) middle := by
  have found : child item 0 = pure first := by simp [child, children]
  rw [caseItems, if_neg other, found, pure_bind]
  refine (bind_of_ok ran).trans ?_
  rw [children]

theorem caseItems_statement (other : item.kind ≠ .caseOtherwise)
    (children : item.children = first :: second :: body)
    (isStatement : isCaseStatement second.kind = true) (ran : rec first m = .ok (value, middle)) :
    caseItems rec subject (item :: rest) m =
      ((caseItems.ofOutcomeEqual subject value : Exec Bool) >>= fun equal =>
        if equal = true then sequence rec (second :: body) .empty
        else caseItems rec subject rest) middle := by
  have found : child item 0 = pure first := by simp [child, children]
  rw [caseItems, if_neg other, found, pure_bind]
  refine (bind_of_ok ran).trans ?_
  simp only [children, if_pos isStatement]

theorem caseItems_range {high : Value} {last : Machine} (other : item.kind ≠ .caseOtherwise)
    (children : item.children = first :: second :: body)
    (isEnd : isCaseStatement second.kind = false) (ran : rec first m = .ok (value, middle))
    (upper : rec second middle = .ok (high, last)) :
    caseItems rec subject (item :: rest) m =
      (inRange subject value high >>= fun inside =>
        if inside = true then sequence rec body .empty else caseItems rec subject rest) last := by
  have found : child item 0 = pure first := by simp [child, children]
  rw [caseItems, if_neg other, found, pure_bind]
  refine (bind_of_ok ran).trans ?_
  simp only [children, isEnd, Bool.false_eq_true, if_false]
  exact bind_of_ok upper

theorem equal_zero_one : caseItems.ofOutcomeEqual (.number 0.0) (.number 1.0) m = .ok (false, m) := by
  rw [equal_numbers, show ((0.0 : Float) == 1.0) = false by decide]

theorem equal_zero_zero : caseItems.ofOutcomeEqual (.number 0.0) (.number 0.0) m = .ok (true, m) := by
  rw [equal_numbers, show ((0.0 : Float) == 0.0) = true by decide]

theorem zero_in_range : inRange (.number 0.0) (.number 0.0) (.number 0.0) m = .ok (true, m) := by
  change (if (0.0 : Float) ≥ 0.0 then _ else pure false : Exec Bool) m = _
  rw [if_pos (by decide)]
  change Outcome.ok (decide ((0.0 : Float) ≤ 0.0), m) = _
  rw [show decide ((0.0 : Float) ≤ 0.0) = true by decide]

theorem zero_below_range : inRange (.number 0.0) (.number 1.0) (.number 1.0) m = .ok (false, m) :=
  inRange_below (x := 0.0) (y := 1.0) (by decide) ⟨rfl, rfl, rfl⟩ rfl rfl

def itemVisits : List Node → Nat
  | second :: _ => if isCaseStatement second.kind then 1 else 2
  | [] => 1

section Plain

variable (plainly : ∀ node, node.returns = false → rec node = returning turn node)
include plainly

theorem caseItems_skip (other : item.kind ≠ .caseOtherwise) (children : item.children = first :: tail)
    (plain : first.returns = false)
    (plainEnd : ∀ second body, tail = second :: body → isCaseStatement second.kind = false →
      second.returns = false)
    (early : m.calls + itemVisits tail ≤ turn) :
    caseItems rec (.number 0.0) (item :: rest) m =
      caseItems rec (.number 0.0) rest { m with calls := m.calls + itemVisits tail } := by
  cases tail with
  | nil =>
    simp only [itemVisits] at early ⊢
    have ran : rec first m = _ := (congrFun (plainly first plain) m).trans
      (returning_before plain (by omega))
    rw [caseItems_value other children ran]
    exact bind_of_ok equal_zero_one
  | cons second body =>
    cases isStatement : isCaseStatement second.kind with
    | true =>
      simp only [itemVisits, isStatement, if_true] at early ⊢
      have ran : rec first m = _ := (congrFun (plainly first plain) m).trans
        (returning_before plain (by omega))
      rw [caseItems_statement other children isStatement ran]
      exact bind_of_ok equal_zero_one
    | false =>
      simp only [itemVisits, isStatement, Bool.false_eq_true, if_false] at early ⊢
      have plainSecond := plainEnd second body rfl isStatement
      have ran : rec first m = _ := (congrFun (plainly first plain) m).trans
        (returning_before plain (by omega))
      have upper : rec second { m with calls := m.calls + 1 } = _ :=
        (congrFun (plainly second plainSecond) _).trans
          (returning_before plainSecond (by dsimp only; omega))
      rw [caseItems_range other children isStatement ran upper]
      exact bind_of_ok zero_below_range

theorem caseItems_apply_statement (other : item.kind ≠ .caseOtherwise)
    (children : item.children = first :: second :: body) (plain : first.returns = false)
    (isStatement : isCaseStatement second.kind = true) (late : turn ≤ m.calls) :
    caseItems rec (.number 0.0) (item :: rest) m =
      sequence rec (second :: body) .empty { m with calls := m.calls + 1 } := by
  have ran : rec first m = _ := (congrFun (plainly first plain) m).trans (returning_since plain late)
  rw [caseItems_statement other children isStatement ran]
  exact bind_of_ok equal_zero_zero

theorem caseItems_apply_range (other : item.kind ≠ .caseOtherwise)
    (children : item.children = first :: second :: body) (plain : first.returns = false)
    (isEnd : isCaseStatement second.kind = false) (plainEnd : second.returns = false)
    (late : turn ≤ m.calls) :
    caseItems rec (.number 0.0) (item :: rest) m =
      sequence rec body .empty { m with calls := m.calls + 2 } := by
  have ran : rec first m = _ := (congrFun (plainly first plain) m).trans (returning_since plain late)
  have upper : rec second { m with calls := m.calls + 1 } = _ :=
    (congrFun (plainly second plainEnd) _).trans (returning_since plainEnd (by dsimp only; omega))
  rw [caseItems_range other children isEnd ran upper]
  exact bind_of_ok zero_in_range

end Plain

theorem not_cuts_range (other : item.kind ≠ .caseOtherwise)
    (children : item.children = first :: second :: body) (plain : first.returns = false)
    (isEnd : isCaseStatement second.kind = false) (returns : second.returns = true)
    (late : turn ≤ m.calls) :
    ¬ CutsAt m (caseItems (returning turn) (.number 0.0) (item :: rest)) fun mark =>
      caseItems (cutting turn mark) (.number 0.0) (item :: rest) := by
  have found : child item 0 = pure first := by simp [child, children]
  have cut (mark : Fault) : caseItems (cutting turn mark) (.number 0.0) (item :: rest) m =
      .error (mark, { m with calls := m.calls + 2, returned := some (.text "") }) := by
    have ran : cutting turn mark first m = _ :=
      (congrFun (cutting_plain plain mark) m).trans (returning_since plain late)
    rw [caseItems, if_neg other, found, pure_bind]
    refine (bind_of_ok ran).trans ?_
    simp only [children, isEnd, Bool.false_eq_true, if_false]
    exact bind_of_error (cutting_return returns mark)
  have failed : caseItems (returning turn) (.number 0.0) (item :: rest) m =
      .error (.rangeBounds, { m with calls := m.calls + 2, returned := some (.text "") }) := by
    rw [caseItems_range other children isEnd (returning_since plain late) (returning_return returns)]
    exact bind_of_error inRange_text
  exact not_cutsAt_of_error cut failed

theorem not_cuts_item (other : item.kind ≠ .caseOtherwise)
    (children : item.children = first :: second :: body) (plain : first.returns = false)
    (early : Node.itemReturnsLast second body = false) (late : turn ≤ m.calls) :
    ¬ CutsAt m (caseItems (returning turn) (.number 0.0) (item :: rest)) fun mark =>
      caseItems (cutting turn mark) (.number 0.0) (item :: rest) := by
  rw [Node.itemReturnsLast] at early
  cases isStatement : isCaseStatement second.kind with
  | true =>
    rw [if_pos isStatement] at early
    rw [cutsAt_congr
      (caseItems_apply_statement (fun _ _ => rfl) other children plain isStatement late)
      fun mark => caseItems_apply_statement (fun _ plain => cutting_plain plain mark) other children
        plain isStatement late]
    exact not_cuts_sequence _ _ _ early
  | false =>
    rw [isStatement, if_neg (by decide)] at early
    cases returns : second.returns with
    | true => exact not_cuts_range other children plain isStatement returns late
    | false =>
      rw [returns, Bool.not_false, Bool.true_and] at early
      rw [cutsAt_congr
        (caseItems_apply_range (fun _ _ => rfl) other children plain isStatement returns late)
        fun mark => caseItems_apply_range (fun _ plain => cutting_plain plain mark) other children
          plain isStatement returns late]
      exact not_cuts_sequence _ _ _ early

theorem overrun_later (other : item.kind ≠ .caseOtherwise) (children : item.children = first :: tail)
    (plain : first.returns = false)
    (plainEnd : ∀ second body, tail = second :: body → isCaseStatement second.kind = false →
      second.returns = false)
    (later : ∀ m : Machine, ∃ turn ≥ m.calls,
      ¬ CutsAt m (caseItems (returning turn) (.number 0.0) rest) fun mark =>
        caseItems (cutting turn mark) (.number 0.0) rest) :
    ∃ turn ≥ m.calls, ¬ CutsAt m (caseItems (returning turn) (.number 0.0) (item :: rest)) fun mark =>
      caseItems (cutting turn mark) (.number 0.0) (item :: rest) := by
  obtain ⟨turn, bound, overrun⟩ := later { m with calls := m.calls + itemVisits tail }
  dsimp only at bound
  refine ⟨turn, by omega, ?_⟩
  rwa [cutsAt_congr (caseItems_skip (fun _ _ => rfl) other children plain plainEnd bound)
    fun mark => caseItems_skip (fun _ plain => cutting_plain plain mark) other children plain
      plainEnd bound]

theorem exists_overrun {items : List Node}
    (standing : ∀ item ∈ items, item.kind ≠ .caseOtherwise →
      ∀ part, item.children[0]? = some part → part.returns = false)
    (early : Node.itemsReturnLast items = false) (m : Machine) :
    ∃ turn ≥ m.calls, ¬ CutsAt m (caseItems (returning turn) (.number 0.0) items) fun mark =>
      caseItems (cutting turn mark) (.number 0.0) items := by
  induction items generalizing m with
  | nil => cases early
  | cons item rest ih =>
    have later := ih fun item member => standing item (by simp [member])
    rw [Node.itemsReturnLast, Bool.or_eq_false_iff, decide_eq_false_iff_not] at early
    obtain ⟨other, early⟩ := early
    have standing := standing item (by simp) other
    cases children : item.children with
    | nil =>
      rw [children] at early
      cases early
    | cons first tail =>
      have plain := standing first (by simp [children])
      rw [children] at early
      cases tail with
      | nil =>
        refine overrun_later other children plain (fun _ _ same => ?_) (later early)
        cases same
      | cons second body =>
        cases here : Node.itemReturnsLast second body with
        | false =>
          exact ⟨m.calls, Nat.le_refl _, not_cuts_item other children plain here (Nat.le_refl _)⟩
        | true =>
          have below : Node.itemsReturnLast rest = false := by simpa [here] using early
          refine overrun_later other children plain (fun _ _ same isEnd => ?_) (later below)
          cases same
          rw [Node.itemReturnsLast, isEnd, if_neg (by decide), Bool.and_eq_true,
            Bool.not_eq_true'] at here
          exact here.1

end Items

theorem not_passesReturnOn {node : Node}
    (standing : ∀ test ∈ node.tests, test.returns = false) (early : node.returnsLast = false) :
    ¬ PassesReturnOn node := by
  intro passes
  let around : Surroundings := ⟨Library.disk [], "", 0⟩
  have cuts (turn : Nat) (m : Machine) :=
    passes around 0 (returning turn) (cutting turn) (fun part _ => cutOff_cutting turn part) m
  unfold Node.returnsLast at early
  split at early
  next isCase =>
    let m : Machine := { Machine.initial with scopes := Scopes.initial.set node.name (.number 0.0) }
    have found : lookup .variable node.name m = .ok (.number 0.0, m) := by
      simp [lookup, m, Scopes.find?, Scopes.findIn, Scopes.set, Table.find?_set]
    obtain ⟨turn, _, overrun⟩ := exists_overrun (fun item member other part found =>
      standing part (Node.mem_tests_of_item isCase member other found)) early m
    have cut := cuts turn m
    simp only [step, isCase] at cut
    exact overrun ((cutsAt_congr (bind_of_ok found) fun mark => bind_of_ok found).mp cut)
  next isOtherwise =>
    have cut := cuts 0 Machine.initial
    simp only [step, isOtherwise] at cut
    exact not_cuts_sequence _ _ _ early cut
  next => cases early

end Pseudocode
