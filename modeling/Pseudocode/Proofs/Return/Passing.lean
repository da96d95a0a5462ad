import Pseudocode.Proofs.Call

set_option autoImplicit false

namespace Pseudocode

open Exec Eval

namespace Node

mutual

def returns : Node → Bool
  | ⟨kind, _, _, children⟩ =>
    match kind with
    | .return => true
    | .block | .ifThen | .ifElse | .forLoop | .whileLoop | .repeatUntil | .caseOtherwise =>
      anyReturns children
    | .case => anyItemReturns children
    | _ => false

def anyReturns : List Node → Bool
  | [] => false
  | node :: rest => returns node || anyReturns rest

def anyItemReturns : List Node → Bool
  | [] => false
  | ⟨_, _, _, children⟩ :: rest => anyReturns children || anyItemReturns rest

end

def Kind.isConstruct : Kind → Bool
  | .block | .ifThen | .ifElse | .forLoop | .whileLoop | .repeatUntil | .case | .caseOtherwise => true
  | _ => false

def itemParts (item : Node) : List Node :=
  if item.kind = .caseOtherwise then [item] else item.children

def parts (node : Node) : List Node :=
  match node.kind with
  | .case => node.children.flatMap itemParts
  | _ => node.children

def Kind.testPlaces : Kind → List Nat
  | .ifThen | .ifElse | .whileLoop => [0]
  | .forLoop => [0, 1, 2]
  | .repeatUntil => [1]
  | _ => []

def tests (node : Node) : List Node :=
  match node.kind with
  | .case => node.children.flatMap fun item =>
    if item.kind = .caseOtherwise then [] else item.children[0]?.toList
  | kind => kind.testPlaces.filterMap (node.children[·]?)

def lastOnly (statements : List Node) : Bool :=
  statements.dropLast.all (!·.returns)

def itemReturnsLast (second : Node) (body : List Node) : Bool :=
  if isCaseStatement second.kind then lastOnly (second :: body)
  else !second.returns && lastOnly body

def itemsReturnLast : List Node → Bool
  | [] => true
  | item :: rest =>
    item.kind = .caseOtherwise ||
      match item.children with
      | [] => true
      | [_] => itemsReturnLast rest
      | _ :: second :: body => itemReturnsLast second body && itemsReturnLast rest

/-- In the items of a case and in `OTHERWISE` only the last statement holds a `RETURN`. -/
def returnsLast (node : Node) : Bool :=
  match node.kind with
  | .case => itemsReturnLast node.children
  | .caseOtherwise => lastOnly node.children
  | _ => true

end Node

/-- Started on `m`, the second computation either does what the first does, or is cut off where the first
ends at once, with a value returned. -/
def CutsAt {α : Type} (m : Machine) (x : Exec α) (y : Fault → Exec α) : Prop :=
  (∀ mark, y mark m = x m) ∨
    ∃ v w after, (∀ mark, y mark m = .error (mark, after)) ∧ after.returned = some v ∧
      x m = .ok (w, after)

structure CutOff (rec : Node → Exec Value) (rec' : Fault → Node → Exec Value) (node : Node) : Prop where
  cuts : ∀ m, CutsAt m (rec node) (rec' · node)
  same : node.returns = false → ∀ mark, rec' mark node = rec node

/-- Where a `RETURN` cuts off a part of the construct, the construct ends at once. -/
def PassesReturnOn (node : Node) : Prop :=
  ∀ around n rec rec', (∀ part ∈ node.parts, CutOff rec rec' part) →
    ∀ m, CutsAt m (step around rec n node) fun mark => step around (rec' mark) n node

section Rules

variable {α β : Type} {m : Machine} {x : Exec α} {y : Fault → Exec α} {f : α → Exec β}
  {g : Fault → α → Exec β}

theorem CutsAt.same (equal : ∀ mark, y mark m = x m) : CutsAt m x y := .inl equal

theorem CutsAt.after (equal : ∀ mark, y mark m = x m)
    (next : ∀ a after, x m = .ok (a, after) → CutsAt after (f a) fun mark => g mark a) :
    CutsAt m (x >>= f) fun mark => y mark >>= g mark := by
  unfold CutsAt
  simp only [bind_apply, equal]
  cases ran : x m with
  | ok found => exact next found.1 found.2 ran
  | error cause => exact .inl fun _ => rfl
  | unfinished => exact .inl fun _ => rfl

theorem CutsAt.bind (first : CutsAt m x y)
    (stops : ∀ a after v, after.returned = some v → ∃ w, f a after = .ok (w, after))
    (next : ∀ a after, CutsAt after (f a) fun mark => g mark a) :
    CutsAt m (x >>= f) fun mark => y mark >>= g mark := by
  rcases first with equal | ⟨v, w, after, cut, returned, ended⟩
  · exact .after equal fun a after _ => next a after
  · obtain ⟨w', stopped⟩ := stops w after v returned
    refine .inr ⟨v, w', after, fun mark => bind_of_error (cut mark), returned, ?_⟩
    exact (bind_of_ok ended).trans stopped

theorem CutsAt.ite {condition : Prop} [Decidable condition] {x' : Exec α} {y' : Fault → Exec α}
    (yes : CutsAt m x y) (no : CutsAt m x' y') :
    CutsAt m (if condition then x else x') fun mark => if condition then y mark else y' mark := by
  by_cases decided : condition
  · simpa only [if_pos decided] using yes
  · simpa only [if_neg decided] using no

end Rules

section Constructs

variable {rec : Node → Exec Value} {rec' : Fault → Node → Exec Value} {node : Node} {m : Machine}

theorem child_eq_ok {position : Nat} {part : Node} {after : Machine}
    (ran : child node position m = .ok (part, after)) : node.children[position]? = some part := by
  cases found : node.children[position]? with
  | some other =>
    simp only [child, found] at ran
    cases ran
    rfl
  | none =>
    simp only [child, found] at ran
    cases ran

theorem CutsAt.test {α : Type} {part : Node} {f : Value → Exec α} {g : Fault → Value → Exec α}
    (cutOff : CutOff rec rec' part) (plain : part.returns = false)
    (next : ∀ value after, CutsAt after (f value) fun mark => g mark value) :
    CutsAt m (rec part >>= f) fun mark => rec' mark part >>= g mark := by
  refine .after (fun mark => ?_) fun value after _ => next value after
  rw [cutOff.same plain mark]

theorem CutsAt.looked {part : Node} {f : Value → Exec Value} {g : Fault → Value → Exec Value}
    (cutOff : CutOff rec rec' part)
    (next : ∀ value after, CutsAt after (f value) fun mark => g mark value) :
    CutsAt m
      (rec part >>= fun value => read (·.returned) >>= fun found =>
        match found with
        | some result => pure result
        | none => f value)
      fun mark => rec' mark part >>= fun value => read (·.returned) >>= fun found =>
        match found with
        | some result => pure result
        | none => g mark value := by
  refine (cutOff.cuts m).bind ?_ ?_
  · intro value after v returned
    refine ⟨v, ?_⟩
    rw [bind_apply]
    simp only [Exec.read, returned]
    rfl
  · intro value after
    refine .after (fun _ => rfl) fun found middle _ => ?_
    cases found with
    | some result => exact .same fun _ => rfl
    | none => exact next value middle

theorem cuts_block {statements : List Node} {last : Value}
    (cutOff : ∀ part ∈ statements, CutOff rec rec' part) :
    CutsAt m (block rec statements last) fun mark => block (rec' mark) statements last := by
  induction statements generalizing m last with
  | nil => exact .same fun _ => rfl
  | cons statement rest ih =>
    apply CutsAt.looked (cutOff statement (by simp))
    intro value after
    exact ih fun part member => cutOff part (by simp [member])

theorem cuts_sequence {statements : List Node} {last : Value}
    (cutOff : ∀ part ∈ statements, CutOff rec rec' part) (lastOnly : Node.lastOnly statements = true) :
    CutsAt m (sequence rec statements last) fun mark => sequence (rec' mark) statements last := by
  induction statements generalizing m last with
  | nil => exact .same fun _ => rfl
  | cons statement rest ih =>
    have here := cutOff statement (by simp)
    have below := fun part member => cutOff part (List.mem_cons_of_mem statement member)
    cases rest with
    | nil => exact (here.cuts m).bind (fun value _ _ _ => ⟨value, rfl⟩) fun _ _ => .same fun _ => rfl
    | cons second others =>
      simp only [Node.lastOnly, List.dropLast_cons_cons, List.all_cons, Bool.and_eq_true,
        Bool.not_eq_true'] at lastOnly ih
      exact .test here lastOnly.1 fun value after => ih below lastOnly.2

section Children

variable (cutOff : ∀ part ∈ node.children, CutOff rec rec' part)
include cutOff

theorem cuts_part (position : Nat) :
    CutsAt m (child node position >>= fun part => rec part) fun mark =>
      child node position >>= fun part => rec' mark part :=
  .after (fun _ => rfl) fun part after ran =>
    (cutOff part (List.mem_of_getElem? (child_eq_ok ran))).cuts after

theorem CutsAt.testAt {α : Type} {position : Nat} {f : Value → Exec α} {g : Fault → Value → Exec α}
    (plain : ∀ part, node.children[position]? = some part → part.returns = false)
    (next : ∀ value after, CutsAt after (f value) fun mark => g mark value) :
    CutsAt m (child node position >>= fun part => rec part >>= f) fun mark =>
      child node position >>= fun part => rec' mark part >>= g mark := by
  refine .after (fun _ => rfl) fun part after ran => ?_
  have found := child_eq_ok ran
  exact .test (cutOff part (List.mem_of_getElem? found)) (plain part found) next

theorem cuts_ifThen (plain : ∀ part, node.children[0]? = some part → part.returns = false) :
    CutsAt m (ifThen rec node) fun mark => ifThen (rec' mark) node := by
  apply CutsAt.testAt cutOff plain
  intro condition after
  refine .after (fun _ => rfl) fun holds middle _ => ?_
  exact .ite (cuts_part cutOff 1) (.same fun _ => rfl)

theorem cuts_ifElse (plain : ∀ part, node.children[0]? = some part → part.returns = false) :
    CutsAt m (ifElse rec node) fun mark => ifElse (rec' mark) node := by
  apply CutsAt.testAt cutOff plain
  intro condition after
  refine .after (fun _ => rfl) fun holds middle _ => ?_
  exact .ite (cuts_part cutOff 1) (cuts_part cutOff 2)

end Children

theorem cuts_whileRounds {condition body : Node} (conditionCut : CutOff rec rec' condition)
    (bodyCut : CutOff rec rec' body) (plain : condition.returns = false) (n : Nat) (last : Value) :
    CutsAt m (whileRounds rec condition body n last) fun mark =>
      whileRounds (rec' mark) condition body n last := by
  induction n generalizing m last with
  | zero => exact .same fun _ => rfl
  | succ n ih =>
    apply CutsAt.test conditionCut plain
    intro value after
    refine .after (fun _ => rfl) fun holds middle _ => ?_
    refine .ite (.looked bodyCut ?_) (.same fun _ => rfl)
    exact fun value after => ih value

theorem cuts_repeatRounds {body condition : Node} (bodyCut : CutOff rec rec' body)
    (conditionCut : CutOff rec rec' condition) (plain : condition.returns = false) (n : Nat) :
    CutsAt m (repeatRounds rec body condition n) fun mark =>
      repeatRounds (rec' mark) body condition n := by
  induction n generalizing m with
  | zero => exact .same fun _ => rfl
  | succ n ih =>
    apply CutsAt.looked bodyCut
    intro value after
    apply CutsAt.test conditionCut plain
    intro found after
    refine .after (fun _ => rfl) fun holds middle _ => ?_
    exact .ite (.same fun _ => rfl) ih

theorem cuts_forRounds {name : Option String} {final : Value} {increment : Float} {body : Node}
    (bodyCut : CutOff rec rec' body) (n : Nat) (last : Value) :
    CutsAt m (forRounds rec name final increment body n last) fun mark =>
      forRounds (rec' mark) name final increment body n last := by
  induction n generalizing m last with
  | zero => exact .same fun _ => rfl
  | succ n ih =>
    refine .after (fun _ => rfl) fun x middle _ => .after (fun _ => rfl) fun bound middle _ => ?_
    refine .ite (.looked bodyCut ?_) (.same fun _ => rfl)
    intro value after
    refine .after (fun _ => rfl) fun x middle _ => .after (fun _ => rfl) fun _ middle _ => ?_
    exact ih value

theorem cuts_forLoop (cutOff : ∀ part ∈ node.children, CutOff rec rec' part)
    (plain : ∀ position < 3, ∀ part, node.children[position]? = some part → part.returns = false)
    (n : Nat) : CutsAt m (forLoop rec n node) fun mark => forLoop (rec' mark) n node := by
  apply CutsAt.testAt cutOff (plain 0 (by omega))
  intro start after
  apply CutsAt.testAt cutOff (plain 1 (by omega))
  intro final after
  apply CutsAt.testAt cutOff (plain 2 (by omega))
  intro increment after
  refine .after (fun _ => rfl) fun body middle ran => ?_
  -- The bounds have been evaluated; what is left before the first round reads no node.
  refine .after (fun _ => rfl) fun _ middle _ => .after (fun _ => rfl) fun _ middle _ => ?_
  refine .after (fun _ => rfl) fun _ middle _ => .after (fun _ => rfl) fun _ middle _ => ?_
  refine .after (fun _ => rfl) fun _ middle _ => ?_
  exact cuts_forRounds (cutOff body (List.mem_of_getElem? (child_eq_ok ran))) n .empty

theorem cuts_whileLoop (cutOff : ∀ part ∈ node.children, CutOff rec rec' part)
    (plain : ∀ part, node.children[0]? = some part → part.returns = false) (n : Nat) :
    CutsAt m (whileLoop rec n node) fun mark => whileLoop (rec' mark) n node := by
  refine .after (fun _ => rfl) fun condition middle conditionRan => ?_
  refine .after (fun _ => rfl) fun body middle bodyRan => ?_
  have conditionFound := child_eq_ok conditionRan
  exact cuts_whileRounds (cutOff condition (List.mem_of_getElem? conditionFound))
    (cutOff body (List.mem_of_getElem? (child_eq_ok bodyRan))) (plain condition conditionFound) n .empty

theorem cuts_repeatUntil (cutOff : ∀ part ∈ node.children, CutOff rec rec' part)
    (plain : ∀ part, node.children[1]? = some part → part.returns = false) (n : Nat) :
    CutsAt m (repeatUntil rec n node) fun mark => repeatUntil (rec' mark) n node := by
  refine .after (fun _ => rfl) fun body middle bodyRan => ?_
  refine .after (fun _ => rfl) fun condition middle conditionRan => ?_
  have conditionFound := child_eq_ok conditionRan
  exact cuts_repeatRounds (cutOff body (List.mem_of_getElem? (child_eq_ok bodyRan)))
    (cutOff condition (List.mem_of_getElem? conditionFound)) (plain condition conditionFound) n

theorem cuts_caseItems {subject : Value} {items : List Node}
    (cutOff : ∀ item ∈ items, ∀ part ∈ item.itemParts, CutOff rec rec' part)
    (plain : ∀ item ∈ items, item.kind ≠ .caseOtherwise →
      ∀ part, item.children[0]? = some part → part.returns = false)
    (last : Node.itemsReturnLast items = true) :
    CutsAt m (caseItems rec subject items) fun mark => caseItems (rec' mark) subject items := by
  induction items generalizing m with
  | nil => exact .same fun _ => rfl
  | cons item rest ih =>
    have here := cutOff item (by simp)
    have below (itemsLast : Node.itemsReturnLast rest = true) {m : Machine} := ih (m := m)
      (fun item member => cutOff item (by simp [member]))
      (fun item member => plain item (by simp [member])) itemsLast
    rw [Node.itemsReturnLast] at last
    by_cases isOtherwise : item.kind = .caseOtherwise
    · simp only [caseItems, if_pos isOtherwise]
      exact (here item (by simp [Node.itemParts, isOtherwise])).cuts m
    · rw [Node.itemParts, if_neg isOtherwise] at here
      simp only [isOtherwise, decide_false, Bool.false_or] at last
      simp only [caseItems, if_neg isOtherwise]
      have value := plain item (by simp) isOtherwise
      match children : item.children with
      | [] =>
        refine .after (fun _ => rfl) fun part after ran => ?_
        have found := child_eq_ok ran
        simp [children] at found
      | [first] =>
        rw [children] at last
        apply CutsAt.testAt here value
        intro value after
        refine .after (fun _ => rfl) fun equal middle _ => ?_
        exact .ite (.same fun _ => rfl) (below last)
      | first :: second :: body =>
        rw [children] at last here
        obtain ⟨lastHere, lastBelow⟩ := Bool.and_eq_true_iff.mp last
        rw [Node.itemReturnsLast] at lastHere
        rw [← children] at here
        apply CutsAt.testAt here value
        rw [children] at here
        intro value after
        dsimp only
        by_cases isStatement : isCaseStatement second.kind = true
        · rw [if_pos isStatement] at lastHere
          simp only [if_pos isStatement]
          refine .after (fun _ => rfl) fun equal middle _ => ?_
          refine .ite (cuts_sequence (fun part member => here part ?_) lastHere) (below lastBelow)
          exact List.mem_cons_of_mem _ member
        · rw [if_neg isStatement, Bool.and_eq_true, Bool.not_eq_true'] at lastHere
          simp only [if_neg isStatement]
          apply CutsAt.test (here second (by simp)) lastHere.1
          intro high after
          refine .after (fun _ => rfl) fun inside middle _ => ?_
          refine .ite (cuts_sequence (fun part member => here part ?_) lastHere.2) (below lastBelow)
          exact List.mem_cons_of_mem _ (List.mem_cons_of_mem _ member)

theorem Node.mem_tests {place : Nat} {part : Node} (other : node.kind ≠ .case)
    (isPlace : place ∈ node.kind.testPlaces) (found : node.children[place]? = some part) :
    part ∈ node.tests := by
  have tests : node.tests = node.kind.testPlaces.filterMap (node.children[·]?) := by
    unfold Node.tests
    split
    next isCase => exact absurd isCase other
    next => rfl
  rw [tests]
  exact List.mem_filterMap.mpr ⟨place, isPlace, found⟩

theorem Node.mem_tests_of_item {item part : Node} (isCase : node.kind = .case)
    (member : item ∈ node.children) (other : item.kind ≠ .caseOtherwise)
    (found : item.children[0]? = some part) : part ∈ node.tests := by
  rw [Node.tests, isCase]
  exact List.mem_flatMap.mpr ⟨item, member, by simp [other, found]⟩

theorem Node.parts_eq_children (other : node.kind ≠ .case) : node.parts = node.children := by
  unfold Node.parts
  split
  next isCase => exact absurd isCase other
  next => rfl

theorem passesReturnOn (construct : node.kind.isConstruct = true)
    (standing : ∀ test ∈ node.tests, test.returns = false) (last : node.returnsLast = true) :
    PassesReturnOn node := by
  intro around n rec rec' cutOff m
  have plain (place : Nat) (other : node.kind ≠ .case) (isPlace : place ∈ node.kind.testPlaces)
      (part : Node) (found : node.children[place]? = some part) : part.returns = false :=
    standing part (Node.mem_tests other isPlace found)
  by_cases isCase : node.kind = .case
  · simp only [step, isCase]
    refine .after (fun _ => rfl) fun subject middle _ => ?_
    apply cuts_caseItems
    · intro item member part inItem
      apply cutOff
      rw [Node.parts, isCase]
      exact List.mem_flatMap.mpr ⟨item, member, inItem⟩
    · intro item member other part found
      exact standing part (Node.mem_tests_of_item isCase member other found)
    · rwa [Node.returnsLast, isCase] at last
  · rw [Node.parts_eq_children isCase] at cutOff
    unfold step
    cases kind : node.kind with
    | block => exact cuts_block cutOff
    | ifThen => exact cuts_ifThen cutOff (plain 0 isCase (by simp [kind, Node.Kind.testPlaces]))
    | ifElse => exact cuts_ifElse cutOff (plain 0 isCase (by simp [kind, Node.Kind.testPlaces]))
    | whileLoop =>
      exact cuts_whileLoop cutOff (plain 0 isCase (by simp [kind, Node.Kind.testPlaces])) n
    | repeatUntil =>
      exact cuts_repeatUntil cutOff (plain 1 isCase (by simp [kind, Node.Kind.testPlaces])) n
    | forLoop =>
      refine cuts_forLoop cutOff (fun place below => plain place isCase ?_) n
      simp only [kind, Node.Kind.testPlaces, List.mem_cons, List.not_mem_nil]
      omega
    | caseOtherwise =>
      rw [Node.returnsLast, kind] at last
      exact cuts_sequence cutOff last
    | case => exact absurd kind isCase
    | _ =>
      rw [kind] at construct
      cases construct

end Constructs

end Pseudocode
