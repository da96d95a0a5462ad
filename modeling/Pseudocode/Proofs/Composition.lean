import Pseudocode.Proofs.Shape.Benign

/-!
What a visit is composed of. The evaluator asks the machine and changes it in a few ways, visits other
nodes, and puts all this together part after part. Two visits of one node that visit the nodes below it in
two ways, the second with more room, are composed alike. So what is to be shown of every construct is shown
of the few ways and of two parts in a row, and nowhere else is a construct taken apart for it.
-/

set_option autoImplicit false

namespace Pseudocode

namespace Machine

def after (m : Machine) (earlier : String) : Machine :=
  { m with output := earlier ++ m.output }

end Machine

namespace Exec

/-- In what two computations that are composed alike may differ. -/
structure Leeway where
  -- Whether there may be faults that only a tree made by hand can cause.
  misfits : Prop
  -- The faults with which the first may end, whatever the second does.
  cuts : Fault → Prop
  visits : Exec Value → Exec Value → Prop

inductive Composed (L : Leeway) : {α : Type} → Exec α → Exec α → Prop where
  | pure {α : Type} (a : α) : Composed L (pure a) (pure a)
  | fail {α : Type} {cause : Fault} :
    (cause.misfit = true → L.misfits) → Composed L (fail cause : Exec α) (fail cause)
  | cut {α : Type} {cause : Fault} (y : Exec α) : L.cuts cause → Composed L (fail cause) y
  | unfinished {α : Type} (y : Exec α) : Composed L unfinished y
  | visit {x y : Exec Value} : L.visits x y → Composed L x y
  | bind {α β : Type} {x y : Exec α} {f g : α → Exec β} :
    Composed L x y → (∀ a, Composed L (f a) (g a)) → Composed L (x >>= f) (y >>= g)
  -- The output is never looked at, and only added to.
  | read {α : Type} {f : Machine → α} :
    (∀ (m : Machine) (earlier : String), f (m.after earlier) = f m) → Composed L (read f) (read f)
  | modify {f : Machine → Machine} :
    (∀ (m : Machine) (earlier : String), f (m.after earlier) = (f m).after earlier) →
      Composed L (modify f) (modify f)
  | lookup (role : Role) (name : Option String) : Composed L (lookup role name) (lookup role name)
  | reply (name : Option String) : Composed L (Eval.reply name) (Eval.reply name)
  | asked {α : Type} {x : Store → Outcome Fault α} : (∀ s, (x s).Benign) →
    Composed L (fun m => ofOutcome (x m.store) m) (fun m => ofOutcome (x m.store) m)
  | onStore {α : Type} {f : Store → Outcome Fault (α × Store)} : (∀ s, (f s).Benign) →
    Composed L (onStore f) (onStore f)
  | inCall {α : Type} {x y : Exec α} :
    Composed L x y → Composed L (Eval.inCall x) (Eval.inCall y)

variable {L : Leeway} {α : Type}

theorem composed_fail {cause : Fault} (fits : cause.misfit = false) :
    Composed L (fail cause : Exec α) (fail cause) :=
  .fail fun misfit => absurd misfit (by rw [fits]; decide)

theorem composed_ite {condition : Prop} [Decidable condition] {x y x' y' : Exec α}
    (yes : Composed L x x') (no : Composed L y y') :
    Composed L (if condition then x else y) (if condition then x' else y') := by
  split
  · exact yes
  · exact no

theorem composed_ofExcept {x : Except Fault α} (benign : Operator.Benign x) :
    Composed L (ofExcept x) (ofExcept x) := by
  cases x with
  | ok a => exact .pure a
  | error cause => exact composed_fail (benign cause rfl)

theorem composed_ofOutcome {x : Outcome Fault α} (benign : x.Benign) :
    Composed L (ofOutcome x) (ofOutcome x) :=
  .asked fun _ => benign

theorem composed_child {node : Node} {position : Nat}
    (there : ¬ L.misfits → position < node.children.length) :
    Composed L (child node position) (child node position) := by
  unfold child
  split
  · exact .pure _
  · next missing =>
    refine .fail fun _ => Classical.byContradiction fun strict => ?_
    rw [List.getElem?_eq_getElem (there strict)] at missing
    cases missing

theorem composed_assign (name : Option String) (value : Value) :
    Composed L (assign name value) (assign name value) :=
  .modify fun _ _ => rfl

theorem composed_makeList (elements : Array Value) :
    Composed L (makeList elements) (makeList elements) :=
  .onStore fun _ => Outcome.benign_ok _

theorem composed_display (value : Value) : Composed L (display value) (display value) :=
  .asked (·.benign_display value)

theorem composed_tag (value : Value) : Composed L (tag value) (tag value) :=
  composed_ofExcept (Operator.benign_tag value)

end Exec

namespace Node

def Kind.allows : Kind → Nat → Bool
  | .null, count | .number, count | .string, count | .boolean, count | .access, count
  | .input, count | .includeFile, count | .parameter, count => count == 0
  | .assign, count | .sign _, count | .return, count | .declare, count => count == 1
  | .arithmetic _, count | .comparison _, count | .connective _, count | .ifThen, count
  | .whileLoop, count | .repeatUntil, count => count == 2
  | .ifElse, count | .define, count => count == 3
  | .forLoop, count => count == 4
  | .elementAccess, count | .caseItem, count => 1 ≤ count
  | .elementAssign, count => 2 ≤ count
  | .list, _ | .call, _ | .print, _ | .block, _ | .case, _ | .caseOtherwise, _ | .parameters, _ => true
  -- The word that would make one is no keyword.
  | .read, _ => false

def Kind.visited : Kind → Bool
  -- A call reads the parameters off their nodes, and a case the parts off its items.
  | .parameters | .parameter | .caseItem => false
  | _ => true

structure Answers (node : Node) : Prop where
  visited : node.kind.visited = true
  allows : node.kind.allows node.children.length = true
  items : node.kind = .case →
    ∀ item ∈ node.children, item.kind ≠ .caseOtherwise → 1 ≤ item.children.length

end Node

namespace Eval

open Exec

variable {L : Leeway} {rec rec' : Node → Exec Value} {node : Node} {n n' : Nat} {around : Surroundings}

section Leaves

theorem composed_holds {cause : Fault} (fits : cause.misfit = false) (value : Value) :
    Composed L (holds cause value) (holds cause value) :=
  composed_ofExcept (Operator.benign_holds fits value)

theorem composed_requireNumber {cause : Fault} (fits : cause.misfit = false) (value : Value) :
    Composed L (requireNumber cause value) (requireNumber cause value) :=
  (composed_tag value).bind fun _ => composed_ite (composed_fail fits) (.pure _)

theorem composed_toNumber (value : Value) :
    Composed L (ofExcept value.toNumber) (ofExcept value.toNumber) :=
  composed_ofExcept (Operator.benign_toNumber value)

theorem composed_whole (value : Value) : Composed L (whole value) (whole value) :=
  composed_ofExcept (Operator.benign_toWhole value)

theorem composed_counter (name : Option String) : Composed L (counter name) (counter name) :=
  (Composed.lookup _ _).bind fun _ => composed_toNumber _

theorem composed_inRange (subject low high : Value) :
    Composed L (inRange subject low high) (inRange subject low high) := by
  refine (composed_requireNumber rfl _).bind fun _ => (composed_requireNumber rfl _).bind fun _ => ?_
  refine (composed_requireNumber rfl _).bind fun _ => (composed_toNumber _).bind fun _ => ?_
  refine (composed_toNumber _).bind fun _ => composed_ite ?_ (.pure _)
  exact (composed_toNumber _).bind fun _ => .pure _

theorem composed_listNamed (name : Option String) : Composed L (listNamed name) (listNamed name) := by
  refine (Composed.lookup _ _).bind fun value => (composed_tag value).bind fun _ => ?_
  split
  · exact .pure _
  · exact composed_fail rfl

theorem composed_itemsOf (reference : Nat) : Composed L (itemsOf reference) (itemsOf reference) :=
  .read fun _ _ => rfl

theorem composed_elementAt (which : Axis) (items : Array Value) (index : Int) :
    Composed L (elementAt which items index) (elementAt which items index) := by
  refine composed_ite (composed_fail rfl) ?_
  split
  · exact .pure _
  · exact composed_fail rfl

theorem composed_indexPair (row column : Value) :
    Composed L (indexPair row column) (indexPair row column) := by
  refine (composed_requireNumber rfl _).bind fun _ => (composed_requireNumber rfl _).bind fun _ => ?_
  exact (composed_whole _).bind fun _ => (composed_whole _).bind fun _ => .pure _

theorem composed_modifyList (reference : Nat) (change : Array Value → Array Value) :
    Composed L (modifyList reference change) (modifyList reference change) :=
  .modify fun _ _ => rfl

theorem composed_writeElement (which : Axis) (reference : Nat) (index : Int) (value : Value) :
    Composed L (writeElement which reference index value)
      (writeElement which reference index value) :=
  composed_ite (composed_fail rfl) (composed_modifyList _ _)

theorem composed_padRows (reference missing : Nat) :
    Composed L (padRows reference missing) (padRows reference missing) := by
  induction missing with
  | zero => exact .pure _
  | succ missing ih =>
    exact (composed_makeList _).bind fun _ => (composed_modifyList _ _).bind fun _ => ih

theorem composed_rowOf (reference row : Nat) :
    Composed L (rowOf reference row) (rowOf reference row) := by
  refine (composed_itemsOf _).bind fun items => (composed_tag _).bind fun _ => ?_
  split
  · exact .pure _
  · refine (composed_makeList _).bind fun fresh => (composed_modifyList _ _).bind fun _ => ?_
    split
    · exact .pure _
    · exact composed_fail rfl

theorem composed_writeCell (reference : Nat) (row column : Int) (value : Value) :
    Composed L (writeCell reference row column value) (writeCell reference row column value) := by
  refine composed_ite (composed_fail rfl) ((composed_itemsOf _).bind fun items => ?_)
  refine (composed_padRows _ _).bind fun _ => (composed_rowOf _ _).bind fun _ => ?_
  exact composed_writeElement _ _ _ _

theorem composed_declared (type : String) : Composed L (declared type) (declared type) :=
  composed_ite (.pure _) (composed_ite (.pure _) (composed_ite (composed_makeList _) (.pure _)))

theorem composed_declare (there : ¬ L.misfits → node.children.length = 1) :
    Composed L (declare node) (declare node) := by
  refine (composed_child (by grind)).bind fun part => ?_
  split
  · exact composed_fail rfl
  · exact (composed_declared _).bind fun _ => (composed_assign _ _).bind fun _ => .pure _

theorem composed_define (there : ¬ L.misfits → node.children.length = 3) :
    Composed L (define node) (define node) := by
  refine (composed_child (by grind)).bind fun _ => (composed_child (by grind)).bind fun _ => ?_
  refine (composed_child (by grind)).bind fun _ => ?_
  refine (Composed.onStore fun _ => Outcome.benign_ok _).bind fun _ => ?_
  exact (composed_assign _ _).bind fun _ => .pure _

theorem composed_bindArguments (parameters : List Node) (arguments : List Value) (table : Table) :
    Composed L (bindArguments parameters arguments table)
      (bindArguments parameters arguments table) := by
  induction parameters generalizing arguments table with
  | nil => exact .pure _
  | cons parameter parameters ih =>
    cases arguments with
    | nil => exact .pure _
    | cons value arguments =>
      exact (Composed.onStore fun s => s.benign_copyTo _ value).bind fun _ => ih arguments _

end Leaves

section Constructs

variable (alike : ∀ node, Composed L (rec node) (rec' node))

include alike

theorem composed_operands (there : ¬ L.misfits → node.children.length = 2) :
    Composed L (operands rec node) (operands rec' node) := by
  refine (composed_child (by grind)).bind fun left => (alike left).bind fun _ => ?_
  exact (composed_child (by grind)).bind fun right => (alike right).bind fun _ => .pure _

theorem composed_values (nodes : List Node) : Composed L (values rec nodes) (values rec' nodes) := by
  induction nodes with
  | nil => exact .pure _
  | cons node nodes ih => exact (alike node).bind fun _ => ih.bind fun _ => .pure _

theorem composed_returned {f g : Value → Exec Value} (body : Node)
    (next : ∀ value, Composed L (f value) (g value)) :
    Composed L
      (rec body >>= fun value => read (·.returned) >>= fun found =>
        match found with
        | some result => pure result
        | none => f value)
      (rec' body >>= fun value => read (·.returned) >>= fun found =>
        match found with
        | some result => pure result
        | none => g value) := by
  refine (alike body).bind fun value => (Composed.read fun _ _ => rfl).bind fun found => ?_
  cases found with
  | some result => exact .pure _
  | none => exact next value

theorem composed_block (nodes : List Node) (last : Value) :
    Composed L (block rec nodes last) (block rec' nodes last) := by
  induction nodes generalizing last with
  | nil => exact .pure _
  | cons node nodes ih => exact composed_returned alike node ih

theorem composed_sequence (nodes : List Node) (last : Value) :
    Composed L (sequence rec nodes last) (sequence rec' nodes last) := by
  induction nodes generalizing last with
  | nil => exact .pure _
  | cons node nodes ih => exact (alike node).bind fun value => ih value

theorem composed_ifThen (there : ¬ L.misfits → node.children.length = 2) :
    Composed L (ifThen rec node) (ifThen rec' node) := by
  refine (composed_child (by grind)).bind fun test => (alike test).bind fun found => ?_
  refine (composed_holds rfl _).bind fun _ => composed_ite ?_ (.pure _)
  exact (composed_child (by grind)).bind alike

theorem composed_ifElse (there : ¬ L.misfits → node.children.length = 3) :
    Composed L (ifElse rec node) (ifElse rec' node) := by
  refine (composed_child (by grind)).bind fun test => (alike test).bind fun found => ?_
  refine (composed_holds rfl _).bind fun _ => composed_ite ?_ ?_
  · exact (composed_child (by grind)).bind alike
  · exact (composed_child (by grind)).bind alike

theorem composed_whileRounds (condition body : Node) (more : n ≤ n') (last : Value) :
    Composed L (whileRounds rec condition body n last) (whileRounds rec' condition body n' last) := by
  -- On the rounds of the first loop: without any left it is cut off, and then nothing is asked.
  induction n generalizing n' last with
  | zero => exact .unfinished _
  | succ n ih =>
    obtain ⟨n', rfl⟩ : ∃ k, n' = k + 1 := ⟨n' - 1, by omega⟩
    refine (alike condition).bind fun _ => (composed_holds rfl _).bind fun _ => ?_
    exact composed_ite (composed_returned alike body fun value => ih (by omega) value) (.pure _)

theorem composed_whileLoop (there : ¬ L.misfits → node.children.length = 2) (more : n ≤ n') :
    Composed L (whileLoop rec n node) (whileLoop rec' n' node) :=
  (composed_child (by grind)).bind fun _ => (composed_child (by grind)).bind fun _ =>
    composed_whileRounds alike _ _ more _

theorem composed_repeatRounds (body condition : Node) (more : n ≤ n') :
    Composed L (repeatRounds rec body condition n) (repeatRounds rec' body condition n') := by
  induction n generalizing n' with
  | zero => exact .unfinished _
  | succ n ih =>
    obtain ⟨n', rfl⟩ : ∃ k, n' = k + 1 := ⟨n' - 1, by omega⟩
    refine composed_returned alike body fun value => ?_
    refine (alike condition).bind fun _ => (composed_holds rfl _).bind fun _ => ?_
    exact composed_ite (.pure _) (ih (by omega))

theorem composed_repeatUntil (there : ¬ L.misfits → node.children.length = 2) (more : n ≤ n') :
    Composed L (repeatUntil rec n node) (repeatUntil rec' n' node) :=
  (composed_child (by grind)).bind fun _ => (composed_child (by grind)).bind fun _ =>
    composed_repeatRounds alike _ _ more

theorem composed_forRounds (name : Option String) (final : Value) (increment : Float) (body : Node)
    (more : n ≤ n') (last : Value) :
    Composed L (forRounds rec name final increment body n last)
      (forRounds rec' name final increment body n' last) := by
  induction n generalizing n' last with
  | zero => exact .unfinished _
  | succ n ih =>
    obtain ⟨n', rfl⟩ : ∃ k, n' = k + 1 := ⟨n' - 1, by omega⟩
    refine (composed_counter name).bind fun _ => (composed_toNumber final).bind fun _ => ?_
    refine composed_ite (composed_returned alike body fun value => ?_) (.pure _)
    refine (composed_counter name).bind fun _ => (composed_assign _ _).bind fun _ => ?_
    exact ih (by omega) value

theorem composed_forLoop (there : ¬ L.misfits → node.children.length = 4) (more : n ≤ n') :
    Composed L (forLoop rec n node) (forLoop rec' n' node) := by
  refine (composed_child (by grind)).bind fun start => (alike start).bind fun _ => ?_
  refine (composed_child (by grind)).bind fun final => (alike final).bind fun _ => ?_
  refine (composed_child (by grind)).bind fun increment => (alike increment).bind fun _ => ?_
  refine (composed_child (by grind)).bind fun body => (composed_requireNumber rfl _).bind fun _ => ?_
  refine (composed_requireNumber rfl _).bind fun _ => (composed_requireNumber rfl _).bind fun _ => ?_
  refine (composed_assign _ _).bind fun _ => (composed_toNumber _).bind fun _ => ?_
  exact composed_forRounds alike _ _ _ _ more _

theorem composed_caseItems (subject : Value) {items : List Node}
    (there : ¬ L.misfits → ∀ item ∈ items, item.kind ≠ .caseOtherwise → 1 ≤ item.children.length) :
    Composed L (caseItems rec subject items) (caseItems rec' subject items) := by
  have equal (v w : Value) :
      Composed L (caseItems.ofOutcomeEqual v w) (caseItems.ofOutcomeEqual v w) :=
    .asked (·.benign_equal v w)
  induction items with
  | nil => exact .pure _
  | cons item rest ih =>
    have ih := ih fun strict item member => there strict item (by simp [member])
    unfold caseItems
    split
    · exact alike item
    -- Of any other item the first child is asked for.
    next other =>
    have first : ¬ L.misfits → 0 < item.children.length := fun strict => there strict item (by simp) other
    refine (composed_child first).bind fun part => (alike part).bind fun value => ?_
    split
    · refine composed_ite ?_ ?_
      · refine (equal subject value).bind fun _ => composed_ite ?_ ih
        exact composed_sequence alike _ _
      · refine (alike _).bind fun high => (composed_inRange _ _ _).bind fun _ => ?_
        exact composed_ite (composed_sequence alike _ _) ih
    · exact (equal subject value).bind fun _ => composed_ite (.pure _) ih

theorem composed_connective (there : ¬ L.misfits → node.children.length = 2) (op : Connective) :
    Composed L (connective rec op node) (connective rec' op node) := by
  refine (composed_child (by grind)).bind fun left => (alike left).bind fun _ => ?_
  refine (composed_ofExcept (Operator.benign_decided _ _)).bind fun found => ?_
  cases found with
  | some result => exact .pure _
  | none =>
    refine (composed_child (by grind)).bind fun right => (alike right).bind fun _ => ?_
    exact composed_ofExcept (Operator.benign_connective _ _ _)

theorem composed_runBody (f : Function) (table : Table) :
    Composed L (runBody rec f table) (runBody rec' f table) := by
  refine (Composed.read fun _ _ => rfl).bind fun pending => ?_
  refine (Composed.modify fun _ _ => rfl).bind fun _ => (alike f.body).bind fun _ => ?_
  refine (Composed.read fun _ _ => rfl).bind fun found => ?_
  cases found with
  | some value => exact (Composed.modify fun _ _ => rfl).bind fun _ => .pure _
  | none => exact (alike f.result).bind fun _ => (Composed.modify fun _ _ => rfl).bind fun _ => .pure _

theorem composed_apply (name : Option String) (f : Function) (arguments : List Value) :
    Composed L (apply rec name f arguments) (apply rec' name f arguments) :=
  composed_ite (composed_fail rfl)
    ((composed_bindArguments _ _ _).bind fun _ => composed_runBody alike _ _)

theorem composed_call {limit limit' : Int}
    (higher : limit = limit' ∨ limit ≤ limit' ∧ L.cuts (.depth limit)) (node : Node) :
    Composed L (call rec limit node) (call rec' limit' node) := by
  refine (Composed.read fun _ _ => rfl).bind fun calls => ?_
  by_cases reached : (calls : Int) ≥ limit
  · rw [if_pos reached]
    rcases higher with rfl | ⟨_, cuts⟩
    · rw [if_pos reached]
      exact composed_fail rfl
    · exact .cut _ cuts
  · -- Where the lower limit lets the call through, so does the higher one.
    have below : ¬ (calls : Int) ≥ limit' := by omega
    rw [if_neg reached, if_neg below]
    refine (Composed.lookup _ _).bind fun value => (composed_tag value).bind fun _ => ?_
    split
    · exact (composed_values alike _).bind fun _ => .inCall (composed_apply alike _ _ _)
    · exact composed_fail rfl

theorem composed_returnValue (there : ¬ L.misfits → node.children.length = 1) :
    Composed L (returnValue rec node) (returnValue rec' node) := by
  refine (composed_child (by grind)).bind fun part => (alike part).bind fun _ => ?_
  refine (Composed.onStore fun _ => Outcome.benign_ok _).bind fun _ => ?_
  exact (Composed.modify fun _ _ => rfl).bind fun _ => .pure _

theorem composed_elementAccess (node : Node) :
    Composed L (elementAccess rec node) (elementAccess rec' node) := by
  refine (composed_listNamed _).bind fun reference => ?_
  split
  · refine (alike _).bind fun _ => (composed_requireNumber rfl _).bind fun _ => ?_
    refine (composed_whole _).bind fun _ => (composed_itemsOf _).bind fun _ => ?_
    exact composed_elementAt _ _ _
  · refine (alike _).bind fun _ => (alike _).bind fun _ => (composed_indexPair _ _).bind fun pair => ?_
    refine (composed_itemsOf _).bind fun _ => (composed_elementAt _ _ _).bind fun row => ?_
    split
    · exact (composed_itemsOf _).bind fun _ => composed_elementAt _ _ _
    · exact composed_fail rfl
  · exact composed_fail rfl

theorem composed_elementAssign (there : ¬ L.misfits → 2 ≤ node.children.length) :
    Composed L (elementAssign rec node) (elementAssign rec' node) := by
  refine (composed_listNamed _).bind fun reference => ?_
  split
  next none =>
    refine .fail fun _ => Classical.byContradiction fun strict => ?_
    have some := there strict
    rw [List.getLast?_eq_none_iff.mp none] at some
    simp at some
  · refine (alike _).bind fun value => ?_
    split
    · refine (alike _).bind fun _ => (composed_requireNumber rfl _).bind fun _ => ?_
      exact (composed_whole _).bind fun _ => (composed_writeElement _ _ _ _).bind fun _ => .pure _
    · refine (alike _).bind fun _ => (alike _).bind fun _ => ?_
      refine (composed_indexPair _ _).bind fun pair => ?_
      exact (composed_writeCell _ _ _ _).bind fun _ => .pure _
    · exact composed_fail rfl

theorem composed_displays (nodes : List Node) :
    Composed L (displays rec nodes) (displays rec' nodes) := by
  induction nodes with
  | nil => exact .pure _
  | cons node nodes ih =>
    refine (alike node).bind fun _ => (composed_display _).bind fun _ => ?_
    exact ih.bind fun _ => .pure _

theorem composed_print (node : Node) : Composed L (print rec node) (print rec' node) := by
  refine (composed_displays alike _).bind fun texts => ?_
  -- The line comes at the end, so what was there before stays in front.
  refine (Composed.modify fun m _ => ?_).bind fun _ => .pure _
  simp only [Machine.after, String.append_assoc]

theorem composed_readFile (loose : L.misfits) (limit : Int) (node : Node) :
    Composed L (readFile around rec node) (readFile { around with limit } rec' node) := by
  refine composed_ite (.fail fun _ => loose) ?_
  refine (composed_child (absurd loose)).bind fun part => (alike part).bind fun _ => ?_
  refine (composed_display _).bind fun name => ?_
  dsimp only
  split
  · exact .pure _
  · exact composed_fail rfl

theorem composed_includeFile (limit : Int) (node : Node) :
    Composed L (includeFile around rec node) (includeFile { around with limit } rec' node) := by
  unfold includeFile
  split
  · exact composed_fail rfl
  · refine (composed_ofExcept (benign_included around _)).bind fun _ => ?_
    exact (composed_ofOutcome (benign_program _)).bind alike

theorem composed_step {limit : Int} (more : n ≤ n')
    (higher : around.limit = limit ∨ around.limit ≤ limit ∧ L.cuts (.depth around.limit))
    (answers : ¬ L.misfits → node.Answers) :
    Composed L (step around rec n node) (step { around with limit } rec' n' node) := by
  have visited (strict : ¬ L.misfits) := (answers strict).visited
  have allows (strict : ¬ L.misfits) := (answers strict).allows
  unfold step
  generalize kind : node.kind = found at allows visited ⊢
  cases found with
  | null | string | boolean => exact .pure _
  | number => exact .onStore fun _ => Outcome.benign_ok _
  | list => exact (composed_values alike _).bind fun _ => composed_makeList _
  | access => exact .lookup _ _
  | assign =>
    have there (strict : ¬ L.misfits) : 0 < node.children.length := by grind [beq_iff_eq.mp (allows strict)]
    refine (composed_child there).bind fun part => (alike part).bind fun _ => ?_
    exact (composed_assign _ _).bind fun _ => .pure _
  | sign op =>
    have there (strict : ¬ L.misfits) : 0 < node.children.length := by grind [beq_iff_eq.mp (allows strict)]
    refine (composed_child there).bind fun part => (alike part).bind fun _ => ?_
    exact composed_ofExcept (Operator.benign_sign _ _)
  | arithmetic op =>
    refine (composed_operands alike fun strict => beq_iff_eq.mp (allows strict)).bind fun _ => ?_
    exact .onStore fun s => Operator.benign_arithmetic _ s _ _
  | comparison op =>
    refine (composed_operands alike fun strict => beq_iff_eq.mp (allows strict)).bind fun _ => ?_
    exact .onStore fun s => Outcome.benign_ofExcept (Operator.benign_comparison _ s _ _)
  | connective op => exact composed_connective alike (fun strict => beq_iff_eq.mp (allows strict)) op
  | ifThen => exact composed_ifThen alike fun strict => beq_iff_eq.mp (allows strict)
  | ifElse => exact composed_ifElse alike fun strict => beq_iff_eq.mp (allows strict)
  | forLoop => exact composed_forLoop alike (fun strict => beq_iff_eq.mp (allows strict)) more
  | whileLoop => exact composed_whileLoop alike (fun strict => beq_iff_eq.mp (allows strict)) more
  | repeatUntil => exact composed_repeatUntil alike (fun strict => beq_iff_eq.mp (allows strict)) more
  | block => exact composed_block alike _ _
  | print => exact composed_print alike _
  -- No number of children fits a node that reads a file.
  | read => exact composed_readFile alike (Classical.byContradiction fun strict => nomatch allows strict) _ _
  | input => exact (Composed.reply _).bind fun _ => (composed_assign _ _).bind fun _ => .pure _
  | includeFile => exact composed_includeFile alike _ _
  | «return» => exact composed_returnValue alike fun strict => beq_iff_eq.mp (allows strict)
  | define => exact composed_define fun strict => beq_iff_eq.mp (allows strict)
  | parameters | parameter | caseItem =>
    exact .fail fun _ => Classical.byContradiction fun strict => nomatch visited strict
  | call => exact composed_call alike higher _
  | case =>
    exact (Composed.lookup _ _).bind fun subject =>
      composed_caseItems alike subject fun strict => (answers strict).items kind
  | caseOtherwise => exact composed_sequence alike _ _
  | declare => exact composed_declare fun strict => beq_iff_eq.mp (allows strict)
  | elementAccess => exact composed_elementAccess alike _
  | elementAssign => exact composed_elementAssign alike fun strict => of_decide_eq_true (allows strict)

end Constructs

end Eval

end Pseudocode
