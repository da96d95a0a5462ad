import Pseudocode.Proofs.Call
import Pseudocode.Proofs.Case.Written
import Pseudocode.Proofs.Scan

set_option autoImplicit false

namespace Pseudocode

open Eval Exec Grammar

namespace CaseItem

/-- Whether the item applies: its value is the subject, or its range holds it. -/
def applies (rec : Node → Exec Value) (subject : Value) (item : CaseItem) : Exec Bool := do
  let value ← rec item.value
  match item.upper with
  | none => caseItems.ofOutcomeEqual subject value
  | some upper => do
    let high ← rec upper
    inRange subject value high

/-- The kind of what follows the value shows whether the item is a range. -/
def apart (item : CaseItem) : Bool :=
  match item.upper, item.body with
  | some upper, _ => !isCaseStatement upper.kind
  | none, [] => true
  | none, first :: _ => isCaseStatement first.kind

end CaseItem

namespace Case

def select (rec : Node → Exec Value) (subject : Value) : List CaseItem → Option (List Node) → Exec Value
  | [], none => pure .empty
  | [], some body => rec (otherwiseNode body)
  | item :: rest, otherwise => do
    if ← item.applies rec subject then sequence rec item.body .empty
    else select rec subject rest otherwise

def run (rec : Node → Exec Value) (written : Case) : Exec Value := do
  let subject ← lookup .variable written.subject
  select rec subject written.items written.otherwise

end Case

variable {rec : Node → Exec Value} {subject : Value} {otherwise : Option (List Node)}

theorem caseItems_item {item : CaseItem} {rest : List Node} (apart : item.apart = true) :
    caseItems rec subject (item.node :: rest) =
      item.applies rec subject >>= fun found =>
        if found then sequence rec item.body .empty else caseItems rec subject rest := by
  obtain ⟨value, upper, body⟩ := item
  have first : child (CaseItem.node ⟨value, upper, body⟩) 0 = pure value := rfl
  have kind : (CaseItem.node ⟨value, upper, body⟩).kind ≠ .caseOtherwise := nofun
  rw [caseItems, if_neg kind, first, Exec.pure_bind, CaseItem.applies, Exec.bind_assoc]
  congr 1
  funext found
  match upper, body with
  | none, [] => rfl
  | none, first :: body =>
    simp only [CaseItem.apart] at apart
    simp only [CaseItem.node, Node.of, Option.toList_none, List.cons_append, List.nil_append, apart,
      if_true]
  | some upper, body =>
    simp only [CaseItem.apart, Bool.not_eq_true'] at apart
    simp only [CaseItem.node, Node.of, Option.toList_some, List.cons_append, List.nil_append, apart,
      Bool.false_eq_true, if_false, Exec.bind_assoc]

theorem caseItems_eq_select {items : List CaseItem} (apart : ∀ item ∈ items, item.apart = true) :
    caseItems rec subject (items.map CaseItem.node ++ (otherwise.map Case.otherwiseNode).toList) =
      Case.select rec subject items otherwise := by
  induction items with
  | nil =>
    cases otherwise with
    | none => rfl
    | some body => rfl
  | cons item items ih =>
    rw [List.map_cons, List.cons_append, caseItems_item (apart item (by simp)),
      ih fun item member => apart item (by simp [member])]
    rfl

section Probe

def probe (turn : Nat) : Node → Exec Value := fun _ m =>
  let value : Value :=
    if m.calls < turn then .number 1.0 else if m.calls = turn then .number 0.0 else .text ""
  .ok (value, { m with calls := m.calls + 1 })

variable {turn : Nat} {m : Machine}

theorem probe_before (early : m.calls < turn) (node : Node) :
    probe turn node m = .ok (.number 1.0, { m with calls := m.calls + 1 }) := by
  simp [probe, early]

theorem probe_at (now : m.calls = turn) (node : Node) :
    probe turn node m = .ok (.number 0.0, { m with calls := m.calls + 1 }) := by
  simp [probe, now]

theorem probe_after (late : turn < m.calls) (node : Node) :
    probe turn node m = .ok (.text "", { m with calls := m.calls + 1 }) := by
  rw [probe, if_neg (by omega), if_neg (by omega)]

theorem sequence_probe (turn : Nat) (m : Machine) (body : List Node) (last : Value) :
    ∃ found, sequence (probe turn) body last m = .ok found := by
  induction body generalizing last m with
  | nil => exact ⟨_, rfl⟩
  | cons statement body ih => exact ih _ _

theorem inRange_below {subject low high : Value} {x y : Float} (below : ¬ x ≥ y)
    (allowed : requireNumber .rangeBounds low m = .ok ((), m) ∧
      requireNumber .rangeBounds high m = .ok ((), m) ∧
      requireNumber .rangeBounds subject m = .ok ((), m))
    (number : subject.toNumber = .ok x) (least : low.toNumber = .ok y) :
    inRange subject low high m = .ok (false, m) := by
  rw [inRange, Exec.bind_of_ok allowed.1, Exec.bind_of_ok allowed.2.1, Exec.bind_of_ok allowed.2.2,
    number, least]
  change (if x ≥ y then _ else pure false : Exec Bool) m = _
  rw [if_neg below]
  rfl

theorem inRange_text {x low : Float} {text : String} :
    inRange (.number x) (.number low) (.text text) m = .error (.rangeBounds, m) := rfl

theorem equal_numbers {x y : Float} :
    caseItems.ofOutcomeEqual (.number x) (.number y) m = .ok (x == y, m) := rfl

def CaseItem.visits (item : CaseItem) : Nat := if item.upper.isSome then 2 else 1

theorem applies_before {item : CaseItem} (early : m.calls + item.visits ≤ turn) :
    item.applies (probe turn) (.number 0.0) m =
      .ok (false, { m with calls := m.calls + item.visits }) := by
  -- Before the turn all is one, which is neither zero nor the lower end of a range that holds zero.
  obtain ⟨value, upper, body⟩ := item
  cases upper with
  | none =>
    have differ : ((0.0 : Float) == 1.0) = false := by decide
    have early : m.calls < turn := early
    rw [CaseItem.applies, Exec.bind_of_ok (probe_before early value)]
    exact equal_numbers.trans (by rw [differ]; rfl)
  | some upper =>
    have early : m.calls + 2 ≤ turn := early
    rw [CaseItem.applies, Exec.bind_of_ok (probe_before (by omega) value)]
    exact (Exec.bind_of_ok (probe_before (by dsimp only; omega) upper)).trans
      (inRange_below (x := 0.0) (y := 1.0) (by decide) ⟨rfl, rfl, rfl⟩ rfl rfl)

theorem caseItems_ne_select {item : CaseItem} {rest : List CaseItem} {nodes : List Node}
    (mixed : item.apart = false) (now : m.calls = turn) :
    caseItems (probe turn) (.number 0.0) (item.node :: nodes) m ≠
      Case.select (probe turn) (.number 0.0) (item :: rest) otherwise m := by
  have same : ((0.0 : Float) == 0.0) = true := by decide
  obtain ⟨value, upper, body⟩ := item
  have first : child (CaseItem.node ⟨value, upper, body⟩) 0 = pure value := rfl
  have kind : (CaseItem.node ⟨value, upper, body⟩).kind ≠ .caseOtherwise := nofun
  have late : turn < (Machine.calls { m with calls := m.calls + 1 }) := by dsimp only; omega
  rw [caseItems, if_neg kind, first, Exec.pure_bind, Exec.bind_of_ok (probe_at now value), Case.select,
    CaseItem.applies, Exec.bind_assoc, Exec.bind_of_ok (probe_at now value)]
  -- Taken for a range, an item compares zero with a text and faults; taken for a value, it applies.
  match upper, body with
  | none, statement :: body =>
    simp only [CaseItem.apart] at mixed
    simp only [CaseItem.node, Node.of, Option.toList_none, List.cons_append, List.nil_append, mixed,
      Bool.false_eq_true, if_false]
    rw [Exec.bind_of_ok (probe_after late statement), Exec.bind_of_error inRange_text,
      Exec.bind_of_ok equal_numbers, same, if_pos rfl]
    obtain ⟨found, ran⟩ := sequence_probe turn { m with calls := m.calls + 1 }
      (statement :: body) .empty
    rw [ran]
    nofun
  | some upper, body =>
    simp only [CaseItem.apart, Bool.not_eq_false'] at mixed
    simp only [CaseItem.node, Node.of, Option.toList_some, List.cons_append, List.nil_append, mixed,
      if_true]
    rw [Exec.bind_of_ok equal_numbers, same, if_pos rfl, Exec.bind_assoc,
      Exec.bind_of_ok (probe_after late upper), Exec.bind_of_error inRange_text]
    obtain ⟨found, ran⟩ := sequence_probe turn { m with calls := m.calls + 1 }
      (upper :: body) .empty
    rw [ran]
    nofun

theorem exists_caseItems_ne_select {items : List CaseItem} (otherwise : Option (List Node))
    (mixed : ∃ item ∈ items, item.apart = false) :
    ∃ turn ≥ m.calls, caseItems (probe turn) (.number 0.0)
        (items.map CaseItem.node ++ (otherwise.map Case.otherwiseNode).toList) m ≠
      Case.select (probe turn) (.number 0.0) items otherwise m := by
  induction items generalizing m with
  | nil => obtain ⟨_, member, _⟩ := mixed; exact absurd member (List.not_mem_nil)
  | cons item items ih =>
    cases here : item.apart with
    | false => exact ⟨m.calls, Nat.le_refl _, caseItems_ne_select here rfl⟩
    | true =>
      have later : ∃ item ∈ items, item.apart = false := by
        obtain ⟨other, member, mixed⟩ := mixed
        rcases List.mem_cons.mp member with rfl | member
        · exact absurd here (by rw [mixed]; decide)
        · exact ⟨other, member, mixed⟩
      obtain ⟨turn, late, differ⟩ := ih later (m := { m with calls := m.calls + item.visits })
      dsimp only at late
      refine ⟨turn, by omega, ?_⟩
      rw [List.map_cons, List.cons_append, caseItems_item here, Case.select, bind_apply, bind_apply,
        applies_before late]
      exact differ

end Probe

theorem caseOf_eq_run_iff (written : Case) :
    (∀ (rec : Node → Exec Value) (m : Machine), caseOf rec written.node m = written.run rec m) ↔
      ∀ item ∈ written.items, item.apart = true := by
  constructor
  · intro runs item member
    cases here : item.apart with
    | true => rfl
    | false =>
      let m : Machine :=
        { Machine.initial with scopes := Scopes.initial.set written.subject (.number 0.0) }
      have found : lookup .variable written.subject m = .ok (.number 0.0, m) := by
        simp [lookup, m, Scopes.find?, Scopes.findIn, Scopes.set, Table.find?_set]
      obtain ⟨turn, _, differ⟩ := exists_caseItems_ne_select (m := m) written.otherwise
        ⟨item, member, here⟩
      have same := runs (probe turn) m
      rw [caseOf, Case.run, Exec.bind_of_ok found] at same
      exact absurd ((Exec.bind_of_ok found).symm.trans same) differ
  · intro apart rec m
    exact congrFun (congrArg (lookup .variable written.subject >>= ·)
      (funext fun _ => caseItems_eq_select apart)) m

/-- The case statement stands in the tokens, and these are its parts. -/
def Case.WrittenIn (tokens : List Token) (written : Case) : Prop :=
  ∃ word ts rest n, word :: ts <:+ tokens ∧ word.isKeyword "CASE" ∧
    Parse.caseParts (Parse.run n) n ts = .ok (written, rest)

theorem exists_writtenIn {tokens rest : List Token} {nodes : List Node} {node : Node}
    (read : Reads (.body (·.kind == .none)) .usual (skip tokens) nodes rest)
    (inside : node.Within (Node.program nodes)) (isCase : node.kind = .case) :
    ∃ written : Case, written.WrittenIn tokens ∧ node = written.node := by
  have nodesTraced := traced read rfl (List.dropWhile_suffix _) .nil
  have treeTraced : Traced tokens [Node.program nodes] := by
    match nodes with
    | [] => exact .of_children nofun .nil
    | [statement] => exact nodesTraced
    | _ :: _ :: _ => exact .of nofun nodesTraced
  obtain ⟨word, ts, rest, n, here, isWord, accepted⟩ :=
    treeTraced _ (List.mem_singleton_self _) node inside isCase
  obtain ⟨written, parts, same⟩ := Parse.caseParts_of_caseStatement accepted
  exact ⟨written, ⟨word, ts, rest, n, here, isWord, parts⟩, same⟩

/-- Every case statement in the tree of a source text stands in the text. It runs the statements of the
first item that applies, or of `OTHERWISE`, or nothing, whatever its parts do, exactly if the kind of what
follows each value shows whether the item is a range. -/
theorem case_runs_as_written_iff {source : String} {tree node : Node}
    (read : Eval.program source = .ok tree) (inside : node.Within tree) (isCase : node.kind = .case) :
    ∃ tokens written, Token.scan source = .ok tokens ∧ Case.WrittenIn tokens written ∧
      node = written.node ∧
      ((∀ (rec : Node → Exec Value) (m : Machine), caseOf rec node m = written.run rec m) ↔
        ∀ item ∈ written.items, item.apart = true) ∧
      (∀ around n, eval around (n + 1) node = caseOf (eval around n) node) ∧
      ∀ around n body, eval around (n + 1) (Case.otherwiseNode body) =
        sequence (eval around n) body .empty := by
  obtain ⟨tokens, nodes, rest, scanned, accepted, rfl⟩ := Parse.program_iff.mp read
  obtain ⟨written, standing, rfl⟩ := exists_writtenIn accepted inside isCase
  exact ⟨tokens, written, scanned, standing, rfl, caseOf_eq_run_iff written, fun _ _ => rfl,
    fun _ _ _ => rfl⟩

theorem printing_case_runs_as_written :
    let source := "CASE OF s \"a\": PRINT s ENDCASE"
    let printed : CaseItem :=
      ⟨Node.named .string (some "a") [], none, [Node.of .print [Node.named .access (some "s") []]]⟩
    let node := Case.node ⟨some "s", [printed], none⟩
    Eval.program source = .ok node ∧ node.kind = .case ∧
    ∃ tokens written, Token.scan source = .ok tokens ∧ Case.WrittenIn tokens written ∧
      node = written.node ∧
      ((∀ (rec : Node → Exec Value) (m : Machine), caseOf rec node m = written.run rec m) ↔
        ∀ item ∈ written.items, item.apart = true) ∧
      (∀ around n, eval around (n + 1) node = caseOf (eval around n) node) ∧
      ∀ around n body, eval around (n + 1) (Case.otherwiseNode body) =
        sequence (eval around n) body .empty := by
  intro source printed node
  have tokens : Token.scan "CASE OF s \"a\": PRINT s ENDCASE" =
      .ok [.keyword "CASE", .keyword "OF", .identifier "s", .string "a", .mark .colon,
        .keyword "PRINT", .identifier "s", .keyword "ENDCASE"] := by
    rw [Token.scan_eq_within]
    rfl
  have read : Eval.program source = .ok node := by
    rw [Eval.program, tokens]
    rfl
  exact ⟨read, rfl, case_runs_as_written_iff read (.refl node) rfl⟩

/-- The assignment of an item that does not apply runs, since it is taken for the end of a range. -/
theorem assignment_runs_as_range_end :
    let around : Surroundings := ⟨Library.disk ["home"], "", 1000⟩
    let truth : Node := Node.named .boolean (some "TRUE") []
    let written : Case := ⟨some "v", [⟨truth, none, [Node.named .assign (some "x") [truth]]⟩], none⟩
    let tokens : List Token := [.keyword "CASE", .keyword "OF", .identifier "v", .keyword "TRUE",
      .mark .colon, .identifier "x", .mark .assign, .keyword "TRUE", .keyword "ENDCASE"]
    let m := Machine.initial.set "v" (.truth 0.0 (some "FALSE"))
    Token.scan "CASE OF v TRUE: x = TRUE ENDCASE" = .ok tokens ∧ written.WrittenIn tokens ∧
      Node.ofTokens tokens = .ok written.node ∧
      eval around 3 written.node m = .ok (.empty, m.set "x" (.truth 1.0 (some "TRUE"))) ∧
      written.run (eval around 2) m = .ok (.empty, m) := by
  intro around truth written tokens m
  have found : lookup .variable (some "v") m = .ok (.truth 0.0 (some "FALSE"), m) := rfl
  have value : eval around 2 truth m = .ok (.truth 1.0 (some "TRUE"), m) := rfl
  refine ⟨?_, ⟨.keyword "CASE", tokens.tail, [], 20, List.suffix_refl _, rfl, rfl⟩, rfl, ?_, ?_⟩
  · rw [Token.scan_eq_within]
    rfl
  · have assigned : eval around 2 (Node.named .assign (some "x") [truth]) m =
        .ok (.truth 1.0 (some "TRUE"), m.set "x" (.truth 1.0 (some "TRUE"))) := rfl
    change caseOf (eval around 2) written.node m = _
    rw [caseOf]
    refine (Exec.bind_of_ok found).trans ?_
    change caseItems _ _ [CaseItem.node ⟨truth, none, _⟩] m = _
    rw [caseItems, if_neg nofun, show child (CaseItem.node ⟨truth, none, _⟩) 0 = pure truth from rfl,
      Exec.pure_bind]
    refine (Exec.bind_of_ok value).trans ?_
    refine (Exec.bind_of_ok assigned).trans ?_
    exact Exec.bind_of_ok
      (inRange_below (x := 0.0) (y := 1.0) (by decide) ⟨rfl, rfl, rfl⟩ rfl rfl)
  · have differ : caseItems.ofOutcomeEqual (.truth 0.0 (some "FALSE")) (.truth 1.0 (some "TRUE")) m =
        .ok (false, m) := by
      change Outcome.ok ((0.0 : Float) == 1.0, m) = _
      rw [show ((0.0 : Float) == 1.0) = false by decide]
    rw [Case.run]
    refine (Exec.bind_of_ok found).trans ?_
    rw [Case.select, CaseItem.applies, Exec.bind_assoc]
    exact (Exec.bind_of_ok value).trans (Exec.bind_of_ok differ)

end Pseudocode
