import Pseudocode.Proofs.Return.Overrun
import Pseudocode.Session

set_option autoImplicit false

namespace Pseudocode

open Exec Eval

namespace Node

inductive PartOf : Node → Node → Prop where
  | refl (node : Node) : PartOf node node
  | deeper {inner part outer : Node} : outer.kind.isConstruct = true → part ∈ outer.parts →
    PartOf inner part → PartOf inner outer

def allParts (test : Node → Bool) : Nat → Node → Bool
  | 0, _ => false
  | n + 1, node => test node && (!node.kind.isConstruct || node.parts.all (allParts test n))

theorem of_allParts {test : Node → Bool} {n : Nat} {inner outer : Node}
    (all : allParts test n outer = true) (within : inner.PartOf outer) : test inner = true := by
  induction within generalizing n with
  | refl =>
    cases n with
    | zero => cases all
    | succ n => exact (Bool.and_eq_true_iff.mp all).1
  | deeper construct member _ ih =>
    cases n with
    | zero => cases all
    | succ n =>
      rw [allParts, construct, Bool.not_true, Bool.false_or, Bool.and_eq_true] at all
      exact ih (List.all_eq_true.mp all.2 _ member)

theorem isConstruct_of_returns {node : Node} (returns : node.returns = true)
    (other : node.kind ≠ .return) : node.kind.isConstruct = true := by
  obtain ⟨kind, _, _, children⟩ := node
  cases kind with
  | «return» => exact absurd rfl other
  | block | ifThen | ifElse | forLoop | whileLoop | repeatUntil | case | caseOtherwise => rfl
  | _ => simp [Node.returns] at returns

theorem returnsLast_of_not_isConstruct {node : Node} (other : node.kind.isConstruct = false) :
    node.returnsLast = true := by
  unfold returnsLast
  cases kind : node.kind with
  | case | caseOtherwise =>
    rw [kind] at other
    cases other
  | _ => rfl

end Node

namespace Eval

/-- Runs a tree and fails with the mark as soon as a `RETURN` among its statements has been executed. -/
def untilReturn (around : Surroundings) (mark : Fault) : Nat → Node → Exec Value
  | 0, _ => unfinished
  | n + 1, node =>
    if node.kind = .return then do
      let _ ← eval around (n + 1) node
      fail mark
    else if node.returns then step around (untilReturn around mark n) n node
    else eval around (n + 1) node

variable {around : Surroundings} {n : Nat} {node : Node} {m after : Machine} {v : Value}

theorem returned_of_return (isReturn : node.kind = .return)
    (ran : eval around (n + 1) node m = .ok (v, after)) : after.returned = some v := by
  have ran : returnValue (eval around n) node m = .ok (v, after) := by
    rwa [eval, step, isReturn] at ran
  obtain ⟨part, _, _, ran⟩ := bind_eq_ok.mp ran
  obtain ⟨value, _, _, ran⟩ := bind_eq_ok.mp ran
  obtain ⟨value, _, _, ran⟩ := bind_eq_ok.mp ran
  obtain ⟨_, last, set, ran⟩ := bind_eq_ok.mp ran
  cases set
  cases ran
  rfl

theorem cutOff_untilReturn
    (passes : ∀ part, part.PartOf node → part.kind.isConstruct = true → PassesReturnOn part) (n : Nat) :
    CutOff (eval around n) (fun mark => untilReturn around mark n) node := by
  induction n generalizing node with
  | zero => exact ⟨fun _ => .same fun _ => rfl, fun _ _ => rfl⟩
  | succ n ih =>
    by_cases isReturn : node.kind = .return
    · constructor
      · intro m
        simp only [untilReturn, if_pos isReturn]
        cases ran : eval around (n + 1) node m with
        | ok found =>
          refine .inr ⟨found.1, found.1, found.2, fun mark => bind_of_ok ran, ?_, ran⟩
          exact returned_of_return isReturn ran
        | error cause => exact .same fun mark => (bind_of_error ran).trans ran.symm
        | unfinished => exact .same fun mark => by rw [bind_apply, ran]
      · intro plain
        obtain ⟨kind, _, _, children⟩ := node
        obtain rfl : kind = .return := isReturn
        simp [Node.returns] at plain
    · cases returns : node.returns with
      | true =>
        have construct := Node.isConstruct_of_returns returns isReturn
        refine ⟨fun m => ?_, fun plain => by rw [plain] at returns; cases returns⟩
        simp only [untilReturn, if_neg isReturn, returns, if_true]
        apply passes node (.refl node) construct
        intro part member
        exact ih fun inner within => passes inner (.deeper construct member within)
      | false =>
        have same (mark : Fault) : untilReturn around mark (n + 1) node = eval around (n + 1) node := by
          rw [untilReturn, if_neg isReturn, returns]
          rfl
        exact ⟨fun m => .same fun mark => congrFun (same mark) m, fun _ => same⟩

theorem bodyValue_of_cut {f : Function}
    (cut : CutOff (eval around n) (fun mark => untilReturn around mark n) f.body) (m : Machine) :
    (∀ mark, untilReturn around mark n f.body m = eval around n f.body m) ∨
      ∃ v after, (∀ mark, untilReturn around mark n f.body m = .error (mark, after)) ∧
        after.returned = some v ∧ bodyValue (eval around n) f m = .ok (v, after) := by
  rcases cut.cuts m with same | ⟨v, w, after, stopped, returned, ran⟩
  · exact .inl same
  · refine .inr ⟨v, after, stopped, returned, ?_⟩
    rw [bodyValue]
    refine (bind_of_ok ran).trans ?_
    rw [bind_apply]
    simp only [Exec.read, returned]
    rfl

end Eval

namespace Function

def ReturnsStand (f : Function) : Prop :=
  ∀ part : Node, part.PartOf f.body → ∀ test ∈ part.tests, test.returns = false

/-- In the cases of the body only the last statement of an item holds a `RETURN`. -/
def ReturnsLast (f : Function) : Prop :=
  ∀ part : Node, part.PartOf f.body → part.returnsLast = true

def PassesReturnsOn (f : Function) : Prop :=
  ∀ part : Node, part.PartOf f.body → part.kind.isConstruct = true → PassesReturnOn part

theorem returnsStand_of_allParts {f : Function} {n : Nat}
    (all : Node.allParts (fun part => part.tests.all (!·.returns)) n f.body = true) :
    f.ReturnsStand := by
  intro part within test member
  have plain := List.all_eq_true.mp (Node.of_allParts all within) test member
  simpa using plain

end Function

/-- If all constructs of a function pass a `RETURN` on, whatever their parts do, then a call of it executes
no `RETURN` of its body, or ends with the machine and the value that the first one leaves. Where `RETURN`s
stand among the statements of the body, the constructs do so exactly if its cases return last. -/
theorem return_immediate_iff (f : Function) :
    (f.ReturnsStand → (f.PassesReturnsOn ↔ f.ReturnsLast)) ∧
    (f.PassesReturnsOn →
      ∀ around n name arguments m table bound, f.parameters.children.length = arguments.length →
        bindArguments f.parameters.children arguments [(name, .function f)] m = .ok (table, bound) →
        (∀ mark, untilReturn around mark n f.body (m.opened bound.store table) =
          eval around n f.body (m.opened bound.store table)) ∨
        ∃ v after, (∀ mark, untilReturn around mark n f.body (m.opened bound.store table) =
            .error (mark, after)) ∧
          after.returned = some v ∧
          inCall (apply (eval around n) name f arguments) m = .ok (v, m.closed after)) := by
  refine ⟨fun standing => ⟨?_, ?_⟩, ?_⟩
  · intro passes part within
    cases construct : part.kind.isConstruct with
    | false => exact Node.returnsLast_of_not_isConstruct construct
    | true =>
      cases last : part.returnsLast with
      | true => rfl
      | false =>
        exact absurd (passes part within construct) (not_passesReturnOn (standing part within) last)
  · intro last part within construct
    exact passesReturnOn construct (standing part within) (last part within)
  · intro passes around n name arguments m table bound fits bindings
    have cut : CutOff (eval around n) (fun mark => untilReturn around mark n) f.body :=
      cutOff_untilReturn passes n
    refine (bodyValue_of_cut cut (m.opened bound.store table)).imp_right ?_
    rintro ⟨v, after, stopped, returned, body⟩
    refine ⟨v, after, stopped, returned, ?_⟩
    rw [inCall_apply, if_neg (not_not_intro fits), bindings]
    dsimp only
    rw [body]

theorem loop_returns_immediately :
    let around : Surroundings := ⟨Library.disk ["home"], "", 1000⟩
    let x : Node := Node.named .access (some "x") []
    let body : Node := Node.block [Node.of .whileLoop [Node.named .boolean (some "TRUE") [], Node.block
      [Node.of .ifThen [x, Node.block [Node.of .return [x]]], Node.of .print [x]]]]
    let f : Function := ⟨0, some "f", Node.of .parameters [Node.named .parameter (some "x") []], body,
      Node.null⟩
    let m := Machine.start .linux []
    let truth := Value.truth 1.0 (some "TRUE")
    let table : Table := [(some "f", .function f), (some "x", truth)]
    f.ReturnsStand ∧ f.ReturnsLast ∧ (f.PassesReturnsOn ↔ f.ReturnsLast) ∧
      f.parameters.children.length = [truth].length ∧
      bindArguments f.parameters.children [truth] [(some "f", .function f)] m = .ok (table, m) ∧
      ((∀ mark, untilReturn around mark 8 f.body (m.opened m.store table) =
          eval around 8 f.body (m.opened m.store table)) ∨
        ∃ v after, (∀ mark, untilReturn around mark 8 f.body (m.opened m.store table) =
            .error (mark, after)) ∧
          after.returned = some v ∧
          inCall (apply (eval around 8) (some "f") f [truth]) m = .ok (v, m.closed after)) := by
  intro around x body f m truth table
  have standing : f.ReturnsStand := Function.returnsStand_of_allParts (n := 6) (by decide)
  have last : f.ReturnsLast := fun _ => Node.of_allParts (n := 6) (by decide)
  have bindings : bindArguments f.parameters.children [truth] [(some "f", .function f)] m =
      .ok (table, m) := rfl
  obtain ⟨exactly, immediate⟩ := return_immediate_iff f
  have passes := (exactly standing).mpr last
  exact ⟨standing, last, exactly standing, rfl, bindings,
    immediate passes around 8 _ _ m table m rfl bindings⟩

/-- The statement after a `RETURN` in `OTHERWISE` runs: the output has a line that it did not have when the
`RETURN` had been executed. -/
theorem otherwise_overruns_return :
    let around : Surroundings := ⟨Library.disk ["home"], "", 1000⟩
    let x : Node := Node.named .access (some "x") []
    let body : Node := Node.block [Node.named .case (some "x")
      [Node.of .caseOtherwise [Node.of .return [x], Node.of .print [x]]]]
    let parameters : Node := Node.of .parameters [Node.named .parameter (some "x") []]
    let f : Function := ⟨0, some "p", parameters, body, Node.null⟩
    let m := Machine.initial
    let truth := Value.truth 1.0 (some "TRUE")
    let table : Table := [(some "p", .function f), (some "x", truth)]
    let returned : Machine := { m.opened m.store table with returned := some truth }
    Eval.program "PROCEDURE p(x) CASE OF x OTHERWISE: RETURN x; PRINT x ENDCASE ENDPROCEDURE" =
        .ok (Node.named .define (some "p") [parameters, body, Node.null]) ∧
      f.ReturnsStand ∧
      (∀ mark, untilReturn around mark 6 f.body (m.opened m.store table) = .error (mark, returned)) ∧
      returned.output = "" ∧
      inCall (apply (eval around 6) (some "p") f [truth]) m = .ok (truth, { m with output := "TRUE\n" }) := by
  intro around x body parameters f m truth table returned
  have standing : f.ReturnsStand := Function.returnsStand_of_allParts (n := 6) (by decide)
  have tokens : Token.scan
      "PROCEDURE p(x) CASE OF x OTHERWISE: RETURN x; PRINT x ENDCASE ENDPROCEDURE" =
      .ok [.keyword "PROCEDURE", .identifier "p", .mark .lparen, .identifier "x", .mark .rparen,
        .keyword "CASE", .keyword "OF", .identifier "x", .keyword "OTHERWISE", .mark .colon,
        .keyword "RETURN", .identifier "x", .mark .sep, .keyword "PRINT", .identifier "x",
        .keyword "ENDCASE", .keyword "ENDPROCEDURE"] := by
    rw [Token.scan_eq_within]
    rfl
  refine ⟨?_, standing, fun _ => rfl, rfl, rfl⟩
  rw [Eval.program, tokens]
  rfl

end Pseudocode
