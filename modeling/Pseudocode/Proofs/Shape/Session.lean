import Pseudocode.Proofs.Invariant.Turns
import Pseudocode.Proofs.Shape.Visit

set_option autoImplicit false

namespace Pseudocode

namespace Node

structure Visitable (node : Node) : Prop where
  visited : node.kind.visited = true
  fits : node.Fits

theorem visited_of_owned {kind : Kind} (free : kind.owned = false) : kind.visited = true := by
  cases kind <;> first | rfl | nomatch free

variable {node below entry : Node}

theorem Visitable.part (visitable : node.Visitable) (notDefine : node.kind ≠ .define)
    (notCase : node.kind ≠ .case) (member : below ∈ node.children) : below.Visitable := by
  refine ⟨?_, visitable.fits.child member⟩
  have visited := visitable.visited
  have places := visitable.fits.places
  cases kind : node.kind with
  | define => exact absurd kind notDefine
  | case => exact absurd kind notCase
  | parameters | parameter | caseItem => simp [kind, Kind.visited] at visited
  | declare =>
    have strings : ∀ child ∈ node.children, child.kind = .string := by
      simpa [kind, Kind.places] using places
    rw [strings below member]
    rfl
  | _ =>
    have free : ∀ child ∈ node.children, child.kind.owned = false := by
      simpa [kind, Kind.places] using places
    exact visited_of_owned (free below member)

theorem Visitable.defined {position : Nat} (visitable : node.Visitable) (kind : node.kind = .define)
    (found : node.children[position + 1]? = some below) : below.Visitable := by
  have fits := visitable.fits
  refine ⟨?_, fits.child (List.mem_of_getElem? found)⟩
  have places := fits.places
  cases children : node.children with
  | nil => simp [children] at found
  | cons first others =>
    rw [children] at found
    have free : ∀ child ∈ others, child.kind.owned = false := by
      simp [kind, children, Kind.places] at places
      exact places.2
    exact visited_of_owned (free below (List.mem_of_getElem? found))

theorem Visitable.otherwise (visitable : node.Visitable) (member : entry ∈ node.children)
    (kind : entry.kind = .caseOtherwise) : entry.Visitable :=
  ⟨by rw [kind]; rfl, visitable.fits.child member⟩

theorem Visitable.item (visitable : node.Visitable) (kind : node.kind = .case)
    (member : entry ∈ node.children) (other : entry.kind ≠ .caseOtherwise)
    (inside : below ∈ entry.children) : below.Visitable := by
  have fits := visitable.fits.child member
  refine ⟨?_, fits.child inside⟩
  have isItem := visitable.fits.case_item kind member other
  have free : ∀ child ∈ entry.children, child.kind.owned = false := by
    simpa [isItem, Kind.places] using fits.places
  exact visited_of_owned (free below inside)

theorem visitable_of_program {source : String} (read : Eval.program source = .ok node) :
    node.Visitable :=
  have ⟨free, fits⟩ := fits_of_program read
  ⟨visited_of_owned free, fits⟩

end Node

def shape : Domain where
  value _ v := ∀ f, v = .function f → f.body.Visitable ∧ f.result.Visitable
  tree := Node.Visitable
  grow _ admitted := admitted
  empty _ := nofun
  number _ _ := nofun
  text _ _ := nofun
  truth _ b := by cases b <;> exact nofun
  list _ := nofun
  function := by
    intro s f
    constructor
    · exact fun admitted => admitted f rfl
    · rintro trees _ ⟨⟩
      exact trees
  boolean _ _ _ := nofun
  part := Node.Visitable.part
  defined := Node.Visitable.defined
  otherwise visitable _ := visitable.otherwise
  item := Node.Visitable.item
  program := Node.visitable_of_program

namespace Eval

open Exec

variable {around : Surroundings} {node : Node} {m after : Machine} {cause : Fault}

open Classical in
noncomputable def within (D : Domain) (rec : Node → Exec Value) (node : Node) : Exec Value :=
  fun m => if D.tree node ∧ D.Holds m then rec node m else .unfinished

theorem fits_of_eval (n : Nat) (visitable : node.Visitable) (holds : shape.Holds m)
    (failed : eval around n node m = .error (cause, after)) : cause.misfit = false := by
  induction n generalizing node m cause after with
  | zero => cases failed
  | succ n ih =>
    -- Within the domain the hypothesis covers every visit, and outside of it there is no fault.
    have benign (part : Node) : Benign (within shape (eval around n) part) := by
      intro m cause after failed
      unfold within at failed
      split at failed
      next admitted => exact ih admitted.1 admitted.2 failed
      next => cases failed
    -- All that a visit runs stays within the domain.
    have same (part : Node) (m : Machine) (tree : shape.tree part) (holds : shape.Holds m) :
        (shape.invariant around).Agree m shape.value (eval around n part)
          (within shape (eval around n) part) :=
      ⟨if_pos ⟨tree, holds⟩, (agree_eval n tree holds).2⟩
    have agree : (shape.invariant around).Agree m shape.value (step around (eval around n) n node)
        (step around (within shape (eval around n)) n node) := agree_step same n visitable holds
    refine benign_step benign around n visitable.fits visitable.visited m cause after ?_
    exact agree.1.trans failed

end Eval

theorem take_fits (turn : Turn) {m : Machine} (holds : shape.Holds m) {cause : Fault}
    (failed : (turn.take m).result = .error cause) : cause.misfit = false := by
  unfold Turn.take Run.source at failed
  cases read : Eval.program turn.text with
  | ok tree =>
    rw [read] at failed
    have ready : shape.Holds { m.prepare turn.input with output := "" } := { holds with }
    dsimp only [Run.tree] at failed
    cases ran : Eval.eval turn.around Run.bound tree { m.prepare turn.input with output := "" } with
    | ok found =>
      rw [ran] at failed
      cases failed
    | error found =>
      rw [ran] at failed
      cases failed
      exact Eval.fits_of_eval Run.bound (Node.visitable_of_program read) ready ran
    | unfinished =>
      rw [ran] at failed
      cases failed
  | error other =>
    rw [read] at failed
    cases failed
    exact Eval.benign_program turn.text cause read
  | unfinished =>
    rw [read] at failed
    cases failed

/-- Every node of the tree of a program has the children that its kind asks for, and parts of definitions
and cases stand in their places only. So no program of a session on a fresh machine ends with a misfit,
and neither does the next one, however far it runs. -/
theorem session_has_no_misfit (platform : Platform) (given : List (String × Plain)) (turns : List Turn) :
    let m := (Machine.start platform given).afterTurns turns
    (∀ source tree, Eval.program source = .ok tree → tree.kind.owned = false ∧ tree.Fits) ∧
      (∀ ending ∈ (Machine.start platform given).endings turns, ∀ cause,
        ending.result = .error cause → cause.misfit = false) ∧
      ∀ around source tree input, Eval.program source = .ok tree → ∀ n cause after,
        Eval.eval around n tree { m.prepare input with output := "" } = .error (cause, after) →
          cause.misfit = false := by
  intro m
  have fresh : shape.Holds (Machine.start platform given) := Domain.holds_start platform fun _ _ _ => nofun
  refine ⟨fun _ _ => fits_of_program, ?_, ?_⟩
  · intro ending member cause failed
    obtain ⟨turn, before, holds, rfl⟩ := Domain.taken_of_endings fresh member
    exact take_fits turn holds failed
  · intro around source tree input read n cause after failed
    have holds : shape.Holds m := Domain.holds_afterTurns turns fresh
    have ready : shape.Holds { m.prepare input with output := "" } := { holds with }
    exact Eval.fits_of_eval n (Node.visitable_of_program read) ready failed

theorem call_has_no_misfit :
    let around : Surroundings := ⟨Library.disk ["home"], "", 1000⟩
    let turns : List Turn := [⟨around, "PROCEDURE f(x) PRINT x[1] ENDPROCEDURE", .console []⟩]
    let tree : Node := Node.named .call (some "f") [Node.named .string (some "a") []]
    let m := (Machine.start .linux []).afterTurns turns
    Eval.program "f('a')" = .ok tree ∧ tree.Fits ∧
      ∀ n cause after, Eval.eval around n tree { m.prepare (.console []) with output := "" } =
        .error (cause, after) → cause.misfit = false := by
  intro around turns tree m
  have tokens : Token.scan "f('a')" =
      .ok [.identifier "f", .mark .lparen, .string "a", .mark .rparen] := by
    rw [Token.scan_eq_within]
    rfl
  have read : Eval.program "f('a')" = .ok tree := by
    rw [Eval.program, tokens]
    rfl
  obtain ⟨fit, _, runs⟩ := session_has_no_misfit .linux [] turns
  exact ⟨read, (fit _ tree read).2, runs around _ tree _ read⟩

end Pseudocode
