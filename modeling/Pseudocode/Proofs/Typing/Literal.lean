import Pseudocode.Proofs.Parser.Complete

set_option autoImplicit false

namespace Pseudocode

open Grammar

namespace Node

def Literal (tree : Node) : Prop :=
  tree.Everywhere fun node => node.kind = .boolean → node.name = some "TRUE" ∨ node.name = some "FALSE"

variable {kind : Kind} {name : Option String} {node : Node} {nodes others : List Node}

theorem Literal.child (literal : node.Literal) {part : Node} (member : part ∈ node.children) :
    part.Literal :=
  (everywhere_iff.mp literal).2 part member

def Literals (nodes : List Node) : Prop := ∀ node ∈ nodes, node.Literal

@[simp] theorem literals_nil : Literals [] := nofun

@[simp] theorem literals_cons : Literals (node :: nodes) ↔ node.Literal ∧ Literals nodes :=
  List.forall_mem_cons

@[simp] theorem literals_append : Literals (nodes ++ others) ↔ Literals nodes ∧ Literals others :=
  List.forall_mem_append

@[simp] theorem literal_named (other : kind ≠ .boolean) :
    (Node.named kind name nodes).Literal ↔ Literals nodes := by
  rw [Literal, everywhere_iff]
  exact ⟨And.right, fun below => ⟨fun isBoolean => absurd isBoolean other, below⟩⟩

@[simp] theorem literal_of (other : kind ≠ .boolean) : (Node.of kind nodes).Literal ↔ Literals nodes :=
  literal_named other

theorem literal_number (value : Option Plain) : (Node.number value).Literal :=
  everywhere_iff.mpr ⟨nofun, nofun⟩

theorem literal_null : Node.null.Literal := everywhere_iff.mpr ⟨nofun, nofun⟩

theorem literal_boolean (named : name = some "TRUE" ∨ name = some "FALSE") :
    (Node.named .boolean name []).Literal :=
  everywhere_iff.mpr ⟨fun _ => named, nofun⟩

theorem literal_program (literals : Literals nodes) : (Node.program nodes).Literal := by
  match nodes with
  | [] => exact literal_null
  | [statement] => exact literals statement (by simp)
  | _ :: _ :: _ => simpa [Node.program, Node.block] using literals

end Node

open Node

theorem literals_of_reads {part : Part} {p : Mode} {ts rest : List Token} {nodes : List Node}
    (read : Reads part p ts nodes rest) (given : Literals part.given) : Literals nodes := by
  induction read with
  | boolean isWord =>
    simp only [Bool.or_eq_true] at isWord
    have named := isWord.imp Parse.name_of_isKeyword Parse.name_of_isKeyword
    simpa using literal_boolean named
  | @chain _ level =>
    cases level <;> simp_all [Part.given, Level.operand]
  | @operator _ level =>
    cases level <;> simp_all [Part.given, Level.operand, Node.arithmetic]
  | @otherwise _ _ more =>
    cases more <;> simp_all [Part.given]
  | @case _ more =>
    cases more <;> simp_all [Part.given]
  -- Every other rule puts nodes already read under a node that is no literal itself, or reads a
  -- number or nothing.
  | _ =>
    simp_all [Part.given, Node.sign, Node.arithmetic, Node.comparison, Node.connective, Node.block,
      CaseItem.node, literal_number, literal_null]

theorem literal_of_program {source : String} {tree : Node} (read : Eval.program source = .ok tree) :
    tree.Literal := by
  obtain ⟨tokens, nodes, rest, _, accepted, rfl⟩ := Parse.program_iff.mp read
  exact literal_program (literals_of_reads accepted literals_nil)

end Pseudocode
