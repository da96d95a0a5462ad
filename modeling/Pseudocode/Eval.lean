import Pseudocode.Eval.Call
import Pseudocode.Eval.Element
import Pseudocode.Library

/-!
The meaning of program trees. `step` gives the meaning of a node from that of the nodes it runs, and
`eval` ties the knot: its bound limits how deeply nodes run each other and how many rounds a loop
makes.
-/

set_option autoImplicit false

namespace Pseudocode

namespace Eval

open Exec

variable (around : Surroundings) (rec : Node → Exec Value)

def boolean (name : Option String) : Value :=
  .truth (if name = some "TRUE" then 1.0 else 0.0) name

def number (value : Option Plain) : Exec Value :=
  onStore fun store => .ok (store.ofPlain (value.getD .null))

def text : Option String → Value
  | some s => .text s
  | none => .empty

def assignment (node : Node) : Exec Value := do
  let value ← rec (← child node 0)
  assign node.name value
  pure value

def arithmetic (op : Arithmetic) (node : Node) : Exec Value := do
  let (left, right) ← operands rec node
  onStore fun store => Operator.arithmetic op store left right

def comparison (op : Comparison) (node : Node) : Exec Value := do
  let (left, right) ← operands rec node
  onStore fun store => .ofExcept (Operator.comparison op store left right)

def sign (op : Sign) (node : Node) : Exec Value := do
  let value ← rec (← child node 0)
  ofExcept (Operator.sign op value)

def displays : List Node → Exec (List String)
  | [] => pure []
  | node :: rest => do
    let value ← rec node
    let first ← display value
    let others ← displays rest
    pure (first :: others)

def print (node : Node) : Exec Value := do
  let texts ← displays rec node.children
  let line := " ".intercalate texts ++ "\n"
  modify fun m => { m with output := m.output ++ line }
  pure .empty

def reply (name : Option String) : Exec String :=
  fun m =>
    match m.input with
    | .console lines =>
      let asked := { m with prompts := m.prompts ++ "Enter value for " ++ Fault.nameText name ++ ": " }
      match lines with
      | line :: rest => .ok (line, { asked with input := .console rest })
      | [] => .error (.endOfInput, asked)
    | .dialogs (answer :: rest) => .ok (answer.getD "", { m with input := .dialogs rest })
    | .dialogs [] => .ok ("", m)

def ofReply (line : String) : Value :=
  match Number.parse? line with
  | some x => .number x
  | none => .text line

def input (node : Node) : Exec Value := do
  let value := ofReply (← reply node.name)
  assign node.name value
  pure value

def readFile (node : Node) : Exec Value := do
  if node.children.isEmpty then fail .readName
  else
    let name ← display (← rec (← child node 0))
    let path := Path.join around.folder name
    match around.disk.readText path with
    | .ok content => pure (.text content)
    | .error cause => fail (.readFile path cause)

def included (name : String) : Except Fault String :=
  if Path.isAbsolute name then
    match around.disk.readText name with
    | .ok content => .ok content
    | .error cause => .error (.readFile name cause)
  else
    match around.disk.readText (Path.join around.folder name) with
    | .ok content => .ok content
    | .error cause =>
      match around.disk.readText (Path.join Library.folder name) with
      | .ok content => .ok content
      | .error _ => .error (.includeFile name cause)

def program (source : String) : Outcome Fault Node :=
  match Token.scan source with
  | .error cause => .error (.scan cause)
  | .ok tokens => (Node.ofTokens tokens).mapError .parse

def includeFile (node : Node) : Exec Value :=
  match node.name with
  | none => fail .includeName
  | some name => do
    let content ← ofExcept (included around name)
    let tree ← ofOutcome (program content)
    rec tree

def declared (type : String) : Exec Value :=
  if type = "INTEGER" ∨ type = "REAL" ∨ type = "BOOLEAN" then pure (.number 0.0)
  else if type = "STRING" ∨ type = "CHAR" then pure (.text "")
  else if type.startsWith "ARRAY" then makeList #[]
  else pure .empty

def declare (node : Node) : Exec Value := do
  match (← child node 0).name with
  | none => fail (.noMember .nothing .startsWith)
  | some type => do
    assign node.name (← declared type)
    pure .empty

def list (node : Node) : Exec Value := do
  let items ← values rec node.children
  makeList (items.map Value.toItem).toArray

def step (n : Nat) (node : Node) : Exec Value :=
  match node.kind with
  | .null => pure .empty
  | .number => number node.value
  | .string => pure (text node.name)
  | .boolean => pure (boolean node.name)
  | .list => list rec node
  | .access => lookup .variable node.name
  | .assign => assignment rec node
  | .sign op => sign rec op node
  | .arithmetic op => arithmetic rec op node
  | .comparison op => comparison rec op node
  | .connective op => connective rec op node
  | .ifThen => ifThen rec node
  | .ifElse => ifElse rec node
  | .forLoop => forLoop rec n node
  | .whileLoop => whileLoop rec n node
  | .repeatUntil => repeatUntil rec n node
  | .block => block rec node.children .empty
  | .print => print rec node
  | .read => readFile around rec node
  | .input => input node
  | .includeFile => includeFile around rec node
  | .return => returnValue rec node
  | .define => define node
  | .parameters | .parameter => fail (.noRule node.kind)
  | .call => call rec around.limit node
  | .case => caseOf rec node
  | .caseItem => fail .strayCaseItem
  | .caseOtherwise => sequence rec node.children .empty
  | .declare => declare node
  | .elementAccess => elementAccess rec node
  | .elementAssign => elementAssign rec node

def eval (around : Surroundings) : Nat → Node → Exec Value
  | 0, _ => unfinished
  | n + 1, node => step around (eval around n) n node

end Eval

end Pseudocode
