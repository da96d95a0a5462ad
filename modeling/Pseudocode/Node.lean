import Pseudocode.Plain

set_option autoImplicit false

namespace Pseudocode

inductive Sign where
  | plus
  | minus
  | not
  deriving Repr, DecidableEq

inductive Arithmetic where
  | add
  | subtract
  | multiply
  | divide
  | power
  | modulo
  | wholeDivide
  deriving Repr, DecidableEq

inductive Comparison where
  | equal
  | notEqual
  | less
  | greater
  | lessEqual
  | greaterEqual
  deriving Repr, DecidableEq

inductive Connective where
  | and
  | or
  deriving Repr, DecidableEq

inductive Node.Kind where
  | null
  | number
  | string
  | boolean
  | list
  | access
  | assign
  | sign (op : Sign)
  | arithmetic (op : Arithmetic)
  | comparison (op : Comparison)
  | connective (op : Connective)
  | ifThen
  | ifElse
  | forLoop
  | whileLoop
  | repeatUntil
  | block
  | print
  | read
  | input
  | includeFile
  | return
  | define
  | parameters
  | parameter
  | call
  | case
  | caseItem
  | caseOtherwise
  | declare
  | elementAccess
  | elementAssign
  deriving Repr, DecidableEq

def Sign.label : Sign → String
  | .plus => "PLUS"
  | .minus => "MINUS"
  | .not => "NOT"

def Arithmetic.label : Arithmetic → String
  | .add => "ADD"
  | .subtract => "SUBTRACT"
  | .multiply => "MULTIPLY"
  | .divide => "DIVIDE"
  | .power => "POWER"
  | .modulo => "MODULO"
  | .wholeDivide => "INT_DIVIDE"

def Comparison.label : Comparison → String
  | .equal => "EE"
  | .notEqual => "NE"
  | .less => "LT"
  | .greater => "GT"
  | .lessEqual => "LTE"
  | .greaterEqual => "GTE"

def Connective.label : Connective → String
  | .and => "AND"
  | .or => "OR"

namespace Node.Kind

def label : Kind → String
  | .null => "NULL"
  | .number => "NUMBER"
  | .string => "STRING"
  | .boolean => "BOOLEAN"
  | .list => "LIST"
  | .access => "VAR_ACCESS"
  | .assign => "VAR_ASSIGN"
  | .sign op => op.label
  | .arithmetic op => op.label
  | .comparison op => op.label
  | .connective op => op.label
  | .ifThen => "IF"
  | .ifElse => "IF_ELSE"
  | .forLoop => "FOR"
  | .whileLoop => "WHILE"
  | .repeatUntil => "REPEAT_UNTIL"
  | .block => "BLOCK"
  | .print => "PRINT"
  | .read => "READ"
  | .input => "INPUT"
  | .includeFile => "INCLUDE"
  | .return => "RETURN"
  | .define => "DEF"
  | .parameters => "ARGS"
  | .parameter => "ARG"
  | .call => "FUNCTION_CALL"
  | .case => "CASE"
  | .caseItem => "CASE_ITEM"
  | .caseOtherwise => "CASE_OTHERWISE"
  | .declare => "DECLARE"
  | .elementAccess => "ARRAY_ACCESS"
  | .elementAssign => "ARRAY_ASSIGN"

def all : List Kind :=
  [.null, .number, .string, .boolean, .list, .access, .assign,
   .sign .plus, .sign .minus, .sign .not,
   .arithmetic .add, .arithmetic .subtract, .arithmetic .multiply, .arithmetic .divide,
   .arithmetic .power, .arithmetic .modulo, .arithmetic .wholeDivide,
   .comparison .equal, .comparison .notEqual, .comparison .less, .comparison .greater,
   .comparison .lessEqual, .comparison .greaterEqual,
   .connective .and, .connective .or,
   .ifThen, .ifElse, .forLoop, .whileLoop, .repeatUntil, .block, .print, .read, .input,
   .includeFile, .return, .define, .parameters, .parameter, .call, .case, .caseItem,
   .caseOtherwise, .declare, .elementAccess, .elementAssign]

theorem mem_all (kind : Kind) : kind ∈ all := by
  cases kind with
  | sign op | arithmetic op | comparison op | connective op => cases op <;> simp [all]
  | _ => simp [all]

def ofLabel? (text : String) : Option Kind :=
  all.find? (·.label == text)

end Node.Kind

structure Node where
  kind : Node.Kind
  value : Option Plain
  name : Option String
  children : List Node

namespace Node

def leaf (kind : Kind) : Node := ⟨kind, .none, .none, []⟩

def of (kind : Kind) (children : List Node) : Node := ⟨kind, .none, .none, children⟩

def named (kind : Kind) (name : Option String) (children : List Node) : Node :=
  ⟨kind, .none, name, children⟩

def null : Node := leaf .null

instance : Inhabited Node := ⟨null⟩

def number (value : Option Plain) : Node := ⟨.number, value, .none, []⟩

def sign (op : Sign) (operand : Node) : Node := of (.sign op) [operand]

def arithmetic (op : Arithmetic) (left right : Node) : Node := of (.arithmetic op) [left, right]

def comparison (op : Comparison) (left right : Node) : Node := of (.comparison op) [left, right]

def connective (op : Connective) (left right : Node) : Node := of (.connective op) [left, right]

def block (statements : List Node) : Node := of .block statements

def program : List Node → Node
  | [] => null
  | [statement] => statement
  | statements => block statements

def text : Node → String
  | ⟨kind, value, name, children⟩ =>
    let shown := kind.label ++ (value.elim "" (":" ++ ·.shown)) ++ (name.elim "" (":" ++ ·))
    match children with
    | [] => shown
    | _ => shown ++ "[" ++ ", ".intercalate (texts children) ++ "]"
where
  texts : List Node → List String
    | [] => []
    | node :: rest => text node :: texts rest

end Node

end Pseudocode
