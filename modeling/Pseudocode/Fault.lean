import Pseudocode.Disk
import Pseudocode.Node.Parse
import Pseudocode.Number.Arith
import Pseudocode.Token.Scan

set_option autoImplicit false

namespace Pseudocode

inductive Holder where
  | nothing
  | plainFlag
  | plainNumber
  | plainText
  | plainList
  | plainRecord
  | number
  | text
  | list
  | function
  | variable
  deriving Repr, DecidableEq

def Holder.label : Holder → String
  | .nothing => "NoneType"
  | .plainFlag => "bool"
  | .plainNumber => "float"
  | .plainText => "str"
  | .plainList => "list"
  | .plainRecord => "dict"
  | .number => "Number"
  | .text => "String"
  | .list => "List"
  | .function => "Function"
  | .variable => "Variable"

def Plain.holder : Plain → Holder
  | .null => .nothing
  | .flag _ => .plainFlag
  | .number _ => .plainNumber
  | .text _ => .plainText
  | .list _ => .plainList
  | .record => .plainRecord

inductive Member where
  | type
  | value
  | values
  | copy
  | startsWith
  deriving Repr, DecidableEq

def Member.label : Member → String
  | .type => "type"
  | .value => "value"
  | .values => "values"
  | .copy => "copy"
  | .startsWith => "startswith"

inductive Role where
  | variable
  | function
  | array
  deriving Repr, DecidableEq

def Role.label : Role → String
  | .variable => "Variable"
  | .function => "Function"
  | .array => "Array"

def Role.described : Role → String
  | .variable => "a variable"
  | .function => "a function"
  | .array => "an array"

inductive Axis where
  | only
  | row
  | column
  deriving Repr, DecidableEq

def Axis.label : Axis → String
  | .only => "index"
  | .row => "row index"
  | .column => "column index"

inductive Fault where
  | scan (cause : ScanError)
  | parse (cause : ParseError)
  | undefined (role : Role) (name : Option String)
  | notA (role : Role) (name : Option String)
  | operands (op : Arithmetic)
  | signOperand (op : Sign)
  | connectiveOperands (op : Connective)
  | incomparable
  | divisionByZero
  | moduloByZero
  | ifCondition
  | whileCondition
  | untilCondition
  | forBounds
  | rangeBounds
  | depth (limit : Int)
  | arguments (name : Option String) (expected given : Nat)
  | noRule (kind : Node.Kind)
  | strayCaseItem
  | index
  | indices
  | outOfBounds (which : Axis) (place : Int)
  | rowShape
  | dimensions
  | readName
  | readFile (path : String) (cause : FileError)
  | includeName
  | includeFile (name : String) (cause : FileError)
  | noMember (holder : Holder) (member : Member)
  | missingChild
  | endOfInput
  | notWhole (cause : Number.NotWhole)
  | power (cause : Number.PowerError)
  | copiesNotIndex
  | textTooLong
  | outOfMemory
  | textPlusNumber
  deriving Repr, DecidableEq

namespace Fault

def nameText (name : Option String) : String :=
  name.getD "None"

def operandsMessage : Arithmetic → String
  | .add => "Invalid operands for addition"
  | .subtract => "Cannot subtract non-number values"
  | .multiply => "Invalid operands for multiplication"
  | .divide => "Cannot divide non-number values"
  | .power => "Cannot perform power operation on non-number values"
  | .modulo => "Cannot perform modulo operation on non-number values"
  | .wholeDivide => "Cannot perform integer division on non-number values"

def notWholeMessage : Number.NotWhole → String
  | .nan => "cannot convert float NaN to integer"
  | .infinite => "cannot convert float infinity to integer"

def powerMessage : Number.PowerError → String
  | .tooLarge => "(34, 'Numerical result out of range')"
  | .tooLargeComplex => "complex exponentiation"
  | .zeroToNegative => "0.0 cannot be raised to a negative power"

def signMessage : Sign → String
  | .plus => "Cannot apply unary plus to non-number value"
  | .minus => "Cannot apply unary minus to non-number value"
  | .not => "NOT operation requires a number operand"

def message : Fault → String
  | .scan cause => cause.message
  | .parse cause => cause.message
  | .undefined role name => role.label ++ " '" ++ nameText name ++ "' not defined"
  | .notA role name => "'" ++ nameText name ++ "' is not " ++ role.described
  | .operands op => operandsMessage op
  | .signOperand op => signMessage op
  | .connectiveOperands op => op.label ++ " operation requires number operands"
  | .incomparable => "Cannot compare different types"
  | .divisionByZero => "Division by zero"
  | .moduloByZero => "Modulo by zero"
  | .ifCondition => "IF condition must evaluate to a number"
  | .whileCondition => "WHILE condition must evaluate to a number"
  | .untilCondition => "UNTIL condition must evaluate to a number"
  | .forBounds => "FOR loop values must be numbers"
  | .rangeBounds => "Range values must be numbers"
  | .depth limit => "Maximum recursion depth exceeded (" ++ toString limit ++ ")"
  | .arguments name expected given =>
    "Function '" ++ nameText name ++ "' expects " ++ toString expected ++ " arguments, got " ++
      toString given
  | .noRule kind => "No visit_" ++ kind.label.toLower ++ " method defined"
  | .strayCaseItem => "CASE_ITEM should not be directly visited"
  | .index => "Array index must be a number"
  | .indices => "Array indices must be numbers"
  | .outOfBounds which place =>
    "Array " ++ which.label ++ " " ++ toString place ++ " out of bounds"
  | .rowShape => "Invalid 2D array structure"
  | .dimensions => "Arrays with more than 2 dimensions not supported"
  | .readName => "READ requires a filename"
  | .readFile path cause => "Error reading file '" ++ path ++ "': " ++ cause.message
  | .includeName => "expected str, bytes or os.PathLike object, not NoneType"
  | .includeFile name cause =>
    "Could not find '" ++ name ++ "' in current directory or stdlib: " ++ cause.message
  | .noMember holder member =>
    "'" ++ holder.label ++ "' object has no attribute '" ++ member.label ++ "'"
  | .missingChild => "list index out of range"
  | .endOfInput => "EOF when reading a line"
  | .notWhole cause => notWholeMessage cause
  | .power cause => powerMessage cause
  | .copiesNotIndex => "cannot fit 'int' into an index-sized integer"
  | .textTooLong => "repeated string is too long"
  | .outOfMemory => ""
  | .textPlusNumber => "can only concatenate str (not \"float\") to str"

end Fault

end Pseudocode
