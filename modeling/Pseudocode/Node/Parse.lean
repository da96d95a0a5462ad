import Pseudocode.Node
import Pseudocode.Outcome
import Pseudocode.Token

/-!
From tokens to program trees, by recursive descent.

A parser takes the tokens that are left and gives a result with the tokens then left. The parts that
call each other are the four goals; `step` says how one of them is reached when the parts below it
are given, and `run` ties the knot to a bound on nesting and repetition. Each goal consumes a token
before it asks for another, so a bound in the number of tokens is never used up.
-/

set_option autoImplicit false

namespace Pseudocode

inductive ParseError where
  | declareName
  | declareColon
  | declareType
  | arrayOpen
  | dimensionColon
  | dimensionsClose
  | arrayOf
  | elementType
  | elementAssignClose
  | elementAccessClose
  | strayEnd
  | parenthesis
  | unexpected (token : String)
  | listClose
  | callClose
  | ifThen
  | endIf
  | forName
  | forAssign
  | forTo
  | next
  | nextName (name : Option String)
  | whileDo
  | endWhile
  | defineName
  | defineOpen
  | parameterName
  | defineClose
  | defineDo
  | endAfterReturn (word : String)
  | endDefine (word : String)
  | inputName
  | includeName
  | caseOf
  | caseName
  | otherwiseColon
  | caseColon
  | repeatUntil
  deriving Repr, DecidableEq

namespace ParseError

def message : ParseError → String
  | .declareName => "Expected identifier after DECLARE"
  | .declareColon => "Expected ':' after identifier in DECLARE statement"
  | .declareType => "Expected type name after ':' in DECLARE statement"
  | .arrayOpen => "Expected '[' after ARRAY"
  | .dimensionColon => "Expected ':' in array dimension"
  | .dimensionsClose => "Expected ']' to close array dimensions"
  | .arrayOf => "Expected 'OF' after array dimensions"
  | .elementType => "Expected type name after 'OF'"
  | .elementAssignClose => "Expected ']' to close array assignment"
  | .elementAccessClose => "Expected ']' to close array access"
  | .strayEnd => "Unexpected ENDEF outside of function definition"
  | .parenthesis => "Expected closing parenthesis"
  | .unexpected token => "Invalid syntax: Unexpected token " ++ token
  | .listClose => "Expected closing bracket for list"
  | .callClose => "Expected closing parenthesis for function call"
  | .ifThen => "Expected 'THEN' after IF condition"
  | .endIf => "Expected 'ENDIF' to close IF statement"
  | .forName => "Expected variable name after FOR"
  | .forAssign => "Expected '=' after variable in FOR loop"
  | .forTo => "Expected 'TO' in FOR loop"
  | .next => "Expected 'NEXT' to close FOR loop"
  | .nextName name => "Expected variable name '" ++ name.getD "None" ++ "' after NEXT"
  | .whileDo => "Expected 'DO' after WHILE condition"
  | .endWhile => "Expected 'ENDWHILE' to close WHILE loop"
  | .defineName => "Expected function name after DEF"
  | .defineOpen => "Expected '(' after function name"
  | .parameterName => "Expected identifier after ',' in function definition"
  | .defineClose => "Expected ')' after function arguments"
  | .defineDo => "Expected 'DO' after function declaration"
  | .endAfterReturn word => "Expected '" ++ word ++ "' to close function definition after RETURN"
  | .endDefine word => "Expected '" ++ word ++ "' to close function definition"
  | .inputName => "INPUT requires an identifier"
  | .includeName => "Expected string literal after INCLUDE"
  | .caseOf => "Expected 'OF' after CASE"
  | .caseName => "Expected identifier after CASE OF"
  | .otherwiseColon => "Expected ':' after OTHERWISE"
  | .caseColon => "Expected ':' after case value"
  | .repeatUntil => "Expected 'UNTIL' after REPEAT block"

end ParseError

abbrev Parse (α : Type) : Type := StateT (List Token) (Outcome ParseError) α

namespace Parse

def peek : Parse Token := fun tokens => .ok (tokens.headD Token.stop, tokens)

def advance : Parse Unit := fun tokens => .ok ((), tokens.tail)

def fail {α : Type} (cause : ParseError) : Parse α := fun _ => .error cause

def unfinished {α : Type} : Parse α := fun _ => .unfinished

def expect (kind : Token.Kind) (cause : ParseError) : Parse Token := do
  let token ← peek
  if token.kind == kind then
    advance
    pure token
  else fail cause

def expectWord (word : String) (cause : ParseError) : Parse Unit := do
  if (← peek).isKeyword word then advance else fail cause

def takeWord (word : String) : Parse Bool := do
  if (← peek).isKeyword word then
    advance
    pure true
  else pure false

def skipSeparators : Parse Unit := fun tokens => .ok ((), tokens.dropWhile Token.isSeparator)

inductive Goal where
  | statement
  | condition
  | comparison
  | factor
  deriving Repr, DecidableEq

def afterClosing : Nat → List Token → List Token
  | 0, tokens => tokens
  | _, [] => []
  | depth + 1, token :: rest =>
    match token.kind with
    | .lbracket => afterClosing (depth + 2) rest
    | .rbracket => afterClosing depth rest
    | _ => afterClosing (depth + 1) rest

def assignsElement (tokens : List Token) : Bool :=
  ((afterClosing 1 tokens).headD Token.stop).kind == .assign

def comparisonOf? (token : Token) : Option Comparison :=
  match token.kind with
  | .assign | .equal => some .equal
  | .notEqual => some .notEqual
  | .less => some .less
  | .greater => some .greater
  | .lessEqual => some .lessEqual
  | .greaterEqual => some .greaterEqual
  | _ => none

def connectiveOf? (token : Token) : Option Connective :=
  if token.isKeyword "AND" then some .and
  else if token.isKeyword "OR" then some .or
  else none

def additiveOf? (token : Token) : Option Arithmetic :=
  match token.kind with
  | .plus => some .add
  | .minus => some .subtract
  | _ => none

def multiplicativeOf? (token : Token) : Option Arithmetic :=
  match token.kind with
  | .multiply => some .multiply
  | .divide => some .divide
  | _ =>
    if token.isKeyword "MOD" then some .modulo
    else if token.isKeyword "DIV" then some .wholeDivide
    else none

def endsPrint (token : Token) : Bool :=
  token.kind == .none || token.isSeparator ||
    ["ELSE", "ENDIF", "NEXT", "ENDWHILE"].any token.isKeyword

structure Closing where
  word : String
  terminators : List String

def closingOf (opening : Option String) : Closing :=
  if opening == some "FUNCTION" then ⟨"ENDFUNCTION", ["RETURN", "ENDFUNCTION"]⟩
  else if opening == some "PROCEDURE" then ⟨"ENDPROCEDURE", ["ENDPROCEDURE"]⟩
  else ⟨"ENDEF", ["RETURN", "ENDEF"]⟩

def arrayType (dimensions : List (Node × Node)) (element : Option String) : String :=
  let bound (node : Node) : String := (node.value.getD .null).shown
  let dimension (pair : Node × Node) : String := bound pair.1 ++ ":" ++ bound pair.2
  "ARRAY[" ++ ",".intercalate (dimensions.map dimension) ++ "] OF " ++ element.getD "None"

section Grammar

variable (rec : Goal → Parse Node)

def commaTail {α : Type} (item : Parse α) : Nat → Parse (List α)
  | 0 => unfinished
  | n + 1 => do
    if (← peek).kind == .comma then
      advance
      let first ← item
      let rest ← commaTail item n
      pure (first :: rest)
    else pure []

def commaList {α : Type} (item : Parse α) (n : Nat) : Parse (List α) := do
  let first ← item
  let rest ← commaTail item n
  pure (first :: rest)

def statementsUntil (stop : Token → Bool) : Nat → Parse (List Node)
  | 0 => unfinished
  | n + 1 => do
    if stop (← peek) then pure []
    else
      let first ← rec .statement
      skipSeparators
      let rest ← statementsUntil stop n
      pure (first :: rest)

def block (n : Nat) (terminators : List String) : Parse Node := do
  skipSeparators
  let body ← statementsUntil rec
    (fun token => token.kind == .none || terminators.any token.isKeyword) n
  pure (Node.block body)

def list (n : Nat) : Parse Node := do
  advance
  if (← peek).kind == .rbracket then
    advance
    pure (Node.of .list [])
  else
    let items ← commaList (rec .statement) n
    let _ ← expect .rbracket .listClose
    pure (Node.of .list items)

def call (n : Nat) (name : Option String) : Parse Node := do
  advance
  if (← peek).kind == .rparen then
    advance
    pure (Node.named .call name [])
  else
    let arguments ← commaList (rec .statement) n
    let _ ← expect .rparen .callClose
    pure (Node.named .call name arguments)

def element (n : Nat) (name : Option String) : Parse Node := do
  advance
  let indices ← commaList (rec .statement) n
  let _ ← expect .rbracket .elementAccessClose
  pure (Node.named .elementAccess name indices)

def identifier (n : Nat) (name : Option String) : Parse Node := do
  match (← peek).kind with
  | .lparen => call rec n name
  | .lbracket => element rec n name
  | _ => pure (Node.named .access name [])

def atom (n : Nat) : Parse Node := do
  let token ← peek
  match token.kind with
  | .number => do
    advance
    pure (Node.number token.value)
  | .string => do
    advance
    pure (Node.named .string token.name [])
  | .lbracket => list rec n
  | .lparen => do
    advance
    let inner ← rec .statement
    let _ ← expect .rparen .parenthesis
    pure inner
  | .identifier => do
    advance
    identifier rec n token.name
  | _ =>
    if token.isKeyword "TRUE" || token.isKeyword "FALSE" then do
      advance
      pure (Node.named .boolean token.name [])
    else fail (.unexpected token.text)

def power (n : Nat) : Parse Node := do
  let base ← atom rec n
  if (← peek).kind == .pow then
    advance
    let exponent ← rec .factor
    pure (Node.arithmetic .power base exponent)
  else pure base

def factor (n : Nat) : Parse Node := do
  match (← peek).kind with
  | .plus => do
    advance
    pure (Node.sign .plus (← rec .factor))
  | .minus => do
    advance
    pure (Node.sign .minus (← rec .factor))
  | _ => power rec n

def operators (operatorOf? : Token → Option Arithmetic) (operand : Parse Node) :
    Nat → Node → Parse Node
  | 0, _ => unfinished
  | n + 1, left => do
    match operatorOf? (← peek) with
    | some op => do
      advance
      let right ← operand
      operators operatorOf? operand n (Node.arithmetic op left right)
    | none => pure left

def term (n : Nat) : Parse Node := do
  let first ← factor rec n
  operators multiplicativeOf? (factor rec n) n first

def sum (n : Nat) : Parse Node := do
  let first ← term rec n
  operators additiveOf? (term rec n) n first

def relations (depth : Nat) : Nat → Node → Parse Node
  | 0, _ => unfinished
  | n + 1, left => do
    let token ← peek
    match comparisonOf? token with
    | some op => do
      advance
      let right ← sum rec depth
      relations depth n (Node.comparison op left right)
    | none =>
      match connectiveOf? token with
      | some op => do
        advance
        let right ← rec .comparison
        relations depth n (Node.connective op left right)
      | none => pure left

def comparison (n : Nat) : Parse Node := do
  -- A negation takes all comparisons and connectives after it.
  if ← takeWord "NOT" then
    pure (Node.sign .not (← rec .comparison))
  else
    let first ← sum rec n
    relations rec n n first

def ifStatement (n : Nat) : Parse Node := do
  let condition ← rec .condition
  expectWord "THEN" .ifThen
  let yes ← block rec n ["ELSE", "ENDIF"]
  if ← takeWord "ELSE" then
    let no ← block rec n ["ENDIF"]
    expectWord "ENDIF" .endIf
    pure (Node.of .ifElse [condition, yes, no])
  else
    expectWord "ENDIF" .endIf
    pure (Node.of .ifThen [condition, yes])

def forStatement (n : Nat) : Parse Node := do
  let variable_ ← expect .identifier .forName
  let _ ← expect .assign .forAssign
  let start ← rec .statement
  expectWord "TO" .forTo
  let final ← rec .statement
  let increment ←
    if ← takeWord "STEP" then rec .statement else pure (Node.number (some (.number 1.0)))
  let body ← block rec n ["NEXT"]
  expectWord "NEXT" .next
  let closing ← peek
  if closing.kind == .identifier && closing.name == variable_.name then
    advance
    pure (Node.named .forLoop variable_.name [start, final, increment, body])
  else fail (.nextName variable_.name)

def whileStatement (n : Nat) : Parse Node := do
  let condition ← rec .condition
  expectWord "DO" .whileDo
  let body ← block rec n ["ENDWHILE"]
  expectWord "ENDWHILE" .endWhile
  pure (Node.of .whileLoop [condition, body])

def repeatStatement (n : Nat) : Parse Node := do
  let body ← block rec n ["UNTIL"]
  expectWord "UNTIL" .repeatUntil
  let condition ← rec .statement
  pure (Node.of .repeatUntil [body, condition])

def parameter : Parse Node := do
  let token ← expect .identifier .parameterName
  pure (Node.named .parameter token.name [])

def parameters (n : Nat) : Parse (List Node) := do
  if (← peek).kind == .identifier then commaList parameter n else pure []

def definitionHead (opening : Option String) : Parse Unit := do
  if opening == some "FUNCTION" then
    if ← takeWord "RETURNS" then
      if (← peek).kind == .keyword then advance
  else if opening == some "PROCEDURE" then pure ()
  else expectWord "DO" .defineDo

def finalResult (closing : Closing) : Parse Node := do
  if ← takeWord "RETURN" then
    let result ← rec .statement
    skipSeparators
    if (← peek).isKeyword closing.word then pure result
    else fail (.endAfterReturn closing.word)
  else pure Node.null

def definition (n : Nat) (opening : Option String) : Parse Node := do
  let function ← expect .identifier .defineName
  let _ ← expect .lparen .defineOpen
  let names ← parameters n
  let _ ← expect .rparen .defineClose
  definitionHead opening
  let closing := closingOf opening
  let body ← block rec n closing.terminators
  let result ← finalResult rec closing
  expectWord closing.word (.endDefine closing.word)
  pure (Node.named .define function.name [Node.of .parameters names, body, result])

def printStatement (n : Nat) : Parse Node := do
  if endsPrint (← peek) then pure (Node.of .print [])
  else pure (Node.of .print (← commaList (rec .statement) n))

def inputStatement : Parse Node := do
  let token ← expect .identifier .inputName
  pure (Node.named .input token.name [])

def readStatement (n : Nat) : Parse Node := do
  pure (Node.of .read (← commaList (rec .statement) n))

def includeStatement : Parse Node := do
  let token ← expect .string .includeName
  pure (Node.named .includeFile token.name [])

def returnStatement : Parse Node := do
  pure (Node.of .return [← rec .statement])

def dimension : Parse (Node × Node) := do
  let low ← rec .statement
  let _ ← expect .colon .dimensionColon
  let high ← rec .statement
  pure (low, high)

def declareStatement (n : Nat) : Parse Node := do
  let target ← expect .identifier .declareName
  let _ ← expect .colon .declareColon
  if ← takeWord "ARRAY" then
    let _ ← expect .lbracket .arrayOpen
    let dimensions ← commaList (dimension rec) n
    let _ ← expect .rbracket .dimensionsClose
    expectWord "OF" .arrayOf
    let item ← expect .keyword .elementType
    let type := arrayType dimensions item.name
    pure (Node.named .declare target.name [Node.named .string (some type) []])
  else
    let type ← expect .keyword .declareType
    pure (Node.named .declare target.name [Node.named .string type.name []])

def endsOtherwise (token : Token) : Bool :=
  token.isKeyword "ENDCASE" || token.isKeyword "OTHERWISE"

def endsCase (token : Token) : Bool :=
  endsOtherwise token || token.kind == .number || token.kind == .string || token.kind == .eof

def otherwise (n : Nat) : Parse Node := do
  let _ ← expect .colon .otherwiseColon
  pure (Node.of .caseOtherwise (← statementsUntil rec endsOtherwise n))

def caseItem (n : Nat) : Parse Node := do
  let value ← rec .statement
  let upper ← if ← takeWord "TO" then some <$> rec .statement else pure none
  let _ ← expect .colon .caseColon
  let body ← statementsUntil rec endsCase n
  pure (Node.of .caseItem (value :: upper.toList ++ body))

def caseItems (depth : Nat) : Nat → Option Node → Parse (List Node)
  | 0, _ => unfinished
  | n + 1, last => do
    if ← takeWord "ENDCASE" then pure last.toList
    else if ← takeWord "OTHERWISE" then
      let body ← otherwise rec depth
      caseItems depth n (some body)
    else
      let item ← caseItem rec depth
      let rest ← caseItems depth n last
      pure (item :: rest)

def caseStatement (n : Nat) : Parse Node := do
  expectWord "OF" .caseOf
  let subject ← expect .identifier .caseName
  let items ← caseItems rec n n none
  pure (Node.named .case subject.name items)

def keywordStatement (n : Nat) (token : Token) : Parse Node :=
  match token.name with
  | some "IF" => advance >>= fun _ => ifStatement rec n
  | some "FOR" => advance >>= fun _ => forStatement rec n
  | some "WHILE" => advance >>= fun _ => whileStatement rec n
  | some "DEF" | some "FUNCTION" | some "PROCEDURE" =>
    advance >>= fun _ => definition rec n token.name
  | some "PRINT" => advance >>= fun _ => printStatement rec n
  | some "INPUT" => advance >>= fun _ => inputStatement
  | some "read" => advance >>= fun _ => readStatement rec n
  | some "INCLUDE" => advance >>= fun _ => includeStatement
  | some "CASE" => advance >>= fun _ => caseStatement rec n
  | some "REPEAT" => advance >>= fun _ => repeatStatement rec n
  | some "DECLARE" => advance >>= fun _ => declareStatement rec n
  | some "RETURN" => advance >>= fun _ => returnStatement rec
  | some "ENDEF" => fail .strayEnd
  | _ => comparison rec n

def elementAssign (n : Nat) (name : Option String) : Parse Node := do
  let indices ← commaList (rec .statement) n
  let _ ← expect .rbracket .elementAssignClose
  -- The assignment sign, which has been seen ahead.
  advance
  let value ← rec .statement
  pure (Node.named .elementAssign name (indices ++ [value]))

def plainStatement (n : Nat) : Parse Node := do
  let token ← peek
  if token.kind == .keyword then keywordStatement rec n token else comparison rec n

def statement (n : Nat) : Parse Node := do
  let tokens ← get
  match tokens with
  | first :: second :: rest =>
    if first.kind == .identifier && second.kind == .assign then do
      set rest
      pure (Node.named .assign first.name [← rec .statement])
    else if first.kind == .identifier && second.kind == .lbracket && assignsElement rest then do
      set rest
      elementAssign rec n first.name
    else plainStatement rec n
  | _ => plainStatement rec n

def step (n : Nat) : Goal → Parse Node
  | .statement => statement rec n
  | .condition => plainStatement rec n
  | .comparison => comparison rec n
  | .factor => factor rec n

end Grammar

def run : Nat → Goal → Parse Node
  | 0, _ => unfinished
  | n + 1, goal => step (run n) n goal

end Parse

namespace Node

def statements (bound : Nat) : Parse (List Node) := do
  Parse.skipSeparators
  Parse.statementsUntil (Parse.run bound) (·.kind == .none) bound

def bound (tokens : List Token) : Nat :=
  2 * tokens.length + 4

def ofTokens (tokens : List Token) : Outcome ParseError Node := do
  let (found, _) ← statements (bound tokens) tokens
  pure (program found)

end Node

end Pseudocode
