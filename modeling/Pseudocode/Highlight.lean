import Pseudocode.Text.Units

set_option autoImplicit false

namespace Pseudocode

namespace Highlight

inductive Style where
  | keyword
  | builtin
  | number
  | string
  | operator
  | comment
  deriving Repr, DecidableEq

def Style.label : Style → String
  | .keyword => "keyword"
  | .builtin => "builtin"
  | .number => "number"
  | .string => "string"
  | .operator => "operator"
  | .comment => "comment"

inductive Pattern where
  | word (letters : String)
  | number
  | quoted (mark : Char)
  | sign (text : String)
  | comment
  deriving Repr, DecidableEq

structure Rule where
  pattern : Pattern
  style : Style
  deriving Repr, DecidableEq

def keywords : List String :=
  ["IF", "THEN", "ELSE", "ENDIF", "FOR", "TO", "STEP", "NEXT", "WHILE", "DO", "ENDWHILE", "DEF",
   "RETURN", "AND", "OR", "NOT", "TRUE", "FALSE", "REPEAT", "UNTIL", "CASE", "OF", "OTHERWISE",
   "ENDCASE"]

def builtins : List String :=
  ["PRINT", "INPUT", "read", "INCLUDE"]

def operators : List String :=
  ["+", "-", "*", "/", "^", "=", "==", "!=", "<", ">", "<=", ">="]

def rules : List Rule :=
  keywords.map (⟨.word ·, .keyword⟩) ++ builtins.map (⟨.word ·, .builtin⟩) ++
    [⟨.number, .number⟩, ⟨.quoted '"', .string⟩, ⟨.quoted '\'', .string⟩] ++
    operators.map (⟨.sign ·, .operator⟩) ++ [⟨.comment, .comment⟩]

def isWordChar (c : Char) : Bool :=
  c.isAlphanum || c == '_'

def isWordEnd : List Char → Bool
  | [] => true
  | c :: _ => !isWordChar c

def startsWord (before : Option Char) : Bool :=
  match before with
  | some c => !isWordChar c
  | none => true

def numberLength (text : List Char) : Option Nat :=
  let digits := text.takeWhile Char.isDigit
  let rest := text.dropWhile Char.isDigit
  if digits.isEmpty || !isWordEnd rest then none
  else match rest with
    | '.' :: more =>
      let fraction := more.takeWhile Char.isDigit
      -- Digits cannot be given back one by one: no word ends between two of them.
      if !fraction.isEmpty && isWordEnd (more.dropWhile Char.isDigit) then
        some (digits.length + 1 + fraction.length)
      else some digits.length
    | _ => some digits.length

def literalLength (mark : Char) : List Char → Option Nat
  | [] => none
  | '\\' :: c :: rest => if c == '\n' then none else (literalLength mark rest).map (· + 2)
  | c :: rest =>
    if c == mark then some 1
    else if c == '\\' then none
    else (literalLength mark rest).map (· + 1)

def Pattern.length? (pattern : Pattern) (before : Option Char) (text : List Char) : Option Nat :=
  match pattern with
  | .word letters =>
    let word := letters.toList
    if startsWord before && word.isPrefixOf text && isWordEnd (text.drop word.length) then
      some word.length
    else none
  | .number => if startsWord before then numberLength text else none
  | .quoted mark =>
    match text with
    | c :: rest => if c == mark then (literalLength mark rest).map (· + 1) else none
    | [] => none
  | .sign mark => if mark.toList.isPrefixOf text then some mark.toList.length else none
  | .comment =>
    match text with
    | '/' :: '/' :: rest => some (2 + (rest.takeWhile (· != '\n')).length)
    | _ => none

structure Span where
  start : Nat
  length : Nat
  deriving Repr, DecidableEq

/-- The successive leftmost matches of a pattern. The text begins at `position` and after `before`;
its first `covered` characters belong to the last match. -/
def spansFrom (pattern : Pattern) :
    (text : List Char) → (position : Nat) → (before : Option Char) → (covered : Nat) → List Span
  | [], _, _, _ => []
  | c :: rest, position, _, covered + 1 =>
    spansFrom pattern rest (position + 1) (some c) covered
  | c :: rest, position, before, 0 =>
    match pattern.length? before (c :: rest) with
    | some (more + 1) =>
      ⟨position, more + 1⟩ :: spansFrom pattern rest (position + 1) (some c) more
    | _ => spansFrom pattern rest (position + 1) (some c) 0

def spans (pattern : Pattern) (text : List Char) : List Span :=
  spansFrom pattern text 0 none 0

def styled (text : List Char) : List (Span × Style) :=
  rules.flatMap fun rule => (spans rule.pattern text).map (·, rule.style)

structure Format where
  start : Nat
  length : Nat
  style : Style
  deriving Repr, DecidableEq

def formatOf (text : List Char) (span : Span) (style : Style) : Format :=
  ⟨Text.units (text.take span.start), Text.units ((text.drop span.start).take span.length), style⟩

def formats (text : String) : List Format :=
  let chars := text.toList
  (styled chars).map fun (span, style) => formatOf chars span style

def Pattern.expression : Pattern → String
  | .word letters => "\\b" ++ letters ++ "\\b"
  | .number => "\\b[0-9]+(\\.[0-9]+)?\\b"
  | .quoted mark =>
    let m := mark.toString
    m ++ "[^" ++ m ++ "\\\\]*(\\\\.[^" ++ m ++ "\\\\]*)*" ++ m
  | .sign text => if ["+", "*", "^"].contains text then "\\" ++ text else text
  | .comment => "//[^\\n]*"

end Highlight

end Pseudocode
