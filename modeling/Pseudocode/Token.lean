import Pseudocode.Plain

set_option autoImplicit false

namespace Pseudocode

inductive Token.Kind where
  | number
  | plus
  | minus
  | multiply
  | divide
  | pow
  | lparen
  | rparen
  | assign
  | identifier
  | none
  | equal
  | notEqual
  | less
  | greater
  | lessEqual
  | greaterEqual
  | keyword
  | comma
  | string
  | lbracket
  | rbracket
  | sep
  | newline
  | caseMark
  | caseItem
  | caseOtherwise
  | colon
  | eof
  deriving Repr, DecidableEq

namespace Token.Kind

def label : Kind → String
  | .number => "NUMBER"
  | .plus => "PLUS"
  | .minus => "MINUS"
  | .multiply => "MULTIPLY"
  | .divide => "DIVIDE"
  | .pow => "POW"
  | .lparen => "LPAREN"
  | .rparen => "RPAREN"
  | .assign => "EQ"
  | .identifier => "IDENTIFIER"
  | .none => "NONE"
  | .equal => "EE"
  | .notEqual => "NE"
  | .less => "LT"
  | .greater => "GT"
  | .lessEqual => "LTE"
  | .greaterEqual => "GTE"
  | .keyword => "KEYWORD"
  | .comma => "COMMA"
  | .string => "STRING"
  | .lbracket => "LSQBRACKET"
  | .rbracket => "RSQBRACKET"
  | .sep => "SEP"
  | .newline => "NL"
  | .caseMark => "CASE"
  | .caseItem => "CASE_ITEM"
  | .caseOtherwise => "CASE_OTHERWISE"
  | .colon => "COLON"
  | .eof => "EOF"

def all : List Kind :=
  [.number, .plus, .minus, .multiply, .divide, .pow, .lparen, .rparen, .assign, .identifier, .none,
   .equal, .notEqual, .less, .greater, .lessEqual, .greaterEqual, .keyword, .comma, .string,
   .lbracket, .rbracket, .sep, .newline, .caseMark, .caseItem, .caseOtherwise, .colon, .eof]

theorem mem_all (kind : Kind) : kind ∈ all := by
  cases kind <;> simp [all]

def ofLabel? (text : String) : Option Kind :=
  all.find? (·.label == text)

end Token.Kind

structure Token where
  kind : Token.Kind
  value : Option Plain := .none
  name : Option String := .none

namespace Token

def mark (kind : Kind) : Token := { kind }

def number (x : Float) : Token := { kind := .number, value := some (.number x) }

def keyword (word : String) : Token := { kind := .keyword, name := some word }

def identifier (name : String) : Token := { kind := .identifier, name := some name }

def string (text : String) : Token := { kind := .string, name := some text }

def stop : Token := mark .none

def isKeyword (t : Token) (word : String) : Bool :=
  t.kind == .keyword && t.name == some word

def isSeparator (t : Token) : Bool :=
  t.kind == .sep || t.kind == .newline

def text (t : Token) : String :=
  match t.value, t.name with
  | some v, _ => t.kind.label ++ ":" ++ v.shown
  | .none, some n => t.kind.label ++ ":" ++ n
  | .none, .none => t.kind.label

end Token

end Pseudocode
