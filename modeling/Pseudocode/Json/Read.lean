import Pseudocode.Json
import Pseudocode.Number.Read
import Pseudocode.Outcome

set_option autoImplicit false

namespace Pseudocode

namespace Json

inductive Cause where
  | value
  | propertyName
  | colon
  | comma
  | unterminated
  | control
  | escape
  | unicodeEscape
  | extra
  | byteOrderMark
  deriving Repr, DecidableEq

def Cause.message : Cause → String
  | .value => "Expecting value"
  | .propertyName => "Expecting property name enclosed in double quotes"
  | .colon => "Expecting ':' delimiter"
  | .comma => "Expecting ',' delimiter"
  | .unterminated => "Unterminated string starting at"
  | .control => "Invalid control character at"
  | .escape => "Invalid \\escape"
  | .unicodeEscape => "Invalid \\uXXXX escape"
  | .extra => "Extra data"
  | .byteOrderMark => "Unexpected UTF-8 BOM (decode using utf-8-sig)"

inductive Failure where
  | at (cause : Cause) (left : Nat)
  | digits (count : Nat)
  deriving Repr, DecidableEq

structure Position where
  line : Nat
  column : Nat
  offset : Nat
  deriving Repr, DecidableEq

def Position.next (place : Position) (c : Char) : Position :=
  if c == '\n' then ⟨place.line + 1, 1, place.offset + 1⟩
  else ⟨place.line, place.column + 1, place.offset + 1⟩

def Position.after (before : List Char) : Position :=
  before.foldl Position.next ⟨1, 1, 0⟩

def Failure.message (text : List Char) : Failure → String
  | .at cause left =>
    let place := Position.after (text.take (text.length - left))
    cause.message ++ s!": line {place.line} column {place.column} (char {place.offset})"
  | .digits count =>
    "Exceeds the limit (4300 digits) for integer string conversion: value has " ++
      toString count ++ " digits; use sys.set_int_max_str_digits() to increase the limit"

def failAt {α : Type} (cause : Cause) (rest : List Char) : Outcome Failure α :=
  .error (.at cause rest.length)

def isSpace (c : Char) : Bool :=
  c == ' ' || c == '\t' || c == '\n' || c == '\r'

def skipSpace (text : List Char) : List Char :=
  text.dropWhile isSpace

def hexValue? (c : Char) : Option Nat :=
  if c.isDigit then some (c.toNat - '0'.toNat)
  else if 'a' ≤ c && c ≤ 'f' then some (c.toNat - 'a'.toNat + 10)
  else if 'A' ≤ c && c ≤ 'F' then some (c.toNat - 'A'.toNat + 10)
  else none

def hexUnit? : List Char → Option (Option Nat × List Char)
  | a :: b :: c :: d :: e :: rest =>
    some ([a, b, c, d].foldlM (fun n x => (hexValue? x).map (16 * n + ·)) 0, e :: rest)
  | _ => none

def isHighUnit (n : Nat) : Bool := 0xd800 ≤ n && n < 0xdc00

def isLowUnit (n : Nat) : Bool := 0xdc00 ≤ n && n < 0xe000

def unitChar (n : Nat) : Char :=
  if 0xd800 ≤ n && n < 0xe000 then Char.ofNat 0xfffd else Char.ofNat n

def escaped? : Char → Option Char
  | '"' => some '"'
  | '\\' => some '\\'
  | '/' => some '/'
  | 'b' => some (Char.ofNat 8)
  | 'f' => some (Char.ofNat 12)
  | 'n' => some '\n'
  | 'r' => some '\r'
  | 't' => some '\t'
  | _ => none

def readUnit (digits : List Char) : Outcome Failure (Char × List Char) :=
  match hexUnit? digits with
  | none => .error (.at .unicodeEscape (digits.length + 1))
  | some (none, _) => .error (.at .unicodeEscape (digits.length + 1))
  | some (some high, rest) =>
    match isHighUnit high, rest with
    | true, '\\' :: 'u' :: more =>
      match hexUnit? more with
      | none => .ok (unitChar high, rest)
      | some (none, _) => .error (.at .unicodeEscape (more.length + 1))
      | some (some low, after) =>
        if isLowUnit low then
          .ok (Char.ofNat (0x10000 + (high - 0xd800) * 0x400 + (low - 0xdc00)), after)
        else .ok (unitChar high, rest)
    | _, _ => .ok (unitChar high, rest)

def readText (start : Nat) : Nat → List Char → List Char → Outcome Failure (String × List Char)
  | 0, _, _ => .unfinished
  | _ + 1, _, [] => .error (.at .unterminated start)
  | _ + 1, done, '"' :: rest => .ok (String.ofList done.reverse, rest)
  | _ + 1, _, ['\\'] => .error (.at .unterminated start)
  | n + 1, done, '\\' :: 'u' :: digits => do
    let (c, rest) ← readUnit digits
    readText start n (c :: done) rest
  | n + 1, done, '\\' :: c :: rest =>
    match escaped? c with
    | some d => readText start n (d :: done) rest
    | none => .error (.at .escape (rest.length + 2))
  | n + 1, done, c :: rest =>
    if c.toNat < 0x20 then failAt .control (c :: rest)
    else readText start n (c :: done) rest

def readQuoted (rest : List Char) : Outcome Failure (String × List Char) :=
  readText (rest.length + 1) (rest.length + 1) [] rest

def wholeDigits : List Char → Option (List Char × List Char)
  | '0' :: rest => some (['0'], rest)
  | other =>
    let digits := other.takeWhile Char.isDigit
    if digits.isEmpty then none else some (digits, other.dropWhile Char.isDigit)

def fractionDigits : List Char → List Char × List Char
  | '.' :: d :: rest =>
    if d.isDigit then ((d :: rest).takeWhile Char.isDigit, (d :: rest).dropWhile Char.isDigit)
    else ([], '.' :: d :: rest)
  | other => ([], other)

def exponentDigits : List Char → Option (List Char × List Char)
  | c :: rest =>
    let (sign, digits) := match rest with
      | '-' :: more => (['-'], more)
      | '+' :: more => ([], more)
      | _ => ([], rest)
    let found := digits.takeWhile Char.isDigit
    if (c == 'e' || c == 'E') && !found.isEmpty then
      some ('e' :: sign ++ found, digits.dropWhile Char.isDigit)
    else none
  | [] => none

def readNumber (source : List Char) : Outcome Failure (Json × List Char) :=
  let (sign, unsigned) := match source with
    | '-' :: rest => (['-'], rest)
    | _ => ([], source)
  match wholeDigits unsigned with
  | none => failAt .value source
  | some (units, afterWhole) =>
    let (fraction, afterFraction) := fractionDigits afterWhole
    match fraction, exponentDigits afterFraction with
    | [], none =>
      if units.length > digitLimit then .error (.digits units.length)
      else
        let n : Int := (Number.digitsValue? units).getD 0
        .ok (.whole (if sign.isEmpty then n else -n), afterFraction)
    | _, exponent =>
      let (written, rest) := exponent.getD ([], afterFraction)
      let digits := sign ++ units ++ (if fraction.isEmpty then [] else '.' :: fraction) ++ written
      .ok (.fractional ((Number.parse? (String.ofList digits)).getD 0.0), rest)

section Nested

variable (rec : List Char → Outcome Failure (Json × List Char))

def readItems : Nat → List Json → List Char → Outcome Failure (Json × List Char)
  | 0, _, _ => .unfinished
  | n + 1, done, source => do
    let (item, rest) ← rec source
    match skipSpace rest with
    | ']' :: after => pure (.list (item :: done).reverse, after)
    | ',' :: more => readItems n (item :: done) (skipSpace more)
    | other => failAt .comma other

def readMembers : Nat → Members → List Char → Outcome Failure (Json × List Char)
  | 0, _, _ => .unfinished
  | n + 1, done, '"' :: source => do
    let (key, rest) ← readQuoted source
    match skipSpace rest with
    | ':' :: more => do
      let (value, after) ← rec (skipSpace more)
      let members := Members.insert key value done
      match skipSpace after with
      | '}' :: behind => pure (.object members, behind)
      | ',' :: next => readMembers n members (skipSpace next)
      | other => failAt .comma other
    | other => failAt .colon other
  | _ + 1, _, source => failAt .propertyName source

def readStep (n : Nat) : List Char → Outcome Failure (Json × List Char)
  | '"' :: rest => do
    let (s, after) ← readQuoted rest
    pure (.text s, after)
  | '\x7b' :: rest =>
    match skipSpace rest with
    | '}' :: after => .ok (.object [], after)
    | inner => readMembers rec n [] inner
  | '[' :: rest =>
    match skipSpace rest with
    | ']' :: after => .ok (.list [], after)
    | inner => readItems rec n [] inner
  | 'n' :: 'u' :: 'l' :: 'l' :: rest => .ok (.null, rest)
  | 't' :: 'r' :: 'u' :: 'e' :: rest => .ok (.flag true, rest)
  | 'f' :: 'a' :: 'l' :: 's' :: 'e' :: rest => .ok (.flag false, rest)
  | 'N' :: 'a' :: 'N' :: rest => .ok (.fractional (0.0 / 0.0), rest)
  | 'I' :: 'n' :: 'f' :: 'i' :: 'n' :: 'i' :: 't' :: 'y' :: rest =>
    .ok (.fractional (1.0 / 0.0), rest)
  | '-' :: 'I' :: 'n' :: 'f' :: 'i' :: 'n' :: 'i' :: 't' :: 'y' :: rest =>
    .ok (.fractional (-(1.0 / 0.0)), rest)
  | source => readNumber source

end Nested

def readValue : Nat → List Char → Outcome Failure (Json × List Char)
  | 0, _ => .unfinished
  | n + 1, source => readStep (readValue n) n source

def readAll (text : List Char) : Outcome Failure Json :=
  match text with
  | '\ufeff' :: _ => failAt .byteOrderMark text
  | _ => do
    let (json, rest) ← readValue (text.length + 1) (skipSpace text)
    match skipSpace rest with
    | [] => pure json
    | extra => failAt .extra extra

def read (text : String) : Except String Json :=
  let chars := text.toList
  match readAll chars with
  | .ok json => .ok json
  | .error failure => .error (failure.message chars)
  | .unfinished => .error "the text is nested too deeply"

end Json

end Pseudocode
