import Pseudocode.Json
import Pseudocode.Number.Display
import Pseudocode.Text.Quoted

set_option autoImplicit false

namespace Pseudocode

namespace Json

def unitEscape (n : Nat) : List Char :=
  '\\' :: 'u' :: Text.hexDigits 4 n

def escape (c : Char) : List Char :=
  if c == '"' then ['\\', '"']
  else if c == '\\' then ['\\', '\\']
  else if c == '\n' then ['\\', 'n']
  else if c == '\r' then ['\\', 'r']
  else if c == '\t' then ['\\', 't']
  else if c.toNat == 12 then ['\\', 'f']
  else if c.toNat == 8 then ['\\', 'b']
  else if 0x20 ≤ c.toNat && c.toNat < 0x7f then [c]
  else if c.toNat < 0x10000 then unitEscape c.toNat
  else
    let n := c.toNat - 0x10000
    unitEscape (0xd800 + n / 0x400) ++ unitEscape (0xdc00 + n % 0x400)

def writeText (s : String) : String :=
  String.ofList ('"' :: s.toList.flatMap escape ++ ['"'])

def writeFractional (x : Float) : String :=
  if x.isNaN then "NaN"
  else if x.isInf then if x < 0.0 then "-Infinity" else "Infinity"
  else Number.exactText x

def compact : Json → String
  | .null => "null"
  | .flag b => if b then "true" else "false"
  | .whole n => toString n
  | .fractional x => writeFractional x
  | .text s => writeText s
  | .list items => "[" ++ ", ".intercalate (compactItems items) ++ "]"
  | .object members => "\x7b" ++ ", ".intercalate (compactMembers members) ++ "\x7d"
where
  compactItems : List Json → List String
    | [] => []
    | item :: rest => compact item :: compactItems rest
  compactMembers : List (String × Json) → List String
    | [] => []
    | (key, value) :: rest => (writeText key ++ ": " ++ compact value) :: compactMembers rest

def newLine (level : Nat) : String :=
  String.ofList ('\n' :: List.replicate (4 * level) ' ')

def nested (level : Nat) (opening closing : String) : List String → String
  | [] => opening ++ closing
  | parts =>
    opening ++ newLine (level + 1) ++ ("," ++ newLine (level + 1)).intercalate parts ++
      newLine level ++ closing

def indentedAt (level : Nat) : Json → String
  | .list items => nested level "[" "]" (indentedItems level items)
  | .object members => nested level "\x7b" "\x7d" (indentedMembers level members)
  | .null => "null"
  | .flag b => if b then "true" else "false"
  | .whole n => toString n
  | .fractional x => writeFractional x
  | .text s => writeText s
where
  indentedItems (level : Nat) : List Json → List String
    | [] => []
    | item :: rest => indentedAt (level + 1) item :: indentedItems level rest
  indentedMembers (level : Nat) : List (String × Json) → List String
    | [] => []
    | (key, value) :: rest =>
      (writeText key ++ ": " ++ indentedAt (level + 1) value) :: indentedMembers level rest

def indented (json : Json) : String :=
  indentedAt 0 json

def longMessage : String :=
  "Exceeds the limit (4300 digits) for integer string conversion; " ++
    "use sys.set_int_max_str_digits() to increase the limit"

def isLong (n : Int) : Bool :=
  (Nat.toDigits 10 n.natAbs).length > digitLimit

-- What has been written when a whole number with too many digits is met, if there is one.
def cutAt (level : Nat) : Json → Option String
  | .whole n => if isLong n then some "" else none
  | .list items => cutItems level "" ("[" ++ newLine (level + 1)) items
  | .object members => cutMembers level ("\x7b" ++ newLine (level + 1)) members
  | .null | .flag _ | .fractional _ | .text _ => none
where
  cutItems (level : Nat) (before mark : String) : List Json → Option String
    | [] => none
    | item :: rest =>
      match item, cutAt (level + 1) item with
      -- The mark before an item that is a number is written together with the number.
      | .whole _, some _ => some before
      | _, some inner => some (before ++ mark ++ inner)
      | _, none =>
        cutItems level (before ++ mark ++ indentedAt (level + 1) item) ("," ++ newLine (level + 1)) rest
  cutMembers (level : Nat) (before : String) : List (String × Json) → Option String
    | [] => none
    | (key, value) :: rest =>
      let named := before ++ writeText key ++ ": "
      match cutAt (level + 1) value with
      | some inner => some (named ++ inner)
      | none =>
        cutMembers level (named ++ indentedAt (level + 1) value ++ "," ++ newLine (level + 1)) rest

end Json

end Pseudocode
