import Pseudocode.Json
import Pseudocode.Number.Display
import Pseudocode.Text.Quoted

set_option autoImplicit false

namespace Pseudocode

namespace Json

def quoted : Json → String
  | .null => "None"
  | .flag b => if b then "True" else "False"
  | .whole n => toString n
  | .fractional x => Number.exactText x
  | .text s => Text.quoted s
  | .list items => "[" ++ ", ".intercalate (quotedItems items) ++ "]"
  | .object members => "\x7b" ++ ", ".intercalate (quotedMembers members) ++ "\x7d"
where
  quotedItems : List Json → List String
    | [] => []
    | item :: rest => quoted item :: quotedItems rest
  quotedMembers : List (String × Json) → List String
    | [] => []
    | (key, value) :: rest => (Text.quoted key ++ ": " ++ quoted value) :: quotedMembers rest

def shown : Json → String
  | .text s => s
  | json => json.quoted

def kindLabel : Json → String
  | .null => "NoneType"
  | .flag _ => "bool"
  | .whole _ => "int"
  | .fractional _ => "float"
  | .text _ => "str"
  | .list _ => "list"
  | .object _ => "dict"

end Json

end Pseudocode
