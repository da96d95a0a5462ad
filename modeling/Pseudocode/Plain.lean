import Pseudocode.Number.Display
import Pseudocode.Text.Quoted

set_option autoImplicit false

namespace Pseudocode

inductive Plain where
  | null
  | flag (b : Bool)
  | number (x : Float)
  | text (s : String)
  | list (items : List Plain)
  | record

namespace Plain

def quoted : Plain → String
  | .null => "None"
  | .flag b => if b then "True" else "False"
  | .number x => Number.exactText x
  | .text s => Text.quoted s
  | .list items => "[" ++ ", ".intercalate (quotedAll items) ++ "]"
  | .record => "\x7b\x7d"
where
  quotedAll : List Plain → List String
    | [] => []
    | item :: rest => quoted item :: quotedAll rest

def shown : Plain → String
  | .text s => s
  | p => p.quoted

def isTrue : Plain → Bool
  | .null | .record => false
  | .flag b => b
  | .number x => x != 0.0
  | .text s => !s.isEmpty
  | .list items => !items.isEmpty

def same : Plain → Plain → Bool
  | .null, .null => true
  | .flag a, .flag b => a == b
  | .number a, .number b => a == b
  | .flag a, .number b | .number b, .flag a => (if a then 1.0 else 0.0) == b
  | .text a, .text b => a == b
  | .list as, .list bs => sameAll as bs
  | .record, .record => true
  | _, _ => false
where
  sameAll : List Plain → List Plain → Bool
    | [], [] => true
    | a :: as, b :: bs => same a b && sameAll as bs
    | _, _ => false

end Plain

end Pseudocode
