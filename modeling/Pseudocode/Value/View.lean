import Pseudocode.Value.Store

set_option autoImplicit false

namespace Pseudocode

inductive View where
  | empty
  | number (x : Float)
  | truth (x : Float) (name : Option String)
  | text (s : String)
  | list (items : List View)
  | function (name : Option String)
  | plain (p : Plain)
  | cycle

namespace View

def isCyclic : View → Bool
  | .cycle => true
  | .list items => anyCyclic items
  | _ => false
where
  anyCyclic : List View → Bool
    | [] => false
    | item :: rest => isCyclic item || anyCyclic rest

end View

namespace Store

def viewTo (store : Store) : Nat → List Nat → Value → View
  | 0, _, _ => .cycle
  | n + 1, path, v =>
    match v with
    | .empty => .empty
    | .number x => .number x
    | .truth x name => .truth x name
    | .text s => .text s
    | .list reference =>
      if path.contains reference then .cycle
      else .list ((store.items reference).toList.map (viewTo store n (reference :: path)))
    | .function f => .function f.name
    | .plain p => .plain p

def view (store : Store) (v : Value) : View :=
  store.viewTo (store.lists.size + 2) [] v

end Store

end Pseudocode
