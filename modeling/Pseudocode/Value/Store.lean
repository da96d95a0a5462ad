import Pseudocode.Outcome
import Pseudocode.Value

/-!
The store holds the elements of all lists. Its operations make a list, read and replace one, and
follow references: display, copy and comparison go into nested lists. Nesting without a cycle is no
deeper than the number of lists, which bounds them. For a list that contains itself they are unfinished,
where the host would come to the end of its stack; that nesting may be too deep for the stack is left out.
-/

set_option autoImplicit false

namespace Pseudocode

structure Store where
  lists : Array (Array Value)
  functions : Nat

namespace Store

def initial : Store := ⟨#[], 0⟩

def items (store : Store) (reference : Nat) : Array Value :=
  store.lists.getD reference #[]

def make (store : Store) (elements : Array Value) : Value × Store :=
  (.list store.lists.size, { store with lists := store.lists.push elements })

def modify (store : Store) (reference : Nat) (change : Array Value → Array Value) : Store :=
  { store with lists := store.lists.modify reference change }

def makeFunction (store : Store) (name : Option String) (parameters body result : Node) :
    Function × Store :=
  (⟨store.functions, name, parameters, body, result⟩,
    { store with functions := store.functions + 1 })

def ofPlain (store : Store) : Plain → Value × Store
  | .null => (.empty, store)
  | .flag b => (.number (if b then 1.0 else 0.0), store)
  | .number x => (.number x, store)
  | .text s => (.text s, store)
  | .list items => store.make (items.map Value.ofPlainItem).toArray
  | .record => (.number 0.0, store)

def settle (store : Store) : Value → Value × Store
  | .plain p => store.ofPlain p
  | v => (v, store)

def displayNumber (x : Float) : Except Fault String :=
  match Number.display x with
  | .ok text => .ok text
  | .error cause => .error (.notWhole cause)

def displayTruth (x : Float) : Option String → Except Fault String
  | some name => if name.isEmpty then displayNumber x else .ok name
  | none => displayNumber x

def displayTo (store : Store) : Nat → Value → Outcome Fault String
  | 0, _ => .unfinished
  | n + 1, v =>
    match v with
    | .empty => .ok "None"
    | .number x => .ofExcept (displayNumber x)
    | .truth x name => .ofExcept (displayTruth x name)
    | .text s => .ok s
    | .list reference => do
      let texts ← (store.items reference).toList.mapM (displayTo store n)
      pure ("[" ++ ", ".intercalate texts ++ "]")
    | .function f => .ok ("<function " ++ Fault.nameText f.name ++ ">")
    | .plain p => .ok p.shown

def display (store : Store) (v : Value) : Outcome Fault String :=
  store.displayTo (store.lists.size + 1) v

def copyAll (copy : Store → Value → Outcome Fault (Value × Store)) :
    Store → List Value → Outcome Fault (List Value × Store)
  | store, [] => .ok ([], store)
  | store, item :: rest => do
    let (first, store) ← copy store item
    let (others, store) ← copyAll copy store rest
    pure (first :: others, store)

def copyTo : Nat → Store → Value → Outcome Fault (Value × Store)
  | 0, _, _ => .unfinished
  | n + 1, store, v =>
    match v with
    | .empty => .error (.noMember .nothing .value)
    | .list reference => do
      let (elements, store) ← copyAll (copyTo n) store (store.items reference).toList
      pure (store.make elements.toArray)
    | other => .ok (other, store)

def copy (store : Store) (v : Value) : Outcome Fault (Value × Store) :=
  copyTo (store.lists.size + 1) store v

def allEqual (equal : Value → Value → Outcome Fault Bool) :
    List Value → List Value → Outcome Fault Bool
  | a :: as, b :: bs => do
    if ← equal a b then allEqual equal as bs else pure false
  | [], [] => .ok true
  | _, _ => .ok false

def equalTo (store : Store) : Nat → Value → Value → Outcome Fault Bool
  | 0, _, _ => .unfinished
  | n + 1, v, w =>
    match v, w with
    | .empty, .empty => .ok true
    | .number x, .number y | .number x, .truth y _ | .truth x _, .number y
    | .truth x _, .truth y _ => .ok (x == y)
    | .text s, .text t => .ok (s == t)
    | .list a, .list b =>
      let left := store.items a
      let right := store.items b
      if left.size == right.size then allEqual (equalTo store n) left.toList right.toList
      else .ok false
    | .function f, .function g => .ok (f.serial == g.serial)
    | .plain p, .plain q => .ok (p.same q)
    | _, _ => .ok false

def equal (store : Store) (v w : Value) : Outcome Fault Bool :=
  store.equalTo (store.lists.size * store.lists.size + 2) v w

end Store

end Pseudocode
