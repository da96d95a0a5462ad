import Pseudocode.Fault
import Pseudocode.Outcome

set_option autoImplicit false

namespace Pseudocode

inductive Cell where
  | number (held : Plain)
  | text (held : Plain)
  | list (items : List (Option Nat))
  | function (name : String)
  | variable (type : String) (content : Option Nat)

inductive CellFault where
  | noMember (holder : Holder) (member : Member)
  | notWhole (cause : Number.NotWhole)
  | notWholeText (text : String)
  | notConvertible (holder : Holder)
  | notText (holder : Holder)
  deriving Repr, DecidableEq

def shownPart : Nat := 200

def CellFault.message : CellFault → String
  | .noMember holder member => Fault.message (.noMember holder member)
  | .notWhole cause => Fault.message (.notWhole cause)
  | .notWholeText text =>
    "invalid literal for int() with base 10: " ++
      String.ofList ((Text.quoted text).toList.take shownPart)
  | .notConvertible holder =>
    "int() argument must be a string, a bytes-like object or a real number, not '" ++
      holder.label ++ "'"
  | .notText holder => "__repr__ returned non-string (type " ++ holder.label ++ ")"

structure Cells where
  cells : Array Cell

namespace Cells

def initial : Cells := ⟨#[]⟩

def size (heap : Cells) : Nat := heap.cells.size

def get? (heap : Cells) (reference : Option Nat) : Option Cell :=
  reference.bind (heap.cells[·]?)

def add (heap : Cells) (cell : Cell) : Nat × Cells :=
  (heap.size, ⟨heap.cells.push cell⟩)

def put (heap : Cells) (reference : Nat) (cell : Cell) : Cells :=
  ⟨heap.cells.setIfInBounds reference cell⟩

def holderOf : Option Cell → Holder
  | none => .nothing
  | some (.number _) => .number
  | some (.text _) => .text
  | some (.list _) => .list
  | some (.function _) => .function
  | some (.variable _ _) => .variable

def typeOf : Cell → String
  | .number _ => "number"
  | .text _ => "string"
  | .list _ => "list"
  | .function _ => "function"
  | .variable _ _ => "number"

def variableOf (heap : Cells) (cell : Cell) : Nat × Cells :=
  let (content, heap) := heap.add cell
  heap.add (.variable (typeOf cell) (some content))

def cellOfItem : Plain → Cell
  | .flag b => .number (.number (if b then 1.0 else 0.0))
  | .number x => .number (.number x)
  | .text s => .text (.text s)
  | _ => .number (.number 0.0)

def variablesOf (heap : Cells) : List Plain → List (Option Nat) × Cells
  | [] => ([], heap)
  | item :: rest =>
    let (first, heap) := heap.variableOf (cellOfItem item)
    let (others, heap) := heap.variablesOf rest
    (some first :: others, heap)

def variableOfPlain (heap : Cells) : Plain → Nat × Cells
  | .null => heap.add (.variable "number" none)
  | .list items =>
    let (references, heap) := heap.variablesOf items
    heap.variableOf (.list references)
  | item => heap.variableOf (cellOfItem item)

def wrap (heap : Cells) (reference : Option Nat) : Nat × Cells :=
  match heap.get? reference with
  | none => heap.add (.variable "number" none)
  | some (.variable _ _) => heap.variableOf (.number (.number 0.0))
  | some cell => heap.add (.variable (typeOf cell) reference)

def held (cell : Option Cell) : Except CellFault Plain :=
  match cell with
  | some (.number p) | some (.text p) => .ok p
  | other => .error (.noMember (holderOf other) .value)

def itemsOf (cell : Option Cell) : Except CellFault (List (Option Nat)) :=
  match cell with
  | some (.list items) => .ok items
  | other => .error (.noMember (holderOf other) .values)

abbrev Copies : Type := List (Nat × Nat)

def copyItems (copy : Cells × Copies → Option Nat → Option Nat × (Cells × Copies)) :
    Cells × Copies → List (Option Nat) → List (Option Nat) × (Cells × Copies)
  | state, [] => ([], state)
  | state, item :: rest =>
    let (first, state) := copy state item
    let (others, state) := copyItems copy state rest
    (first :: others, state)

/-- A copy of a cell and of all it refers to. Cells that were shared, or lie on a cycle, are so in the
copy. -/
def deepCopyTo : Nat → Cells × Copies → Option Nat → Option Nat × (Cells × Copies)
  | 0, state, reference => (reference, state)
  | _ + 1, state, none => (none, state)
  | n + 1, (heap, copies), some source =>
    match copies.lookup source with
    | some made => (some made, (heap, copies))
    | none =>
      match heap.get? (some source) with
      | none => (none, (heap, copies))
      | some cell =>
        let (made, heap) := heap.add cell
        let state := (heap, (source, made) :: copies)
        match cell with
        | .list items =>
          let (items, (heap, copies)) := copyItems (deepCopyTo n) state items
          (some made, (heap.put made (.list items), copies))
        | .variable type content =>
          let (content, (heap, copies)) := deepCopyTo n state content
          (some made, (heap.put made (.variable type content), copies))
        | _ => (some made, state)

def deepCopy (heap : Cells) (reference : Option Nat) : Option Nat × Cells :=
  let (made, (heap, _)) := deepCopyTo (heap.size + 1) (heap, []) reference
  (made, heap)

def copyElements (copy : Cells → Nat → Outcome CellFault (Nat × Cells)) :
    Cells → List (Option Nat) → Outcome CellFault (List (Option Nat) × Cells)
  | heap, [] => .ok ([], heap)
  | heap, item :: rest =>
    match item, heap.get? item with
    | some reference, some (.variable _ _) => do
      let (first, heap) ← copy heap reference
      let (others, heap) ← copyElements copy heap rest
      pure (some first :: others, heap)
    | _, _ => do
      let (first, heap) := heap.deepCopy item
      let (others, heap) ← copyElements copy heap rest
      pure (first :: others, heap)

def copyTo : Nat → Cells → Nat → Outcome CellFault (Nat × Cells)
  | 0, _, _ => .unfinished
  | n + 1, heap, reference =>
    match heap.get? (some reference) with
    | some (.variable type content) =>
      let found := heap.get? content
      match type with
      | "number" => do
        let p ← .ofExcept (held found)
        let (made, heap) := heap.add (.number p)
        pure (heap.add (.variable type (some made)))
      | "string" => do
        let p ← .ofExcept (held found)
        let (made, heap) := heap.add (.text p)
        pure (heap.add (.variable type (some made)))
      | "list" => do
        let items ← .ofExcept (itemsOf found)
        let (items, heap) ← copyElements (copyTo n) heap items
        let (made, heap) := heap.add (.list items)
        pure (heap.add (.variable type (some made)))
      | "function" => .ok (heap.add (.variable type content))
      | _ =>
        let (made, heap) := heap.deepCopy content
        .ok (heap.add (.variable type made))
    | other => .error (.noMember (holderOf other) .copy)

def copy (heap : Cells) (reference : Option Nat) : Outcome CellFault (Nat × Cells) :=
  match reference with
  | some r => copyTo (heap.size + 1) heap r
  | none => .error (.noMember .nothing .copy)

def allEqual (equal : Option Nat → Option Nat → Outcome CellFault Bool) :
    List (Option Nat) → List (Option Nat) → Outcome CellFault Bool
  | a :: as, b :: bs => do
    if ← equal a b then allEqual equal as bs else pure false
  | [], [] => .ok true
  | _, _ => .ok false

def equalTo (heap : Cells) : Nat → Option Nat → Option Nat → Outcome CellFault Bool
  | 0, _, _ => .unfinished
  | n + 1, a, b =>
    match heap.get? a, heap.get? b with
    | none, none => .ok true
    | some (.number p), some (.number q) | some (.text p), some (.text q) => .ok (p.same q)
    | some (.list items), some (.list others) =>
      if items.length == others.length then allEqual (heap.equalTo n) items others else .ok false
    | some (.function _), some (.function _) => .ok (a == b)
    | some (.variable _ content), some (.variable _ other) => heap.equalTo n content other
    | _, _ => .ok false

def equal (heap : Cells) (a b : Option Nat) : Outcome CellFault Bool :=
  heap.equalTo (heap.size * heap.size + 2) a b

def isWholeText (text : String) : Bool :=
  let chars := text.toList.map Number.plainChar
  match Number.joinGroups false (Number.trimmed chars) with
  | some joined =>
    let (_, digits) := Number.takeSign joined
    !digits.isEmpty && digits.all Char.isDigit
  | none => false

def displayNumber : Plain → Except CellFault String
  | .number x =>
    match Number.display x with
    | .ok text => .ok text
    | .error cause => .error (.notWhole cause)
  | .flag b => .ok (if b then "1" else "0")
  | .text s => if isWholeText s then .ok s else .error (.notWholeText s)
  | p => .error (.notConvertible p.holder)

def displayText : Plain → Except CellFault String
  | .text s => .ok s
  | p => .error (.notText p.holder)

def displayTo (heap : Cells) : Nat → Option Nat → Outcome CellFault String
  | 0, _ => .unfinished
  | n + 1, reference =>
    match heap.get? reference with
    | none => .ok "None"
    | some (.number p) => .ofExcept (displayNumber p)
    | some (.text p) => .ofExcept (displayText p)
    | some (.list items) => do
      let texts ← items.mapM (heap.displayTo n)
      pure ("[" ++ ", ".intercalate texts ++ "]")
    | some (.function name) => .ok ("<function " ++ name ++ ">")
    | some (.variable _ content) => heap.displayTo n content

def display (heap : Cells) (reference : Option Nat) : Outcome CellFault String :=
  heap.displayTo (heap.size + 1) reference

def contentOf (heap : Cells) (reference : Option Nat) : Except CellFault (Option Nat) :=
  match heap.get? reference with
  | some (.variable _ content) => .ok content
  | some (.number p) | some (.text p) => .error (.noMember p.holder .values)
  | other => .error (.noMember (holderOf other) .value)

def append (heap : Cells) (target item : Option Nat) : Except CellFault Cells := do
  let content ← heap.contentOf target
  let items ← itemsOf (heap.get? content)
  match content with
  | some reference => pure (heap.put reference (.list (items ++ [item])))
  | none => pure heap

def setType (heap : Cells) (target : Option Nat) (type : String) : Except CellFault Cells :=
  match target, heap.get? target with
  | some reference, some (.variable _ content) => .ok (heap.put reference (.variable type content))
  | _, some _ => .ok heap
  | _, none => .error (.noMember .nothing .type)

end Cells

inductive CellView where
  | nothing
  | empty (type : String)
  | number (held : Plain)
  | text (held : Plain)
  | list (items : List CellView)
  | function (name : String)
  | cycle

namespace Cells

def viewTo (heap : Cells) : Nat → List Nat → Option Nat → CellView
  | 0, _, _ => .cycle
  | n + 1, path, reference =>
    match reference, heap.get? reference with
    | some r, some (.list items) =>
      if path.contains r then .cycle else .list (items.map (heap.viewTo n (r :: path)))
    | _, some (.list _) | _, none => .nothing
    | _, some (.number p) => .number p
    | _, some (.text p) => .text p
    | _, some (.function name) => .function name
    | _, some (.variable type none) => .empty type
    | _, some (.variable _ (some content)) => heap.viewTo n path (some content)

def view (heap : Cells) (reference : Option Nat) : CellView :=
  heap.viewTo (2 * heap.size + 2) [] reference

def claimedType? (heap : Cells) (reference : Option Nat) : Option String :=
  match heap.get? reference with
  | some (.variable type _) => some type
  | _ => none

end Cells

end Pseudocode
