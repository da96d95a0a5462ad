import Pseudocode.Disk
import Pseudocode.Scope
import Pseudocode.Value.Store

set_option autoImplicit false

namespace Pseudocode

inductive Input where
  | console (lines : List String)
  | dialogs (answers : List (Option String))

structure Machine where
  store : Store
  scopes : Scopes
  returned : Option Value
  output : String
  prompts : String
  input : Input
  calls : Nat

/-- What a run depends on and does not change: the disk, the folder that relative names are looked
up from, and how many calls may be open at once. -/
structure Surroundings where
  disk : Disk
  folder : String
  limit : Int

def Exec (α : Type) : Type :=
  Machine → Outcome (Fault × Machine) (α × Machine)

namespace Exec

variable {α β : Type}

@[always_inline, inline]
protected def pure (value : α) : Exec α :=
  fun m => .ok (value, m)

@[always_inline, inline]
protected def bind (x : Exec α) (f : α → Exec β) : Exec β :=
  fun m =>
    match x m with
    | .ok (value, m) => f value m
    | .error cause => .error cause
    | .unfinished => .unfinished

@[always_inline]
instance : Monad Exec where
  pure := Exec.pure
  bind := Exec.bind

@[always_inline, inline]
def fail (cause : Fault) : Exec α :=
  fun m => .error (cause, m)

@[always_inline, inline]
def unfinished : Exec α :=
  fun _ => .unfinished

@[always_inline, inline]
def ofExcept (x : Except Fault α) : Exec α :=
  fun m =>
    match x with
    | .ok value => .ok (value, m)
    | .error cause => .error (cause, m)

@[always_inline, inline]
def ofOutcome (x : Outcome Fault α) : Exec α :=
  fun m =>
    match x with
    | .ok value => .ok (value, m)
    | .error cause => .error (cause, m)
    | .unfinished => .unfinished

@[always_inline, inline]
def read (f : Machine → α) : Exec α :=
  fun m => .ok (f m, m)

@[always_inline, inline]
def modify (f : Machine → Machine) : Exec Unit :=
  fun m => .ok ((), f m)

@[always_inline, inline]
def onStore (f : Store → Outcome Fault (α × Store)) : Exec α :=
  fun m =>
    match f m.store with
    | .ok (value, store) => .ok (value, { m with store })
    | .error cause => .error (cause, m)
    | .unfinished => .unfinished

theorem pure_apply (value : α) (m : Machine) :
    (pure value : Exec α) m = .ok (value, m) := rfl

theorem bind_apply (x : Exec α) (f : α → Exec β) (m : Machine) :
    (x >>= f) m =
      match x m with
      | .ok (value, m) => f value m
      | .error cause => .error cause
      | .unfinished => .unfinished := rfl

def child (node : Node) (position : Nat) : Exec Node :=
  match node.children[position]? with
  | some found => pure found
  | none => fail .missingChild

def lookup (role : Role) (name : Option String) : Exec Value :=
  fun m =>
    match m.scopes.find? name with
    | some value => .ok (value, m)
    | none => .error (.undefined role name, m)

def assign (name : Option String) (value : Value) : Exec Unit :=
  modify fun m => { m with scopes := m.scopes.set name value }

def makeList (elements : Array Value) : Exec Value :=
  onStore fun store => .ok (store.make elements)

def display (value : Value) : Exec String :=
  fun m => (ofOutcome (m.store.display value)) m

def tag (value : Value) : Exec Tag :=
  ofExcept value.tag

end Exec

namespace Machine

def initial : Machine :=
  ⟨.initial, .initial, none, "", "", .console [], 0⟩

def set (m : Machine) (name : String) (value : Value) : Machine :=
  { m with scopes := m.scopes.set (some name) value }

end Machine

end Pseudocode
