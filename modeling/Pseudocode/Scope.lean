import Pseudocode.Value

set_option autoImplicit false

namespace Pseudocode

abbrev Table : Type := List (Option String × Value)

namespace Table

def find? : Table → Option String → Option Value
  | [], _ => none
  | (n, v) :: rest, name => if n = name then some v else find? rest name

def set (name : Option String) (value : Value) : Table → Table
  | [] => [(name, value)]
  | (n, v) :: rest => if n = name then (n, value) :: rest else (n, v) :: set name value rest

def erase (table : Table) (name : Option String) : Table :=
  table.filter fun binding => decide (binding.1 ≠ name)

theorem find?_set (table : Table) (name other : Option String) (value : Value) :
    (table.set name value).find? other = if name = other then some value else table.find? other := by
  induction table with
  | nil => rfl
  | cons binding rest ih =>
    obtain ⟨n, v⟩ := binding
    by_cases same : n = name
    · subst same
      by_cases here : n = other <;> simp [set, find?, here]
    · by_cases here : n = other
      · subst here
        simp [set, find?, same, Ne.symm same]
      · simp [set, find?, same, here, ih]

def sorted (table : Table) : Table :=
  table.mergeSort fun a b => decide (a.1.getD "" ≤ b.1.getD "")

end Table

structure Scopes where
  current : Table
  outer : List Table

namespace Scopes

def initial : Scopes := ⟨[], []⟩

def findIn (name : Option String) : List Table → Option Value
  | [] => none
  | table :: rest =>
    match table.find? name with
    | some value => some value
    | none => findIn name rest

def find? (scopes : Scopes) (name : Option String) : Option Value :=
  findIn name (scopes.current :: scopes.outer)

def set (scopes : Scopes) (name : Option String) (value : Value) : Scopes :=
  { scopes with current := scopes.current.set name value }

def erase (scopes : Scopes) (name : Option String) : Scopes :=
  { scopes with current := scopes.current.erase name }

def push (scopes : Scopes) (table : Table) : Scopes :=
  ⟨table, scopes.current :: scopes.outer⟩

def pop (scopes : Scopes) : Scopes :=
  match scopes.outer with
  | [] => scopes
  | table :: rest => ⟨table, rest⟩

def tables (scopes : Scopes) : List Table :=
  scopes.current :: scopes.outer

def depth (scopes : Scopes) : Nat :=
  scopes.outer.length + 1

theorem find?_set (scopes : Scopes) (name other : Option String) (value : Value) :
    (scopes.set name value).find? other = if name = other then some value else scopes.find? other := by
  by_cases same : name = other <;> simp [find?, findIn, set, Table.find?_set, same]

@[simp] theorem pop_push (scopes : Scopes) (table : Table) : (scopes.push table).pop = scopes := rfl

end Scopes

end Pseudocode
