set_option autoImplicit false

namespace Pseudocode

inductive Json where
  | null
  | flag (b : Bool)
  | whole (n : Int)
  | fractional (x : Float)
  | text (s : String)
  | list (items : List Json)
  | object (members : List (String × Json))
  deriving Inhabited

namespace Json

-- The most digits that a whole number may have to be written or read.
def digitLimit : Nat := 4300

abbrev Members : Type := List (String × Json)

namespace Members

def get? : Members → String → Option Json
  | [], _ => none
  | (k, v) :: rest, key => if k = key then some v else get? rest key

def insert (key : String) (value : Json) : Members → Members
  | [] => [(key, value)]
  | (k, v) :: rest => if k = key then (k, value) :: rest else (k, v) :: insert key value rest

def insertAll (members : Members) (changes : Members) : Members :=
  changes.foldl (fun all (key, value) => insert key value all) members

def ofList (pairs : Members) : Members :=
  insertAll [] pairs

theorem get?_insert (key other : String) (value : Json) (members : Members) :
    get? (insert key value members) other =
      if key = other then some value else get? members other := by
  induction members with
  | nil => rfl
  | cons member rest ih =>
    obtain ⟨k, v⟩ := member
    by_cases same : k = key
    · subst same
      by_cases here : k = other <;> simp [insert, get?, here]
    · by_cases here : k = other
      · subst here
        simp [insert, get?, same, Ne.symm same]
      · simp [insert, get?, same, here, ih]

end Members

def get? (json : Json) (key : String) : Option Json :=
  match json with
  | .object members => Members.get? members key
  | _ => none

end Json

end Pseudocode
