import Pseudocode.Eval

set_option autoImplicit false

namespace Pseudocode

structure Domain where
  value : Store → Value → Prop
  tree : Node → Prop
  grow {s t : Store} {v : Value} : s.lists.size ≤ t.lists.size → value s v → value t v
  empty (s : Store) : value s .empty
  number (s : Store) (x : Float) : value s (.number x)
  text (s : Store) (text : String) : value s (.text text)
  truth (s : Store) (b : Bool) : value s (.ofBool b)
  list {s : Store} {reference : Nat} : reference < s.lists.size → value s (.list reference)
  function {s : Store} {f : Function} : value s (.function f) ↔ tree f.body ∧ tree f.result
  boolean {node : Node} (s : Store) :
    tree node → node.kind = .boolean → value s (Eval.boolean node.name)
  -- Most nodes visit their children.
  part {node part : Node} :
    tree node → node.kind ≠ .define → node.kind ≠ .case → part ∈ node.children → tree part
  -- A definition keeps all but the first of its children.
  defined {node part : Node} {position : Nat} :
    tree node → node.kind = .define → node.children[position + 1]? = some part → tree part
  -- A case visits the item for all other values.
  otherwise {node item : Node} :
    tree node → node.kind = .case → item ∈ node.children → item.kind = .caseOtherwise → tree item
  -- Of any other item a case visits the children.
  item {node item part : Node} :
    tree node → node.kind = .case → item ∈ node.children → item.kind ≠ .caseOtherwise →
      part ∈ item.children → tree part
  program {source : String} {node : Node} : Eval.program source = .ok node → tree node

namespace Domain

def all : Domain where
  value _ _ := True
  tree _ := True
  grow _ _ := trivial
  empty _ := trivial
  number _ _ := trivial
  text _ _ := trivial
  truth _ _ := trivial
  list _ := trivial
  function := ⟨fun _ => ⟨trivial, trivial⟩, fun _ => trivial⟩
  boolean _ _ _ := trivial
  part _ _ _ _ := trivial
  defined _ _ _ := trivial
  otherwise _ _ _ _ := trivial
  item _ _ _ _ _ := trivial
  program _ := trivial

def Sound (D : Domain) (s : Store) : Prop :=
  ∀ reference, ∀ item ∈ s.items reference, D.value s item

structure Makes (D : Domain) (s : Store) (found : Value × Store) : Prop where
  size : s.lists.size ≤ found.2.lists.size
  sound : D.Sound found.2
  value : D.value found.2 found.1

variable {D : Domain} {s t : Store} {v w : Value} {items : Array Value}

theorem Sound.of_lists (sound : D.Sound s) (same : t.lists = s.lists) : D.Sound t := by
  intro reference item member
  rw [Store.items, same] at member
  exact D.grow (Nat.le_of_eq (congrArg Array.size same.symm)) (sound reference item member)

theorem Makes.same (sound : D.Sound s) (admitted : D.value s v) : D.Makes s (v, s) :=
  ⟨Nat.le_refl _, sound, admitted⟩

theorem items_make (items : Array Value) (reference : Nat) :
    (s.make items).2.items reference =
      if reference = s.lists.size then items else s.items reference := by
  simp only [Store.make, Store.items, Array.getD_eq_getD_getElem?, Array.getElem?_push]
  split <;> rfl

theorem makes_make (sound : D.Sound s) (admitted : ∀ item ∈ items, D.value s item) :
    D.Makes s (s.make items) := by
  have size : s.lists.size ≤ (s.make items).2.lists.size := by simp [Store.make]
  refine ⟨size, ?_, D.list (by simp [Store.make])⟩
  intro reference item member
  rw [items_make] at member
  split at member
  · exact D.grow size (admitted item member)
  · exact D.grow size (sound reference item member)

theorem items_modify (reference : Nat) (change : Array Value → Array Value) (other : Nat) :
    (s.modify reference change).items other =
      if other = reference ∧ reference < s.lists.size then change (s.items reference)
      else s.items other := by
  simp only [Store.modify, Store.items, Array.getD_eq_getD_getElem?, Array.getElem?_modify]
  by_cases here : reference = other
  · subst here
    by_cases inside : reference < s.lists.size
    · simp [inside]
    · simp [inside]
  · simp [here, Ne.symm here]

theorem Sound.modify {reference : Nat} {change : Array Value → Array Value} (sound : D.Sound s)
    (admitted : ∀ item ∈ change (s.items reference), D.value s item) :
    D.Sound (s.modify reference change) := by
  intro other item member
  have size : s.lists.size ≤ (s.modify reference change).lists.size := by simp [Store.modify]
  rw [items_modify] at member
  split at member
  · exact D.grow size (admitted item member)
  · exact D.grow size (sound other item member)

section Plain

theorem ofPlainItem (s : Store) (p : Plain) : D.value s (Value.ofPlainItem p) := by
  cases p with
  | flag b => exact D.number s _
  | number x => exact D.number s x
  | text t => exact D.text s t
  | null | list _ | record => exact D.number s _

theorem toItem (admitted : D.value s v) : D.value s v.toItem := by
  cases v with
  | plain p => exact ofPlainItem s p
  | empty | number _ | truth _ _ | text _ | list _ | function _ => exact admitted

theorem makes_ofPlain (sound : D.Sound s) (p : Plain) : D.Makes s (s.ofPlain p) := by
  cases p with
  | null => exact .same sound (D.empty s)
  | flag b => exact .same sound (D.number s _)
  | number x => exact .same sound (D.number s x)
  | text t => exact .same sound (D.text s t)
  | list items =>
    refine makes_make sound fun item member => ?_
    obtain ⟨p, _, rfl⟩ := List.mem_map.mp (List.mem_toArray.mp member)
    exact ofPlainItem s p
  | record => exact .same sound (D.number s _)

theorem makes_settle (sound : D.Sound s) (admitted : D.value s v) : D.Makes s (s.settle v) := by
  cases v with
  | plain p => exact makes_ofPlain sound p
  | empty | number _ | truth _ _ | text _ | list _ | function _ => exact .same sound admitted

end Plain

section Copy

theorem copyAll_makes {copy : Store → Value → Outcome Fault (Value × Store)}
    (copies : ∀ s v found, D.Sound s → D.value s v → copy s v = .ok found → D.Makes s found)
    {values copied : List Value} (sound : D.Sound s) (admitted : ∀ v ∈ values, D.value s v)
    (ran : Store.copyAll copy s values = .ok (copied, t)) :
    s.lists.size ≤ t.lists.size ∧ D.Sound t ∧ ∀ v ∈ copied, D.value t v := by
  induction values generalizing s copied with
  | nil =>
    cases ran
    exact ⟨Nat.le_refl _, sound, nofun⟩
  | cons value rest ih =>
    simp only [Store.copyAll, Outcome.bind_eq_ok, Prod.exists] at ran
    obtain ⟨first, middle, copiedFirst, others, after, copiedRest, made⟩ := ran
    cases made
    have here := copies s value (first, middle) sound (admitted value (by simp)) copiedFirst
    obtain ⟨size, soundAfter, later⟩ := ih here.sound
      (fun v member => D.grow here.size (admitted v (by simp [member]))) copiedRest
    refine ⟨Nat.le_trans here.size size, soundAfter, fun v member => ?_⟩
    rcases List.mem_cons.mp member with rfl | member
    · exact D.grow size here.value
    · exact later v member

theorem copyTo_makes (n : Nat) {found : Value × Store} (sound : D.Sound s) (admitted : D.value s v)
    (ran : Store.copyTo n s v = .ok found) : D.Makes s found := by
  induction n generalizing s v found with
  | zero => cases ran
  | succ n ih =>
    cases v with
    | empty => cases ran
    | list reference =>
      simp only [Store.copyTo, Outcome.bind_eq_ok, Prod.exists] at ran
      obtain ⟨elements, middle, copied, made⟩ := ran
      cases made
      obtain ⟨size, soundAfter, later⟩ := copyAll_makes (fun s v found => ih) sound
        (fun v member => sound reference v (Array.mem_toList_iff.mp member)) copied
      have last := makes_make soundAfter fun item member => later item (List.mem_toArray.mp member)
      exact ⟨Nat.le_trans size last.size, last.sound, last.value⟩
    | number _ | truth _ _ | text _ | function _ | plain _ =>
      cases ran
      exact .same sound admitted

theorem copy_makes {found : Value × Store} (sound : D.Sound s) (admitted : D.value s v)
    (ran : s.copy v = .ok found) : D.Makes s found :=
  copyTo_makes _ sound admitted ran

end Copy

section Operators

theorem ofExcept_eq_ok {ε α : Type} {x : Except ε α} {a : α} :
    Outcome.ofExcept x = .ok a ↔ x = .ok a := by
  cases x <;> simp [Outcome.ofExcept]

theorem addSettled_makes {found : Value × Store} (sound : D.Sound s)
    (ran : Operator.addSettled s v w = .ok found) : D.Makes s found := by
  unfold Operator.addSettled at ran
  split at ran
  · cases ran
    exact .same sound (D.text s _)
  · cases ran
    refine makes_make sound fun item member => ?_
    obtain ⟨old, held, rfl⟩ := Array.mem_map.mp member
    rcases Array.mem_append.mp held with held | held
    · exact toItem (sound _ old held)
    · exact toItem (sound _ old held)
  · split at ran
    · cases ran
      exact .same sound (D.number s _)
    · simp only [Outcome.bind_eq_ok] at ran
      obtain ⟨_, _, _, _, made⟩ := ran
      cases made
      exact .same sound (D.text s _)

theorem add_makes {found : Value × Store} (sound : D.Sound s) (left : D.value s v)
    (right : D.value s w) (ran : Operator.add s v w = .ok found) : D.Makes s found := by
  have first := makes_settle sound left
  have second := makes_settle first.sound (D.grow first.size right)
  have last := addSettled_makes second.sound ran
  exact ⟨Nat.le_trans first.size (Nat.le_trans second.size last.size), last.sound, last.value⟩

theorem repeatItems_admitted {count : Int} {repeated : Array Value}
    (admitted : ∀ item ∈ items, D.value s item)
    (ran : Operator.repeatItems items count = .ok repeated) :
    ∀ item ∈ repeated, D.value s item := by
  simp only [Operator.repeatItems, except_bind_eq_ok] at ran
  obtain ⟨n, _, made⟩ := ran
  cases made
  intro item member
  obtain ⟨part, inPart, member⟩ := List.mem_flatten.mp (List.mem_toArray.mp member)
  rw [List.eq_of_mem_replicate inPart] at member
  obtain ⟨old, held, rfl⟩ := List.mem_map.mp member
  exact toItem (admitted old (Array.mem_toList_iff.mp held))

theorem multiply_makes {found : Value × Store} (sound : D.Sound s)
    (ran : Operator.multiply s v w = .ok found) : D.Makes s found := by
  simp only [Operator.multiply, except_bind_eq_ok] at ran
  obtain ⟨tag, _, ran⟩ := ran
  split at ran
  · simp only [except_bind_eq_ok] at ran
    obtain ⟨tag, _, ran⟩ := ran
    split at ran
    · simp only [except_bind_eq_ok] at ran
      obtain ⟨_, _, _, _, made⟩ := ran
      cases made
      exact .same sound (D.number s _)
    · simp only [except_bind_eq_ok] at ran
      obtain ⟨_, _, _, _, made⟩ := ran
      cases made
      exact .same sound (D.text s _)
    · cases ran
  · simp only [except_bind_eq_ok] at ran
    obtain ⟨tag, _, ran⟩ := ran
    split at ran
    · cases ran
    · simp only [except_bind_eq_ok] at ran
      obtain ⟨_, _, _, _, made⟩ := ran
      cases made
      exact .same sound (D.text s _)
  · simp only [except_bind_eq_ok] at ran
    obtain ⟨tag, _, ran⟩ := ran
    split at ran
    · cases ran
    · simp only [except_bind_eq_ok] at ran
      obtain ⟨_, _, items, repeated, made⟩ := ran
      cases made
      exact makes_make sound (repeatItems_admitted (sound _) repeated)
  · cases ran

theorem arithmetic_makes {op : Arithmetic} {found : Value × Store} (sound : D.Sound s)
    (left : D.value s v) (right : D.value s w) (ran : Operator.arithmetic op s v w = .ok found) :
    D.Makes s found := by
  cases op with
  | add => exact add_makes sound left right ran
  | multiply => exact multiply_makes sound (ofExcept_eq_ok.mp ran)
  | subtract | divide | power | modulo | wholeDivide =>
    have ran := ofExcept_eq_ok.mp ran
    simp only [except_bind_eq_ok] at ran
    obtain ⟨_, _, _, _, made⟩ := ran
    cases made
    exact .same sound (D.number s _)

theorem comparison_makes {op : Comparison} {found : Value × Store} (sound : D.Sound s)
    (left : D.value s v) (right : D.value s w) (ran : Operator.comparison op s v w = .ok found) :
    D.Makes s found := by
  simp only [Operator.comparison, except_bind_eq_ok] at ran
  obtain ⟨_, _, made⟩ := ran
  cases made
  have first := makes_settle sound left
  have second := makes_settle first.sound (D.grow first.size right)
  exact ⟨Nat.le_trans first.size second.size, second.sound, D.truth _ _⟩

theorem sign_admitted {op : Sign} (admitted : D.value s v) (ran : Operator.sign op v = .ok w) :
    D.value s w := by
  simp only [Operator.sign, except_bind_eq_ok] at ran
  obtain ⟨tag, _, ran⟩ := ran
  split at ran
  · cases ran
  · cases op with
    | plus =>
      cases ran
      exact admitted
    | minus =>
      simp only [except_bind_eq_ok] at ran
      obtain ⟨_, _, made⟩ := ran
      cases made
      exact D.number s _
    | not =>
      simp only [except_bind_eq_ok] at ran
      obtain ⟨_, _, made⟩ := ran
      cases made
      exact D.truth s _

theorem decided_admitted {op : Connective} (ran : Operator.decided? op v = .ok (some w)) :
    D.value s w := by
  simp only [Operator.decided?, except_bind_eq_ok] at ran
  obtain ⟨tag, _, ran⟩ := ran
  split at ran
  · cases ran
  · simp only [except_bind_eq_ok] at ran
    obtain ⟨_, _, ran⟩ := ran
    split at ran
    · cases ran
      exact D.truth s _
    · cases ran

theorem connective_admitted {op : Connective} {result : Value}
    (ran : Operator.connective op v w = .ok result) : D.value s result := by
  simp only [Operator.connective, except_bind_eq_ok] at ran
  obtain ⟨_, _, ran⟩ := ran
  split at ran
  · cases ran
  · simp only [except_bind_eq_ok] at ran
    obtain ⟨_, _, ran⟩ := ran
    split at ran
    · cases ran
    · simp only [except_bind_eq_ok] at ran
      obtain ⟨_, _, _, _, made⟩ := ran
      cases made
      exact D.truth s _

end Operators

end Domain

end Pseudocode
