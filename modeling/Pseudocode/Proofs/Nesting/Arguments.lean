import Pseudocode.Proofs.Element.Reach
import Pseudocode.Proofs.Nesting.Copy

set_option autoImplicit false

namespace Pseudocode

def Store.Apart (s : Store) (v w : Value) : Prop :=
  ∀ reference, s.Contains v (.list reference) → ¬ s.Contains w (.list reference)

namespace Machine

variable {m : Machine} {store : Store} {reference : Nat}

theorem Held.lt_of_reaches (held : m.Held) (extended : m.store.Extends store)
    (reached : Reaches { m with store } reference) : reference < m.store.lists.size := by
  suffices reached : m.Reaches reference from held reference reached
  induction reached with
  | bound member binding => exact .bound member binding
  | inside _ element ih =>
    refine .inside ih ?_
    rw [← extended.items _ (held _ ih)]
    exact element

/-- The copies of the arguments have their contents, and share no list with the tables, with the arguments
or with each other. -/
structure PassedByValue (m : Machine) (arguments : List Value) (store : Store) (copies : List Value) :
    Prop where
  alike : List.Forall₂ (Store.Alike m.store store) arguments copies
  tables : ∀ w ∈ copies, ∀ reference, store.Contains w (.list reference) →
    ¬ Reaches { m with store } reference
  arguments : ∀ w ∈ copies, ∀ a ∈ arguments, store.Apart w a
  parameters : copies.Pairwise store.Apart

def leave (m : Machine) :
    Outcome (Fault × Machine) (Value × Machine) → Outcome (Fault × Machine) (Value × Machine)
  | .ok (value, after) => .ok (value, m.closed after)
  | .error (cause, after) => .error (cause, { after with calls := after.calls - 1 })
  | .unfinished => .unfinished

end Machine

namespace Eval

open Exec Store

def bindAll : List Node → List Value → Table → Table
  | parameter :: parameters, value :: values, table =>
    bindAll parameters values (table.set parameter.name value)
  | _, _, table => table

variable {s : Store} {parameters : List Node} {arguments : List Value} {m : Machine}

theorem bindArguments_copies (table : Table) (fits : parameters.length = arguments.length)
    (closed : ∀ a ∈ arguments, s.Closed a) (acyclic : ∀ a ∈ arguments, s.Acyclic a)
    (full : ∀ a ∈ arguments, ¬ s.Contains a .empty) (extended : s.Extends m.store) :
    ∃ copies store,
      bindArguments parameters arguments table m =
        .ok (bindAll parameters copies table, { m with store }) ∧
      m.store.Extends store ∧ List.Forall₂ (Alike s store) arguments copies ∧
      (∀ w ∈ copies, store.New m.store.lists.size w) ∧ copies.Pairwise store.Apart := by
  induction parameters generalizing arguments table m with
  | nil =>
    obtain rfl : arguments = [] := List.length_eq_zero_iff.mp fits.symm
    exact ⟨[], m.store, rfl, .refl _, .nil, nofun, .nil⟩
  | cons parameter parameters ih =>
    match arguments, fits with
    | a :: arguments, fits =>
      rw [List.forall_mem_cons] at closed acyclic full
      obtain ⟨⟨w, first⟩, copied, made⟩ := copy_copied closed.1 acyclic.1 full.1 extended
      obtain ⟨copies, store, bound, grown, alike, new, apart⟩ :=
        ih (m := { m with store := first }) (table.set parameter.name w)
          (Nat.succ.inj fits) closed.2 acyclic.2 full.2 (extended.trans made.extended)
      have ran : onStore (·.copy a) m = .ok (w, { m with store := first }) := by
        simp only [onStore, copied]
      refine ⟨w :: copies, store, (bind_of_ok ran).trans bound, made.extended.trans grown, .cons ?_ alike,
        ?_, ?_⟩
      · exact made.alike.extend (acyclic.1.shallow closed.1 (Nat.lt_succ_self _)) made.new.closed grown
      · rw [List.forall_mem_cons]
        exact ⟨made.new.extend grown, fun v member => (new v member).since made.extended.size⟩
      · -- The lists of the first copy were there when the others were made.
        refine List.pairwise_cons.mpr ⟨fun v member reference inFirst inOther => ?_, apart⟩
        have old := (made.new reference (grown.contains made.new.closed inFirst)).2
        have later := (new v member reference inOther).1
        exact Nat.not_le_of_lt old later

theorem bindArguments_empty (table : Table) (fits : parameters.length = arguments.length)
    (closed : ∀ a ∈ arguments, s.Closed a) (acyclic : ∀ a ∈ arguments, s.Acyclic a)
    (empty : ∃ a ∈ arguments, s.Contains a .empty) (extended : s.Extends m.store) :
    ∃ store, bindArguments parameters arguments table m = .error (emptyFault, { m with store }) := by
  induction parameters generalizing arguments table m with
  | nil =>
    obtain rfl : arguments = [] := List.length_eq_zero_iff.mp fits.symm
    obtain ⟨_, member, _⟩ := empty
    cases member
  | cons parameter parameters ih =>
    match arguments, fits with
    | a :: arguments, fits =>
      rw [List.forall_mem_cons] at closed acyclic
      by_cases here : s.Contains a .empty
      · have failed : onStore (·.copy a) m = .error (emptyFault, m) := by
          simp only [onStore, copy_empty closed.1 acyclic.1 here extended]
        exact ⟨m.store, bind_of_error failed⟩
      · obtain ⟨b, member, contains⟩ := empty
        have later : b ∈ arguments := by
          rcases List.mem_cons.mp member with rfl | later
          · exact absurd contains here
          · exact later
        obtain ⟨⟨w, first⟩, copied, made⟩ := copy_copied closed.1 acyclic.1 here extended
        obtain ⟨store, failed⟩ := ih (m := { m with store := first }) (table.set parameter.name w)
          (Nat.succ.inj fits) closed.2 acyclic.2 ⟨b, later, contains⟩ (extended.trans made.extended)
        have ran : onStore (·.copy a) m = .ok (w, { m with store := first }) := by
          simp only [onStore, copied]
        exact ⟨store, (bind_of_ok ran).trans failed⟩

variable {rec : Node → Exec Value} {limit : Int} {node : Node} {f : Function} {middle : Machine}

theorem call_apply (below : (m.calls : Int) < limit)
    (found : m.scopes.find? node.name = some (.function f))
    (evaluated : values rec node.children m = .ok (arguments, middle)) :
    call rec limit node m = inCall (apply rec node.name f arguments) middle := by
  have looked : lookup .function node.name m = .ok (.function f, m) := by rw [lookup, found]
  have counted : read (·.calls) m = .ok (m.calls, m) := rfl
  rw [call, bind_of_ok counted, if_neg (Int.not_le.mpr below), bind_of_ok looked]
  exact bind_of_ok evaluated

theorem call_copies (below : (m.calls : Int) < limit)
    (found : m.scopes.find? node.name = some (.function f))
    (evaluated : values rec node.children m = .ok (arguments, middle))
    (fits : f.parameters.children.length = arguments.length) (held : middle.Held)
    (closed : ∀ a ∈ arguments, middle.store.Closed a) (acyclic : ∀ a ∈ arguments, middle.store.Acyclic a)
    (full : ∀ a ∈ arguments, ¬ middle.store.Contains a .empty) :
    ∃ copies store, middle.PassedByValue arguments store copies ∧
      call rec limit node m = middle.leave (bodyValue rec f (middle.opened store
        (bindAll f.parameters.children copies [(node.name, .function f)]))) := by
  obtain ⟨copies, store, bound, extended, alike, new, apart⟩ :=
    bindArguments_copies [(node.name, .function f)] fits closed acyclic full (.refl _)
  refine ⟨copies, store, ⟨alike, ?_, ?_, apart⟩, ?_⟩
  · intro w member reference contains reached
    have old := held.lt_of_reaches extended reached
    exact Nat.not_le_of_lt old (new w member reference contains).1
  · intro w member a given reference inCopy inArgument
    have old := closed a given reference (extended.contains (closed a given) inArgument)
    exact Nat.not_le_of_lt old (new w member reference inCopy).1
  · rw [call_apply below found evaluated, inCall_apply, if_neg (not_not_intro fits), bound]
    rfl

theorem call_empty (below : (m.calls : Int) < limit)
    (found : m.scopes.find? node.name = some (.function f))
    (evaluated : values rec node.children m = .ok (arguments, middle))
    (fits : f.parameters.children.length = arguments.length)
    (closed : ∀ a ∈ arguments, middle.store.Closed a) (acyclic : ∀ a ∈ arguments, middle.store.Acyclic a)
    (empty : ∃ a ∈ arguments, middle.store.Contains a .empty) :
    ∃ store, call rec limit node m = .error (emptyFault, { middle with store }) := by
  obtain ⟨store, failed⟩ :=
    bindArguments_empty [(node.name, .function f)] fits closed acyclic empty (.refl _)
  refine ⟨store, ?_⟩
  rw [call_apply below found evaluated, inCall_apply, if_neg (not_not_intro fits), failed]

end Eval

open Eval Exec Store

/-- A value without cycles has a copy unless the empty value is in it, and the copy has its contents and new
lists only. So when the body of a call starts, the parameters are bound to copies that share no list with
anything that was there, nor with each other. -/
theorem arguments_passed_by_value :
    (∀ (s : Store) (v : Value), s.Closed v → s.Acyclic v →
      (s.copy v = .error emptyFault ↔ s.Contains v .empty) ∧
      (¬ s.Contains v .empty → ∃ w t, s.copy v = .ok (w, t) ∧ s.Extends t ∧ Alike s t v w ∧
        t.display w = s.display v ∧ t.New s.lists.size w)) ∧
    ∀ (rec : Node → Exec Value) (limit : Int) (node : Node) (m middle : Machine) (f : Function)
      (arguments : List Value),
      (m.calls : Int) < limit → m.scopes.find? node.name = some (.function f) →
      values rec node.children m = .ok (arguments, middle) →
      f.parameters.children.length = arguments.length → middle.Held →
      (∀ a ∈ arguments, middle.store.Closed a) → (∀ a ∈ arguments, middle.store.Acyclic a) →
      ((∃ a ∈ arguments, middle.store.Contains a .empty) →
        ∃ store, call rec limit node m = .error (emptyFault, { middle with store })) ∧
      ((∀ a ∈ arguments, ¬ middle.store.Contains a .empty) →
        ∃ copies store, middle.PassedByValue arguments store copies ∧
          call rec limit node m = middle.leave (bodyValue rec f (middle.opened store
            (bindAll f.parameters.children copies [(node.name, .function f)])))) := by
  constructor
  · intro s v closed acyclic
    refine ⟨copy_eq_error_iff closed acyclic, fun full => ?_⟩
    obtain ⟨⟨w, t⟩, ran, copied⟩ := copy_copied closed acyclic full (.refl s)
    exact ⟨w, t, ran, copied.extended, copied.alike, display_copied closed acyclic copied, copied.new⟩
  · intro rec limit node m middle f arguments below found evaluated fits held closed acyclic
    exact ⟨call_empty below found evaluated fits closed acyclic,
      call_copies below found evaluated fits held closed acyclic⟩

theorem shared_row_passed_by_value :
    let around : Surroundings := ⟨⟨[], []⟩, "", 1000⟩
    let parameter (name : String) : Node := Node.named .parameter (some name) []
    let f : Function := ⟨0, some "f", Node.of .parameters [parameter "x", parameter "y"], Node.null, Node.null⟩
    let m : Machine := { Machine.initial with
      store := ⟨#[#[.ofBool true], #[.list 0, .list 0], #[.empty]], 1⟩
      scopes := ⟨[(some "f", .function f), (some "a", .list 1), (some "b", .list 2)], []⟩ }
    let access (name : String) : Node := Node.named .access (some name) []
    let called (first second : String) : Node := Node.named .call (some "f") [access first, access second]
    let run := eval around 1
    m.Held ∧ m.store.Closed (.list 1) ∧ m.store.Acyclic (.list 1) ∧
      m.store.copy (.list 2) = .error emptyFault ∧
      (∃ w t, m.store.copy (.list 1) = .ok (w, t) ∧ Alike m.store t (.list 1) w ∧ t.New 3 w) ∧
      (∃ store, call run 1000 (called "a" "b") m = .error (emptyFault, { m with store })) ∧
      ∃ copies store, m.PassedByValue [.list 1, .list 1] store copies ∧
        call run 1000 (called "a" "a") m = m.leave (bodyValue run f (m.opened store
          (bindAll f.parameters.children copies [(some "f", .function f)]))) := by
  intro around parameter f m access called run
  have items (outer inner : Nat) (member : .list inner ∈ m.store.items outer) : outer = 1 ∧ inner = 0 := by
    match outer with
    | 0 | 2 | k + 3 => simp [m, Store.items, Value.ofBool] at member
    | 1 => simpa [m, Store.items] using member
  have inside (outer inner : Nat) (member : .list inner ∈ m.store.items outer) :
      inner < m.store.lists.size := by
    obtain ⟨_, rfl⟩ := items outer inner member
    decide
  have acyclic : ∀ v, m.store.Acyclic v := by
    refine acyclic_of_items fun outer inner member => ?_
    obtain ⟨rfl, rfl⟩ := items outer inner member
    decide
  have closed (reference : Nat) (held : reference < 3) : m.store.Closed (.list reference) := by
    refine closed_of_items inside ?_
    rintro _ ⟨⟩
    exact held
  have held : m.Held := by
    refine Machine.held_of_lists (fun table member name reference binding => ?_) inside
    obtain rfl : table = m.scopes.current := by simpa [m, Scopes.tables] using member
    obtain _ | ⟨_, _ | ⟨_, _ | ⟨_, ⟨⟩⟩⟩⟩ := binding <;> decide
  have full : ¬ m.store.Contains (.list 1) .empty := by
    have row : ∀ item ∈ m.store.items 0, item = .ofBool true := by simp [m, Store.items]
    have rows : ∀ item ∈ m.store.items 1, item = .list 0 := by simp [m, Store.items]
    rintro (_ | ⟨inList, inItem⟩)
    cases rows _ inList
    obtain _ | ⟨inRow, inTruth⟩ := inItem
    cases row _ inRow
    cases inTruth
  have empty : m.store.Contains (.list 2) .empty :=
    contains_element (by simp [m, Store.items])
  have both (reference : Nat) (inside : reference < 3) :
      ∀ a ∈ [Value.list 1, .list reference], m.store.Closed a := by
    simp [closed 1 (by decide), closed reference inside]
  obtain ⟨copying, calling⟩ := arguments_passed_by_value
  obtain ⟨w, t, copied, _, alike, _, new⟩ := (copying m.store _ (closed 1 (by decide)) (acyclic _)).2 full
  refine ⟨held, closed 1 (by decide), acyclic _,
    (copying m.store _ (closed 2 (by decide)) (acyclic _)).1.mpr empty, ⟨w, t, copied, alike, new⟩, ?_, ?_⟩
  · exact (calling run 1000 (called "a" "b") m m f [.list 1, .list 2] (by decide) rfl rfl rfl held
      (both 2 (by decide)) (fun a _ => acyclic a)).1 ⟨.list 2, by simp, empty⟩
  · exact (calling run 1000 (called "a" "a") m m f [.list 1, .list 1] (by decide) rfl rfl rfl held
      (both 1 (by decide)) (fun a _ => acyclic a)).2 (by simpa using full)

end Pseudocode
