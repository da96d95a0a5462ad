import Pseudocode.Proofs.Invariant.Turns
import Pseudocode.Proofs.Invariant.Watch
import Pseudocode.Proofs.Typing.Literal

set_option autoImplicit false

namespace Pseudocode

def Value.Typed (s : Store) : Value → Prop
  | .empty | .number _ | .text _ | .function _ => True
  | .truth x name => x = 1.0 ∧ name = some "TRUE" ∨ x = 0.0 ∧ name = some "FALSE"
  | .list reference => reference < s.lists.size
  -- Plain data is no value of the language.
  | .plain _ => False

structure Machine.Typed (m : Machine) : Prop where
  tables : ∀ table ∈ m.scopes.tables, ∀ binding ∈ table, binding.2.Typed m.store
  lists : ∀ reference, ∀ item ∈ m.store.items reference, item.Typed m.store
  returned : ∀ v, m.returned = some v → v.Typed m.store

def typingWatch : Watch where
  enters := Machine.Typed
  leaves value after := value.Typed after.store ∧ after.Typed
  faults := Machine.Typed

theorem Value.Typed.grow {s t : Store} {v : Value} (grown : s.lists.size ≤ t.lists.size)
    (typed : v.Typed s) : v.Typed t := by
  cases v with
  | list reference => exact Nat.lt_of_lt_of_le typed grown
  | empty | number _ | truth _ _ | text _ | function _ | plain _ => exact typed

theorem typed_boolean {name : Option String} (s : Store)
    (named : name = some "TRUE" ∨ name = some "FALSE") : (Eval.boolean name).Typed s := by
  rcases named with rfl | rfl
  · exact .inl ⟨rfl, rfl⟩
  · exact .inr ⟨rfl, rfl⟩

def typing : Domain where
  value s v := v.Typed s ∧ ∀ f, v = .function f → f.body.Literal ∧ f.result.Literal
  tree := Node.Literal
  grow grown admitted := ⟨admitted.1.grow grown, admitted.2⟩
  empty _ := ⟨trivial, nofun⟩
  number _ _ := ⟨trivial, nofun⟩
  text _ _ := ⟨trivial, nofun⟩
  truth s b := by
    cases b with
    | true => exact ⟨typed_boolean s (.inl rfl), nofun⟩
    | false => exact ⟨typed_boolean s (.inr rfl), nofun⟩
  list held := ⟨held, nofun⟩
  function := by
    intro s f
    constructor
    · exact fun admitted => admitted.2 f rfl
    · intro trees
      refine ⟨trivial, ?_⟩
      rintro _ ⟨⟩
      exact trees
  boolean s literal isBoolean :=
    ⟨typed_boolean s ((Node.everywhere_iff.mp literal).1 isBoolean), nofun⟩
  part literal _ _ member := literal.child member
  defined literal _ found := literal.child (List.mem_of_getElem? found)
  otherwise literal _ member _ := literal.child member
  item literal _ member _ inside := (literal.child member).child inside
  program := literal_of_program

theorem typed_of_holds {m : Machine} (holds : typing.Holds m) : m.Typed where
  tables table member binding bound := (holds.tables table member binding bound).1
  lists reference item member := (holds.sound reference item member).1
  returned v pending := (holds.returned v pending).1

theorem holds_start (platform : Platform) : typing.Holds (Machine.start platform []) :=
  Domain.holds_start platform nofun

theorem afterTurns_typed {m : Machine} (turns : List Turn) (holds : typing.Holds m) :
    typing.Holds (m.afterTurns turns) ∧
      ∀ ending ∈ m.endings turns, ∀ value, ending.result = .ok value →
        value.Typed ending.machine.store := by
  refine ⟨Domain.holds_afterTurns turns holds, ?_⟩
  intro ending member value ended
  obtain ⟨turn, before, held, rfl⟩ := Domain.taken_of_endings holds member
  exact ((Domain.holds_take turn held).2 value ended).1

/-- After any programs have run on a fresh machine all values are well typed, and so are the results they
ended with; and while the next program runs, the machine is well typed whenever a visit begins or ends,
and so is the value it ends with. -/
theorem session_well_typed (platform : Platform) (turns : List Turn) :
    let m := (Machine.start platform []).afterTurns turns
    m.Typed ∧
      (∀ ending ∈ (Machine.start platform []).endings turns, ∀ value,
        ending.result = .ok value → value.Typed ending.machine.store) ∧
      ∀ around source tree input, Eval.program source = .ok tree →
        typingWatch.Passes around tree { m.prepare input with output := "" } := by
  intro m
  obtain ⟨holds, results⟩ := afterTurns_typed turns (holds_start platform)
  refine ⟨typed_of_holds holds, results, ?_⟩
  intro around source tree input read
  apply (typing.invariant around).passes typingWatch typed_of_holds
    (fun holds kept admitted => ⟨admitted.1, typed_of_holds (kept.2.2 holds)⟩)
    (fun holds left => typed_of_holds (left holds)) (literal_of_program read)
  exact { holds with }

theorem list_session_well_typed :
    let around : Surroundings := ⟨Library.disk ["home"], "", 1000⟩
    let turns : List Turn := [⟨around, "x = [TRUE]", .console []⟩, ⟨around, "RETURN y", .console []⟩]
    let tree : Node := Node.of .print [Node.named .access (some "x") []]
    let m := (Machine.start .linux []).afterTurns turns
    Eval.program "PRINT x" = .ok tree ∧ m.Typed ∧
      typingWatch.Passes around tree { m.prepare (.console []) with output := "" } := by
  intro around turns tree m
  have tokens : Token.scan "PRINT x" = .ok [.keyword "PRINT", .identifier "x"] := by
    rw [Token.scan_eq_within]
    rfl
  have read : Eval.program "PRINT x" = .ok tree := by
    rw [Eval.program, tokens]
    rfl
  obtain ⟨typed, _, passes⟩ := session_well_typed .linux turns
  exact ⟨read, typed, passes around _ tree _ read⟩

end Pseudocode
