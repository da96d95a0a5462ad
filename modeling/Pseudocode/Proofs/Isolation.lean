import Mathlib.Tactic.NormNum
import Pseudocode.Session
import Pseudocode.Proofs.Frame
import Pseudocode.Proofs.Scan

set_option autoImplicit false

namespace Pseudocode

def Scopes.globals (scopes : Scopes) : Table :=
  scopes.outer.getLastD scopes.current

namespace Machine

def globals (m : Machine) : Table := m.scopes.globals

/-- The same global names and the same lists, with no call open and nothing returned. -/
def atRest (m : Machine) : Machine :=
  { m with scopes := ⟨m.globals, []⟩, returned := none, calls := 0 }

end Machine

structure Turn where
  around : Surroundings
  text : String
  input : Input

def Turn.take (turn : Turn) (m : Machine) : Ending :=
  Run.source turn.around turn.text (m.prepare turn.input)

namespace Machine

def endings : Machine → List Turn → List Ending
  | _, [] => []
  | m, turn :: rest => turn.take m :: endings (turn.take m).machine rest

def afterTurns : Machine → List Turn → Machine
  | m, [] => m
  | m, turn :: rest => afterTurns (turn.take m).machine rest

end Machine

/-- The same result or fault, output, lists and global bindings. -/
structure Ending.Agrees (e e' : Ending) : Prop where
  result : e.result = e'.result
  output : e.machine.output = e'.machine.output
  store : e.machine.store = e'.machine.store
  globals (name : Option String) : e.machine.globals.find? name = e'.machine.globals.find? name

theorem atRest_eq_self {m : Machine} (calls : m.calls = 0) (outer : m.scopes.outer = [])
    (returned : m.returned = none) : m.atRest = m := by
  obtain ⟨store, ⟨current, tables⟩, pending, output, prompts, input, count⟩ := m
  simp only at calls outer returned
  subst calls outer returned
  rfl

def callFrame : Frame where
  kept m after := after.calls = m.calls ∧ after.scopes.outer = m.scopes.outer
  left m after := after.calls = m.calls
  refl _ := ⟨rfl, rfl⟩
  trans first second := ⟨second.1.trans first.1, second.2.trans first.2⟩
  stop _ := rfl
  later first second := second.trans first.1
  store _ _ := ⟨rfl, rfl⟩
  set _ _ _ := ⟨rfl, rfl⟩
  returned _ _ := ⟨rfl, rfl⟩
  output _ _ := ⟨rfl, rfl⟩
  reply _ _ _ := ⟨rfl, rfl⟩
  call := by
    intro m after store table inner
    obtain ⟨calls, outer⟩ := inner
    simp only [Machine.opened, Scopes.push] at calls outer
    simp [Machine.closed, Scopes.pop, calls, outer]
  callFault := by
    intro m after store table inner
    simp only [Machine.opened] at inner
    simp [inner]

theorem tree_frame (around : Surroundings) (node : Node) (m : Machine) :
    (Run.tree around node m).machine.calls = m.calls ∧
      ∀ value, (Run.tree around node m).result = .ok value →
        (Run.tree around node m).machine.scopes.outer = m.scopes.outer := by
  have run := Eval.keeps_eval (F := callFrame) around Run.bound node { m with output := "" }
  unfold Run.tree
  dsimp only
  cases h : Eval.eval around Run.bound node { m with output := "" } with
  | ok found =>
    rw [h] at run
    exact ⟨run.1, fun _ _ => run.2⟩
  | error found =>
    rw [h] at run
    exact ⟨run, fun _ ended => nomatch ended⟩
  | unfinished => exact ⟨rfl, fun _ ended => nomatch ended⟩

theorem take_frame (turn : Turn) (m : Machine) :
    (turn.take m).machine.calls = m.calls ∧
      ∀ value, (turn.take m).result = .ok value →
        (turn.take m).machine.scopes.outer = m.scopes.outer := by
  unfold Turn.take Run.source
  cases Eval.program turn.text with
  | ok node => exact tree_frame turn.around node (m.prepare turn.input)
  | error cause => exact ⟨rfl, fun _ ended => nomatch ended⟩
  | unfinished => exact ⟨rfl, fun _ ended => nomatch ended⟩

theorem afterTurns_calls (m : Machine) (turns : List Turn) :
    (m.afterTurns turns).calls = m.calls := by
  induction turns generalizing m with
  | nil => rfl
  | cons turn rest ih => exact (ih _).trans (take_frame turn m).1

theorem afterTurns_outer (m : Machine) (turns : List Turn)
    (ended : ∀ ending ∈ m.endings turns, ∃ value, ending.result = .ok value) :
    (m.afterTurns turns).scopes.outer = m.scopes.outer := by
  induction turns generalizing m with
  | nil => rfl
  | cons turn rest ih =>
    obtain ⟨value, ok⟩ := ended (turn.take m) (by simp [Machine.endings])
    have later := ih (turn.take m).machine fun ending member =>
      ended ending (by simp [Machine.endings, member])
    exact later.trans ((take_frame turn m).2 value ok)

theorem start_fresh (platform : Platform) (given : List (String × Plain)) :
    (Machine.start platform given).calls = 0 ∧
      (Machine.start platform given).scopes.outer = [] := by
  have bound (m : Machine) (fresh : m.calls = 0 ∧ m.scopes.outer = []) :
      (given.foldl (fun m pair => m.set pair.1 (.plain pair.2)) m).calls = 0 ∧
        (given.foldl (fun m pair => m.set pair.1 (.plain pair.2)) m).scopes.outer = [] := by
    induction given generalizing m with
    | nil => exact fresh
    | cons pair rest ih => exact ih _ fresh
  have loaded := bound Machine.initial ⟨rfl, rfl⟩
  unfold Machine.start Machine.withConstants
  dsimp only
  split
  · exact loaded
  · exact loaded

section Probes

def printed (line : String) : Node :=
  Node.of .print [Node.named .string (some line) []]

def declaration (type : String) : Node :=
  Node.named .declare (some "x") [Node.named .string (some type) []]

theorem program_two_lines :
    Eval.program "PRINT \"a\"; PRINT \"b\"" = .ok (Node.block [printed "a", printed "b"]) := by
  have tokens : Token.scan "PRINT \"a\"; PRINT \"b\"" =
      .ok [.keyword "PRINT", .string "a", .mark .sep, .keyword "PRINT", .string "b"] := by
    rw [Token.scan_eq_within]
    rfl
  rw [Eval.program, tokens]
  rfl

theorem program_declaration {type : String} (known : type = "INTEGER" ∨ type = "STRING") :
    Eval.program ("DECLARE x : " ++ type) = .ok (declaration type) := by
  have tokens : Token.scan ("DECLARE x : " ++ type) =
      .ok [.keyword "DECLARE", .identifier "x", .mark .colon, .keyword type] := by
    rw [Token.scan_eq_within]
    rcases known with rfl | rfl <;> rfl
  rw [Eval.program, tokens]
  rcases known with rfl | rfl <;> rfl

theorem source_of_program {text : String} {node : Node} {value : Value} {around : Surroundings}
    {m after : Machine} (read : Eval.program text = .ok node)
    (run : Eval.eval around Run.bound node { m with output := "" } = .ok (value, after)) :
    Run.source around text m = ⟨.ok value, after⟩ := by
  simp [Run.source, read, Run.tree, run, Run.endingOf]

variable (around : Surroundings) (m : Machine)

theorem source_two_lines :
    Run.source around "PRINT \"a\"; PRINT \"b\"" m =
      match m.returned with
      | some value => ⟨.ok value, { m with output := "a\n" }⟩
      | none => ⟨.ok .empty, { m with output := "a\nb\n" }⟩ := by
  have line (text : String) (n : Nat) (m : Machine) :
      Eval.eval around (n + 2) (printed text) m =
        .ok (.empty, { m with output := m.output ++ (text ++ "\n") }) := rfl
  obtain ⟨n, enough⟩ : ∃ n, Run.bound = n + 2 + 1 := ⟨10 ^ 18 - 3, by norm_num [Run.bound]⟩
  have block : Eval.eval around Run.bound (Node.block [printed "a", printed "b"])
      { m with output := "" } =
        Eval.block (Eval.eval around (n + 2)) [printed "a", printed "b"] .empty
          { m with output := "" } := by
    rw [enough]
    rfl
  -- Once a value has been returned, a block ends with its first statement.
  cases h : m.returned with
  | some value =>
    apply source_of_program program_two_lines
    rw [block]
    simp [Eval.block, Exec.bind_apply, line, Exec.read, Exec.pure_apply, h]
  | none =>
    apply source_of_program program_two_lines
    rw [block]
    simp [Eval.block, Exec.bind_apply, line, Exec.read, Exec.pure_apply, h]

theorem source_declaration {type : String} (known : type = "INTEGER" ∨ type = "STRING") :
    Run.source around ("DECLARE x : " ++ type) m =
      ⟨.ok .empty, { m with
        output := ""
        scopes := m.scopes.set (some "x") (if type = "STRING" then .text "" else .number 0.0) }⟩ := by
  have enough : Run.bound = (10 ^ 18 - 1) + 1 := by norm_num [Run.bound]
  apply source_of_program (program_declaration known)
  rw [enough]
  rcases known with rfl | rfl <;> rfl

end Probes

section Isolated

variable {around : Surroundings} {input : Input} {m : Machine}
  (agrees : ∀ text, (Turn.take ⟨around, text, input⟩ m).Agrees
    (Turn.take ⟨around, text, input⟩ m.atRest))
include agrees

theorem returned_of_agrees : m.returned = none := by
  have same := (agrees "PRINT \"a\"; PRINT \"b\"").output
  simp only [Turn.take, source_two_lines, Machine.prepare, Machine.atRest] at same
  cases h : m.returned with
  | none => rfl
  | some value =>
    simp only [h] at same
    exact absurd same (by decide)

theorem find?_of_agrees {type : String} (known : type = "INTEGER" ∨ type = "STRING")
    (inner : m.scopes.outer ≠ []) :
    m.globals.find? (some "x") = some (if type = "STRING" then .text "" else .number 0.0) := by
  -- With a table open the declaration does not reach the global table; at rest it does.
  have same := (agrees ("DECLARE x : " ++ type)).globals (some "x")
  simp only [Turn.take, source_declaration _ _ known, Machine.prepare, Machine.atRest,
    Machine.globals, Scopes.globals, Scopes.set, List.getLastD_nil, Table.find?_set, if_true] at same
  obtain ⟨table, rest, outer⟩ := List.exists_cons_of_ne_nil inner
  rw [outer, List.getLastD_cons] at same
  rw [Machine.globals, Scopes.globals, outer, List.getLastD_cons, same]

theorem outer_of_agrees : m.scopes.outer = [] := by
  by_contra inner
  have number := find?_of_agrees agrees (.inl rfl) inner
  have text := find?_of_agrees agrees (.inr rfl) inner
  rw [number] at text
  simp at text

end Isolated

/-- After any session the next run, whatever its program, goes as on a machine at rest exactly if no
table of a call is open and no value is pending. Only a fault leaves a table open, and the call count
is always given back. -/
theorem session_isolated_iff_at_rest (platform : Platform) (given : List (String × Plain))
    (turns : List Turn) (around : Surroundings) (input : Input) :
    let start := Machine.start platform given
    let left := start.afterTurns turns
    left.calls = 0 ∧
    ((∀ ending ∈ start.endings turns, ∃ value, ending.result = .ok value) →
      left.scopes.outer = []) ∧
    ((∀ text, (Turn.take ⟨around, text, input⟩ left).Agrees
        (Turn.take ⟨around, text, input⟩ left.atRest)) ↔
      left.scopes.outer = [] ∧ left.returned = none) := by
  intro start left
  have fresh := start_fresh platform given
  have calls : left.calls = 0 := (afterTurns_calls start turns).trans fresh.1
  refine ⟨calls, fun ended => (afterTurns_outer start turns ended).trans fresh.2, ?_, ?_⟩
  · intro agrees
    exact ⟨outer_of_agrees agrees, returned_of_agrees agrees⟩
  · rintro ⟨outer, returned⟩ text
    rw [atRest_eq_self calls outer returned]
    exact ⟨rfl, rfl, rfl, fun _ => rfl⟩

/-- A value returned outside any function cuts the next program short. -/
theorem pending_return_cuts_next_run :
    let around : Surroundings := ⟨Library.disk ["home"], "", 1000⟩
    let left := (Machine.start .linux []).afterTurns [⟨around, "RETURN TRUE", .console []⟩]
    let next : Turn := ⟨around, "PRINT \"a\"; PRINT \"b\"", .console []⟩
    (next.take left).machine.output = "a\n" ∧ (next.take left.atRest).machine.output = "a\nb\n" := by
  intro around left next
  have tokens : Token.scan "RETURN TRUE" = .ok [.keyword "RETURN", .keyword "TRUE"] := by
    rw [Token.scan_eq_within]
    rfl
  have read : Eval.program "RETURN TRUE" =
      .ok (Node.of .return [Node.named .boolean (some "TRUE") []]) := by
    rw [Eval.program, tokens]
    rfl
  obtain ⟨n, enough⟩ : ∃ n, Run.bound = n + 1 + 1 := ⟨10 ^ 18 - 2, by norm_num [Run.bound]⟩
  have returned : left.returned = some (.truth 1.0 (some "TRUE")) := by
    have run : Run.source around "RETURN TRUE" ((Machine.start .linux []).prepare (.console [])) =
        ⟨.ok (.truth 1.0 (some "TRUE")),
          { (Machine.start .linux []).prepare (.console []) with
            output := "", returned := some (.truth 1.0 (some "TRUE")) }⟩ := by
      apply source_of_program read
      rw [enough]
      rfl
    simp only [left, Machine.afterTurns, Turn.take, run]
  simp [next, Turn.take, source_two_lines, Machine.prepare, Machine.atRest, returned]

end Pseudocode
