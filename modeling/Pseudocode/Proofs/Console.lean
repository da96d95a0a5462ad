import Pseudocode.Proofs.Isolation
import Pseudocode.Proofs.UnsavedText

set_option autoImplicit false

namespace Pseudocode

def Value.isVoid : Value → Bool
  | .empty => true
  | .plain p => !p.isTrue
  | _ => false

/-- What is to be said of an ending. A result that has no text is a fault. -/
def Ending.report (e : Ending) : String :=
  match e.result with
  | .ok value =>
    if value.isVoid then ""
    else match e.machine.textOf value with
      | .ok text => "\nResult: " ++ text ++ "\n"
      | .error cause => "Error: " ++ cause.message ++ "\n"
      | .unfinished => ""
  | .error cause => "Error: " ++ cause.message ++ "\n"
  | .unfinished => ""

theorem Value.isVoid_of_ne_empty {value : Value} (other : value ≠ .empty) :
    value.isVoid = !value.isPresent := by
  cases value with
  | empty => exact absurd rfl other
  | _ => rfl

theorem Machine.textOf_empty (m : Machine) : m.textOf .empty = .ok "None" := rfl

theorem Machine.textOf_text (m : Machine) (s : String) : m.textOf (.text s) = .ok s := rfl

theorem Machine.textOf_of_isVoid (m : Machine) {value : Value} (void : value.isVoid = true) :
    ∃ text, m.textOf value = .ok text := by
  -- Only the display of numbers and lists can fail.
  cases value with
  | empty => exact ⟨_, rfl⟩
  | plain p => exact ⟨_, rfl⟩
  | _ => cases void

def appending : Frame where
  kept m after := ∃ more, after.output = m.output ++ more
  left m after := ∃ more, after.output = m.output ++ more
  refl m := ⟨"", by simp⟩
  trans := by
    rintro a b c ⟨first, toB⟩ ⟨second, toC⟩
    exact ⟨first ++ second, by rw [toC, toB, String.append_assoc]⟩
  stop m := ⟨"", by simp⟩
  later := by
    rintro a b c ⟨first, toB⟩ ⟨second, toC⟩
    exact ⟨first ++ second, by rw [toC, toB, String.append_assoc]⟩
  store m _ := ⟨"", by simp⟩
  set m _ _ := ⟨"", by simp⟩
  returned m _ := ⟨"", by simp⟩
  output m text := ⟨text, rfl⟩
  reply m _ _ := ⟨"", by simp⟩
  call added := added
  callFault added := added

namespace Workbench

def ending (w : Workbench) (answers : List (Option String)) : Ending :=
  Run.source w.surroundings w.document (w.machine.prepare (.dialogs answers))

/-- All that a run of the document prints: a run starts with no output and only adds to it. A document
that has no tree is not run, and the machine still holds what an earlier run has printed. -/
def printout (w : Workbench) (answers : List (Option String)) : String :=
  match Eval.program w.document with
  | .ok _ => (w.ending answers).machine.output
  | _ => ""

structure RunEnds (w : Workbench) (answers : List (Option String)) : Prop where
  ended : (w.ending answers).result ≠ .unfinished
  shown {value : Value} : (w.ending answers).result = .ok value →
    (w.ending answers).machine.textOf value ≠ .unfinished

section Run

variable {w : Workbench} {answers : List (Option String)} {value : Value} {text : String} {cause : Fault}

theorem run_of_code (code : Text.isBlankText w.document = false) :
    w.run answers =
      { w with machine := (w.ending answers).machine, console := "" }.showEnding (w.ending answers) := by
  rw [run, if_neg (by simp [code])]
  rfl

theorem printout_of_value (ended : (w.ending answers).result = .ok value) :
    w.printout answers = (w.ending answers).machine.output := by
  unfold printout
  -- Without a tree there is no value.
  cases read : Eval.program w.document with
  | ok tree => rfl
  | error cause => simp [ending, Run.source, read] at ended
  | unfinished => simp [ending, Run.source, read] at ended

theorem console_of_text (code : Text.isBlankText w.document = false)
    (ended : (w.ending answers).result = .ok value)
    (shown : (w.ending answers).machine.textOf value = .ok text) :
    (w.run answers).console = w.printout answers ++
      if value.isPresent && text != "0.0" then "\nResult: " ++ text ++ "\n" else "" := by
  simp [run_of_code code, showEnding, ended, shown, printout_of_value ended]

theorem console_of_untold (code : Text.isBlankText w.document = false)
    (ended : (w.ending answers).result = .ok value)
    (untold : (w.ending answers).machine.textOf value = .error cause) :
    (w.run answers).console = w.printout answers ++ ("Error: " ++ cause.message ++ "\n") := by
  simp [run_of_code code, showEnding, ended, untold, failRun, printout_of_value ended,
    String.append_assoc]

theorem console_of_fault (code : Text.isBlankText w.document = false)
    (failed : (w.ending answers).result = .error cause) :
    (w.run answers).console = "Error: " ++ cause.message ++ "\n" := by
  simp [run_of_code code, showEnding, failed, failRun]

theorem report_of_fault (failed : (w.ending answers).result = .error cause) :
    (w.ending answers).report = "Error: " ++ cause.message ++ "\n" := by
  simp [Ending.report, failed]

theorem report_of_text (ended : (w.ending answers).result = .ok value)
    (shown : (w.ending answers).machine.textOf value = .ok text) :
    (w.ending answers).report = if value.isVoid then "" else "\nResult: " ++ text ++ "\n" := by
  simp [Ending.report, ended, shown]

theorem shows_text_iff (code : Text.isBlankText w.document = false)
    (ended : (w.ending answers).result = .ok value)
    (shown : (w.ending answers).machine.textOf value = .ok text) :
    (w.run answers).console = w.printout answers ++ (w.ending answers).report ↔
      value ≠ .empty ∧ (value.isVoid = false → text ≠ "0.0") := by
  have result : "\nResult: " ++ text ++ "\n" ≠ "" := by simp
  rw [console_of_text code ended shown, report_of_text ended shown, String.append_right_inj]
  by_cases empty : value = .empty
  · subst empty
    obtain rfl : "None" = text := Outcome.ok.inj shown
    simp [Value.isPresent, Value.isVoid]
  · -- The two tests for an empty result differ on the empty value alone.
    rw [Value.isVoid_of_ne_empty empty]
    by_cases present : value.isPresent = true
    · by_cases zero : text = "0.0"
      · simp [empty, present, zero]
      · simp [empty, present, zero]
    · simp [empty, present]

theorem shows_untold (code : Text.isBlankText w.document = false)
    (ended : (w.ending answers).result = .ok value)
    (untold : (w.ending answers).machine.textOf value = .error cause) :
    value ≠ .empty ∧ (w.run answers).console = w.printout answers ++ (w.ending answers).report := by
  have solid : value.isVoid = false := by
    by_contra void
    obtain ⟨text, shown⟩ := (w.ending answers).machine.textOf_of_isVoid (by simpa using void)
    rw [untold] at shown
    cases shown
  refine ⟨fun empty => ?_, ?_⟩
  · rw [empty] at solid
    cases solid
  · rw [console_of_untold code ended untold]
    simp [Ending.report, ended, untold, solid]

theorem shows_fault_iff (code : Text.isBlankText w.document = false)
    (failed : (w.ending answers).result = .error cause) :
    (w.run answers).console = w.printout answers ++ (w.ending answers).report ↔
      w.printout answers = "" := by
  rw [console_of_fault code failed, report_of_fault failed]
  constructor
  · intro same
    have cancels : "" ++ ("Error: " ++ cause.message ++ "\n") =
        w.printout answers ++ ("Error: " ++ cause.message ++ "\n") := by
      rw [String.empty_append]
      exact same
    exact ((String.append_left_inj _).mp cancels).symm
  · intro silent
    rw [silent, String.empty_append]

end Run

/-- No statement takes back what was printed before it, whether it succeeds or fails. The console holds
the whole run exactly if the run fails before it prints anything, or ends with a result other than the
empty value and other than one that is shown as zero with a point. -/
theorem console_shows_run_iff (w : Workbench) (answers : List (Option String))
    (code : Text.isBlankText w.document = false) (ends : w.RunEnds answers) :
    (∀ n node, (Eval.eval w.surroundings n node).Keeps appending) ∧
    ((w.run answers).console = w.printout answers ++ (w.ending answers).report ↔
      (∀ value, (w.ending answers).result = .ok value →
        value ≠ .empty ∧
          (value.isVoid = false → (w.ending answers).machine.textOf value ≠ .ok "0.0")) ∧
      ∀ cause, (w.ending answers).result = .error cause → w.printout answers = "") := by
  refine ⟨Eval.keeps_eval w.surroundings, ?_⟩
  cases ended : (w.ending answers).result with
  | ok value =>
    cases shown : (w.ending answers).machine.textOf value with
    | ok text => simp [shows_text_iff code ended shown, shown]
    | error cause => simp [shows_untold code ended shown, shown]
    | unfinished => exact absurd shown (ends.shown ended)
  | error cause => simp [shows_fault_iff code ended]
  | unfinished => exact absurd ended ends.ended

section Documents

theorem blank_fresh :
    blank.machine.returned = none ∧ blank.machine.scopes.find? (some "x") = none := by
  unfold blank Machine.start Machine.withConstants
  dsimp only
  split <;> exact ⟨rfl, rfl⟩

def lined (w : Workbench) (line : String) : Machine :=
  { w.machine.prepare (.dialogs []) with output := line ++ "\n" }

variable {w : Workbench} {line : String} {node : Node}

theorem eval_print (n : Nat) :
    Eval.eval w.surroundings (n + 2) (printed line)
      { w.machine.prepare (.dialogs []) with output := "" } = .ok (.empty, w.lined line) := by
  change Outcome.ok (Value.empty, { w.lined line with output := "" ++ (line ++ "\n") }) = _
  rw [String.empty_append]
  rfl

theorem ending_print (read : Eval.program w.document = .ok (printed line)) :
    w.ending [] = ⟨.ok .empty, w.lined line⟩ := by
  have enough : Run.bound = (10 ^ 18 - 2) + 2 := by norm_num [Run.bound]
  apply source_of_program read
  rw [enough]
  exact eval_print _

theorem ending_print_then (result : Except Fault Value)
    (read : Eval.program w.document = .ok (Node.block [printed line, node]))
    (clear : w.machine.returned = none)
    (next : ∀ n, Eval.eval w.surroundings (n + 2) node (w.lined line) =
      Exec.ofExcept result (w.lined line)) :
    w.ending [] = ⟨.ofExcept result, w.lined line⟩ := by
  obtain ⟨n, enough⟩ : ∃ n, Run.bound = n + 2 + 1 := ⟨10 ^ 18 - 3, by norm_num [Run.bound]⟩
  have still : (w.lined line).returned = none := clear
  have block : Eval.eval w.surroundings Run.bound (Node.block [printed line, node]) =
      Eval.block (Eval.eval w.surroundings (n + 2)) [printed line, node] .empty := by
    rw [enough]
    rfl
  simp only [ending, Run.source, read, Run.tree, block, Eval.block, Exec.bind_apply, eval_print,
    Exec.read, still, next]
  cases result <;> simp [Exec.ofExcept, Outcome.ofExcept, still, Exec.pure_apply, Run.endingOf]

def printing : Workbench := blank.type "PRINT \"a\""

def failing : Workbench := blank.type "PRINT \"a\"; PRINT x"

theorem ending_printing : printing.ending [] = ⟨.ok .empty, printing.lined "a"⟩ := by
  have tokens : Token.scan "PRINT \"a\"" = .ok [.keyword "PRINT", .string "a"] := by
    rw [Token.scan_eq_within]
    rfl
  apply ending_print
  change Eval.program "PRINT \"a\"" = _
  rw [Eval.program, tokens]
  rfl

theorem program_failing :
    Eval.program failing.document =
      .ok (Node.block [printed "a", Node.of .print [Node.named .access (some "x") []]]) := by
  have tokens : Token.scan "PRINT \"a\"; PRINT x" =
      .ok [.keyword "PRINT", .string "a", .mark .sep, .keyword "PRINT", .identifier "x"] := by
    rw [Token.scan_eq_within]
    rfl
  change Eval.program "PRINT \"a\"; PRINT x" = _
  rw [Eval.program, tokens]
  rfl

theorem ending_failing :
    failing.ending [] = ⟨.error (.undefined .variable (some "x")), failing.lined "a"⟩ := by
  apply ending_print_then (.error (.undefined .variable (some "x"))) program_failing blank_fresh.1
  intro n
  have looked : Eval.eval failing.surroundings (n + 1) (Node.named .access (some "x") [])
      (failing.lined "a") = .error (.undefined .variable (some "x"), failing.lined "a") := by
    change Exec.lookup .variable (some "x") _ = _
    have unbound : (failing.lined "a").scopes.find? (some "x") = none := blank_fresh.2
    simp only [Exec.lookup, unbound]
  change Eval.print (Eval.eval _ (n + 1)) _ _ = _
  simp [Eval.print, Node.of, Eval.displays, Exec.bind_apply, looked, Exec.ofExcept]

end Documents

theorem printed_line_and_result_shown :
    let w := blank.type "PRINT \"a\"; \"b\""
    Text.isBlankText w.document = false ∧ w.RunEnds [] ∧
      (w.run []).console = w.printout [] ++ (w.ending []).report ∧
      w.printout [] ++ (w.ending []).report = "a\n\nResult: b\n" := by
  intro w
  have tokens : Token.scan "PRINT \"a\"; \"b\"" =
      .ok [.keyword "PRINT", .string "a", .mark .sep, .string "b"] := by
    rw [Token.scan_eq_within]
    rfl
  have read : Eval.program w.document =
      .ok (Node.block [printed "a", Node.named .string (some "b") []]) := by
    change Eval.program "PRINT \"a\"; \"b\"" = _
    rw [Eval.program, tokens]
    rfl
  have ended : w.ending [] = ⟨.ok (.text "b"), w.lined "a"⟩ :=
    ending_print_then (.ok (.text "b")) read blank_fresh.1 fun _ => rfl
  have code : Text.isBlankText w.document = false := by decide
  have ends : w.RunEnds [] := by
    constructor <;> rw [ended]
    · simp
    · rintro value ⟨⟩
      simp [Machine.textOf_text]
  refine ⟨code, ends, (console_shows_run_iff w [] code ends).2.mpr ⟨?_, ?_⟩, ?_⟩
  · rw [ended]
    rintro value ⟨⟩
    simp [Machine.textOf_text]
  · simp [ended]
  · rw [printout_of_value (by rw [ended]), ended]
    rfl

/-- The console gives the empty result of a statement that prints for a result, and loses a line that was
printed before a fault. -/
theorem console_invents_result_and_loses_line :
    (printing.run []).console = "a\n\nResult: None\n" ∧
      printing.printout [] ++ (printing.ending []).report = "a\n" ∧
    (failing.run []).console = "Error: Variable 'x' not defined\n" ∧
      failing.printout [] ++ (failing.ending []).report =
        "a\nError: Variable 'x' not defined\n" := by
  have text : (printing.ending []).machine.textOf .empty = .ok "None" :=
    Machine.textOf_empty _
  have shown := console_of_text (w := printing) (by decide) (by rw [ending_printing]) text
  have line : printing.printout [] = "a\n" := by
    rw [printout_of_value (by rw [ending_printing]), ending_printing]
    rfl
  have lost : failing.printout [] = "a\n" := by
    simp only [printout, program_failing, ending_failing]
    rfl
  refine ⟨?_, ?_, ?_, ?_⟩
  · rw [shown, line]
    rfl
  · rw [line, Ending.report, ending_printing]
    rfl
  · rw [console_of_fault (by decide) (by rw [ending_failing])]
    rfl
  · rw [lost, report_of_fault (by rw [ending_failing])]
    rfl

end Workbench

end Pseudocode
