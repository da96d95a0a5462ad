import Mathlib
import Pseudocode.Proofs.Call
import Pseudocode.Proofs.Ends
import Pseudocode.Proofs.Lines.Semicolon

set_option autoImplicit false

namespace Pseudocode

namespace Eval

open Exec Ending

variable {around : Surroundings} {nodes others : List Node} {node : Node} {m : Machine} {last : Value}
  {e : Ending} {rec : Node → Exec Value}

def goOn (rec : Node → Exec Value) (nodes : List Node) (last : Value) : Exec Value := do
  match ← read (·.returned) with
  | some result => pure result
  | none => block rec nodes last

theorem goOn_apply :
    goOn rec nodes last m =
      match m.returned with
      | some result => .ok (result, m)
      | none => block rec nodes last m := by
  rw [goOn, bind_apply]
  simp only [Exec.read]
  cases m.returned <;> rfl

theorem block_append (begins : nodes ≠ [] ∨ m.returned = none) :
    block rec (nodes ++ others) last m = (block rec nodes last >>= goOn rec others) m := by
  induction nodes generalizing last m with
  | nil =>
    change block rec others last m = goOn rec others last m
    have clear := begins.resolve_left fun nonempty => nonempty rfl
    rw [goOn_apply, clear]
  | cons node nodes ih =>
    simp only [List.cons_append, block, bind_apply, Exec.read]
    cases rec node m with
    | ok found =>
      obtain ⟨value, middle⟩ := found
      dsimp only
      -- A value that was returned ends the block here, and what follows it passes the value on.
      cases returned : middle.returned with
      | some result => simp only [pure_apply, goOn_apply, returned]
      | none => exact ih (.inr returned)
    | error found => rfl
    | unfinished => rfl

theorem block_last (goesOn : nodes ≠ []) (v w : Value) : block rec nodes v = block rec nodes w := by
  cases nodes with
  | nil => exact absurd rfl goesOn
  | cons => rfl

def BlockEnds (around : Surroundings) (nodes : List Node) : Machine → Ending → Prop :=
  Exec.Ends fun n => block (eval around n) nodes .empty

theorem grows_goOn (nodes : List Node) (last : Value) : Grows fun n => goOn (eval around n) nodes last := by
  refine grows_of_covers fun n n' more => ?_
  refine covers_returned fun found => ?_
  cases found with
  | some result => exact covers_pure _
  | none => exact covers_block (covers_larger more) nodes last

theorem blockEnds_append_iff (clear : m.returned = none) (goesOn : others ≠ []) :
    BlockEnds around (nodes ++ others) m e ↔
      BlockEnds around nodes m e ∧ (∃ cause, e.result = .error cause) ∨
        ∃ v middle, BlockEnds around nodes m ⟨.ok v, middle⟩ ∧
          match middle.returned with
          | some result => e = ⟨.ok result, middle⟩
          | none => BlockEnds around others middle e := by
  rw [BlockEnds, ends_congr fun _ => block_append (.inr clear),
    ends_bind (grows_block nodes .empty) (grows_goOn others)]
  refine or_congr Iff.rfl (exists_congr fun v => exists_congr fun middle => and_congr Iff.rfl ?_)
  cases returned : middle.returned with
  | some result =>
    have here (n : Nat) : goOn (eval around n) others v middle = .ok (result, middle) := by
      rw [goOn_apply, returned]
    constructor
    · rintro ⟨n, ends⟩
      dsimp only at ends
      rw [here n] at ends
      exact (Option.some.inj ends).symm
    · rintro rfl
      exact ⟨0, congrArg ending? (here 0)⟩
  | none => exact ends_congr fun n => by rw [goOn_apply, returned, block_last goesOn v .empty]

theorem ends_append (clear : m.returned = none) (goesOn : others ≠ []) :
    SameEndings (BlockEnds around (nodes ++ others) m)
      (InTurn (BlockEnds around nodes m) (BlockEnds around others)) := by
  constructor
  · intro e ends
    rcases (blockEnds_append_iff clear goesOn).mp ends with ⟨ends, failed⟩ | ⟨v, middle, first, second⟩
    · exact ⟨e, .stopped ends (.inl failed), .refl e⟩
    · cases returned : middle.returned with
      | some result =>
        rw [returned] at second
        subst second
        have stops : middle.returned ≠ none := by simp [returned]
        exact ⟨_, .stopped first (.inr stops), same_of_returned stops _ _⟩
      | none =>
        rw [returned] at second
        refine ⟨e, .both first ?_ second, .refl e⟩
        rintro (⟨cause, failed⟩ | stops)
        · cases failed
        · exact stops returned
  · intro e inTurn
    cases inTurn with
    | stopped ends stops =>
      obtain ⟨result, final⟩ := e
      rcases ends.result with ⟨v, rfl⟩ | failed
      · cases returned : final.returned with
        | some result =>
          refine ⟨⟨.ok result, final⟩, (blockEnds_append_iff clear goesOn).mpr (.inr ⟨v, final, ends, ?_⟩),
            same_of_returned (by simp [returned]) _ _⟩
          rw [returned]
        | none =>
          rcases stops with ⟨cause, failed⟩ | stops
          · cases failed
          · exact absurd returned stops
      · exact ⟨_, (blockEnds_append_iff clear goesOn).mpr (.inl ⟨ends, failed⟩), .refl _⟩
    | @both middle _ first continues second =>
      obtain ⟨result, final⟩ := middle
      rcases first.result with ⟨v, rfl⟩ | failed
      · refine ⟨e, (blockEnds_append_iff clear goesOn).mpr (.inr ⟨v, final, first, ?_⟩), .refl e⟩
        have here : final.returned = none := clear_of_not_stops continues
        rw [here]
        exact second
      · exact absurd (.inl failed) continues

def settled : Ending → Ending
  | ⟨.ok value, final⟩ => ⟨.ok (final.returned.getD value), final⟩
  | e => e

theorem same_settled (e : Ending) : e.Same (settled e) := by
  obtain ⟨result, final⟩ := e
  cases result with
  | ok v =>
    by_cases clear : final.returned = none
    · simp only [settled, clear, Option.getD_none]
      exact .refl _
    · exact same_of_returned clear _ _
  | error cause => exact .refl _
  | unfinished => exact .refl _

theorem ending_single (x : Exec Value) (m : Machine) :
    ending? ((x >>= goOn rec []) m) = (ending? (x m)).map settled := by
  rw [bind_apply]
  cases x m with
  | ok found =>
    obtain ⟨v, final⟩ := found
    dsimp only
    rw [goOn_apply]
    cases returned : final.returned <;> simp [ending?, settled, returned, block, pure_apply]
  | error found => rfl
  | unfinished => rfl

theorem ends_single (around : Surroundings) (node : Node) (m : Machine) :
    SameEndings (TreeEnds around node m) (BlockEnds around [node] m) := by
  constructor
  · rintro e ⟨n, ends⟩
    refine ⟨settled e, ⟨n, ?_⟩, same_settled e⟩
    exact (ending_single (eval around n node) m).trans (congrArg (Option.map settled) ends)
  · rintro e ⟨n, ends⟩
    obtain ⟨e, alone, rfl⟩ :=
      Option.map_eq_some_iff.mp ((ending_single (eval around n node) m).symm.trans ends)
    exact ⟨e, ⟨n, alone⟩, same_settled e⟩

theorem ends_program (around : Surroundings) (nodes : List Node) (m : Machine) :
    SameEndings (TreeEnds around (Node.program nodes) m) (BlockEnds around nodes m) := by
  -- The tree is a block only if there are two statements or more.
  match nodes with
  | [] => exact .of_iff fun _ => treeEnds_step
  | [node] => exact ends_single around node m
  | first :: second :: nodes => exact .of_iff fun _ => treeEnds_step

theorem ends_program_append (around : Surroundings) (nodes : List Node) (goesOn : others ≠ [])
    (clear : m.returned = none) :
    SameEndings (TreeEnds around (Node.program (nodes ++ others)) m)
      (InTurn (TreeEnds around (Node.program nodes) m)
        (TreeEnds around (Node.program others))) :=
  (ends_program around _ m).trans <| (ends_append clear goesOn).trans <| .symm <|
    (ends_program around nodes m).inTurn fun m _ => ends_program around others m

theorem ends_program_replace {part part' : List Node} (goesOn : others ≠ []) (clear : m.returned = none)
    (same : ∀ m : Machine, m.returned = none →
      SameEndings (TreeEnds around (Node.program part) m)
        (TreeEnds around (Node.program part') m)) :
    SameEndings (TreeEnds around (Node.program (nodes ++ (part ++ others))) m)
      (TreeEnds around (Node.program (nodes ++ (part' ++ others))) m) := by
  have outer (part : List Node) := ends_program_append around nodes
    (show part ++ others ≠ [] by simp [goesOn]) clear
  refine (outer part).trans <| .trans ?_ (outer part').symm
  refine SameEndings.inTurn (.refl _) fun m clear => ?_
  -- The statements before are run, and what is replaced starts from where they left off.
  have inner (part : List Node) := ends_program_append around part goesOn clear
  refine (inner part).trans <| .trans ?_ (inner part').symm
  exact (same m clear).inTurn fun m _ => .refl _

theorem eval_includeFile {name content : String} {tree : Node} (found : included around name = .ok content)
    (parsed : program content = .ok tree) (n : Nat) :
    eval around (n + 1) (Node.named .includeFile (some name) []) m = eval around n tree m := by
  have read : Exec.ofExcept (included around name) m = .ok (content, m) := by rw [found]; rfl
  have made : ofOutcome (program content) m = .ok (tree, m) := by rw [parsed]; rfl
  exact (bind_of_ok read).trans (bind_of_ok made)

theorem ends_includeFile {name content : String} {tree : Node} {e : Ending}
    (found : included around name = .ok content) (parsed : program content = .ok tree) :
    TreeEnds around (Node.named .includeFile (some name) []) m e ↔ TreeEnds around tree m e :=
  treeEnds_step.trans (ends_congr (eval_includeFile found parsed))

end Eval

open Node Ending

/-- The program of two token lists with separators between them runs as the two programs in turn: where
the first fails or returns a value it ends as the first, and else as the second on the machine that the
first has left, with the output of both. A first list with a token that stands for the end in it is left
out: it would hide the second. -/
theorem concatenation_runs_in_turn (around : Surroundings) {m : Machine} {ts seps us : List Token}
    {nodes others : List Node} (clear : m.returned = none) (parsed : Parses ts nodes)
    (parsedNext : listing us = .ok others) (goesOn : others ≠ [])
    (separating : Token.Separating seps) :
    ∃ whole, ofTokens (ts ++ seps ++ us) = .ok whole ∧
      SameEndings (Run.Ends around whole m)
        (InTurn (Run.Ends around (program nodes) m) (Run.EndsAfter around (program others))) := by
  refine ⟨_, ofTokens_of_listing (parsed.append separating parsedNext), ?_⟩
  have inTurn := Eval.ends_program_append around nodes goesOn (m := { m with output := "" }) clear
  refine inTurn.trans (SameEndings.inTurn (.refl _) fun m _ => ?_)
  exact .of_iff fun _ => Run.endsAfter_iff.symm

theorem printing_runs_in_turn :
    let around : Surroundings := ⟨⟨[], []⟩, "", 1000⟩
    let text (s : String) := Node.named .string (some s) []
    let printing (s : String) := [Token.keyword "PRINT", .string s]
    let returning := [Token.keyword "RETURN", .string "r"]
    let seps := [Token.mark .sep]
    Parses (printing "a") [Node.of .print [text "a"]] ∧ Parses returning [Node.of .return [text "r"]] ∧
      listing (printing "b") = .ok [Node.of .print [text "b"]] ∧ Token.Separating seps ∧
      (∃ whole e, ofTokens (printing "a" ++ seps ++ printing "b") = .ok whole ∧
        Run.Ends around whole .initial e ∧ e.machine.output = "a\nb\n") ∧
      ∃ whole e, ofTokens (returning ++ seps ++ printing "b") = .ok whole ∧
        Run.Ends around whole .initial e ∧ e.machine.output = "" := by
  intro around text printing returning seps
  have parsesPrint : Parses (printing "a") [Node.of .print [text "a"]] := rfl
  have parsesReturn : Parses returning [Node.of .return [text "r"]] := rfl
  have parsed : listing (printing "b") = .ok [Node.of .print [text "b"]] := rfl
  have separating : Token.Separating seps := by decide
  have clear : Machine.initial.returned = none := rfl
  have more : [Node.of .print [text "b"]] ≠ [] := List.cons_ne_nil _ _
  refine ⟨parsesPrint, parsesReturn, parsed, separating, ?_, ?_⟩
  · obtain ⟨whole, tree, same⟩ := concatenation_runs_in_turn around clear parsesPrint parsed more separating
    have first : Run.Ends around (Node.of .print [text "a"]) .initial
        ⟨.ok .empty, { Machine.initial with output := "a\n" }⟩ := ⟨3, rfl⟩
    have second : Run.Ends around (Node.of .print [text "b"]) { Machine.initial with output := "a\n" }
        ⟨.ok .empty, { Machine.initial with output := "b\n" }⟩ := ⟨3, rfl⟩
    have goesOn : ¬ Stops ⟨.ok .empty, { Machine.initial with output := "a\n" }⟩ := by
      rintro (⟨_, failed⟩ | stops)
      · cases failed
      · exact stops rfl
    obtain ⟨e, ends, alike⟩ := same.right (.both first goesOn ⟨_, second, rfl⟩)
    exact ⟨whole, e, tree, ends, by rw [alike.machine]; rfl⟩
  · obtain ⟨whole, tree, same⟩ := concatenation_runs_in_turn around clear parsesReturn parsed more separating
    have first : Run.Ends around (Node.of .return [text "r"]) .initial
        ⟨.ok (.text "r"), { Machine.initial with returned := some (.text "r") }⟩ := ⟨3, rfl⟩
    obtain ⟨e, ends, alike⟩ := same.right (.stopped first (.inr nofun))
    exact ⟨whole, e, tree, ends, by rw [alike.machine]; rfl⟩

/-- A program that includes a file runs as the program that has the tokens of the file in its place. -/
theorem inclusion_runs_inlined {around : Surroundings} {m : Machine} {name content : String}
    {ts seps file seps' us : List Token} {nodes body others : List Node}
    (found : Eval.included around name = .ok content) (scanned : Token.scan content = .ok file)
    (parsedFile : listing file = .ok body) (clear : m.returned = none) (parsed : Parses ts nodes)
    (parsedNext : listing us = .ok others) (goesOn : others ≠ [])
    (separating : Token.Separating seps) (separating' : Token.Separating seps') :
    ∃ including inlined,
      ofTokens (ts ++ seps ++ ([.keyword "INCLUDE", .string name] ++ seps' ++ us)) = .ok including ∧
      ofTokens (ts ++ seps ++ (file ++ seps' ++ us)) = .ok inlined ∧
      SameEndings (Run.Ends around including m) (Run.Ends around inlined m) := by
  have parsesFile : Parses file body := parses_of_listing (Token.scanChars_kind scanned) parsedFile
  have parsesInclude : Parses [.keyword "INCLUDE", .string name]
      [Node.named .includeFile (some name) []] := rfl
  have tree : Eval.program content = .ok (program body) := by
    simp only [Eval.program, scanned, ofTokens_of_listing parsedFile]
    rfl
  have parsesMiddle {mid : List Token} {part : List Node} (parses : Parses mid part) :
      ofTokens (ts ++ seps ++ (mid ++ seps' ++ us)) = .ok (program (nodes ++ (part ++ others))) :=
    ofTokens_of_listing (parsed.append separating
      (parses.append separating' parsedNext))
  refine ⟨_, _, parsesMiddle parsesInclude, parsesMiddle parsesFile, ?_⟩
  exact Eval.ends_program_replace goesOn clear fun m _ =>
    .of_iff fun _ => Eval.ends_includeFile found tree

theorem returning_file_runs_inlined :
    let around : Surroundings := ⟨⟨[], [(["f"], .file (Text.encode "RETURN 'r'"))]⟩, "", 1000⟩
    let text (s : String) := Node.named .string (some s) []
    let printing (s : String) := [Token.keyword "PRINT", .string s]
    let file := [Token.keyword "RETURN", .string "r"]
    let seps := [Token.mark .sep]
    Eval.included around "f" = .ok "RETURN 'r'" ∧ Token.scan "RETURN 'r'" = .ok file ∧
      listing file = .ok [Node.of .return [text "r"]] ∧
      Parses (printing "a") [Node.of .print [text "a"]] ∧
      listing (printing "b") = .ok [Node.of .print [text "b"]] ∧ Token.Separating seps ∧
      ∃ including e,
        ofTokens (printing "a" ++ seps ++ ([.keyword "INCLUDE", .string "f"] ++ seps ++ printing "b")) =
          .ok including ∧
        Run.Ends around including .initial e ∧ e.machine.output = "a\n" ∧
        e.machine.returned = some (.text "r") := by
  intro around text printing file seps
  have found : Eval.included around "f" = .ok "RETURN 'r'" := by cbv
  have scanned : Token.scan "RETURN 'r'" = .ok file := by
    rw [Token.scan_eq_within]
    rfl
  have parsedFile : listing file = .ok [Node.of .return [text "r"]] := rfl
  have parses : Parses (printing "a") [Node.of .print [text "a"]] := rfl
  have parsed : listing (printing "b") = .ok [Node.of .print [text "b"]] := rfl
  have separating : Token.Separating seps := by decide
  have clear : Machine.initial.returned = none := rfl
  have more : [Node.of .print [text "b"]] ≠ [] := List.cons_ne_nil _ _
  obtain ⟨including, inlined, tree, treeInlined, same⟩ := inclusion_runs_inlined found scanned parsedFile
    clear parses parsed more separating separating
  refine ⟨found, scanned, parsedFile, parses, parsed, separating, including, ?_⟩
  obtain rfl : Node.block [Node.of .print [text "a"], Node.of .return [text "r"],
      Node.of .print [text "b"]] = inlined := Outcome.ok.inj treeInlined
  obtain ⟨e, ends, alike⟩ := same.right ⟨4, rfl⟩
  refine ⟨e, tree, ends, ?_, ?_⟩
  · rw [alike.machine]
    rfl
  · rw [alike.machine]
    rfl

end Pseudocode
