import Pseudocode.Proofs.Lines.Break

set_option autoImplicit false

namespace Pseudocode

namespace Token

def escaped (mark : Char) (short : Bool) (c : Char) : List Char :=
  if c = '\\' ∨ c = mark then ['\\', c]
  else if short ∧ c = '\n' then ['\\', 'n']
  else if short ∧ c = '\t' then ['\\', 't']
  else [c]

/-- A text as it stands between two marks, with a choice for each of its characters. -/
def written (mark : Char) (short : Nat → Bool) : List Char → List Char
  | [] => []
  | c :: rest => escaped mark (short 0) c ++ written mark (fun place => short (place + 1)) rest

def literal (mark : Char) (short : Nat → Bool) (s : String) : String :=
  String.ofList (mark :: (written mark short s.toList ++ [mark]))

variable {mark c : Char} {text value rest : List Char} {tokens : List Token}

theorem spells_escaped (quoted : mark ∈ quotes) (short : Bool) (c : Char)
    (spelled : Spells mark text value) : Spells mark (escaped mark short c ++ text) (c :: value) := by
  have marks : mark = '"' ∨ mark = '\'' := by simpa [quotes] using quoted
  unfold escaped
  split
  next special =>
    have itself : unescape mark c = [c] := by
      rcases special with rfl | rfl
      · rfl
      · rcases marks with rfl | rfl <;> rfl
    simpa [itself] using Spells.escape c spelled
  next ordinary =>
    push Not at ordinary
    split
    next lineEnd =>
      rw [lineEnd.2]
      exact .escape 'n' spelled
    next =>
      split
      next tab =>
        rw [tab.2]
        exact .escape 't' spelled
      next => exact .plain ordinary.2 ordinary.1 spelled

theorem spells_written (quoted : mark ∈ quotes) (short : Nat → Bool) (value : List Char) :
    Spells mark (written mark short value) value := by
  induction value generalizing short with
  | nil => exact .nil
  | cons c value ih => exact spells_escaped quoted (short 0) c (ih _)

theorem scanChars_spelled (quoted : mark ∈ quotes) (spelled : Spells mark text value) :
    scanChars (mark :: (text ++ mark :: rest)) =
      (scanChars rest).map (string (String.ofList value) :: ·) := by
  have cut : scanStep mark (text ++ mark :: rest) = .ok (some (string (String.ofList value)), rest) := by
    rw [scanStep_literal quoted, scanLiteral, literalBody_closed (ne_escape_of_mem quoted) spelled]
    rfl
  exact scanChars_cons cut

theorem scan_literal (quoted : mark ∈ quotes) (short : Nat → Bool) (s later : String) :
    scan (literal mark short s ++ later) = (scan later).map (string s :: ·) := by
  have joined : (literal mark short s ++ later).toList =
      mark :: (written mark short s.toList ++ mark :: later.toList) := by
    simp [literal, String.toList_append]
  rw [scan, joined, scanChars_spelled quoted (spells_written quoted short s.toList), String.ofList_toList]
  rfl

/-- A text that is written as a literal on a new line is read back as one token with exactly that text,
after the tokens of what stands before it and before the tokens of what follows it. What cannot be read
after it fails in the same way. -/
theorem written_literal_reads_back (mark : Char) (quoted : mark ∈ quotes) (short : Nat → Bool)
    (s first second : String) (read : scan first = .ok tokens) (closed : endsInLiteral first = false) :
    scan (first ++ "\n" ++ (literal mark short s ++ second)) =
      (scan second).map (tokens ++ string s :: ·) := by
  rw [scan_line read closed, scan_literal quoted]
  cases scan second <;> simp [Except.map]

theorem written_marks_read_back :
    let short (place : Nat) : Bool := place = 5
    let s := "\\n\"'\n\n\t"
    '"' ∈ quotes ∧ scan "x" = .ok [identifier "x"] ∧ endsInLiteral "x" = false ∧
      literal '"' short s = "\"\\\\n\\\"'\n\\n\t\"" ∧
      scan ("x" ++ "\n" ++ (literal '"' short s ++ "!")) = .error .loneExclamation ∧
      scan ("x" ++ "\n" ++ (literal '"' short s ++ ";")) =
        .ok [identifier "x", string s, Token.mark .sep] := by
  intro short s
  have quoted : '"' ∈ quotes := by decide
  have read : scan "x" = .ok [identifier "x"] := by
    rw [scan_eq_within]
    rfl
  have separator : scan ";" = .ok [Token.mark .sep] := by
    rw [scan_eq_within]
    rfl
  have refused : scan "!" = .error .loneExclamation := by
    rw [scan_eq_within]
    rfl
  refine ⟨quoted, read, rfl, by decide, ?_, ?_⟩
  · rw [written_literal_reads_back '"' quoted short s "x" "!" read rfl, refused]
    rfl
  · rw [written_literal_reads_back '"' quoted short s "x" ";" read rfl, separator]
    rfl

end Token

end Pseudocode
