import Pseudocode.Proofs.Segment

set_option autoImplicit false

namespace Pseudocode

namespace Token

variable {c d : Char} {text rest after gap more : List Char} {token : Token} {tokens : List Token}
  {s : Segment}

theorem Comment.inLine (comment : Comment text) : '\n' ∉ text := by
  cases comment with
  | slashes inLine => simpa using inLine
  | @remark word body remark _ inLine =>
    have letters : '\n' ∉ word := by
      intro member
      exact absurd (remark_word remark member).2 (by decide)
    simp [letters, inLine]

theorem Comment.append (comment : Comment text) (inLine : '\n' ∉ more)
    (stops : ∀ c ∈ more.head?, Text.isWordPart c = false) : Comment (text ++ more) := by
  cases comment with
  | slashes inside => exact .slashes (by simp [inside, inLine])
  | @remark word body remark ends inside =>
    rw [List.append_assoc]
    refine .remark remark ?_ (by simp [inside, inLine])
    cases body with
    | nil => exact stops
    | cons d body => exact ends

/-- What may stand between the last token of a line and the line's end. -/
inductive Gap : List Char → Prop
  | nil : Gap []
  | comment {text : List Char} : Comment text → Gap (' ' :: text)

theorem Gap.head (isGap : Gap gap) : ∀ c ∈ (gap ++ '\n' :: more).head?, c ∈ [' ', '\n'] := by
  intro c first
  cases isGap with
  | nil =>
    obtain rfl : '\n' = c := by simpa using first
    decide
  | comment =>
    obtain rfl : ' ' = c := by simpa using first
    decide

theorem scanChars_comment (comment : Comment text) :
    scanChars (text ++ '\n' :: more) = scanChars more := by
  have cuts : (Segment.comment text).Cuts (text ++ '\n' :: more) ('\n' :: more) :=
    ⟨comment, by simp [Segment.takes], rfl⟩
  rw [cuts.scanChars, scanChars_blank (by decide)]
  cases scanChars more <;> rfl

theorem scanChars_gap (isGap : Gap gap) : scanChars (gap ++ '\n' :: more) = scanChars more := by
  cases isGap with
  | nil => exact scanChars_blank (by decide)
  | comment comment => rw [List.cons_append, scanChars_blank (by decide), scanChars_comment comment]

theorem Segment.Cuts.takes_blank (cuts : (Segment.lexeme text token).Cuts (c :: rest) after)
    (closed : ((c == '"' || c == '\'') && literalOpen c rest) = false) (blank : d ∈ [' ', '\n']) :
    (Segment.lexeme text token).takes d = false := by
  have blank : d = ' ' ∨ d = '\n' := by simpa using blank
  have noDigit : Text.isDigit d = false ∧ d ≠ '.' := by rcases blank with rfl | rfl <;> decide
  have noPart : Text.isWordPart d = false := by rcases blank with rfl | rfl <;> decide
  have noSign : ∀ sign ∈ signs, lengthensSign sign.1 d = false := by
    rcases blank with rfl | rfl <;> decide
  obtain ⟨lexeme, stops, joined⟩ := cuts
  cases lexeme with
  | sign listed =>
    rw [takes_sign listed]
    exact noSign _ listed
  | whole _ digits =>
    rw [takes_whole digits]
    simp [noDigit]
  | decimal =>
    rw [takes_decimal (by simp)]
    exact noDigit.1
  | keyword => exact noPart
  | identifier => exact noPart
  | literal quoted spelled =>
    exact (literalOpen_spelled (ne_escape_of_mem quoted) spelled).trans literalOpen_mark
  | @unclosed quote text value quoted spelled =>
    have isOpen := literalOpen_unclosed (ne_escape_of_mem quoted) spelled
    cases after with
    | nil =>
      -- Nothing follows, so this is the literal that the source leaves open.
      obtain ⟨rfl, rfl⟩ : quote = c ∧ text = rest := by simpa [Segment.text] using joined
      have marks : (quote == '"' || quote == '\'') = true := by simpa [quotes] using quoted
      simp [marks, isOpen] at closed
    | cons e after => exact stops e rfl

theorem Segment.Cuts.scanChars_gap (cuts : s.Cuts (c :: rest) after)
    (closed : ((c == '"' || c == '\'') && literalOpen c rest) = false) (isGap : Gap gap) :
    Token.scanChars (c :: rest ++ (gap ++ '\n' :: more)) =
      (Token.scanChars (after ++ (gap ++ '\n' :: more))).map (s.token?.toList ++ ·) := by
  by_cases goesOn : ∃ d ∈ (after ++ (gap ++ '\n' :: more)).head?, s.takes d = true
  · obtain ⟨d, first, taken⟩ := goesOn
    have ended : after = [] := by
      cases after with
      | nil => rfl
      | cons e after =>
        obtain rfl : e = d := by simpa using first
        simp [cuts.stops e rfl] at taken
    subst ended
    have blank := isGap.head d first
    cases s with
    | blank => cases taken
    | lexeme => simp [cuts.takes_blank closed blank] at taken
    | comment text =>
      -- The comment goes on to the end of its line.
      obtain rfl : text = c :: rest := by simpa [Segment.text] using cuts.joined
      have whole : Comment (c :: rest ++ gap) := by
        cases isGap with
        | nil =>
          rw [List.append_nil]
          exact cuts.valid
        | comment inner =>
          refine Comment.append cuts.valid ?_ (by simp; decide)
          simp [inner.inLine]
      rw [List.nil_append, Token.scanChars_gap isGap, ← List.append_assoc, scanChars_comment whole]
      cases Token.scanChars more <;> rfl
  · have longer : s.Cuts (c :: rest ++ (gap ++ '\n' :: more)) (after ++ (gap ++ '\n' :: more)) := by
      refine ⟨cuts.valid, fun d first => ?_, ?_⟩
      · exact Bool.eq_false_iff.mpr fun taken => goesOn ⟨d, first, taken⟩
      · rw [← List.append_assoc, cuts.joined]
    exact longer.scanChars

theorem scanChars_append_gap {n : Nat} (read : scanChars text = .ok tokens)
    (enough : text.length ≤ n) (closed : openWithin n text = false) (isGap : Gap gap) :
    scanChars (text ++ (gap ++ '\n' :: more)) = (scanChars more).map (tokens ++ ·) := by
  -- The induction is on the cuts; each leaves one fewer for the search of an open literal.
  refine scanChars_induction (motive := fun text tokens => ∀ n, text.length ≤ n →
    openWithin n text = false →
      scanChars (text ++ (gap ++ '\n' :: more)) = (scanChars more).map (tokens ++ ·))
    ?nil ?step read n enough closed
  case nil =>
    intro n _ _
    rw [List.nil_append, scanChars_gap isGap]
    cases scanChars more <;> rfl
  case step =>
    intro c rest found after tokens cut ih n enough closed
    obtain ⟨n, rfl⟩ : ∃ m, n = m + 1 := ⟨n - 1, by simp only [List.length_cons] at enough; omega⟩
    have shorter := scanStep_length cut
    simp only [openWithin, cut, Bool.or_eq_false_iff] at closed
    simp only [List.length_cons] at enough
    obtain ⟨s, cuts, rfl⟩ := exists_segment cut
    rw [cuts.scanChars_gap closed.1 isGap, ih n (by omega) closed.2]
    cases scanChars more <;> simp [Except.map]

theorem scan_append_gap {first : String} (read : scan first = .ok tokens)
    (closed : endsInLiteral first = false) {gap : String} (isGap : Gap gap.toList) (second : String) :
    scan (first ++ gap ++ "\n" ++ second) = (scan second).map (tokens ++ ·) := by
  have joined : (first ++ gap ++ "\n" ++ second).toList =
      first.toList ++ (gap.toList ++ '\n' :: second.toList) := by
    simp [String.toList_append]
  rw [scan, joined]
  exact scanChars_append_gap read (Nat.le_refl _) closed isGap

theorem scan_line {first second : String} (read : scan first = .ok tokens)
    (closed : endsInLiteral first = false) :
    scan (first ++ "\n" ++ second) = (scan second).map (tokens ++ ·) := by
  have nothing : Gap "".toList := .nil
  simpa using scan_append_gap read closed nothing second

/-- A line end parts what is read before it from what is read after it, with or without a comment in
front. What cannot be read after it fails in the same way. -/
theorem line_end_parts_scan (first second comment : String) (read : scan first = .ok tokens)
    (closed : endsInLiteral first = false) (inLine : '\n' ∉ comment.toList) :
    scan (first ++ "\n" ++ second) = (scan second).map (tokens ++ ·) ∧
      scan (first ++ " //" ++ comment ++ "\n" ++ second) = (scan second).map (tokens ++ ·) ∧
      scan (first ++ " REM " ++ comment ++ "\n" ++ second) = (scan second).map (tokens ++ ·) := by
  have slashes : Gap (" //" ++ comment).toList := by
    simpa [String.toList_append] using Gap.comment (.slashes inLine)
  have word : Comment (['R', 'E', 'M'] ++ ' ' :: comment.toList) :=
    .remark rfl (by simp; decide) (by simpa using inLine)
  have remark : Gap (" REM " ++ comment).toList := by
    simpa [String.toList_append] using Gap.comment word
  refine ⟨scan_line read closed, ?_, ?_⟩
  · simpa only [String.append_assoc] using scan_append_gap read closed slashes second
  · simpa only [String.append_assoc] using scan_append_gap read closed remark second

theorem line_end_parts_sign :
    let less := [identifier "x", mark .less]
    let assign := [mark .assign, identifier "y"]
    scan "x<" = .ok less ∧ endsInLiteral "x<" = false ∧ '\n' ∉ "='!".toList ∧
      scan ("x<" ++ "\n" ++ "=y") = .ok (less ++ assign) ∧
      scan ("x<" ++ " //" ++ "='!" ++ "\n" ++ "=y") = .ok (less ++ assign) ∧
      scan ("x<" ++ " REM " ++ "='!" ++ "\n" ++ "=y") = .ok (less ++ assign) := by
  intro less assign
  have read : scan "x<" = .ok less := by
    rw [scan_eq_within]
    rfl
  have second : scan "=y" = .ok assign := by
    rw [scan_eq_within]
    rfl
  have inLine : '\n' ∉ "='!".toList := by decide
  have parts := line_end_parts_scan "x<" "=y" "='!" read rfl inLine
  rw [second] at parts
  exact ⟨read, rfl, inLine, parts⟩

end Token

end Pseudocode
