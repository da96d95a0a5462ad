import Mathlib
import Pseudocode.Proofs.Parser.Cursor

set_option autoImplicit false

namespace Pseudocode

namespace Grammar

open Parse

variable {t : Token} {ts used : List Token} {depth : Nat}

def bracket (t : Token) : Int :=
  match t.kind with
  | .lbracket => 1
  | .rbracket => -1
  | _ => 0

def surplus (ts : List Token) : Int :=
  (ts.map bracket).sum

/-- The brackets of the tokens are balanced, and none closes below the start. -/
structure Nested (ts : List Token) : Prop where
  above : ∀ before, before <+: ts → 0 ≤ surplus before
  level : surplus ts = 0

theorem surplus_cons : surplus (t :: ts) = bracket t + surplus ts := by
  simp [surplus]

theorem bracket_open (isOpen : t.kind = .lbracket) : bracket t = 1 := by
  rw [bracket, isOpen]

theorem bracket_close (isClose : t.kind = .rbracket) : bracket t = -1 := by
  rw [bracket, isClose]

theorem bracket_other (other : isBracket t = false) : bracket t = 0 := by
  simp only [isBracket, Bool.or_eq_false_iff, beq_eq_false_iff_ne] at other
  unfold bracket
  split
  · exact absurd ‹_› other.1
  · exact absurd ‹_› other.2
  · rfl

structure Counts (depth : Nat) (ts : List Token) (left : Nat) : Prop where
  above : ∀ before, before <+: ts → 0 ≤ depth + surplus before
  level : (left : Int) = depth + surplus ts

theorem counts_nil (depth : Nat) : Counts depth [] depth where
  above before isPrefix := by
    rw [List.prefix_nil.mp isPrefix]
    simp [surplus]
  level := by simp [surplus]

theorem Counts.cons {next left : Nat} (counts : Counts next ts left) (step : (next : Int) = depth + bracket t) :
    Counts depth (t :: ts) left where
  above before isPrefix := by
    rcases List.prefix_cons_iff.mp isPrefix with rfl | ⟨later, rfl, ofRest⟩
    · simp [surplus]
    · have above := counts.above later ofRest
      rw [surplus_cons]
      omega
  level := by
    have level := counts.level
    rw [surplus_cons]
    omega

theorem afterClosing_append (used : List Token) (depth : Nat) :
    (∃ left, Counts depth used left ∧
      ∀ rest, afterClosing (depth + 1) (used ++ rest) = afterClosing (left + 1) rest) ∨
    ∃ later, ∀ rest, afterClosing (depth + 1) (used ++ rest) = later ++ rest := by
  -- The scan goes through tokens that do not close below the start, with the depth they leave, and stops
  -- inside others.
  induction used generalizing depth with
  | nil => exact .inl ⟨depth, counts_nil depth, fun _ => rfl⟩
  | cons t used ih =>
    -- Whatever the token does to the depth, the rest of the scan is one from the new depth.
    have onward (next : Nat) (step : (next : Int) = depth + bracket t)
        (scanned : ∀ ts, afterClosing (depth + 1) (t :: ts) = afterClosing (next + 1) ts) :
        (∃ left, Counts depth (t :: used) left ∧
          ∀ rest, afterClosing (depth + 1) (t :: used ++ rest) = afterClosing (left + 1) rest) ∨
        ∃ later, ∀ rest, afterClosing (depth + 1) (t :: used ++ rest) = later ++ rest := by
      simp only [List.cons_append, scanned]
      rcases ih next with ⟨left, counts, same⟩ | below
      · exact .inl ⟨left, counts.cons step, same⟩
      · exact .inr below
    by_cases isOpen : t.kind = .lbracket
    · exact onward (depth + 1) (by rw [bracket_open isOpen]; omega) fun _ => afterClosing_open isOpen depth
    by_cases isClose : t.kind = .rbracket
    · cases depth with
      | zero => exact .inr ⟨used, fun rest => by rw [List.cons_append, afterClosing_close isClose, afterClosing]⟩
      | succ depth =>
        exact onward depth (by rw [bracket_close isClose]; omega) fun _ => afterClosing_close isClose _
    · have other : isBracket t = false := by simp [isBracket, isOpen, isClose]
      exact onward depth (by rw [bracket_other other]; omega) fun _ => afterClosing_token other depth

theorem Balanced.nested (balanced : Balanced used) : Nested used := by
  let closing : Token := .mark .rbracket
  rcases afterClosing_append used 0 with ⟨left, counts, same⟩ | ⟨later, same⟩
  · -- A bracket more would be needed after the tokens if they left one open.
    have closed : afterClosing (left + 1) [closing, Token.stop] = [Token.stop] := by
      rw [← same, balanced 0]
      rfl
    have none : left = 0 := by
      cases left with
      | zero => rfl
      | succ left =>
        rw [afterClosing_close rfl] at closed
        exact absurd closed (by simp [afterClosing, Token.stop, Token.mark])
    have level := counts.level
    exact ⟨fun before isPrefix => by simpa using counts.above before isPrefix, by omega⟩
  · have stopped : later ++ [Token.stop] = [] := by
      rw [← same, balanced 0]
      rfl
    simp at stopped

end Grammar

namespace Parse

open Grammar

variable {tokens : List Token} {start final room : Nat}

theorem takes_of_padded (forward : start ≤ final) (inside : final ≤ tokens.length)
    (taken : Takes ((padded tokens room).drop start) ((padded tokens room).drop final)) :
    Takes (tokens.drop start) (tokens.drop final) := by
  obtain ⟨used, whole, balanced⟩ := taken
  rw [drop_padded_of_le (Nat.le_trans forward inside), drop_padded_of_le inside, padded, padded,
    ← List.append_assoc] at whole
  exact ⟨used, List.append_cancel_right whole, balanced⟩

theorem nested_of_takes (forward : start ≤ final) (inside : final ≤ tokens.length)
    (taken : Takes (tokens.drop start) (tokens.drop final)) : Nested ((tokens.take final).drop start) := by
  obtain ⟨used, whole, balanced, _⟩ := taken
  have parted : (tokens.take final).drop start ++ tokens.drop final = tokens.drop start := by
    rw [← List.drop_append_of_le_length (by rw [List.length_take]; omega), List.take_append_drop]
  rw [List.append_cancel_right (parted.trans whole)]
  exact balanced.nested

def matched (tokens : List Token) (start : Nat) : Nat :=
  tokens.length - (afterClosing 1 (tokens.drop (start + 2))).length - 1

theorem matched_eq {close : Nat} (taken : Takes (tokens.drop (start + 2)) (tokens.drop close))
    (isClose : (next (tokens.drop close)).kind = .rbracket) :
    matched tokens start = close ∧ tokens.drop (close + 1) = afterClosing 1 (tokens.drop (start + 2)) := by
  obtain ⟨bracket, more, left, isClose⟩ := next_kind (by decide) isClose
  rw [left] at taken
  have after := taken.afterClosing_one isClose
  have count := congrArg List.length left
  rw [List.length_drop, List.length_cons] at count
  refine ⟨?_, ?_⟩
  · rw [matched, after]
    omega
  · rw [after, ← List.drop_drop, left]
    rfl

end Parse

open Grammar Parse

/-- Where a name and a bracket stand in tokens without a stop, and the look ahead finds an assignment, the
parser goes on with one; and if it then reads the indices up to a closing bracket, that is the bracket the look
ahead has matched, with the sign of the assignment after it. And whatever a routine of the parser has taken
when it returns is nested. -/
theorem lookahead_matches_brackets {tokens : List Token} (solid : ∀ t ∈ tokens, t.kind ≠ .none) :
    (∀ (start : Nat) (name opening : Token) (ahead : List Token), tokens.drop start = name :: opening :: ahead →
      name.kind = .identifier → opening.kind = .lbracket → assignsElement ahead = true → ∀ n : Nat,
        statement (run n) n (tokens.drop start) = elementAssign (run n) n name.name ahead ∧
        ∀ (indices : List Node) (close : Nat),
          Returns (commaList (run n .statement) n) tokens (start + 2) indices close →
          (next (tokens.drop close)).kind = .rbracket →
            close = matched tokens start ∧ (next (tokens.drop (close + 1))).kind = .assign) ∧
    ∀ (routine : Routine) (n start final : Nat) (nodes : List Node),
      start ≤ tokens.length ∨ 0 < routine.least → routine.begins (tokens.drop start) →
      Returns (routine.parser n) tokens start nodes final →
        final ≤ tokens.length ∧ Nested ((tokens.take final).drop start) := by
  refine ⟨?_, ?_⟩
  · intro start name opening ahead here isName isOpen assigns n
    refine ⟨by rw [here, statement_elementAssign isName isOpen assigns], ?_⟩
    intro indices close ⟨room, reached, accepted⟩ isClose
    have beyond : tokens.drop (start + 2) = ahead := by
      rw [← List.drop_drop, here]
      rfl
    have inside : start + 2 ≤ tokens.length := by
      have count := congrArg List.length here
      rw [List.length_drop, List.length_cons, List.length_cons] at count
      omega
    have consumed := (reads_commaList (c := false) (reads_run n) accepted).consumes
    obtain ⟨forward, within⟩ := cursor_within solid (.inl inside) reached consumed
    have taken := takes_of_padded (by omega) within consumed.takes
    obtain ⟨same, after⟩ := matched_eq taken isClose
    refine ⟨same.symm, ?_⟩
    rw [after, beyond]
    exact beq_iff_eq.mp assigns
  · intro routine n start final nodes called begun ⟨room, reached, accepted⟩
    have consumed := Routine.consumes_of_returns begun accepted
    obtain ⟨forward, within⟩ := cursor_within solid called reached consumed
    have forward : start ≤ final := by omega
    exact ⟨within, nested_of_takes forward within (takes_of_padded forward within consumed.takes)⟩

theorem nested_index_matches_brackets :
    let tokens : List Token := [.identifier "a", .mark .lbracket, .identifier "b", .mark .lbracket,
      .number 1.0, .mark .rbracket, .mark .rbracket, .mark .assign, .number 2.0]
    let index : Node := .named .elementAccess (some "b") [.number (some (.number 1.0))]
    let tree : Node := .named .elementAssign (some "a") [index, .number (some (.number 2.0))]
    (∀ t ∈ tokens, t.kind ≠ .none) ∧ assignsElement (tokens.drop 2) = true ∧
    Returns (commaList (run 9 .statement) 9) tokens 2 [index] 6 ∧ (next (tokens.drop 6)).kind = .rbracket ∧
    6 = matched tokens 0 ∧ (next (tokens.drop 7)).kind = .assign ∧
    Returns (Routine.statement.parser 9) tokens 0 [tree] 9 ∧ Nested tokens := by
  intro tokens index tree
  have solid : ∀ t ∈ tokens, t.kind ≠ .none := by decide
  have assigns : assignsElement (tokens.drop 2) = true := rfl
  have indices : Returns (commaList (run 9 .statement) 9) tokens 2 [index] 6 := ⟨1, by decide, rfl⟩
  have whole : Returns (Routine.statement.parser 9) tokens 0 [tree] 9 := ⟨1, by decide, rfl⟩
  obtain ⟨lookahead, routines⟩ := lookahead_matches_brackets solid
  obtain ⟨same, isAssign⟩ := (lookahead 0 _ _ _ rfl rfl rfl assigns 9).2 [index] 6 indices rfl
  obtain ⟨_, nested⟩ := routines .statement 9 0 9 [tree] (.inl (by decide)) trivial whole
  exact ⟨solid, assigns, indices, rfl, same, isAssign, whole, nested⟩

end Pseudocode
