import Pseudocode.Proofs.Highlight.Roles
import Pseudocode.Proofs.Highlight.Spans

set_option autoImplicit false

namespace Pseudocode

open Token

/-- A comment is no remark. A literal is closed and holds neither an operator's character nor the other
quotation mark. -/
def Token.Segment.Tidy : Segment → Prop
  | .blank _ => True
  | .comment text => text.head? = some '/'
  | .lexeme text token => token.kind = .string → ∃ quote body value, quote ∈ quotes ∧
      Spells quote body value ∧ text = quote :: (body ++ [quote]) ∧
      ∀ c ∈ body, c ∉ Highlight.operatorChars ∧ (c ∈ quotes → c = quote)

namespace Highlight

def Tidy (text : List Char) : Prop :=
  ∃ segments, Row text segments ∧ ∀ s ∈ segments, s.Tidy

section Literals

variable {mark : Char} {run text value : List Char}

theorem literalLength_closed (notMark : mark ≠ '\\') (spelled : Spells mark text value)
    (inLine : '\n' ∉ text) (rest : List Char) :
    literalLength mark (text ++ mark :: rest) = some (text.length + 1) := by
  induction spelled with
  | nil =>
    unfold literalLength
    simp_all
  | plain other noEscape _ ih =>
    unfold literalLength
    simp_all
  | escape c _ ih =>
    simp only [List.mem_cons, not_or] at inLine
    simp [literalLength, Ne.symm inLine.2.1, ih inLine.2.2]

theorem spansFrom_skip (absent : mark ∉ run) (rest : List Char) (position : Nat) (before : Option Char) :
    ∃ previous, spansFrom (.quoted mark) (run ++ rest) position before 0 =
      spansFrom (.quoted mark) rest (position + run.length) previous 0 := by
  induction run generalizing position before with
  | nil => exact ⟨before, rfl⟩
  | cons c run ih =>
    rw [List.mem_cons, not_or] at absent
    obtain ⟨previous, same⟩ := ih absent.2 (position + 1) (some c)
    have unmatched : (Pattern.quoted mark).length? before (c :: (run ++ rest)) = none := by
      simp [Pattern.length?, Ne.symm absent.1]
    refine ⟨previous, ?_⟩
    rw [List.cons_append, spansFrom, unmatched, List.length_cons, Nat.add_comm run.length, ← Nat.add_assoc]
    exact same

theorem spansFrom_jump (pattern : Pattern) (run rest : List Char) (position : Nat) (before : Option Char) :
    ∃ previous, spansFrom pattern (run ++ rest) position before run.length =
      spansFrom pattern rest (position + run.length) previous 0 := by
  induction run generalizing position before with
  | nil => exact ⟨before, rfl⟩
  | cons c run ih =>
    obtain ⟨previous, same⟩ := ih (position + 1) (some c)
    refine ⟨previous, ?_⟩
    rw [List.cons_append, List.length_cons, spansFrom, same, Nat.add_right_comm]
    rfl

theorem spansFrom_literal (quoted : mark ∈ quotes) (spelled : Spells mark text value)
    (inLine : '\n' ∉ text) (rest : List Char) (position : Nat) (before : Option Char) :
    ∃ previous, spansFrom (.quoted mark) (mark :: (text ++ mark :: rest)) position before 0 =
      ⟨position, text.length + 2⟩ ::
        spansFrom (.quoted mark) rest (position + (text.length + 2)) previous 0 := by
  have found : (Pattern.quoted mark).length? before (mark :: (text ++ mark :: rest)) =
      some (text.length + 2) := by
    simp [Pattern.length?, literalLength_closed (ne_escape_of_mem quoted) spelled inLine]
  have length : (text ++ [mark]).length = text.length + 1 := by simp
  obtain ⟨previous, same⟩ :=
    spansFrom_jump (.quoted mark) (text ++ [mark]) rest (position + 1) (some mark)
  rw [length, List.append_assoc, List.singleton_append, Nat.add_assoc, Nat.add_comm 1] at same
  refine ⟨previous, ?_⟩
  rw [spansFrom, found]
  exact congrArg _ same

end Literals

section Tidy

variable {s : Segment} {segments : List Segment} {mark : Char} {text rest : List Char} {place : Nat}

theorem not_mem_of_other (valid : s.Valid) (isOther : s.role = .other) (quoted : mark ∈ quotes) :
    mark ∉ s.text := by
  intro member
  cases s with
  | comment => cases isOther
  | blank c =>
    have visible : quotes.all (fun mark => !Text.isBlank mark) = true := by decide
    obtain rfl := List.mem_singleton.mp member
    have blank : Text.isBlank mark = true := valid
    simpa [blank] using List.all_eq_true.mp visible mark quoted
  | lexeme body token =>
    have lexeme : Lexeme body token := valid
    refine lexeme.not_quote (fun isString => ?_) member quoted
    rw [Segment.role, if_pos isString] at isOther
    cases isOther

theorem exists_literal_of_tidy (tidy : s.Tidy) (isLiteral : s.role = .literal) :
    ∃ quote body value, quote ∈ quotes ∧ Spells quote body value ∧
      s.text = quote :: (body ++ [quote]) ∧
      ∀ c ∈ body, c ∉ operatorChars ∧ (c ∈ quotes → c = quote) := by
  obtain ⟨body, token, rfl, isString⟩ := Segment.role_eq_literal isLiteral
  exact tidy isString

theorem spansFrom_segment (valid : s.Valid) (tidy : s.Tidy) (inLine : '\n' ∉ s.text)
    (noComment : s.role ≠ .comment) (quoted : mark ∈ quotes) (rest : List Char) (position : Nat)
    (before : Option Char) :
    ∃ previous, spansFrom (.quoted mark) (s.text ++ rest) position before 0 =
      (if s.role = .literal ∧ s.text.head? = some mark then [⟨position, s.text.length⟩] else []) ++
        spansFrom (.quoted mark) rest (position + s.text.length) previous 0 := by
  match role : s.role with
  | .comment => exact absurd role noComment
  | .other =>
    rw [if_neg (by simp)]
    exact spansFrom_skip (not_mem_of_other valid role quoted) rest position before
  | .literal =>
    obtain ⟨quote, body, value, isQuote, spelled, same, plain⟩ := exists_literal_of_tidy tidy role
    rw [same] at inLine ⊢
    by_cases own : quote = mark
    · subst own
      have inBody : '\n' ∉ body := fun member => inLine (by simp [member])
      obtain ⟨previous, spanned⟩ := spansFrom_literal isQuote spelled inBody rest position before
      refine ⟨previous, ?_⟩
      rw [if_pos ⟨rfl, rfl⟩]
      simpa using spanned
    · have absent : mark ∉ quote :: (body ++ [quote]) := by
        intro member
        simp only [List.mem_cons, List.mem_append, List.not_mem_nil, or_false] at member
        rcases member with rfl | inside | rfl
        · exact own rfl
        · exact own ((plain mark inside).2 quoted).symm
        · exact own rfl
      rw [if_neg (by simp [own])]
      exact spansFrom_skip absent rest position before

theorem role_of_first {first : Segment} (cuts : first.Cuts text rest) (inside : place < first.text.length) :
    (roles text)[place]? = some first.role :=
  cuts.stands.roles place (Nat.zero_le _) (by omega)

theorem role_of_rest {first : Segment} (cuts : first.Cuts text rest) (beyond : first.text.length ≤ place) :
    (roles text)[place]? = (roles rest)[place - first.text.length]? := by
  rw [cuts.roles, List.getElem?_append_right (by simpa using beyond), List.length_replicate]

theorem spansFrom_row {first : Segment} {role : Token.Role} (row : Row text (first :: segments))
    (tidy : first.Tidy) (inLine : '\n' ∉ text) (found : (roles text)[place]? = some role)
    (noComment : role ≠ .comment) :
    ∃ rest, first.Cuts text rest ∧ Row rest segments ∧ '\n' ∉ rest ∧
      ∀ mark ∈ quotes, ∀ position before, ∃ previous,
        spansFrom (.quoted mark) text position before 0 =
          (if first.role = .literal ∧ first.text.head? = some mark
            then [⟨position, first.text.length⟩] else []) ++
          spansFrom (.quoted mark) rest (position + first.text.length) previous 0 := by
  have inside := row.inside found
  obtain ⟨rest, cuts, further⟩ := row.cons
  have firstRole : first.role ≠ .comment := by
    -- A comment would go on to the end of the line.
    intro isComment
    have ends := cuts.stands.comment_ends inLine isComment
    rw [← cuts.joined, ends, List.append_nil] at inside
    rw [role_of_first cuts inside, isComment] at found
    exact noComment (Option.some.inj found).symm
  refine ⟨rest, cuts, further, ?_, fun mark quoted position before => ?_⟩
  · intro member
    exact inLine (cuts.joined ▸ List.mem_append_right _ member)
  · have inFirst : '\n' ∉ first.text := fun member => inLine (cuts.joined ▸ List.mem_append_left _ member)
    rw [← cuts.joined]
    exact spansFrom_segment cuts.valid tidy inFirst firstRole quoted rest position before

theorem covered_of_literal (row : Row text segments) (tidy : ∀ s ∈ segments, s.Tidy)
    (inLine : '\n' ∉ text) (isLiteral : (roles text)[place]? = some .literal) :
    ∃ mark ∈ quotes, ∀ position before, ∃ span ∈ spansFrom (.quoted mark) text position before 0,
      span.covers (position + place) = true := by
  -- The mark is that of the literal's own segment, whatever comes before it.
  induction segments generalizing text place with
  | nil =>
    obtain ⟨rfl, -, -⟩ := row
    rw [List.flatMap_nil, roles_nil] at isLiteral
    cases isLiteral
  | cons first segments ih =>
    have tidyFirst := tidy first List.mem_cons_self
    obtain ⟨rest, cuts, further, inRest, spanned⟩ := spansFrom_row row tidyFirst inLine isLiteral nofun
    by_cases within : place < first.text.length
    · rw [role_of_first cuts within, Option.some.injEq] at isLiteral
      obtain ⟨quote, body, _, quoted, _, same, _⟩ := exists_literal_of_tidy tidyFirst isLiteral
      refine ⟨quote, quoted, fun position before => ?_⟩
      obtain ⟨previous, spanned⟩ := spanned quote quoted position before
      rw [spanned, if_pos ⟨isLiteral, by rw [same]; rfl⟩]
      refine ⟨_, List.mem_cons_self, ?_⟩
      rw [Span.covers_iff]
      dsimp only
      omega
    · rw [role_of_rest cuts (Nat.le_of_not_lt within)] at isLiteral
      obtain ⟨mark, quoted, covered⟩ :=
        ih further (fun s member => tidy s (List.mem_cons_of_mem _ member)) inRest isLiteral
      refine ⟨mark, quoted, fun position before => ?_⟩
      obtain ⟨previous, spanned⟩ := spanned mark quoted position before
      obtain ⟨span, member, covers⟩ := covered (position + first.text.length) previous
      rw [spanned]
      refine ⟨span, List.mem_append_right _ member, ?_⟩
      rwa [Nat.add_assoc, Nat.add_sub_cancel' (Nat.le_of_not_lt within)] at covers

theorem role_of_covered {span : Span} {position : Nat} {before : Option Char} (row : Row text segments)
    (tidy : ∀ s ∈ segments, s.Tidy) (inLine : '\n' ∉ text) (quoted : mark ∈ quotes)
    (member : span ∈ spansFrom (.quoted mark) text position before 0)
    (covers : span.covers (position + place) = true) : (roles text)[place]? ≠ some .other := by
  induction segments generalizing text place position before with
  | nil =>
    obtain ⟨rfl, -, -⟩ := row
    cases member
  | cons first segments ih =>
    intro isOther
    have tidyFirst := tidy first List.mem_cons_self
    obtain ⟨rest, cuts, further, inRest, spanned⟩ := spansFrom_row row tidyFirst inLine isOther nofun
    obtain ⟨previous, spanned⟩ := spanned mark quoted position before
    rw [spanned, List.mem_append] at member
    rw [Span.covers_iff] at covers
    rcases member with own | later
    · split at own
      next literal =>
        obtain rfl := List.mem_singleton.mp own
        dsimp only at covers
        rw [role_of_first cuts (by omega), literal.1] at isOther
        cases isOther
      next => cases own
    · -- A later span covers nothing of the first segment.
      obtain ⟨offset, _, starts, _⟩ := match_of_mem_spansFrom later
      rw [role_of_rest cuts (by omega)] at isOther
      refine ih further (fun s member => tidy s (List.mem_cons_of_mem _ member)) inRest later ?_ isOther
      rw [Span.covers_iff]
      omega

end Tidy

end Highlight

end Pseudocode
