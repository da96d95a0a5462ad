import Pseudocode.Proofs.Highlight.Pairing

set_option autoImplicit false

namespace Pseudocode

namespace Highlight

open Token

/-- Each unit of each character is shown as part of a comment exactly if the character belongs to one,
and as part of a literal exactly if it belongs to one. -/
def Agrees (line : String) : Prop :=
  ∀ place < line.toList.length, ∀ unit, Text.units (line.toList.take place) ≤ unit →
    unit < Text.units (line.toList.take (place + 1)) →
    (shown (formats line) unit = some .comment ↔ (roles line.toList)[place]? = some .comment) ∧
    (shown (formats line) unit = some .string ↔ (roles line.toList)[place]? = some .literal)

/-- The exact condition for agreement. -/
structure Faithful (text : List Char) : Prop where
  -- A comment begins with a slash: it is no remark.
  slashes : ∀ place, CommentOpens text place → text[place]? = some '/'
  -- No character of a literal is an operator's.
  plain : ∀ (place : Nat) (c : Char), (roles text)[place]? = some .literal → text[place]? = some c →
    c ∉ operatorChars
  -- Every character of a literal lies between two quotation marks that are matched.
  quoted : ∀ place : Nat, (roles text)[place]? = some .literal →
    ∃ mark ∈ quotes, Covered (.quoted mark) text place
  -- Of the rest of the text only operators do.
  bare : ∀ place : Nat, ∀ mark ∈ quotes, Covered (.quoted mark) text place →
    (roles text)[place]? = some .other → operatorAt (text.drop place) = true

section Faithful

variable {line : String} {segments : List Segment} {text : List Char} {place : Nat}

theorem drop_of_getElem? {c : Char} (found : text[place]? = some c) :
    ∃ rest, text.drop place = c :: rest := by
  obtain ⟨inside, rfl⟩ := List.getElem?_eq_some_iff.mp found
  exact ⟨_, List.drop_eq_getElem_cons inside⟩

theorem getElem?_of_drop {c : Char} {rest : List Char} (here : text.drop place = c :: rest) :
    text[place]? = some c := by
  rw [← List.head?_drop, here]
  rfl

theorem agrees_iff_places :
    Agrees line ↔ ∀ place < line.toList.length,
      (Covered .comment line.toList place ↔ (roles line.toList)[place]? = some .comment) ∧
      (styleBy rules line.toList place = some .string ↔
        (roles line.toList)[place]? = some .literal) := by
  constructor
  · intro agrees place inside
    -- Every character has a unit, its first.
    have units := agrees place inside _ (Nat.le_refl _) (units_take_lt inside)
    rwa [shown_formats (Nat.le_refl _) (units_take_lt inside), styleBy_comment_iff] at units
  · intro places place inside unit first last
    rw [shown_formats first last, styleBy_comment_iff]
    exact places place inside

theorem slashesAt_of_comment (row : Row text segments) (faithful : Faithful text)
    (isComment : (roles text)[place]? = some .comment) : ∃ start ≤ place, SlashesAt text start := by
  obtain ⟨first, le, opens⟩ := exists_opening isComment
  refine ⟨first, le, ?_⟩
  obtain ⟨rest, slash⟩ := drop_of_getElem? (faithful.slashes first opens)
  obtain ⟨body, later, -, comment, here⟩ := row.exists_comment opens
  cases comment with
  | slashes => exact ⟨_, here⟩
  | remark remark =>
    obtain ⟨d, more, rfl, letter⟩ := remark_opens remark
    obtain rfl : d = '/' := (List.cons.inj (here.symm.trans slash)).1
    exact absurd letter (by decide)

theorem comment_of_slashesAt (row : Row text segments) (slashes : SlashesAt text place)
    (noLiteral : (roles text)[place]? ≠ some .literal) : (roles text)[place]? = some .comment := by
  obtain ⟨rest, here⟩ := slashes
  have inside : place < text.length := by
    have length := congrArg List.length here
    simp only [List.length_drop, List.length_cons] at length
    omega
  obtain ⟨s, -, start, later, stands, begins, within⟩ := row.exists_stands inside
  obtain ⟨offset, rfl⟩ := Nat.exists_eq_add_of_le begins
  have joined : s.text.drop offset ++ later = '/' :: '/' :: rest := by
    rw [← here, ← List.drop_drop, stands.here, List.drop_append_of_le_length (by omega)]
  have slash : '/' ∈ s.text := by
    have inner : offset < s.text.length := by omega
    exact List.mem_of_getElem? ((stands.getElem? inner).symm.trans (getElem?_of_drop here))
  rw [stands.roles _ begins within] at noLiteral ⊢
  cases s with
  | comment => rfl
  | blank c =>
    obtain rfl : '/' = c := by simpa [Segment.text] using slash
    have blank : Text.isBlank '/' = true := stands.valid
    exact absurd blank (by decide)
  | lexeme body token =>
    have plain : token.kind ≠ .string := by
      intro isString
      exact noLiteral (by rw [Segment.role, if_pos isString])
    have valid : Lexeme body token := stands.valid
    obtain ⟨rfl, rfl⟩ := valid.eq_slash plain slash
    obtain rfl : offset = 0 := by simpa [Segment.text] using within
    -- The second slash would have lengthened the first.
    obtain rfl : later = '/' :: rest := (List.cons.inj joined).2
    exact absurd (stands.stops '/' rfl) (by decide)

theorem operatorAt_literal (row : Row text segments) (faithful : Faithful text)
    (isLiteral : (roles text)[place]? = some .literal) : operatorAt (text.drop place) = false := by
  apply Bool.eq_false_iff.mpr
  intro operator
  obtain ⟨c, rest, here⟩ : ∃ c rest, text.drop place = c :: rest :=
    ⟨_, _, List.drop_eq_getElem_cons (row.inside isLiteral)⟩
  rw [here] at operator
  rcases operatorAt_cases operator with listed | ⟨rfl, more, rfl⟩
  · exact faithful.plain place c isLiteral (getElem?_of_drop here) listed
  · obtain ⟨s, -, start, later, stands, begins, within, role⟩ := row.exists_stands_of_role isLiteral
    have next : text.drop (place + 1) = '=' :: more := by
      rw [← List.drop_drop, here]
      rfl
    by_cases inner : place + 1 < start + s.text.length
    · have same : (roles text)[place + 1]? = some .literal := by
        rw [stands.roles _ (by omega) inner, role]
      exact faithful.plain _ '=' same (getElem?_of_drop next) (by decide)
    · -- The exclamation mark would end the literal.
      obtain ⟨offset, rfl⟩ := Nat.exists_eq_add_of_le begins
      have last : offset + 1 = s.text.length := by omega
      rcases stands.literal_ends role with rfl | ⟨mark, quoted, ends⟩
      · rw [Nat.add_assoc, last, ← List.drop_drop, stands.here, List.append_nil, List.drop_length] at next
        cases next
      · rw [List.getLast?_eq_getElem?, ← last, Nat.add_sub_cancel, ← stands.getElem? (by omega),
          getElem?_of_drop here] at ends
        cases ends
        exact absurd quoted (by decide)

theorem Faithful.comment_iff (faithful : Faithful text) (row : Row text segments) (inLine : '\n' ∉ text) :
    Covered .comment text place ↔ (roles text)[place]? = some .comment := by
  rw [covered_comment_iff inLine]
  constructor
  · rintro ⟨inside, start, le, slashes⟩
    have noLiteral : (roles text)[start]? ≠ some .literal := by
      intro isLiteral
      obtain ⟨rest, here⟩ := slashes
      exact faithful.plain start '/' isLiteral (getElem?_of_drop here) (by decide)
    exact row.comment_goes_on inLine (comment_of_slashesAt row slashes noLiteral) le inside
  · intro isComment
    exact ⟨row.inside isComment, slashesAt_of_comment row faithful isComment⟩

theorem Faithful.string_iff (faithful : Faithful text) (row : Row text segments) (inLine : '\n' ∉ text)
    (inside : place < text.length) :
    styleBy rules text place = some .string ↔ (roles text)[place]? = some .literal := by
  rw [styleBy_string_iff, faithful.comment_iff row inLine]
  constructor
  · rintro ⟨noComment, noOperator, mark, quoted, covered⟩
    obtain ⟨found, role⟩ : ∃ found, (roles text)[place]? = some found :=
      ⟨_, List.getElem?_eq_getElem (by rwa [row.length_roles])⟩
    cases found with
    | comment => exact absurd role noComment
    | literal => exact role
    | other =>
      -- The marks match around an operator, which goes over them.
      rw [faithful.bare place mark quoted covered role] at noOperator
      cases noOperator
  · intro isLiteral
    refine ⟨?_, operatorAt_literal row faithful isLiteral, faithful.quoted place isLiteral⟩
    rw [isLiteral]
    nofun

theorem slash_of_covered (row : Row text segments) (inLine : '\n' ∉ text)
    (agrees : ∀ place < text.length, Covered .comment text place →
      (roles text)[place]? = some .comment)
    (covered : Covered .comment text place) (opens : CommentOpens text place) :
    text[place]? = some '/' := by
  obtain ⟨inside, start, le, rest, slashes⟩ := (covered_comment_iff inLine).mp covered
  have begun : (roles text)[start]? = some .comment := by
    refine agrees start (by omega) ((covered_comment_iff inLine).mpr ?_)
    exact ⟨by omega, start, Nat.le_refl _, rest, slashes⟩
  obtain rfl : start = place := by
    apply Nat.le_antisymm le
    apply Nat.le_of_not_lt
    intro before
    exact opens.first (place - 1) (by omega) (row.comment_goes_on inLine begun (by omega) (by omega))
  exact getElem?_of_drop slashes

theorem agrees_iff (row : Row line.toList segments) (inLine : '\n' ∉ line.toList) :
    Agrees line ↔ Faithful line.toList := by
  rw [agrees_iff_places]
  constructor
  · intro agrees
    refine ⟨fun place opens => ?_, fun place c isLiteral found listed => ?_,
      fun place isLiteral => ?_, fun place mark quoted covered isOther => ?_⟩
    · exact slash_of_covered row inLine (fun place inside => (agrees place inside).1.mp)
        ((agrees place (row.inside opens.here)).1.mpr opens.here) opens
    · have styled := (agrees place (row.inside isLiteral)).2.mpr isLiteral
      obtain ⟨_, noOperator, _⟩ := styleBy_string_iff.mp styled
      obtain ⟨rest, here⟩ := drop_of_getElem? found
      rw [here, operatorAt_of_mem listed] at noOperator
      cases noOperator
    · have styled := (agrees place (row.inside isLiteral)).2.mpr isLiteral
      exact (styleBy_string_iff.mp styled).2.2
    · -- Without an operator over it, the literal's style would be seen.
      rw [← Bool.not_eq_false]
      intro noOperator
      obtain ⟨comment, string⟩ := agrees place (row.inside isOther)
      rw [isOther] at comment string
      cases string.mp (styleBy_string_iff.mpr ⟨nofun ∘ comment.mp, noOperator, mark, quoted, covered⟩)
  · intro faithful place inside
    exact ⟨faithful.comment_iff row inLine, faithful.string_iff row inLine inside⟩

end Faithful

theorem Tidy.faithful {text : List Char} (tidy : Tidy text) (inLine : '\n' ∉ text) : Faithful text := by
  obtain ⟨segments, row, tidy⟩ := tidy
  refine ⟨fun place opens => ?_, fun place c isLiteral found => ?_,
    fun place isLiteral => ?_, fun place mark quoted covered isOther => ?_⟩
  · obtain ⟨body, later, member, -, here⟩ := row.exists_comment opens
    obtain ⟨more, rfl⟩ := List.head?_eq_some_iff.mp (tidy _ member)
    exact getElem?_of_drop here
  · obtain ⟨s, member, start, later, stands, begins, within, role⟩ := row.exists_stands_of_role isLiteral
    obtain ⟨quote, body, value, quoted, -, same, plain⟩ := exists_literal_of_tidy (tidy s member) role
    obtain ⟨offset, rfl⟩ := Nat.exists_eq_add_of_le begins
    have inner : offset < s.text.length := by omega
    have held : c ∈ s.text := List.mem_of_getElem? ((stands.getElem? inner).symm.trans found)
    have marks : quotes.all (fun quote => !operatorChars.contains quote) = true := by decide
    have plainMark : quote ∉ operatorChars := by simpa using List.all_eq_true.mp marks quote quoted
    simp only [same, List.mem_cons, List.mem_append, List.not_mem_nil, or_false] at held
    rcases held with rfl | inBody | rfl
    · exact plainMark
    · exact (plain c inBody).1
    · exact plainMark
  · obtain ⟨mark, quoted, covered⟩ := covered_of_literal row tidy inLine isLiteral
    obtain ⟨span, member, covers⟩ := covered 0 none
    exact ⟨mark, quoted, span, member, by rwa [Nat.zero_add] at covers⟩
  · obtain ⟨span, member, covers⟩ := covered
    rw [← Nat.zero_add place] at covers
    exact absurd isOther (role_of_covered row tidy inLine quoted member covers)

/-- On a line that can be read, the editor agrees with the scanner exactly if comments are no remarks,
literals hold no operators, and matched quotation marks have all literals and nothing else between them,
operators apart. On a tidy line it does. -/
theorem highlighting_agrees_iff (line : String) (tokens : List Token) (read : scan line = .ok tokens)
    (inLine : '\n' ∉ line.toList) :
    (Agrees line ↔ Faithful line.toList) ∧ (Tidy line.toList → Agrees line) := by
  obtain ⟨segments, row⟩ := exists_row read
  refine ⟨agrees_iff row inLine, fun tidy => ?_⟩
  exact (agrees_iff row inLine).mpr (tidy.faithful inLine)

def commentedLine : String := "s = \"a\\\"b\" // it's"

def commentedSegments : List Segment :=
  [.lexeme ['s'] (identifier "s"), .blank ' ', .lexeme ['='] (mark .assign), .blank ' ',
   .lexeme "\"a\\\"b\"".toList (string "a\"b"), .blank ' ', .comment "// it's".toList]

theorem tidy_commentedLine : Tidy commentedLine.toList := by
  have spelled : Spells '"' ['a', '\\', '"', 'b'] ['a', '"', 'b'] :=
    .plain (by decide) (by decide) (.escape '"' (.plain (by decide) (by decide) .nil))
  refine ⟨commentedSegments, ⟨rfl, ?_, ?_⟩, ?_⟩
  · simp only [commentedSegments, List.mem_cons, List.not_mem_nil, or_false, forall_eq_or_imp, forall_eq]
    refine ⟨?_, rfl, ?_, rfl, ?_, rfl, ?_⟩
    · exact .identifier (by decide) nofun (by decide)
    · exact .sign (by decide)
    · exact .literal (by decide) spelled
    · exact .slashes (by decide)
  · refine ⟨?_, ?_, ?_, ?_, ?_, ?_, nofun, trivial⟩ <;>
      · rintro _ ⟨⟩
        rfl
  · simp only [commentedSegments, List.mem_cons, List.not_mem_nil, or_false, forall_eq_or_imp, forall_eq]
    refine ⟨nofun, trivial, nofun, trivial, fun _ => ?_, trivial, rfl⟩
    exact ⟨'"', _, _, by decide, spelled, rfl, by simp [operatorChars, quotes]⟩

theorem commented_literal_agrees :
    (∃ tokens, scan commentedLine = .ok tokens) ∧ '\n' ∉ commentedLine.toList ∧ Agrees commentedLine := by
  have read : ∃ tokens, scan commentedLine = .ok tokens := by
    rw [scan_eq_within]
    exact ⟨_, rfl⟩
  have inLine : '\n' ∉ commentedLine.toList := by decide
  obtain ⟨tokens, scanned⟩ := read
  exact ⟨⟨tokens, scanned⟩, inLine,
    (highlighting_agrees_iff commentedLine tokens scanned inLine).2 tidy_commentedLine⟩

/-- A minus within a literal is shown as an operator. -/
theorem operator_in_literal_disagrees :
    (∃ tokens, scan "\"a-b\"" = .ok tokens) ∧ ¬ Agrees "\"a-b\"" := by
  constructor
  · rw [scan_eq_within]
    exact ⟨_, rfl⟩
  · intro agrees
    have read : (roles "\"a-b\"".toList)[2]? = some .literal := by
      have cut : scanStep '"' ['a', '-', 'b', '"'] = .ok (some (string "a-b"), []) := rfl
      exact (congrArg (·[2]?) (roles_cons cut)).trans rfl
    have shownAs : shown (formats "\"a-b\"") 2 = some .operator := by decide
    have literal := (agrees 2 (by decide) 2 (by decide) (by decide)).2.mpr read
    rw [shownAs] at literal
    cases literal

end Highlight

end Pseudocode
