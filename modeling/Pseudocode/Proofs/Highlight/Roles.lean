import Pseudocode.Proofs.Segment

set_option autoImplicit false

namespace Pseudocode

namespace Token

inductive Role where
  | comment
  | literal
  | other
  deriving Repr, DecidableEq

/-- The role of what a cut takes off, by its first character and its token. -/
def roleOf (c : Char) : Option Token → Role
  | some token => if token.kind = .string then .literal else .other
  | none => if Text.isBlank c then .other else .comment

def roles : List Char → List Role
  | [] => []
  | c :: rest =>
    match h : scanStep c rest with
    | .error _ => []
    | .ok (found, after) =>
      have : after.length ≤ rest.length := scanStep_length h
      List.replicate (rest.length + 1 - after.length) (roleOf c found) ++ roles after
termination_by text => text.length
decreasing_by simp only [List.length_cons]; omega

theorem roles_nil : roles [] = [] := by
  rw [roles]

theorem roles_cons {c : Char} {rest after : List Char} {found : Option Token}
    (cut : scanStep c rest = .ok (found, after)) :
    roles (c :: rest) =
      List.replicate (rest.length + 1 - after.length) (roleOf c found) ++ roles after := by
  rw [roles]
  split
  next h => simp [cut] at h
  next found' after' h =>
    obtain ⟨rfl, rfl⟩ : found = found' ∧ after = after' := by simpa [cut] using h
    rfl

theorem remark_opens {word : List Char} (remark : word.map Char.toUpper = ['R', 'E', 'M']) :
    ∃ c more, word = c :: more ∧ opensWord c = true := by
  cases word with
  | nil => cases remark
  | cons c more => exact ⟨c, more, rfl, (remark_word remark List.mem_cons_self).1⟩

namespace Segment

def role : Segment → Role
  | .blank _ => .other
  | .comment _ => .comment
  | .lexeme _ token => if token.kind = .string then .literal else .other

structure Stands (s : Segment) (text : List Char) (start : Nat) (later : List Char) : Prop where
  valid : s.Valid
  here : text.drop start = s.text ++ later
  stops : ∀ c ∈ later.head?, s.takes c = false
  roles : ∀ place, start ≤ place → place < start + s.text.length → (roles text)[place]? = some s.role

variable {s : Segment} {text rest later : List Char} {start place : Nat}

theorem role_eq_comment (isComment : s.role = .comment) : ∃ body, s = .comment body := by
  cases s with
  | blank => cases isComment
  | comment body => exact ⟨body, rfl⟩
  | lexeme _ token =>
    unfold role at isComment
    dsimp only at isComment
    split at isComment <;> cases isComment

theorem role_eq_literal (isLiteral : s.role = .literal) :
    ∃ body token, s = .lexeme body token ∧ token.kind = .string := by
  cases s with
  | blank => cases isLiteral
  | comment => cases isLiteral
  | lexeme body token =>
    unfold role at isLiteral
    dsimp only at isLiteral
    split at isLiteral
    next isString => exact ⟨body, token, rfl, isString⟩
    next => cases isLiteral

theorem roleOf_eq (valid : s.Valid) {c : Char} {more : List Char} (begins : s.text = c :: more) :
    roleOf c s.token? = s.role := by
  cases s with
  | blank d =>
    cases begins
    exact if_pos valid
  | lexeme => rfl
  | comment body =>
    have noBlank : Text.isBlank c = false := by
      cases valid with
      | slashes =>
        cases begins
        decide
      | remark remark =>
        obtain ⟨d, more, rfl, opens⟩ := remark_opens remark
        cases begins
        exact (opensWord_iff.mp opens).2.1
    simp [roleOf, token?, role, noBlank]

theorem Cuts.roles (cuts : s.Cuts text rest) :
    Token.roles text = List.replicate s.text.length s.role ++ Token.roles rest := by
  obtain ⟨c, more, rfl, cut⟩ := cuts.step
  obtain ⟨valid, _, joined⟩ := cuts
  obtain ⟨d, tail, begins⟩ : ∃ d tail, s.text = d :: tail := by
    cases empty : s.text with
    | nil =>
      -- A cut takes at least one character.
      have shorter := scanStep_length cut
      rw [empty, List.nil_append] at joined
      rw [joined, List.length_cons] at shorter
      omega
    | cons d tail => exact ⟨d, tail, rfl⟩
  have first : d = c := by
    rw [begins] at joined
    exact (List.cons.inj joined).1
  have length : more.length + 1 - rest.length = s.text.length := by
    have whole := congrArg List.length joined
    rw [List.length_append, List.length_cons] at whole
    omega
  rw [roles_cons cut, length, roleOf_eq valid (first ▸ begins)]

theorem Cuts.stands (cuts : s.Cuts text rest) : s.Stands text 0 rest where
  valid := cuts.valid
  here := cuts.joined.symm
  stops := cuts.stops
  roles place _ inside := by
    rw [Nat.zero_add] at inside
    rw [cuts.roles, List.getElem?_append_left (by simpa using inside), List.getElem?_replicate,
      if_pos inside]

theorem Stands.after (stands : s.Stands rest start later) {first : Segment} (cuts : first.Cuts text rest) :
    s.Stands text (first.text.length + start) later where
  valid := stands.valid
  here := by rw [← cuts.joined, ← List.drop_drop, List.drop_left, stands.here]
  stops := stands.stops
  roles place begins inside := by
    rw [cuts.roles, List.getElem?_append_right (by simp; omega), List.length_replicate]
    exact stands.roles _ (by omega) (by omega)

theorem Stands.getElem? (stands : s.Stands text start later) {offset : Nat}
    (inside : offset < s.text.length) : text[start + offset]? = s.text[offset]? := by
  rw [← List.getElem?_drop, stands.here, List.getElem?_append_left inside]

end Segment

structure CommentOpens (text : List Char) (place : Nat) : Prop where
  here : (roles text)[place]? = some .comment
  first : ∀ previous, place = previous + 1 → (roles text)[previous]? ≠ some .comment

structure Row (text : List Char) (segments : List Segment) : Prop where
  joined : segments.flatMap Segment.text = text
  valid : ∀ s ∈ segments, s.Valid
  longest : Longest segments

section Places

variable {s : Segment} {segments : List Segment} {text later : List Char} {start place : Nat}

theorem Row.cons (row : Row text (s :: segments)) :
    ∃ rest, s.Cuts text rest ∧ Row rest segments := by
  obtain ⟨rfl, valid, stops, longest⟩ := row
  exact ⟨_, ⟨valid s List.mem_cons_self, stops, rfl⟩,
    rfl, fun s member => valid s (List.mem_cons_of_mem _ member), longest⟩

theorem Row.exists_stands (row : Row text segments) (inside : place < text.length) :
    ∃ s ∈ segments, ∃ start later, s.Stands text start later ∧ start ≤ place ∧
      place < start + s.text.length := by
  induction segments generalizing text place with
  | nil =>
    obtain ⟨rfl, -, -⟩ := row
    cases inside
  | cons first segments ih =>
    obtain ⟨rest, cuts, row⟩ := row.cons
    by_cases within : place < first.text.length
    · exact ⟨first, List.mem_cons_self, 0, rest, cuts.stands, Nat.zero_le _, by omega⟩
    · have length := congrArg List.length cuts.joined
      rw [List.length_append] at length
      have further : place - first.text.length < rest.length := by omega
      obtain ⟨s, member, start, later, stands, begins, inside⟩ := ih row further
      exact ⟨s, List.mem_cons_of_mem _ member, _, later, stands.after cuts, by omega, by omega⟩

theorem exists_row {tokens : List Token} (read : scanChars text = .ok tokens) :
    ∃ segments, Row text segments := by
  obtain ⟨segments, joined, valid, longest, _⟩ := exists_segments read
  exact ⟨segments, joined, valid, longest⟩

theorem Row.length_roles (row : Row text segments) : (roles text).length = text.length := by
  induction segments generalizing text with
  | nil =>
    obtain ⟨rfl, -, -⟩ := row
    rw [List.flatMap_nil, roles_nil]
    rfl
  | cons s segments ih =>
    obtain ⟨rest, cuts, row⟩ := row.cons
    rw [cuts.roles, ← cuts.joined, List.length_append, List.length_append, List.length_replicate, ih row]

theorem Row.inside {role : Role} (row : Row text segments) (found : (roles text)[place]? = some role) :
    place < text.length := by
  obtain ⟨inside, _⟩ := List.getElem?_eq_some_iff.mp found
  rwa [row.length_roles] at inside

theorem Row.exists_stands_of_role {role : Role} (row : Row text segments)
    (found : (roles text)[place]? = some role) :
    ∃ s ∈ segments, ∃ start later, s.Stands text start later ∧ start ≤ place ∧
      place < start + s.text.length ∧ s.role = role := by
  obtain ⟨s, member, start, later, stands, begins, within⟩ := row.exists_stands (row.inside found)
  have same := stands.roles place begins within
  rw [found] at same
  exact ⟨s, member, start, later, stands, begins, within, (Option.some.inj same).symm⟩

theorem Segment.Stands.comment_ends (stands : s.Stands text start later) (inLine : '\n' ∉ text)
    (isComment : s.role = .comment) : later = [] := by
  obtain ⟨body, rfl⟩ := Segment.role_eq_comment isComment
  cases later with
  | nil => rfl
  | cons c later =>
    obtain rfl : c = '\n' := by simpa [Segment.takes] using stands.stops c rfl
    have member : '\n' ∈ text.drop start := by simp [stands.here]
    exact absurd (List.mem_of_mem_drop member) inLine

theorem Row.comment_goes_on {further : Nat} (row : Row text segments) (inLine : '\n' ∉ text)
    (found : (roles text)[place]? = some .comment) (le : place ≤ further)
    (inside : further < text.length) : (roles text)[further]? = some .comment := by
  obtain ⟨s, -, start, later, stands, begins, within, isComment⟩ := row.exists_stands_of_role found
  have length := congrArg List.length stands.here
  rw [stands.comment_ends inLine isComment, List.append_nil, List.length_drop] at length
  rw [stands.roles further (by omega) (by omega), isComment]

theorem exists_opening (found : (roles text)[place]? = some .comment) :
    ∃ first ≤ place, CommentOpens text first := by
  induction place with
  | zero => exact ⟨0, Nat.le_refl _, found, nofun⟩
  | succ place ih =>
    by_cases goesOn : (roles text)[place]? = some .comment
    · obtain ⟨first, le, opens⟩ := ih goesOn
      exact ⟨first, Nat.le_succ_of_le le, opens⟩
    · refine ⟨place + 1, Nat.le_refl _, found, fun previous same => ?_⟩
      obtain rfl := Nat.succ.inj same
      exact goesOn

theorem Row.exists_comment (row : Row text segments) (opens : CommentOpens text place) :
    ∃ body later, .comment body ∈ segments ∧ Comment body ∧ text.drop place = body ++ later := by
  obtain ⟨s, member, start, later, stands, begins, within, role⟩ :=
    row.exists_stands_of_role opens.here
  obtain rfl : start = place := by
    apply Nat.le_antisymm begins
    apply Nat.le_of_not_lt
    intro before
    refine opens.first (place - 1) (by omega) ?_
    rw [stands.roles (place - 1) (by omega) (by omega), role]
  obtain ⟨body, rfl⟩ := Segment.role_eq_comment role
  exact ⟨body, later, member, stands.valid, stands.here⟩

end Places

section Characters

variable {c : Char} {text : List Char} {token : Token}

theorem Lexeme.char (lexeme : Lexeme text token) (plain : token.kind ≠ .string) (member : c ∈ text) :
    (∃ kind, token = mark kind ∧ (text, kind) ∈ signs) ∨ Text.isDigit c = true ∨ c = '.' ∨
      Text.isWordPart c = true := by
  cases lexeme with
  | sign listed => exact .inl ⟨_, rfl, listed⟩
  | whole _ digits _ => exact .inr (.inl (digits c member))
  | decimal before after _ =>
    rcases List.mem_append.mp member with whole | fraction
    · exact .inr (.inl (before c whole))
    · rcases List.mem_cons.mp fraction with point | fraction
      · exact .inr (.inr (.inl point))
      · exact .inr (.inl (after c fraction))
  | keyword opens parts _ _ => exact .inr (.inr (.inr (isWordPart_cons opens parts c member)))
  | identifier opens parts _ => exact .inr (.inr (.inr (isWordPart_cons opens parts c member)))
  | literal => exact absurd rfl plain
  | unclosed => exact absurd rfl plain

theorem Lexeme.not_quote (lexeme : Lexeme text token) (plain : token.kind ≠ .string)
    (member : c ∈ text) : c ∉ quotes := by
  intro quoted
  have others : quotes.all (fun c => !Text.isDigit c && c != '.' && !Text.isWordPart c) = true := by
    decide
  obtain ⟨⟨noDigit, noPoint⟩, noPart⟩ : (Text.isDigit c = false ∧ c ≠ '.') ∧ Text.isWordPart c = false := by
    simpa using List.all_eq_true.mp others c quoted
  rcases lexeme.char plain member with ⟨kind, -, listed⟩ | digit | point | part
  · have unquoted : signs.all (fun sign => sign.1.all fun c => !quotes.contains c) = true := by decide
    have absent := List.all_eq_true.mp (List.all_eq_true.mp unquoted _ listed) c member
    exact absurd (List.contains_iff_mem.mpr quoted) (by simpa using absent)
  · rw [noDigit] at digit; cases digit
  · exact noPoint point
  · rw [noPart] at part; cases part

theorem Lexeme.eq_slash (lexeme : Lexeme text token) (plain : token.kind ≠ .string)
    (member : '/' ∈ text) : text = ['/'] ∧ token = mark .divide := by
  rcases lexeme.char plain member with ⟨kind, rfl, listed⟩ | digit | point | part
  · have only : ∀ sign ∈ signs, '/' ∈ sign.1 → sign = (['/'], .divide) := by decide
    cases only _ listed member
    exact ⟨rfl, rfl⟩
  all_goals exact absurd ‹_› (by decide)

theorem Segment.Stands.literal_ends {s : Segment} {later : List Char} {start : Nat}
    (stands : s.Stands text start later) (isLiteral : s.role = .literal) :
    later = [] ∨ ∃ mark ∈ quotes, s.text.getLast? = some mark := by
  obtain ⟨body, token, rfl, isString⟩ := Segment.role_eq_literal isLiteral
  obtain ⟨valid, -, stops, -⟩ := stands
  cases valid with
  | @literal quote body _ quoted =>
    exact .inr ⟨quote, quoted, by simp [Segment.text, List.getLast?_cons]⟩
  | @unclosed quote body value quoted spelled =>
    refine .inl ?_
    cases later with
    | nil => rfl
    | cons c later =>
      have goesOn := literalOpen_unclosed (ne_escape_of_mem quoted) spelled
      simpa [Segment.takes, string, goesOn] using stops c rfl
  | sign listed =>
    have plain : ∀ sign ∈ signs, sign.2 ≠ .string := by decide
    exact absurd isString (plain _ listed)
  | _ => cases isString

end Characters

end Token

end Pseudocode
