import Pseudocode.Proofs.Lexeme

set_option autoImplicit false

namespace Pseudocode

namespace Token

inductive Segment where
  | blank (c : Char)
  | comment (text : List Char)
  | lexeme (text : List Char) (token : Token)

namespace Segment

def text : Segment → List Char
  | .blank c => [c]
  | .comment text => text
  | .lexeme text _ => text

def token? : Segment → Option Token
  | .lexeme _ token => some token
  | _ => none

def Valid : Segment → Prop
  | .blank c => Text.isBlank c = true
  | .comment text => Comment text
  | .lexeme text token => Lexeme text token

def takes : Segment → Char → Bool
  | .blank _, _ => false
  | .comment _, c => c != '\n'
  | .lexeme text token, c =>
    match token.kind, text with
    | .number, _ => Text.isDigit c || c == '.' && !text.contains '.'
    | .keyword, _ | .identifier, _ => Text.isWordPart c
    | .string, quote :: body => literalOpen quote body
    | _, _ => lengthensSign text c

/-- The segment stands in front of the rest and goes as far as it can. -/
structure Cuts (s : Segment) (text rest : List Char) : Prop where
  valid : s.Valid
  stops : ∀ c ∈ rest.head?, s.takes c = false
  joined : s.text ++ rest = text

end Segment

section Starts

-- The scanner chooses by the first character. Each class of first characters leads to one of its
-- parts, whatever the order of its tests.
variable {c : Char} {rest : List Char}

theorem isBlank_of_isDigit (digit : Text.isDigit c = true) : Text.isBlank c = false := by
  have apart : ∀ digits ∈ (0x30, 0x39) :: Text.digitRanges, ∀ blanks ∈ Text.blankRanges,
      digits.2 < blanks.1 ∨ blanks.2 < digits.1 := by decide +kernel
  obtain ⟨digits, listed, low, high⟩ :
      ∃ digits ∈ (0x30, 0x39) :: Text.digitRanges, digits.1 ≤ c.toNat ∧ c.toNat ≤ digits.2 := by
    unfold Text.isDigit at digit
    split at digit
    · refine ⟨(0x30, 0x39), List.mem_cons_self, ?_⟩
      simpa [Char.isDigit, UInt32.le_iff_toNat_le] using digit
    · obtain ⟨digits, listed, inside⟩ := List.any_eq_true.mp digit
      exact ⟨digits, List.mem_cons_of_mem _ listed, by simpa using inside⟩
  apply Bool.eq_false_iff.mpr
  intro blank
  obtain ⟨blanks, member, inside⟩ := List.any_eq_true.mp blank
  simp only [Bool.and_eq_true, decide_eq_true_eq] at inside
  have := apart digits listed blanks member
  omega

theorem scanStep_blank (blank : Text.isBlank c = true) : scanStep c rest = .ok (none, rest) :=
  if_pos blank

theorem scanStep_number (starts : Text.isDigit c = true ∨ c = '.') :
    scanStep c rest = (scanNumber (c :: rest)).map fun (t, after) => (some t, after) := by
  have noBlank : Text.isBlank c = false := by
    rcases starts with digit | rfl
    · exact isBlank_of_isDigit digit
    · decide
  simp [scanStep, noBlank, starts]

theorem opensWord_iff :
    opensWord c = true ↔
      Text.isLetter c = true ∧ Text.isBlank c = false ∧ Text.isDigit c = false := by
  simp [opensWord, and_assoc]

theorem scanStep_word (opens : opensWord c = true) :
    scanStep c rest = .ok (scanWord (c :: rest)) := by
  obtain ⟨letter, noBlank, noDigit⟩ := opensWord_iff.mp opens
  have noPoint : c ≠ '.' := by
    rintro rfl
    exact absurd letter (by decide)
  simp [scanStep, letter, noBlank, noDigit, noPoint]

theorem scanStep_literal (quoted : c ∈ quotes) :
    scanStep c rest = (scanLiteral c rest).map fun (t, after) => (some t, after) := by
  simp only [quotes, List.mem_cons, List.not_mem_nil, or_false] at quoted
  rcases quoted with rfl | rfl <;> rfl

def opensSign (c : Char) : Bool :=
  !(Text.isBlank c || Text.isDigit c || c == '.' || Text.isLetter c || quotes.contains c)

theorem opensSign_of_mem {more : List Char} {kind : Kind} (listed : (c :: more, kind) ∈ signs) :
    opensSign c = true := by
  have first : signs.all (fun sign => sign.1.head?.all opensSign) = true := by decide +kernel
  exact List.all_eq_true.mp first _ listed

theorem scanStep_sign (opens : opensSign c = true) : scanStep c rest = scanSign c rest := by
  simp only [opensSign, quotes, Bool.not_eq_true', Bool.or_eq_false_iff, List.contains_eq_mem] at opens
  simp_all [scanStep]

end Starts

section Cuts

variable {c : Char} {text rest after : List Char} {token : Token} {found : Option Token} {kind : Kind}
  {s : Segment}

theorem takes_sign (listed : (text, kind) ∈ signs) :
    (Segment.lexeme text (mark kind)).takes c = lengthensSign text c := by
  have plain : ∀ sign ∈ signs, sign.2 ∉ [.number, .keyword, .identifier, .string] := by decide
  have other := plain _ listed
  cases kind <;> simp_all [Segment.takes, mark]

theorem takes_whole (digits : ∀ c ∈ text, Text.isDigit c = true) (x : Float) :
    (Segment.lexeme text (number x)).takes c = (Text.isDigit c || c == '.') := by
  have noPoint : '.' ∉ text := fun member => absurd (digits '.' member) (by decide)
  simp [Segment.takes, number, noPoint]

theorem takes_decimal (point : '.' ∈ text) (x : Float) :
    (Segment.lexeme text (number x)).takes c = Text.isDigit c := by
  simp [Segment.takes, number, point]

theorem isWordPart_cons {first : Char} {more : List Char} (opens : opensWord first = true)
    (parts : ∀ c ∈ more, Text.isWordPart c = true) : ∀ c ∈ first :: more, Text.isWordPart c = true := by
  simpa [isWordPart_of_isLetter (opensWord_iff.mp opens).1] using parts

theorem cut_lexeme (lexeme : Lexeme text token)
    (stops : ∀ c ∈ rest.head?, (Segment.lexeme text token).takes c = false) :
    ∃ c more, text ++ rest = c :: more ∧ scanStep c more = .ok (some token, rest) := by
  cases lexeme with
  | sign listed =>
    simp only [takes_sign listed] at stops
    obtain ⟨c, more, rfl, read⟩ := scanSign_of_mem listed stops
    exact ⟨c, more ++ rest, rfl, by rw [scanStep_sign (opensSign_of_mem listed), read]⟩
  | whole nonempty digits value =>
    simp only [takes_whole digits, Bool.or_eq_false_iff, beq_eq_false_iff_ne] at stops
    obtain ⟨c, more, rfl⟩ := List.exists_cons_of_ne_nil nonempty
    refine ⟨c, more ++ rest, rfl, ?_⟩
    rw [scanStep_number (.inl (digits c List.mem_cons_self)), ← List.cons_append,
      scanNumber_whole digits stops value]
    rfl
  | @decimal whole fraction x before after value =>
    have point : '.' ∈ whole ++ '.' :: fraction := by simp
    simp only [takes_decimal point] at stops
    have read := scanNumber_decimal before after stops value
    cases whole with
    | nil =>
      refine ⟨'.', fraction ++ rest, rfl, ?_⟩
      rw [scanStep_number (.inr rfl), ← List.nil_append ('.' :: _), read]
      rfl
    | cons c whole =>
      refine ⟨c, whole ++ '.' :: (fraction ++ rest), by simp, ?_⟩
      rw [scanStep_number (.inl (before c List.mem_cons_self)), ← List.cons_append, read]
      rfl
  | @keyword first more opens parts listed noRemark =>
    refine ⟨first, more ++ rest, rfl, ?_⟩
    rw [scanStep_word opens, ← List.cons_append, scanWord_run (isWordPart_cons opens parts) stops,
      if_neg noRemark, if_pos listed]
  | @identifier first more opens parts unlisted =>
    have noRemark : String.ofList (Text.capitals (first :: more)) ≠ "REM" := by
      intro remark
      exact unlisted (remark ▸ by decide)
    refine ⟨first, more ++ rest, rfl, ?_⟩
    rw [scanStep_word opens, ← List.cons_append, scanWord_run (isWordPart_cons opens parts) stops,
      if_neg noRemark, if_neg unlisted]
  | @literal quote text value quoted spelled =>
    refine ⟨quote, text ++ quote :: rest, by simp, ?_⟩
    rw [scanStep_literal quoted, scanLiteral, literalBody_closed (ne_escape_of_mem quoted) spelled]
    rfl
  | @unclosed quote text value quoted spelled =>
    -- Any character would go on with it, so nothing follows.
    have isOpen : literalOpen quote text = true := literalOpen_unclosed (ne_escape_of_mem quoted) spelled
    obtain rfl : rest = [] := by
      cases rest with
      | nil => rfl
      | cons d rest => simpa [Segment.takes, string, isOpen] using stops d rfl
    refine ⟨quote, text, by simp, ?_⟩
    rw [scanStep_literal quoted, scanLiteral, literalBody_unclosed (ne_escape_of_mem quoted) spelled]
    rfl

theorem cut_comment (comment : Comment text) (stops : ∀ c ∈ rest.head?, c = '\n') :
    ∃ c more, text ++ rest = c :: more ∧ scanStep c more = .ok (none, rest) := by
  cases comment with
  | @slashes body inLine =>
    refine ⟨'/', '/' :: (body ++ rest), rfl, ?_⟩
    rw [scanStep_sign (by decide), scanSign, afterLine_run inLine stops]
  | @remark word body remark ends inLine =>
    have parts := fun c member => (remark_word (c := c) remark member).2
    have ends' : ∀ c ∈ (body ++ rest).head?, Text.isWordPart c = false := by
      intro c first
      rw [List.head?_append] at first
      cases body with
      | nil =>
        obtain rfl := stops c (by simpa using first)
        decide
      | cons d body => exact ends c (by simpa using first)
    have read : scanWord (word ++ (body ++ rest)) = (none, rest) := by
      rw [scanWord_run parts ends', if_pos (capitals_eq_remark.mpr remark), afterLine_run inLine stops]
    cases word with
    | nil => cases remark
    | cons c word =>
      refine ⟨c, word ++ (body ++ rest), by simp, ?_⟩
      rw [scanStep_word (remark_word remark List.mem_cons_self).1, ← List.cons_append, read]

theorem Segment.Cuts.step (cuts : s.Cuts text rest) :
    ∃ c more, text = c :: more ∧ scanStep c more = .ok (s.token?, rest) := by
  obtain ⟨valid, stops, rfl⟩ := cuts
  cases s with
  | blank c => exact ⟨c, rest, rfl, scanStep_blank valid⟩
  | comment text => exact cut_comment valid (by simpa [Segment.takes] using stops)
  | lexeme text token => exact cut_lexeme valid stops

theorem exists_number (starts : Text.isDigit c = true ∨ c = '.')
    (read : scanNumber (c :: rest) = .ok (token, after)) :
    ∃ text, (Segment.lexeme text token).Cuts (c :: rest) after := by
  unfold scanNumber at read
  rcases number_cases (c :: rest) with ⟨whole, more, joined, digits, stops⟩ |
    ⟨whole, fraction, more, joined, before, digits, stops⟩
  · rw [joined, numberParts_whole digits stops] at read
    dsimp only at read
    split at read <;> cases read
    next x value =>
      have nonempty : whole ≠ [] := by
        rintro rfl
        rw [List.nil_append] at joined
        have none := stops c (by simp [← joined])
        simp_all
      refine ⟨whole, .whole nonempty digits value, ?_, joined.symm⟩
      simpa [takes_whole digits] using stops
  · rw [joined, numberParts_decimal before digits stops] at read
    dsimp only at read
    split at read <;> cases read
    next x value =>
      refine ⟨whole ++ '.' :: fraction, .decimal before digits value, ?_, ?_⟩
      · simpa [takes_decimal] using stops
      · simp [Segment.text, joined]

theorem exists_word (opens : opensWord c = true) (read : scanWord (c :: rest) = (found, after)) :
    ∃ s : Segment, s.Cuts (c :: rest) after ∧ s.token? = found := by
  obtain ⟨more, left, rfl, parts, stops⟩ := exists_run Text.isWordPart rest
  rw [← List.cons_append, scanWord_run (isWordPart_cons opens parts) stops] at read
  split at read
  next remark =>
    obtain ⟨line, left, rfl, inLine, ends⟩ := exists_line left
    rw [afterLine_run inLine ends] at read
    cases read
    have stops' : ∀ c ∈ line.head?, Text.isWordPart c = false := by
      intro d first
      exact stops d (by rw [List.head?_append, Option.mem_def.mp first]; rfl)
    refine ⟨.comment (c :: more ++ line), ⟨?_, ?_, by simp [Segment.text]⟩, rfl⟩
    · exact .remark (capitals_eq_remark.mp remark) stops' inLine
    · simpa [Segment.takes] using ends
  next noRemark =>
    split at read <;> cases read
    next listed =>
      exact ⟨.lexeme (c :: more) _, ⟨.keyword opens parts listed noRemark, stops, rfl⟩, rfl⟩
    next unlisted =>
      exact ⟨.lexeme (c :: more) _, ⟨.identifier opens parts unlisted, stops, rfl⟩, rfl⟩

theorem exists_literal (quoted : c ∈ quotes) (read : scanLiteral c rest = .ok (token, after)) :
    ∃ text, (Segment.lexeme text token).Cuts (c :: rest) after := by
  unfold scanLiteral at read
  cases inner : literalBody c rest with
  | error cause => simp [inner, Except.map] at read
  | ok found =>
    obtain ⟨rfl, rfl⟩ : string (String.ofList found.1) = token ∧ found.2 = after := by
      simpa [inner, Except.map] using read
    obtain ⟨body, spelled, joined | ⟨rfl, ended⟩⟩ := spells_of_literalBody inner
    · refine ⟨c :: (body ++ [c]), .literal quoted spelled, fun d _ => ?_, ?_⟩
      · exact (literalOpen_spelled (ne_escape_of_mem quoted) spelled).trans literalOpen_mark
      · simp [Segment.text, joined]
    · refine ⟨c :: rest, .unclosed quoted spelled, ?_, ?_⟩
      · simp [ended]
      · simp [Segment.text, ended]

theorem exists_mark (opens : opensSign c = true) (read : scanSign c rest = .ok (found, after)) :
    ∃ s : Segment, s.Cuts (c :: rest) after ∧ s.token? = found := by
  rcases exists_sign read with ⟨more, kind, listed, rfl, rfl, stops⟩ | ⟨rfl, rfl, more, rfl, rfl⟩
  · refine ⟨.lexeme (c :: more) (mark kind), ⟨.sign listed, ?_, rfl⟩, rfl⟩
    simpa only [takes_sign listed] using stops
  · obtain ⟨line, left, rfl, inLine, ends⟩ := exists_line more
    rw [afterLine_run inLine ends]
    refine ⟨.comment ('/' :: '/' :: line), ⟨.slashes inLine, ?_, rfl⟩, rfl⟩
    simpa [Segment.takes] using ends

theorem exists_segment (read : scanStep c rest = .ok (found, after)) :
    ∃ s : Segment, s.Cuts (c :: rest) after ∧ s.token? = found := by
  by_cases blank : Text.isBlank c = true
  · rw [scanStep_blank blank] at read
    cases read
    exact ⟨.blank c, ⟨blank, fun _ _ => rfl, rfl⟩, rfl⟩
  by_cases starts : Text.isDigit c = true ∨ c = '.'
  · rw [scanStep_number starts] at read
    cases cut : scanNumber (c :: rest) with
    | error cause => simp [cut, Except.map] at read
    | ok pair =>
      obtain ⟨rfl, rfl⟩ : some pair.1 = found ∧ pair.2 = after := by
        simpa [cut, Except.map] using read
      obtain ⟨text, cuts⟩ := exists_number starts cut
      exact ⟨_, cuts, rfl⟩
  by_cases letter : Text.isLetter c = true
  · have opens : opensWord c = true := by simp_all [opensWord]
    rw [scanStep_word opens] at read
    exact exists_word opens (Except.ok.inj read)
  by_cases quoted : c ∈ quotes
  · rw [scanStep_literal quoted] at read
    cases cut : scanLiteral c rest with
    | error cause => simp [cut, Except.map] at read
    | ok pair =>
      obtain ⟨rfl, rfl⟩ : some pair.1 = found ∧ pair.2 = after := by
        simpa [cut, Except.map] using read
      obtain ⟨text, cuts⟩ := exists_literal quoted cut
      exact ⟨_, cuts, rfl⟩
  have opens : opensSign c = true := by simp_all [opensSign]
  rw [scanStep_sign opens] at read
  exact exists_mark opens read

end Cuts

section Rows

variable {s : Segment} {text rest : List Char} {segments : List Segment}

theorem Segment.Cuts.scanChars (cuts : s.Cuts text rest) :
    Token.scanChars text = (Token.scanChars rest).map (s.token?.toList ++ ·) := by
  obtain ⟨c, more, rfl, read⟩ := cuts.step
  exact scanChars_cons read

theorem scanChars_blank {c : Char} (blank : Text.isBlank c = true) :
    scanChars (c :: rest) = scanChars rest := by
  rw [scanChars_cons (scanStep_blank blank)]
  cases scanChars rest <;> rfl

theorem Segment.scanChars_text (valid : s.Valid) : Token.scanChars s.text = .ok s.token?.toList := by
  have alone : s.Cuts s.text [] := ⟨valid, nofun, List.append_nil _⟩
  rw [alone.scanChars, scanChars_nil]
  simp [Except.map]

def Longest : List Segment → Prop
  | [] => True
  | s :: segments =>
    (∀ c ∈ (segments.flatMap Segment.text).head?, s.takes c = false) ∧ Longest segments

theorem scanChars_segments (valid : ∀ s ∈ segments, s.Valid) (longest : Longest segments) :
    scanChars (segments.flatMap Segment.text) = .ok (segments.filterMap Segment.token?) := by
  induction segments with
  | nil => exact scanChars_nil
  | cons s segments ih =>
    have cuts : s.Cuts (List.flatMap Segment.text (s :: segments)) (segments.flatMap Segment.text) :=
      ⟨valid s List.mem_cons_self, longest.1, rfl⟩
    rw [cuts.scanChars, ih (fun s member => valid s (List.mem_cons_of_mem _ member)) longest.2]
    cases h : s.token? <;> simp [Except.map, h]

theorem exists_segments {tokens : List Token} (read : scanChars text = .ok tokens) :
    ∃ segments : List Segment, segments.flatMap Segment.text = text ∧ (∀ s ∈ segments, s.Valid) ∧
      Longest segments ∧ segments.filterMap Segment.token? = tokens := by
  refine scanChars_induction (motive := fun text tokens => ∃ segments : List Segment,
    segments.flatMap Segment.text = text ∧ (∀ s ∈ segments, s.Valid) ∧ Longest segments ∧
      segments.filterMap Segment.token? = tokens) ?nil ?step read
  case nil => exact ⟨[], rfl, nofun, trivial, rfl⟩
  case step =>
    rintro c rest _ after _ cut ⟨segments, rfl, valid, longest, rfl⟩
    obtain ⟨s, cuts, rfl⟩ := exists_segment cut
    refine ⟨s :: segments, cuts.joined, ?_, ⟨cuts.stops, longest⟩, ?_⟩
    · simpa using ⟨cuts.valid, valid⟩
    · cases h : s.token? <;> simp [h]

end Rows

section Made

variable {text : List Char} {token : Token} {tokens : List Token}

theorem Lexeme.kind (lexeme : Lexeme text token) : token.kind ≠ .newline ∧ token.kind ≠ .none := by
  cases lexeme with
  | sign listed =>
    have plain : ∀ sign ∈ signs, sign.2 ≠ .newline ∧ sign.2 ≠ .none := by decide
    exact plain _ listed
  | _ => exact ⟨nofun, nofun⟩

theorem Lexeme.made (lexeme : Lexeme text token) : token.Made := by
  refine ⟨lexeme.kind.2, fun isKeyword => ?_⟩
  cases lexeme with
  | sign listed =>
    have plain : ∀ sign ∈ signs, sign.2 ≠ .keyword := by decide
    exact absurd isKeyword (plain _ listed)
  | keyword _ _ listed _ => exact ⟨_, listed, rfl⟩
  | _ => cases isKeyword

theorem exists_lexeme (read : scanChars text = .ok tokens) (member : token ∈ tokens) :
    ∃ lexeme, Lexeme lexeme token := by
  obtain ⟨segments, _, valid, _, rfl⟩ := exists_segments read
  obtain ⟨s, listed, same⟩ := List.mem_filterMap.mp member
  cases s with
  | lexeme text token' =>
    cases same
    exact ⟨text, valid _ listed⟩
  | _ => cases same

theorem scanChars_made (read : scanChars text = .ok tokens) : ∀ token ∈ tokens, token.Made := by
  intro token member
  obtain ⟨_, lexeme⟩ := exists_lexeme read member
  exact lexeme.made

theorem scanChars_kind (read : scanChars text = .ok tokens) :
    ∀ token ∈ tokens, token.kind ≠ .none :=
  fun token member => (scanChars_made read token member).kind

end Made

/-- A source is read exactly if it is a row of blanks, comments and lexemes, each as long as it can
be. The tokens are then those of the lexemes, each the one that its lexeme has by itself, and none of
them stands for a line end or for the end of the source. -/
theorem scan_iff_segments (source : String) (tokens : List Token) :
    scan source = .ok tokens ↔ ∃ segments : List Segment,
      segments.flatMap Segment.text = source.toList ∧
      (∀ s ∈ segments, s.Valid) ∧ Longest segments ∧
      (∀ s ∈ segments, scan (String.ofList s.text) = .ok s.token?.toList) ∧
      segments.filterMap Segment.token? = tokens ∧
      ∀ token ∈ tokens, token.kind ≠ .newline ∧ token.kind ≠ .none := by
  constructor
  · intro read
    obtain ⟨segments, joined, valid, longest, same⟩ := exists_segments read
    refine ⟨segments, joined, valid, longest, fun s member => ?_, same, fun token member => ?_⟩
    · rw [scan, String.toList_ofList]
      exact Segment.scanChars_text (valid s member)
    · obtain ⟨_, lexeme⟩ := exists_lexeme read member
      exact lexeme.kind
  · rintro ⟨segments, joined, valid, longest, -, rfl, -⟩
    rw [scan, ← joined]
    exact scanChars_segments valid longest

end Token

end Pseudocode
