import Pseudocode.Highlight
import Pseudocode.Proofs.Lexeme

set_option autoImplicit false

namespace Pseudocode

namespace Highlight

def Span.covers (span : Span) (place : Nat) : Bool :=
  span.start ≤ place && place < span.start + span.length

def Format.covers (format : Format) (unit : Nat) : Bool :=
  format.start ≤ unit && unit < format.start + format.length

def shown (formats : List Format) (unit : Nat) : Option Style :=
  (formats.filter (·.covers unit)).getLast?.map (·.style)

def Covered (pattern : Pattern) (text : List Char) (place : Nat) : Prop :=
  ∃ span ∈ spans pattern text, span.covers place = true

def styleBy (rules : List Rule) (text : List Char) (place : Nat) : Option Style :=
  ((rules.flatMap fun rule => (spans rule.pattern text).map (·, rule.style)).filter
    (·.1.covers place)).getLast?.map (·.2)

section Matches

variable {pattern : Pattern} {text : List Char} {span : Span} {place : Nat}

theorem Span.covers_iff :
    span.covers place = true ↔ span.start ≤ place ∧ place < span.start + span.length := by
  simp [Span.covers]

theorem match_of_mem_spansFrom {position covered : Nat} {before : Option Char}
    (member : span ∈ spansFrom pattern text position before covered) :
    ∃ offset previous, span.start = position + offset ∧
      pattern.length? previous (text.drop offset) = some span.length := by
  fun_induction spansFrom pattern text position before covered with
  | case1 => cases member
  | case2 c rest position _ covered ih =>
    obtain ⟨offset, previous, starts, found⟩ := ih member
    exact ⟨offset + 1, previous, by omega, found⟩
  | case3 c rest position before more found ih =>
    rcases List.mem_cons.mp member with rfl | later
    · exact ⟨0, before, rfl, found⟩
    · obtain ⟨offset, previous, starts, found⟩ := ih later
      exact ⟨offset + 1, previous, by omega, found⟩
  | case4 c rest position before _ ih =>
    obtain ⟨offset, previous, starts, found⟩ := ih member
    exact ⟨offset + 1, previous, by omega, found⟩

theorem covered_of_match_from (position covered : Nat) (before : Option Char) {offset length : Nat}
    (inside : offset < text.length)
    (found : ∀ previous, pattern.length? previous (text.drop offset) = some (length + 1)) :
    offset < covered ∨
      ∃ span ∈ spansFrom pattern text position before covered, span.covers (position + offset) = true := by
  -- The match may begin inside a span that has begun before it: that span covers it too.
  fun_induction spansFrom pattern text position before covered generalizing offset with
  | case1 => cases inside
  | case2 c rest position _ covered ih =>
    cases offset with
    | zero => exact .inl (Nat.zero_lt_succ _)
    | succ offset =>
      rcases ih (Nat.lt_of_succ_lt_succ inside) found with within | ⟨span, member, covers⟩
      · exact .inl (Nat.succ_lt_succ within)
      · exact .inr ⟨span, member, by rwa [Nat.add_right_comm] at covers⟩
  | case3 c rest position before more _ ih =>
    refine .inr ?_
    cases offset with
    | zero => exact ⟨_, List.mem_cons_self, by simp [Span.covers]⟩
    | succ offset =>
      rcases ih (Nat.lt_of_succ_lt_succ inside) found with within | ⟨span, member, covers⟩
      · exact ⟨_, List.mem_cons_self, by simp [Span.covers]; omega⟩
      · exact ⟨span, List.mem_cons_of_mem _ member, by rwa [Nat.add_right_comm] at covers⟩
  | case4 c rest position before unmatched ih =>
    cases offset with
    | zero => exact absurd (found before) (unmatched length)
    | succ offset =>
      rcases ih (Nat.lt_of_succ_lt_succ inside) found with within | ⟨span, member, covers⟩
      · cases within
      · exact .inr ⟨span, member, by rwa [Nat.add_right_comm] at covers⟩

theorem match_of_covered (covered : Covered pattern text place) :
    ∃ start length previous, pattern.length? previous (text.drop start) = some length ∧
      start ≤ place ∧ place < start + length := by
  obtain ⟨span, member, covers⟩ := covered
  obtain ⟨offset, previous, starts, found⟩ := match_of_mem_spansFrom member
  rw [Nat.zero_add] at starts
  rw [Span.covers_iff, starts] at covers
  exact ⟨offset, span.length, previous, found, covers⟩

theorem covered_of_match (length : Nat) (inside : place < text.length)
    (found : ∀ previous, pattern.length? previous (text.drop place) = some (length + 1)) :
    Covered pattern text place := by
  rcases covered_of_match_from 0 0 none inside found with
    within | ⟨span, member, covers⟩
  · cases within
  · exact ⟨span, member, by rwa [Nat.zero_add] at covers⟩

end Matches

section Patterns

variable {text : List Char} {place : Nat}

def operatorChars : List Char := ['+', '-', '*', '/', '^', '=', '<', '>']

def operatorAt : List Char → Bool
  | '!' :: '=' :: _ => true
  | c :: _ => operatorChars.contains c
  | [] => false

theorem operatorAt_of_mem {c : Char} {rest : List Char} (listed : c ∈ operatorChars) :
    operatorAt (c :: rest) = true := by
  unfold operatorAt
  split
  · rfl
  next same =>
    cases same
    exact List.contains_iff_mem.mpr listed
  next same => cases same

theorem operatorAt_cases {c : Char} {rest : List Char} (operator : operatorAt (c :: rest) = true) :
    c ∈ operatorChars ∨ c = '!' ∧ ∃ more, rest = '=' :: more := by
  unfold operatorAt at operator
  split at operator
  next same =>
    cases same
    exact .inr ⟨rfl, _, rfl⟩
  next same =>
    cases same
    exact .inl (List.contains_iff_mem.mp operator)
  next same => cases same

theorem operatorAt_append {begun : List Char} (operator : operatorAt begun = true) (rest : List Char) :
    operatorAt (begun ++ rest) = true := by
  cases begun with
  | nil => cases operator
  | cons c more =>
    rcases operatorAt_cases operator with listed | ⟨rfl, more, rfl⟩
    · exact operatorAt_of_mem listed
    · rfl

theorem operatorAt_drop {sign : String} {offset : Nat} (listed : sign ∈ operators)
    (inside : offset < sign.toList.length) (rest : List Char) :
    operatorAt (sign.toList.drop offset ++ rest) = true := by
  have within : ∀ sign ∈ operators, ∀ offset < sign.toList.length,
      operatorAt (sign.toList.drop offset) = true := by decide
  exact operatorAt_append (within sign listed offset inside) rest

theorem sign_length? {sign : String} {previous : Option Char} {length : Nat} :
    (Pattern.sign sign).length? previous text = some length ↔
      length = sign.toList.length ∧ ∃ rest, text = sign.toList ++ rest := by
  have begins : sign.toList.isPrefixOf text = true ↔ ∃ rest, text = sign.toList ++ rest := by
    rw [List.isPrefixOf_iff_prefix]
    exact exists_congr fun rest => eq_comm
  rw [← begins]
  unfold Pattern.length?
  dsimp only
  split
  next isPrefix => simp [isPrefix, eq_comm]
  next noPrefix => simp [noPrefix]

theorem covered_sign_iff :
    (∃ sign ∈ operators, Covered (.sign sign) text place) ↔ operatorAt (text.drop place) = true := by
  constructor
  · rintro ⟨sign, listed, covered⟩
    obtain ⟨start, length, previous, found, before, inside⟩ := match_of_covered covered
    obtain ⟨rfl, rest, same⟩ := sign_length?.mp found
    obtain ⟨offset, rfl⟩ := Nat.exists_eq_add_of_le before
    have here : text.drop (start + offset) = sign.toList.drop offset ++ rest := by
      rw [← List.drop_drop, same, List.drop_append_of_le_length (by omega)]
    rw [here]
    exact operatorAt_drop listed (by omega) rest
  · intro operator
    match here : text.drop place with
    | [] => rw [here] at operator; cases operator
    | c :: rest =>
      rw [here] at operator
      have inside : place < text.length := by
        apply Nat.lt_of_not_le
        intro beyond
        rw [List.drop_eq_nil_of_le beyond] at here
        cases here
      rcases operatorAt_cases operator with listed | ⟨rfl, more, rfl⟩
      · have single : operatorChars.all (fun c => operators.contains (String.ofList [c])) = true := by
          decide
        have member := List.contains_iff_mem.mp (List.all_eq_true.mp single c listed)
        refine ⟨String.ofList [c], member, covered_of_match 0 inside fun previous => ?_⟩
        rw [here, sign_length?, String.toList_ofList]
        exact ⟨rfl, rest, rfl⟩
      · refine ⟨"!=", by decide, covered_of_match 1 inside fun previous => ?_⟩
        rw [here, sign_length?]
        exact ⟨rfl, more, rfl⟩

def SlashesAt (text : List Char) (place : Nat) : Prop :=
  ∃ rest, text.drop place = '/' :: '/' :: rest

theorem comment_length? {previous : Option Char} {length : Nat} (inLine : '\n' ∉ text) :
    Pattern.comment.length? previous text = some length ↔
      (∃ rest, text = '/' :: '/' :: rest) ∧ length = text.length := by
  unfold Pattern.length?
  dsimp only
  split
  next rest =>
    have others : ∀ c ∈ rest, (c != '\n') = true := by
      intro c member
      have other : c ≠ '\n' := by
        rintro rfl
        exact inLine (by simp [member])
      simpa using other
    have whole : (rest ++ []).takeWhile (· != '\n') = rest := Token.takeWhile_run others nofun
    rw [List.append_nil] at whole
    rw [whole]
    simp [Nat.add_comm 2, eq_comm]
  next other =>
    constructor
    · nofun
    · rintro ⟨⟨rest, rfl⟩, -⟩
      exact absurd rfl (other rest)

theorem not_mem_drop {c : Char} (absent : c ∉ text) : c ∉ text.drop place :=
  fun member => absent (List.mem_of_mem_drop member)

theorem covered_comment_iff (inLine : '\n' ∉ text) :
    Covered .comment text place ↔ place < text.length ∧ ∃ start ≤ place, SlashesAt text start := by
  constructor
  · intro covered
    obtain ⟨start, length, previous, found, before, inside⟩ := match_of_covered covered
    obtain ⟨slashes, rfl⟩ := (comment_length? (not_mem_drop inLine)).mp found
    rw [List.length_drop] at inside
    exact ⟨by omega, start, before, slashes⟩
  · rintro ⟨inside, start, before, rest, slashes⟩
    have opens : Covered .comment text start := by
      refine covered_of_match (rest.length + 1) (by omega) fun previous => ?_
      rw [comment_length? (not_mem_drop inLine), slashes]
      exact ⟨⟨rest, rfl⟩, rfl⟩
    -- The span that covers the slashes may begin before them, but it ends with the line.
    obtain ⟨span, member, covers⟩ := opens
    refine ⟨span, member, ?_⟩
    obtain ⟨offset, previous, starts, found⟩ := match_of_mem_spansFrom member
    have length := ((comment_length? (not_mem_drop inLine)).mp found).2
    rw [List.length_drop] at length
    rw [Span.covers_iff] at covers ⊢
    omega

end Patterns

section Layers

variable {rules earlier later : List Rule} {text : List Char} {place : Nat} {style : Style}

theorem styleBy_append :
    styleBy (earlier ++ later) text place =
      (styleBy later text place).or (styleBy earlier text place) := by
  simp only [styleBy, List.flatMap_append, List.filter_append, List.getLast?_append]
  cases List.getLast? _ <;> rfl

theorem rule_of_styleBy (styled : styleBy rules text place = some style) :
    ∃ rule ∈ rules, rule.style = style ∧ Covered rule.pattern text place := by
  obtain ⟨⟨span, _⟩, last, rfl⟩ := Option.map_eq_some_iff.mp styled
  obtain ⟨member, covers⟩ := List.mem_filter.mp (List.mem_of_getLast? last)
  obtain ⟨rule, listed, mapped⟩ := List.mem_flatMap.mp member
  obtain ⟨found, spanned, same⟩ := List.mem_map.mp mapped
  cases same
  exact ⟨rule, listed, rfl, span, spanned, covers⟩

theorem exists_styleBy {rule : Rule} (listed : rule ∈ rules) (covered : Covered rule.pattern text place) :
    ∃ style, styleBy rules text place = some style := by
  obtain ⟨span, spanned, covers⟩ := covered
  have member : (span, rule.style) ∈
      (rules.flatMap fun rule => (spans rule.pattern text).map (·, rule.style)).filter
        (·.1.covers place) :=
    List.mem_filter.mpr
      ⟨List.mem_flatMap.mpr ⟨rule, listed, List.mem_map.mpr ⟨span, spanned, rfl⟩⟩, covers⟩
  rw [styleBy, List.getLast?_eq_some_getLast (List.ne_nil_of_mem member)]
  exact ⟨_, rfl⟩

theorem styleBy_of_covered {pattern : Pattern} (alike : ∀ rule ∈ rules, rule.style = style)
    (listed : ⟨pattern, style⟩ ∈ rules) (covered : Covered pattern text place) :
    styleBy rules text place = some style := by
  obtain ⟨found, styled⟩ := exists_styleBy listed covered
  obtain ⟨rule, member, rfl, _⟩ := rule_of_styleBy styled
  rw [styled, alike rule member]

theorem styleBy_of_uncovered (uncovered : ∀ rule ∈ rules, ¬ Covered rule.pattern text place) :
    styleBy rules text place = none := by
  match styled : styleBy rules text place with
  | none => rfl
  | some style =>
    obtain ⟨rule, listed, _, covered⟩ := rule_of_styleBy styled
    exact absurd covered (uncovered rule listed)

theorem styleBy_comment_iff :
    styleBy Highlight.rules text place = some .comment ↔ Covered .comment text place := by
  constructor
  · intro styled
    obtain ⟨rule, listed, isComment, covered⟩ := rule_of_styleBy styled
    have only : ∀ rule ∈ Highlight.rules, rule.style = .comment → rule.pattern = .comment := by decide
    rwa [only rule listed isComment] at covered
  · intro covered
    rw [Highlight.rules, styleBy_append,
      styleBy_of_covered (by decide) (List.mem_singleton.mpr rfl) covered]
    rfl

def operatorRules : List Rule := operators.map (⟨.sign ·, .operator⟩)

def literalRules : List Rule := Token.quotes.map (⟨.quoted ·, .string⟩)

theorem styleBy_uncommented (noComment : ¬ Covered .comment text place) :
    ∃ under, styleBy Highlight.rules text place =
      (styleBy operatorRules text place).or ((styleBy literalRules text place).or under) := by
  have layered : Highlight.rules =
      (keywords.map (⟨.word ·, .keyword⟩) ++ builtins.map (⟨.word ·, .builtin⟩) ++ [⟨.number, .number⟩]) ++
        literalRules ++ operatorRules ++ [⟨.comment, .comment⟩] := rfl
  have bare : styleBy [⟨.comment, .comment⟩] text place = none :=
    styleBy_of_uncovered fun rule listed => by rwa [List.mem_singleton.mp listed]
  rw [layered, styleBy_append, bare, styleBy_append, styleBy_append]
  exact ⟨_, rfl⟩

theorem styleBy_string_iff :
    styleBy Highlight.rules text place = some .string ↔
      ¬ Covered .comment text place ∧ operatorAt (text.drop place) = false ∧
        ∃ mark ∈ Token.quotes, Covered (.quoted mark) text place := by
  rw [← Bool.not_eq_true, ← covered_sign_iff]
  constructor
  · intro styled
    have noComment : ¬ Covered .comment text place := by
      intro comment
      rw [styleBy_comment_iff.mpr comment] at styled
      cases styled
    refine ⟨noComment, ?_, ?_⟩
    · rintro ⟨sign, listed, covered⟩
      obtain ⟨under, same⟩ := styleBy_uncommented noComment
      have above : styleBy operatorRules text place = some .operator :=
        styleBy_of_covered (by decide) (List.mem_map_of_mem listed) covered
      rw [same, above] at styled
      cases styled
    · obtain ⟨rule, listed, isString, covered⟩ := rule_of_styleBy styled
      have only : ∀ rule ∈ Highlight.rules, rule.style = .string → rule ∈ literalRules := by decide
      obtain ⟨mark, quoted, rfl⟩ := List.mem_map.mp (only rule listed isString)
      exact ⟨mark, quoted, covered⟩
  · rintro ⟨noComment, noOperator, mark, quoted, covered⟩
    obtain ⟨under, same⟩ := styleBy_uncommented noComment
    have bare : styleBy operatorRules text place = none := by
      refine styleBy_of_uncovered fun rule listed => ?_
      obtain ⟨sign, member, rfl⟩ := List.mem_map.mp listed
      exact fun covered => noOperator ⟨sign, member, covered⟩
    have seen : styleBy literalRules text place = some .string :=
      styleBy_of_covered (by decide) (List.mem_map_of_mem quoted) covered
    rw [same, bare, seen]
    rfl

end Layers

section Units

variable {text : List Char} {span : Span} {place unit : Nat}

theorem charUnits_pos (c : Char) : 0 < Text.charUnits c := by
  unfold Text.charUnits
  split <;> decide

theorem units_take_le {less more : Nat} (le : less ≤ more) :
    Text.units (text.take less) ≤ Text.units (text.take more) := by
  obtain ⟨extra, rfl⟩ := Nat.exists_eq_add_of_le le
  rw [List.take_add, Text.units_append]
  exact Nat.le_add_right _ _

theorem units_take_lt (inside : place < text.length) :
    Text.units (text.take place) < Text.units (text.take (place + 1)) := by
  rw [List.take_succ_eq_append_getElem inside, Text.units_append]
  exact Nat.lt_add_of_pos_right (charUnits_pos _)

theorem units_take_le_iff {count : Nat} (first : Text.units (text.take place) ≤ unit)
    (last : unit < Text.units (text.take (place + 1))) :
    Text.units (text.take count) ≤ unit ↔ count ≤ place := by
  constructor
  · intro ends
    apply Nat.le_of_not_lt
    intro beyond
    have more : Text.units (text.take (place + 1)) ≤ Text.units (text.take count) := units_take_le beyond
    omega
  · intro le
    exact Nat.le_trans (units_take_le le) first

theorem covers_formatOf {style : Style} (first : Text.units (text.take place) ≤ unit)
    (last : unit < Text.units (text.take (place + 1))) :
    (formatOf text span style).covers unit = span.covers place := by
  -- Both ends of a format are lengths of prefixes.
  have stop : (formatOf text span style).start + (formatOf text span style).length =
      Text.units (text.take (span.start + span.length)) := by
    rw [List.take_add, Text.units_append]
    rfl
  have begun : (formatOf text span style).start ≤ unit ↔ span.start ≤ place :=
    units_take_le_iff first last
  have unended : Text.units (text.take (span.start + span.length)) ≤ unit ↔
      span.start + span.length ≤ place := units_take_le_iff first last
  rw [Bool.eq_iff_iff, Span.covers_iff, Format.covers, stop]
  simp only [Bool.and_eq_true, decide_eq_true_eq]
  omega

theorem shown_formats {line : String} (first : Text.units (line.toList.take place) ≤ unit)
    (last : unit < Text.units (line.toList.take (place + 1))) :
    shown (formats line) unit = styleBy rules line.toList place := by
  have same : (fun format : Format => format.covers unit) ∘
      (fun (found : Span × Style) => formatOf line.toList found.1 found.2) =
        fun found => found.1.covers place :=
    funext fun found => covers_formatOf first last
  rw [shown, formats, List.filter_map, same, List.getLast?_map, Option.map_map]
  rfl

end Units

end Highlight

end Pseudocode
