import Pseudocode.Proofs.Highlight.Regex

set_option autoImplicit false

namespace Pseudocode

namespace Highlight

namespace Regex

def matchAt (r : Regex) (text : List Char) (place : Nat) : Option Nat :=
  r.length? (text.take place).getLast? (text.drop place)

/-- The span is the leftmost match that starts at the offset or after it. -/
structure Leftmost (r : Regex) (text : List Char) (offset : Nat) (span : Span) : Prop where
  after : offset ≤ span.start
  inside : span.start ≤ text.length
  found : r.matchAt text span.start = some span.length
  first : ∀ place, offset ≤ place → place < span.start → r.matchAt text place = none

/-- The matches that are found one after the other, each from the end of the one before. An empty match
would be found again from its own end, so that there is no such list. -/
inductive Successive (r : Regex) (text : List Char) : Nat → List Span → Prop
  | done {offset : Nat} :
      (∀ place, offset ≤ place → place ≤ text.length → r.matchAt text place = none) →
      Successive r text offset []
  | next {offset : Nat} {span : Span} {spans : List Span} : r.Leftmost text offset span →
      Successive r text (span.start + span.length) spans → Successive r text offset (span :: spans)

section Search

variable {r : Regex} {text : List Char} {offset : Nat} {span other : Span} {spans others : List Span}

theorem Leftmost.unique (left : r.Leftmost text offset span) (right : r.Leftmost text offset other) :
    span = other := by
  have start : span.start = other.start := by
    rcases Nat.lt_trichotomy span.start other.start with before | same | behind
    · have none := right.first span.start left.after before
      rw [left.found] at none
      cases none
    · exact same
    · have none := left.first other.start right.after behind
      rw [right.found] at none
      cases none
  have length : some span.length = some other.length := by
    rw [← left.found, ← right.found, start]
  cases span
  cases other
  cases start
  cases length
  rfl

theorem Successive.unique (left : r.Successive text offset spans) (right : r.Successive text offset others) :
    spans = others := by
  induction left generalizing others with
  | done nothing =>
    cases right with
    | done => rfl
    | next found =>
      have none := nothing _ found.after found.inside
      rw [found.found] at none
      cases none
  | next found _ ih =>
    cases right with
    | done nothing =>
      have none := nothing _ found.after found.inside
      rw [found.found] at none
      cases none
    | next found' later =>
      cases found.unique found'
      rw [ih later]

theorem Successive.earlier (nothing : r.matchAt text offset = none)
    (later : r.Successive text (offset + 1) spans) : r.Successive text offset spans := by
  have here {place : Nat} (after : offset ≤ place) (before : place < offset + 1) :
      r.matchAt text place = none := by
    obtain rfl : place = offset := by omega
    exact nothing
  cases later with
  | done none =>
    refine .done fun place after inside => ?_
    by_cases before : place < offset + 1
    · exact here after before
    · exact none place (by omega) inside
  | next found rest =>
    refine .next ⟨by have := found.after; omega, found.inside, found.found, fun place after first => ?_⟩ rest
    by_cases before : place < offset + 1
    · exact here after before
    · exact found.first place (by omega) first

theorem Leftmost.ends_inside (found : r.Leftmost text offset span) :
    span.start + span.length ≤ text.length := by
  have length := length?_le found.found
  have inside := found.inside
  rw [List.length_drop] at length
  omega

theorem Successive.bounds (consumes : r.consumes = true) (successive : r.Successive text offset spans) :
    ∀ span ∈ spans, offset ≤ span.start ∧ 0 < span.length ∧ span.start + span.length ≤ text.length := by
  induction successive with
  | done => simp
  | next found _ ih =>
    intro span member
    rcases List.mem_cons.mp member with rfl | later
    · exact ⟨found.after, length?_pos consumes found.found, found.ends_inside⟩
    · have bounds := ih span later
      have after := found.after
      exact ⟨by omega, bounds.2⟩

theorem Successive.ordered (consumes : r.consumes = true) (successive : r.Successive text offset spans) :
    spans.Pairwise fun span next => span.start + span.length ≤ next.start := by
  induction successive with
  | done => exact .nil
  | next _ later ih => exact .cons (fun next member => (later.bounds consumes next member).1) ih

end Search

end Regex

section Spans

variable {pattern : Pattern} {text : List Char} {place : Nat}

theorem successive_spansFrom (proper : pattern.Proper) (consumes : pattern.regex.consumes = true)
    (read rest : List Char) (covered : Nat) :
    pattern.regex.Successive (read ++ rest) (read.length + covered)
      (spansFrom pattern rest read.length read.getLast? covered) := by
  have here : pattern.regex.matchAt (read ++ rest) read.length = pattern.length? read.getLast? rest := by
    rw [Regex.matchAt, List.take_left, List.drop_left, Pattern.length?_eq_regex proper]
  induction rest generalizing read covered with
  | nil =>
    refine .done fun place after inside => ?_
    obtain rfl : place = read.length := by
      rw [List.append_nil] at inside
      omega
    cases found : pattern.regex.matchAt (read ++ []) read.length with
    | none => rfl
    | some length =>
      have := Regex.length?_pos consumes found
      have := Regex.length?_le found
      simp at this
      omega
  | cons c rest ih =>
    have onward (covered : Nat) : pattern.regex.Successive (read ++ c :: rest) (read.length + 1 + covered)
        (spansFrom pattern rest (read.length + 1) (some c) covered) := by
      have later := ih (read ++ [c]) covered (by
        rw [Regex.matchAt, List.take_left, List.drop_left, Pattern.length?_eq_regex proper])
      simpa using later
    cases covered with
    | succ covered =>
      rw [spansFrom, Nat.add_comm covered 1, ← Nat.add_assoc]
      exact onward covered
    | zero =>
      rw [spansFrom]
      split
      next more found =>
        refine .next ⟨Nat.le_refl _, by simp, here.trans found, fun place after before => ?_⟩ ?_
        · exact absurd before (by simpa using after)
        · have later := onward more
          rwa [Nat.add_assoc, Nat.add_comm 1 more] at later
      next unmatched =>
        refine Regex.Successive.earlier ?_ (onward 0)
        cases found : pattern.regex.matchAt (read ++ c :: rest) read.length with
        | none => rfl
        | some length =>
          cases length with
          | zero => exact absurd (Regex.length?_pos consumes found) (Nat.lt_irrefl 0)
          | succ more => exact absurd (here.symm.trans found) (unmatched more)

theorem successive_spans {rule : Rule} (listed : rule ∈ rules) (text : List Char) :
    rule.pattern.regex.Successive text 0 (spans rule.pattern text) :=
  successive_spansFrom (Pattern.proper_of_mem rule listed) (Pattern.consumes_regex rule listed) [] text 0

end Spans

section Picture

variable {rules : List Rule} {rule : Rule} {text : List Char} {place : Nat}

def Rule.finds (rule : Rule) (text : List Char) (place : Nat) : Bool :=
  (spans rule.pattern text).any (·.covers place)

def lastFinding (rules : List Rule) (text : List Char) (place : Nat) : Option Rule :=
  (rules.filter (·.finds text place)).getLast?

theorem finds_iff : rule.finds text place = true ↔ Covered rule.pattern text place := by
  simp [Rule.finds, Covered]

theorem styleBy_single : styleBy [rule] text place = if rule.finds text place then some rule.style else none := by
  split
  next finds => exact styleBy_of_covered (by simp) List.mem_cons_self (finds_iff.mp finds)
  next finds =>
    refine styleBy_of_uncovered fun other listed => ?_
    rw [List.mem_singleton.mp listed, ← finds_iff]
    exact finds

theorem styleBy_eq_lastFinding (rules : List Rule) (text : List Char) (place : Nat) :
    styleBy rules text place = (lastFinding rules text place).map (·.style) := by
  induction rules with
  | nil => rfl
  | cons rule later ih =>
    change styleBy ([rule] ++ later) text place = (lastFinding ([rule] ++ later) text place).map (·.style)
    rw [styleBy_append, styleBy_single, ih, lastFinding, lastFinding, List.filter_append, List.getLast?_append]
    cases (later.filter (·.finds text place)).getLast? with
    | some last => rfl
    | none => cases finds : rule.finds text place <;> simp [finds]

end Picture

/-- The search of every rule ends, and what it finds are the successive leftmost matches of its expression:
none is empty, all lie inside the text, and each starts at the end of the one before or after it. The
formats are set rule by rule, so that a character is shown in the style of the last rule that has found
it. -/
theorem highlighting_layers (line : String) :
    (∀ rule ∈ rules,
      rule.pattern.regex.written = rule.pattern.expression ∧
      (∀ found, rule.pattern.regex.Successive line.toList 0 found ↔ found = spans rule.pattern line.toList) ∧
      (∀ span ∈ spans rule.pattern line.toList,
        0 < span.length ∧ span.start + span.length ≤ line.toList.length) ∧
      (spans rule.pattern line.toList).Pairwise fun span next => span.start + span.length ≤ next.start) ∧
    formats line = rules.flatMap (fun rule =>
      (spans rule.pattern line.toList).map (formatOf line.toList · rule.style)) ∧
    ∀ place unit, Text.units (line.toList.take place) ≤ unit → unit < Text.units (line.toList.take (place + 1)) →
      shown (formats line) unit = (lastFinding rules line.toList place).map (·.style) := by
  refine ⟨fun rule listed => ?_, ?_, fun place unit first last => ?_⟩
  · have consumes := Pattern.consumes_regex rule listed
    have successive := successive_spans listed line.toList
    refine ⟨Pattern.written_regex rule listed, fun found => ?_, fun span member => ?_, ?_⟩
    · constructor
      · exact fun other => other.unique successive
      · rintro rfl
        exact successive
    · exact (successive.bounds consumes span member).2
    · exact successive.ordered consumes
  · simp [formats, styled, List.map_flatMap, Function.comp_def]
  · rw [shown_formats first last, styleBy_eq_lastFinding]

theorem comment_over_keyword :
    let keyword : Rule := ⟨.word "IF", .keyword⟩
    let comment : Rule := ⟨.comment, .comment⟩
    keyword ∈ rules ∧ comment ∈ rules ∧
      keyword.pattern.regex.Successive "IF a // IF".toList 0 [⟨0, 2⟩, ⟨8, 2⟩] ∧
      comment.pattern.regex.Successive "IF a // IF".toList 0 [⟨5, 5⟩] ∧
      shown (formats "IF a // IF") 0 = some .keyword ∧ shown (formats "IF a // IF") 3 = none ∧
      shown (formats "IF a // IF") 8 = some .comment := by
  intro keyword comment
  have listed : keyword ∈ rules ∧ comment ∈ rules := by decide
  obtain ⟨finds, _, layers⟩ := highlighting_layers "IF a // IF"
  refine ⟨listed.1, listed.2, ?_, ?_, ?_, ?_, ?_⟩
  · exact ((finds keyword listed.1).2.1 _).mpr (by decide +kernel)
  · exact ((finds comment listed.2).2.1 _).mpr (by decide +kernel)
  · exact (layers 0 0 (by decide +kernel) (by decide +kernel)).trans (by decide +kernel)
  · exact (layers 3 3 (by decide +kernel) (by decide +kernel)).trans (by decide +kernel)
  · exact (layers 8 8 (by decide +kernel) (by decide +kernel)).trans (by decide +kernel)

end Highlight

end Pseudocode
