import Pseudocode.Proofs.Highlight.Spans

/-!
The patterns as regular expressions. Tried at a place of a text, an expression can match in several ways,
which are listed in the order in which they are preferred: a repetition takes as much as it can and gives
back step by step, and what is optional is taken first. The match is the first way of the list.

An expression that is proper matches as its pattern does, and never nothing.
-/

set_option autoImplicit false

namespace Pseudocode

namespace Highlight

inductive CharSet where
  | only (c : Char)
  | digit
  | noneOf (excluded : List Char)
  | inLine
  deriving Repr, DecidableEq

namespace CharSet

def accepts : CharSet → Char → Bool
  | .only c, d => d == c
  | .digit, d => d.isDigit
  | .noneOf excluded, d => !excluded.contains d
  | .inLine, d => d != '\n'

def special : List Char := ['+', '*', '^', '.', '\\']

def writtenChar (c : Char) : String :=
  if c == '\n' then "\\n"
  else if special.contains c then "\\" ++ c.toString
  else c.toString

def written : CharSet → String
  | .only c => writtenChar c
  | .digit => "[0-9]"
  | .noneOf excluded => "[^" ++ String.join (excluded.map writtenChar) ++ "]"
  | .inLine => "."

end CharSet

inductive Regex where
  | empty
  | set (chars : CharSet)
  | boundary
  | seq (first second : Regex)
  | optional (inner : Regex)
  | star (inner : Regex)
  | plus (inner : Regex)
  deriving Repr, DecidableEq

structure Cursor where
  before : Option Char
  rest : List Char
  deriving Repr, DecidableEq

def Cursor.atBoundary (here : Cursor) : Bool :=
  startsWord here.before != isWordEnd here.rest

namespace Regex

def takeOne (chars : CharSet) : Cursor → List Cursor
  | ⟨_, []⟩ => []
  | ⟨_, c :: rest⟩ => if chars.accepts c then [⟨some c, rest⟩] else []

def rounds (step : Cursor → List Cursor) : Nat → Cursor → List Cursor
  | 0, here => [here]
  | n + 1, here =>
    ((step here).filter fun next => next.rest.length < here.rest.length).flatMap (rounds step n) ++ [here]

/-- Where the matches of an expression end that begin here, the preferred ones first. -/
def ends : Regex → Cursor → List Cursor
  | .empty, here => [here]
  | .set chars, here => takeOne chars here
  | .boundary, here => if here.atBoundary then [here] else []
  | .seq first second, here => (first.ends here).flatMap second.ends
  | .optional inner, here => inner.ends here ++ [here]
  | .star inner, here => rounds inner.ends here.rest.length here
  | .plus inner, here => (inner.ends here).flatMap fun next => rounds inner.ends next.rest.length next

def length? (r : Regex) (before : Option Char) (text : List Char) : Option Nat :=
  (r.ends ⟨before, text⟩).head?.map fun last => text.length - last.rest.length

def literal : List Char → Regex
  | [] => .empty
  | c :: rest => .seq (.set (.only c)) (literal rest)

def written : Regex → String
  | .empty => ""
  | .set chars => chars.written
  | .boundary => "\\b"
  | .seq first second => first.written ++ second.written
  | .optional inner => "(" ++ inner.written ++ ")?"
  | .star (.set chars) => chars.written ++ "*"
  | .star inner => "(" ++ inner.written ++ ")*"
  | .plus (.set chars) => chars.written ++ "+"
  | .plus inner => "(" ++ inner.written ++ ")+"

section Ends

variable {r : Regex} {chars : CharSet} {here next : Cursor} {before : Option Char} {c : Char} {rest : List Char}

theorem rounds_stable (step : Cursor → List Cursor) {n k : Nat} (here : Cursor)
    (less : here.rest.length ≤ n) (less' : here.rest.length ≤ k) :
    rounds step n here = rounds step k here := by
  -- A round takes a character at least, so there are no more rounds than characters.
  induction n generalizing k here with
  | zero =>
    have none : ∀ next : Cursor, ¬ next.rest.length < here.rest.length := fun next => by omega
    cases k with
    | zero => rfl
    | succ k => simp [rounds, none]
  | succ n ih =>
    cases k with
    | zero =>
      have none : ∀ next : Cursor, ¬ next.rest.length < here.rest.length := fun next => by omega
      simp [rounds, none]
    | succ k =>
      simp only [rounds]
      congr 1
      apply List.flatMap_congr
      intro next member
      have shorter : next.rest.length < here.rest.length := by simpa using (List.mem_filter.mp member).2
      exact ih next (by omega) (by omega)

theorem ends_star (here : Cursor) :
    r.star.ends here =
      ((r.ends here).filter fun next => next.rest.length < here.rest.length).flatMap r.star.ends ++ [here] := by
  rw [ends, rounds_stable r.ends here (Nat.le_refl _) (Nat.le_succ _), rounds]
  congr 1
  apply List.flatMap_congr
  intro next member
  have shorter : next.rest.length < here.rest.length := by simpa using (List.mem_filter.mp member).2
  exact rounds_stable r.ends next (Nat.le_of_lt shorter) (Nat.le_refl _)

theorem ends_plus (here : Cursor) : r.plus.ends here = (r.ends here).flatMap r.star.ends := rfl

theorem ends_seq {s : Regex} (here : Cursor) : (r.seq s).ends here = (r.ends here).flatMap s.ends := rfl

theorem ends_set_nil : (set chars).ends ⟨before, []⟩ = [] := rfl

theorem ends_set_accepted (accepted : chars.accepts c = true) :
    (set chars).ends ⟨before, c :: rest⟩ = [⟨some c, rest⟩] := by
  simp [ends, takeOne, accepted]

theorem ends_set_refused (refused : chars.accepts c = false) : (set chars).ends ⟨before, c :: rest⟩ = [] := by
  simp [ends, takeOne, refused]

theorem ends_star_set_nil : (star (set chars)).ends ⟨before, []⟩ = [⟨before, []⟩] := rfl

theorem ends_star_set_accepted (accepted : chars.accepts c = true) :
    (star (set chars)).ends ⟨before, c :: rest⟩ =
      (star (set chars)).ends ⟨some c, rest⟩ ++ [⟨before, c :: rest⟩] := by
  rw [ends_star, ends_set_accepted accepted]
  simp

theorem ends_star_of_refused (refused : r.ends here = []) : r.star.ends here = [here] := by
  rw [ends_star, refused]
  rfl

theorem rounds_shorter {step : Cursor → List Cursor} {n : Nat}
    (member : next ∈ rounds step n here) : next.rest.length ≤ here.rest.length := by
  induction n generalizing here with
  | zero => exact List.mem_singleton.mp member ▸ Nat.le_refl _
  | succ n ih =>
    rcases List.mem_append.mp member with later | last
    · obtain ⟨middle, taken, later⟩ := List.mem_flatMap.mp later
      have shorter : middle.rest.length < here.rest.length := by simpa using (List.mem_filter.mp taken).2
      exact Nat.le_trans (ih later) (Nat.le_of_lt shorter)
    · exact List.mem_singleton.mp last ▸ Nat.le_refl _

theorem ends_shorter (member : next ∈ r.ends here) : next.rest.length ≤ here.rest.length := by
  induction r generalizing here next with
  | empty => exact List.mem_singleton.mp member ▸ Nat.le_refl _
  | set chars =>
    obtain ⟨before, rest⟩ := here
    cases rest with
    | nil => cases member
    | cons c rest =>
      cases accepted : chars.accepts c with
      | true =>
        rw [ends_set_accepted accepted, List.mem_singleton] at member
        simp [member]
      | false =>
        rw [ends_set_refused accepted] at member
        cases member
  | boundary =>
    rw [ends] at member
    split at member
    · exact List.mem_singleton.mp member ▸ Nat.le_refl _
    · cases member
  | seq first second ihFirst ihSecond =>
    obtain ⟨middle, taken, later⟩ := List.mem_flatMap.mp member
    exact Nat.le_trans (ihSecond later) (ihFirst taken)
  | optional inner ih =>
    rcases List.mem_append.mp member with taken | last
    · exact ih taken
    · exact List.mem_singleton.mp last ▸ Nat.le_refl _
  | star inner => exact rounds_shorter member
  | plus inner ih =>
    obtain ⟨middle, taken, later⟩ := List.mem_flatMap.mp member
    exact Nat.le_trans (rounds_shorter later) (ih taken)

def consumes : Regex → Bool
  | .empty | .boundary | .optional _ | .star _ => false
  | .set _ => true
  | .seq first second => first.consumes || second.consumes
  | .plus inner => inner.consumes

theorem ends_consumed (consumes : r.consumes = true) (member : next ∈ r.ends here) :
    next.rest.length < here.rest.length := by
  induction r generalizing here next with
  | empty | boundary | optional _ | star _ => cases consumes
  | set chars =>
    obtain ⟨before, rest⟩ := here
    cases rest with
    | nil => cases member
    | cons c rest =>
      cases accepted : chars.accepts c with
      | true =>
        rw [ends_set_accepted accepted, List.mem_singleton] at member
        simp [member]
      | false =>
        rw [ends_set_refused accepted] at member
        cases member
  | seq first second ihFirst ihSecond =>
    obtain ⟨middle, taken, later⟩ := List.mem_flatMap.mp member
    rcases Bool.or_eq_true_iff.mp consumes with consumed | consumed
    · exact Nat.lt_of_le_of_lt (ends_shorter later) (ihFirst consumed taken)
    · exact Nat.lt_of_lt_of_le (ihSecond consumed later) (ends_shorter taken)
  | plus inner ih =>
    obtain ⟨middle, taken, later⟩ := List.mem_flatMap.mp member
    exact Nat.lt_of_le_of_lt (rounds_shorter later) (ih consumes taken)

theorem length?_le {text : List Char} {n : Nat} (found : r.length? before text = some n) :
    n ≤ text.length := by
  obtain ⟨last, _, rfl⟩ := Option.map_eq_some_iff.mp found
  exact Nat.sub_le _ _

theorem length?_pos {text : List Char} {n : Nat} (consumes : r.consumes = true)
    (found : r.length? before text = some n) : 0 < n := by
  obtain ⟨last, first, rfl⟩ := Option.map_eq_some_iff.mp found
  exact Nat.sub_pos_of_lt (ends_consumed consumes (List.mem_of_head? first))

theorem ends_star_of_taking (takes : ∀ next ∈ r.ends here, next.rest.length < here.rest.length) :
    r.star.ends here = (r.ends here).flatMap r.star.ends ++ [here] := by
  rw [ends_star, List.filter_eq_self.mpr]
  simpa using takes

theorem getLast?_cons_or (d : Char) (word : List Char) (before : Option Char) :
    word.getLast?.or (some d) = (d :: word).getLast?.or before := by
  rw [List.getLast?_cons]
  cases word.getLast? <;> rfl

theorem ends_literal (word : List Char) (before : Option Char) (text : List Char) :
    (literal word).ends ⟨before, text⟩ =
      if word.isPrefixOf text then [⟨word.getLast?.or before, text.drop word.length⟩] else [] := by
  induction word generalizing before text with
  | nil => rfl
  | cons c word ih =>
    cases text with
    | nil => rfl
    | cons d text =>
      by_cases same : d = c
      · subst same
        have accepted : (CharSet.only d).accepts d = true := beq_self_eq_true d
        rw [literal, ends_seq, ends_set_accepted accepted, List.flatMap_singleton, ih,
          getLast?_cons_or d word before]
        simp [List.isPrefixOf]
      · have refused : (CharSet.only c).accepts d = false := beq_eq_false_iff_ne.mpr same
        have other : (c == d) = false := beq_eq_false_iff_ne.mpr (Ne.symm same)
        rw [literal, ends_seq, ends_set_refused refused, List.isPrefixOf, other]
        rfl

end Ends

theorem head_star_set (chars : CharSet) (before : Option Char) (text : List Char) :
    ((star (set chars)).ends ⟨before, text⟩).head?.map (·.rest) = some (text.dropWhile chars.accepts) := by
  induction text generalizing before with
  | nil => rfl
  | cons c text ih =>
    cases accepted : chars.accepts c with
    | true =>
      obtain ⟨first, firstEnd, rest⟩ := Option.map_eq_some_iff.mp (ih (some c))
      rw [ends_star_set_accepted accepted, List.head?_append, firstEnd, List.dropWhile_cons_of_pos accepted]
      exact congrArg some rest
    | false =>
      rw [ends_star_of_refused (ends_set_refused accepted),
        List.dropWhile_cons_of_neg (by simp [accepted])]
      rfl

theorem ends_digits {next : Cursor → List Cursor}
    (inside : ∀ {c d : Char} {rest : List Char}, c.isDigit = true → d.isDigit = true →
      next ⟨some c, d :: rest⟩ = [])
    {c : Char} (digit : c.isDigit = true) (text : List Char) :
    ∃ d, d.isDigit = true ∧ ((star (set .digit)).ends ⟨some c, text⟩).flatMap next =
      next ⟨some d, text.dropWhile Char.isDigit⟩ := by
  -- Digits are not given back where what follows cannot stand between two of them.
  induction text generalizing c with
  | nil => exact ⟨c, digit, by simp [ends_star_set_nil]⟩
  | cons d text ih =>
    cases another : d.isDigit with
    | true =>
      have accepted : CharSet.digit.accepts d = true := another
      obtain ⟨last, isDigit, same⟩ := ih another
      refine ⟨last, isDigit, ?_⟩
      rw [ends_star_set_accepted accepted, List.flatMap_append, same, List.flatMap_singleton,
        inside digit another, List.append_nil, List.dropWhile_cons_of_pos another]
    | false =>
      have refused : CharSet.digit.accepts d = false := another
      refine ⟨c, digit, ?_⟩
      rw [ends_star_of_refused (ends_set_refused refused), List.flatMap_singleton,
        List.dropWhile_cons_of_neg (by simp [another])]

end Regex

namespace Pattern

def regex : Pattern → Regex
  | .word letters => .seq .boundary (.seq (.literal letters.toList) .boundary)
  | .number =>
    .seq .boundary (.seq (.plus (.set .digit))
      (.seq (.optional (.seq (.set (.only '.')) (.plus (.set .digit)))) .boundary))
  | .quoted mark => .seq (.set (.only mark)) (body mark)
  | .sign text => .literal text.toList
  | .comment => .seq (.literal ['/', '/']) (.star (.set (.noneOf ['\n'])))
where
  plain (mark : Char) : Regex := .star (.set (.noneOf [mark, '\\']))
  escaped (mark : Char) : Regex := .seq (.set (.only '\\')) (.seq (.set .inLine) (plain mark))
  closing (mark : Char) : Regex := .seq (.star (escaped mark)) (.set (.only mark))
  body (mark : Char) : Regex := .seq (plain mark) (closing mark)

def Proper : Pattern → Prop
  | .word letters => letters.toList ≠ [] ∧ ∀ c ∈ letters.toList, isWordChar c = true
  | .quoted mark => mark ≠ '\\'
  | .sign text => text.toList ≠ []
  | .number | .comment => True

instance : DecidablePred Proper := fun pattern =>
  match pattern with
  -- The letters are gone through, not all characters.
  | .word letters => @instDecidableAnd _ _ inferInstance (List.decidableBAll _ letters.toList)
  | .quoted _ => inferInstanceAs (Decidable (_ ≠ _))
  | .sign _ => inferInstanceAs (Decidable (_ ≠ _))
  | .number | .comment => inferInstanceAs (Decidable True)

theorem proper_of_mem : ∀ rule ∈ rules, rule.pattern.Proper := by decide

theorem consumes_regex : ∀ rule ∈ rules, rule.pattern.regex.consumes = true := by decide

theorem written_regex : ∀ rule ∈ rules, rule.pattern.regex.written = rule.pattern.expression := by
  decide

section Words

variable {letters : String} {before : Option Char} {text rest : List Char} {c : Char} {here : Cursor}
  {next : Cursor → List Cursor}

theorem ends_boundary : Regex.boundary.ends here = if here.atBoundary then [here] else [] := rfl

theorem flatMap_boundary :
    (Regex.boundary.ends here).flatMap next = if here.atBoundary then next here else [] := by
  rw [ends_boundary]
  cases here.atBoundary <;> simp

theorem atBoundary_before (word : isWordChar c = true) :
    (Cursor.mk before (c :: rest)).atBoundary = startsWord before := by
  simp [Cursor.atBoundary, isWordEnd, word]

theorem atBoundary_after (word : isWordChar c = true) :
    (Cursor.mk (some c) rest).atBoundary = isWordEnd rest := by
  simp [Cursor.atBoundary, startsWord, word]

theorem length?_word (proper : (Pattern.word letters).Proper) :
    (Pattern.word letters).length? before text = (Pattern.word letters).regex.length? before text := by
  obtain ⟨some_letter, isWord⟩ := proper
  unfold Regex.length? Pattern.length? regex
  dsimp only
  generalize letters.toList = word at some_letter isWord
  rw [Regex.ends_seq, flatMap_boundary, Regex.ends_seq, Regex.ends_literal]
  cases begins : word.isPrefixOf text with
  | false => simp
  | true =>
    -- The first and the last letter are on the inner sides of the two boundaries.
    obtain ⟨rest, rfl⟩ := List.isPrefixOf_iff_prefix.mp begins
    obtain ⟨last, ended⟩ : ∃ last, word.getLast? = some last :=
      ⟨_, List.getLast?_eq_some_getLast some_letter⟩
    have lastWord : isWordChar last = true := isWord last (List.mem_of_getLast? ended)
    obtain ⟨first, more, rfl⟩ := List.exists_cons_of_ne_nil some_letter
    have firstWord : isWordChar first = true := isWord first List.mem_cons_self
    rw [List.cons_append, atBoundary_before firstWord, ← List.cons_append, ended]
    simp only [if_true, List.flatMap_singleton, Option.some_or, ends_boundary, List.drop_left,
      atBoundary_after lastWord]
    have length : (first :: more ++ rest).length - rest.length = (first :: more).length := by
      rw [List.length_append, Nat.add_sub_cancel]
    cases startsWord before with
    | false => rfl
    | true =>
      cases isWordEnd rest with
      | false => rfl
      | true => exact congrArg some length.symm

end Words

section Numbers

variable {before : Option Char} {text rest : List Char} {c d : Char}

theorem isWordChar_of_isDigit (digit : c.isDigit = true) : isWordChar c = true := by
  simp [isWordChar, Char.isAlphanum, digit]

theorem no_boundary_inside (first : c.isDigit = true) (second : d.isDigit = true) :
    Regex.boundary.ends ⟨some c, d :: rest⟩ = [] := by
  rw [ends_boundary, atBoundary_after (isWordChar_of_isDigit first)]
  simp [isWordEnd, isWordChar_of_isDigit second]

def fractionEnd : Regex :=
  .seq (.optional (.seq (.set (.only '.')) (.plus (.set .digit)))) .boundary

theorem no_fractionEnd_inside (first : c.isDigit = true) (second : d.isDigit = true) :
    fractionEnd.ends ⟨some c, d :: rest⟩ = [] := by
  have noPoint : (CharSet.only '.').accepts d = false := by
    apply beq_eq_false_iff_ne.mpr
    rintro rfl
    cases second
  rw [fractionEnd, Regex.ends_seq, Regex.ends, Regex.ends_seq, Regex.ends_set_refused noPoint]
  simp [no_boundary_inside first second]

def numberRest (rest : List Char) : Option (List Char) :=
  match rest with
  | '.' :: more =>
    if !(more.takeWhile Char.isDigit).isEmpty && isWordEnd (more.dropWhile Char.isDigit) then
      some (more.dropWhile Char.isDigit)
    else some rest
  | _ => if isWordEnd rest then some rest else none

theorem head_fractionEnd (digit : c.isDigit = true) (rest : List Char) :
    (fractionEnd.ends ⟨some c, rest⟩).head?.map (·.rest) = numberRest rest := by
  have word := isWordChar_of_isDigit digit
  rw [fractionEnd, Regex.ends_seq, Regex.ends, Regex.ends_seq]
  unfold numberRest
  split
  next more =>
    have point : (CharSet.only '.').accepts '.' = true := rfl
    have whole : Regex.boundary.ends ⟨some c, '.' :: more⟩ = [⟨some c, '.' :: more⟩] := by
      rw [ends_boundary, atBoundary_after word]
      rfl
    rw [Regex.ends_set_accepted point, List.flatMap_singleton, List.flatMap_append, List.flatMap_singleton,
      whole, Regex.ends_plus]
    cases more with
    | nil => rfl
    | cons d more =>
      cases another : d.isDigit with
      | false =>
        have refused : CharSet.digit.accepts d = false := another
        simp [Regex.ends_set_refused refused, another]
      | true =>
        have accepted : CharSet.digit.accepts d = true := another
        obtain ⟨last, lastDigit, same⟩ := Regex.ends_digits no_boundary_inside another more
        rw [Regex.ends_set_accepted accepted, List.flatMap_singleton, same, ends_boundary,
          atBoundary_after (isWordChar_of_isDigit lastDigit), List.takeWhile_cons_of_pos another,
          List.dropWhile_cons_of_pos another]
        cases isWordEnd (more.dropWhile Char.isDigit) <;> rfl
  next noPoint =>
    have refused : (Regex.set (.only '.')).ends ⟨some c, rest⟩ = [] := by
      cases rest with
      | nil => rfl
      | cons d more =>
        apply Regex.ends_set_refused
        apply beq_eq_false_iff_ne.mpr
        rintro rfl
        exact noPoint more rfl
    rw [refused]
    simp only [List.flatMap_nil, List.nil_append, List.flatMap_singleton, ends_boundary,
      atBoundary_after word]
    cases isWordEnd rest <;> rfl

theorem numberLength_cons (digit : c.isDigit = true) (text : List Char) :
    numberLength (c :: text) =
      (numberRest (text.dropWhile Char.isDigit)).map fun rest => (c :: text).length - rest.length := by
  have cut : (text.takeWhile Char.isDigit).length + (text.dropWhile Char.isDigit).length = text.length := by
    rw [← List.length_append, List.takeWhile_append_dropWhile]
  unfold numberLength
  rw [List.takeWhile_cons_of_pos digit, List.dropWhile_cons_of_pos digit]
  generalize text.takeWhile Char.isDigit = digits at cut
  generalize text.dropWhile Char.isDigit = rest at cut
  unfold numberRest
  split
  next more =>
    have cutMore : (more.takeWhile Char.isDigit).length + (more.dropWhile Char.isDigit).length =
        more.length := by
      rw [← List.length_append, List.takeWhile_append_dropWhile]
    change (if (!(more.takeWhile Char.isDigit).isEmpty && isWordEnd (more.dropWhile Char.isDigit)) = true
      then some ((c :: digits).length + 1 + (more.takeWhile Char.isDigit).length)
      else some (c :: digits).length) = _
    rw [List.length_cons] at cut
    split
    · refine congrArg some ?_
      simp only [List.length_cons]
      omega
    · refine congrArg some ?_
      simp only [List.length_cons]
      omega
  next noPoint =>
    have length : (c :: text).length - rest.length = (c :: digits).length := by
      simp only [List.length_cons]
      omega
    simp only [List.isEmpty_cons, Bool.false_or]
    cases isWordEnd rest with
    | false => rfl
    | true =>
      simp only [Bool.not_true, Bool.false_eq_true, if_false, if_true, Option.map_some, length]

theorem length?_number :
    Pattern.number.length? before text = Pattern.number.regex.length? before text := by
  unfold Regex.length? Pattern.length? regex
  rw [Regex.ends_seq, flatMap_boundary, Regex.ends_seq, Regex.ends_plus]
  cases text with
  | nil => cases startsWord before <;> simp [numberLength, Regex.ends_set_nil]
  | cons c text =>
    cases digit : c.isDigit with
    | false =>
      have refused : CharSet.digit.accepts c = false := digit
      cases startsWord before <;> simp [numberLength, Regex.ends_set_refused refused, digit]
    | true =>
      have accepted : CharSet.digit.accepts c = true := digit
      obtain ⟨last, lastDigit, same⟩ := Regex.ends_digits no_fractionEnd_inside digit text
      rw [atBoundary_before (isWordChar_of_isDigit digit), numberLength_cons digit,
        ← head_fractionEnd lastDigit, Option.map_map, ← same, Regex.ends_set_accepted accepted,
        List.flatMap_singleton]
      cases startsWord before <;> rfl

end Numbers

section Literals

variable {mark c : Char} {before : Option Char} {text : List Char}

theorem plain_accepts : (CharSet.noneOf [mark, '\\']).accepts c = true ↔ c ≠ mark ∧ c ≠ '\\' := by
  simp [CharSet.accepts]

theorem plain_refused (special : c = mark ∨ c = '\\') :
    (regex.plain mark).ends ⟨before, c :: text⟩ = [⟨before, c :: text⟩] := by
  apply Regex.ends_star_of_refused
  apply Regex.ends_set_refused
  rcases special with rfl | rfl <;> simp [CharSet.accepts]

theorem escaped_refused (unescaped : c ≠ '\\') : (regex.escaped mark).ends ⟨before, c :: text⟩ = [] := by
  have refused : (CharSet.only '\\').accepts c = false := beq_eq_false_iff_ne.mpr unescaped
  rw [regex.escaped, Regex.ends_seq, Regex.ends_set_refused refused]
  rfl

theorem closing_of_unescaped {here : Cursor} (unescaped : (regex.escaped mark).ends here = []) :
    (regex.closing mark).ends here = (Regex.set (.only mark)).ends here := by
  rw [regex.closing, Regex.ends_seq, Regex.ends_star_of_refused unescaped, List.flatMap_singleton]

theorem closing_refused (unmarked : c ≠ mark) (unescaped : c ≠ '\\') :
    (regex.closing mark).ends ⟨before, c :: text⟩ = [] := by
  have refused : (CharSet.only mark).accepts c = false := beq_eq_false_iff_ne.mpr unmarked
  rw [closing_of_unescaped (escaped_refused unescaped), Regex.ends_set_refused refused]

theorem ends_closing_mark (proper : mark ≠ '\\') :
    (regex.closing mark).ends ⟨before, mark :: text⟩ = [⟨some mark, text⟩] := by
  have accepted : (CharSet.only mark).accepts mark = true := beq_self_eq_true mark
  rw [closing_of_unescaped (escaped_refused proper), Regex.ends_set_accepted accepted]

theorem closing_lone_escape (proper : mark ≠ '\\') : (regex.closing mark).ends ⟨before, ['\\']⟩ = [] := by
  have refused : (CharSet.only mark).accepts '\\' = false := beq_eq_false_iff_ne.mpr (Ne.symm proper)
  have unescaped : (regex.escaped mark).ends ⟨before, ['\\']⟩ = [] := rfl
  rw [closing_of_unescaped unescaped, Regex.ends_set_refused refused]

theorem ends_closing_escape (proper : mark ≠ '\\') :
    (regex.closing mark).ends ⟨before, '\\' :: c :: text⟩ =
      if c == '\n' then [] else (regex.body mark).ends ⟨some c, text⟩ := by
  have escapes : (CharSet.only '\\').accepts '\\' = true := rfl
  have noMark : (CharSet.only mark).accepts '\\' = false := beq_eq_false_iff_ne.mpr (Ne.symm proper)
  have taken : (regex.escaped mark).ends ⟨before, '\\' :: c :: text⟩ =
      if c == '\n' then [] else (regex.plain mark).ends ⟨some c, text⟩ := by
    rw [regex.escaped, Regex.ends_seq, Regex.ends_set_accepted escapes, List.flatMap_singleton, Regex.ends_seq]
    cases line : c == '\n' with
    | true =>
      have refused : CharSet.inLine.accepts c = false := by simp [CharSet.accepts, bne, line]
      rw [Regex.ends_set_refused refused]
      rfl
    | false =>
      have accepted : CharSet.inLine.accepts c = true := by simp [CharSet.accepts, bne, line]
      rw [Regex.ends_set_accepted accepted, List.flatMap_singleton]
      rfl
  have takes : ∀ next ∈ (regex.escaped mark).ends ⟨before, '\\' :: c :: text⟩,
      next.rest.length < ('\\' :: c :: text).length := by
    intro next member
    rw [taken] at member
    split at member
    · cases member
    · have shorter : next.rest.length ≤ text.length := Regex.ends_shorter member
      simp only [List.length_cons]
      omega
  rw [regex.closing, Regex.ends_seq, Regex.ends_star_of_taking takes, List.flatMap_append,
    List.flatMap_singleton, Regex.ends_set_refused noMark, List.append_nil, taken, List.flatMap_assoc]
  split <;> rfl

theorem ends_body (proper : mark ≠ '\\') (before : Option Char) (text : List Char) :
    (regex.body mark).ends ⟨before, text⟩ =
      ((literalLength mark text).map fun n => Cursor.mk (some mark) (text.drop n)).toList := by
  fun_induction literalLength mark text generalizing before with
  | case1 => rfl
  | case2 c rest line =>
    rw [regex.body, Regex.ends_seq, plain_refused (.inr rfl), List.flatMap_singleton,
      ends_closing_escape proper, if_pos line]
    rfl
  | case3 c rest line ih =>
    rw [regex.body, Regex.ends_seq, plain_refused (.inr rfl), List.flatMap_singleton,
      ends_closing_escape proper, if_neg line, ih, Option.map_map]
    rfl
  | case4 c rest _ isMark =>
    obtain rfl : c = mark := by simpa using isMark
    rw [regex.body, Regex.ends_seq, plain_refused (.inl rfl), List.flatMap_singleton,
      ends_closing_mark proper]
    rfl
  | case5 c rest alone unmarked escapes =>
    obtain rfl : c = '\\' := by simpa using escapes
    cases rest with
    | nil =>
      rw [regex.body, Regex.ends_seq, plain_refused (.inr rfl), List.flatMap_singleton,
        closing_lone_escape proper]
      rfl
    | cons d rest => exact (alone d rest rfl rfl).elim
  | case6 c rest _ unmarked unescaped ih =>
    have other : c ≠ mark := by simpa using unmarked
    have plain : c ≠ '\\' := by simpa using unescaped
    have accepted : (CharSet.noneOf [mark, '\\']).accepts c = true := plain_accepts.mpr ⟨other, plain⟩
    have goesOn := ih (some c)
    rw [regex.body, Regex.ends_seq, regex.plain] at goesOn ⊢
    rw [Regex.ends_star_set_accepted accepted, List.flatMap_append, List.flatMap_singleton,
      closing_refused other plain, List.append_nil, goesOn, Option.map_map]
    rfl

theorem literalLength_le {n : Nat} (found : literalLength mark text = some n) : n ≤ text.length := by
  fun_induction literalLength mark text generalizing n with
  | case1 => cases found
  | case2 => cases found
  | case3 c rest _ ih =>
    obtain ⟨inner, inside, rfl⟩ := Option.map_eq_some_iff.mp found
    have := ih inside
    simp only [List.length_cons]
    omega
  | case4 =>
    cases found
    simp
  | case5 => cases found
  | case6 c rest _ _ _ ih =>
    obtain ⟨inner, inside, rfl⟩ := Option.map_eq_some_iff.mp found
    have := ih inside
    simp only [List.length_cons]
    omega

theorem length?_quoted (proper : (Pattern.quoted mark).Proper) :
    (Pattern.quoted mark).length? before text = (Pattern.quoted mark).regex.length? before text := by
  unfold Regex.length? Pattern.length? regex
  rw [Regex.ends_seq]
  cases text with
  | nil => rfl
  | cons c text =>
    cases isMark : c == mark with
    | false =>
      have refused : (CharSet.only mark).accepts c = false := isMark
      rw [Regex.ends_set_refused refused]
      simp [isMark]
    | true =>
      have accepted : (CharSet.only mark).accepts c = true := isMark
      rw [Regex.ends_set_accepted accepted, List.flatMap_singleton, ends_body proper]
      simp only [isMark, if_true]
      cases found : literalLength mark text with
      | none => rfl
      | some n =>
        have := literalLength_le found
        simp [List.length_drop]
        omega

end Literals

section Matches

variable {pattern : Pattern} {before : Option Char} {text : List Char}

theorem length?_comment :
    Pattern.comment.length? before text = Pattern.comment.regex.length? before text := by
  unfold Regex.length? Pattern.length? regex
  dsimp only
  rw [Regex.ends_seq, Regex.ends_literal]
  split
  next rest =>
    have cut : (rest.takeWhile (· != '\n')).length + (rest.dropWhile (· != '\n')).length = rest.length := by
      rw [← List.length_append, List.takeWhile_append_dropWhile]
    have accepts : (CharSet.noneOf ['\n']).accepts = (· != '\n') := by
      funext c
      simp [CharSet.accepts, bne, beq_eq_decide]
    obtain ⟨last, lastEnd, same⟩ :=
      Option.map_eq_some_iff.mp (Regex.head_star_set (.noneOf ['\n']) (some '/') rest)
    rw [accepts] at same
    change _ = Option.map _ (List.flatMap _ [Cursor.mk (some '/') rest]).head?
    rw [List.flatMap_singleton, lastEnd, Option.map_some, same]
    simp only [List.length_cons, Option.some.injEq]
    omega
  next noSlashes =>
    have differs : ['/', '/'].isPrefixOf text = false := by
      apply Bool.eq_false_iff.mpr
      intro begins
      obtain ⟨rest, same⟩ := List.isPrefixOf_iff_prefix.mp begins
      exact noSlashes rest same.symm
    rw [differs]
    rfl

theorem length?_sign {sign : String} :
    (Pattern.sign sign).length? before text = (Pattern.sign sign).regex.length? before text := by
  unfold Regex.length? Pattern.length? regex
  dsimp only
  rw [Regex.ends_literal]
  cases begins : sign.toList.isPrefixOf text with
  | false => rfl
  | true =>
    obtain ⟨rest, rfl⟩ := List.isPrefixOf_iff_prefix.mp begins
    simp

theorem length?_eq_regex (proper : pattern.Proper) :
    pattern.length? before text = pattern.regex.length? before text := by
  cases pattern with
  | word letters => exact length?_word proper
  | number => exact length?_number
  | quoted mark => exact length?_quoted proper
  | sign sign => exact length?_sign
  | comment => exact length?_comment

end Matches

end Pattern

end Highlight

end Pseudocode
