import Mathlib.Data.List.Basic
import Pseudocode.Proofs.Scan

set_option autoImplicit false

namespace Pseudocode

namespace Token

section Runs

variable {p : Char → Bool} {run rest : List Char}

theorem takeWhile_run (all : ∀ c ∈ run, p c = true) (stops : ∀ c ∈ rest.head?, p c = false) :
    (run ++ rest).takeWhile p = run := by
  rw [List.takeWhile_append_of_pos all]
  cases rest with
  | nil => simp
  | cons c rest => simp [stops c rfl]

theorem dropWhile_run (all : ∀ c ∈ run, p c = true) (stops : ∀ c ∈ rest.head?, p c = false) :
    (run ++ rest).dropWhile p = rest := by
  rw [List.dropWhile_append_of_pos all]
  cases rest with
  | nil => rfl
  | cons c rest => simp [stops c rfl]

theorem exists_run (p : Char → Bool) (text : List Char) :
    ∃ run rest, text = run ++ rest ∧ (∀ c ∈ run, p c = true) ∧ ∀ c ∈ rest.head?, p c = false := by
  refine ⟨text.takeWhile p, text.dropWhile p, List.takeWhile_append_dropWhile.symm,
    List.all_eq_true.mp List.all_takeWhile, fun c first => ?_⟩
  have stop := List.head?_dropWhile_not p text
  rw [Option.mem_def.mp first] at stop
  exact stop

end Runs

section Numbers

variable {whole fraction rest : List Char}

theorem numberParts_whole (digits : ∀ c ∈ whole, Text.isDigit c = true)
    (stops : ∀ c ∈ rest.head?, Text.isDigit c = false ∧ c ≠ '.') :
    numberParts (whole ++ rest) = (whole, none, rest) := by
  have noDigit : ∀ c ∈ rest.head?, Text.isDigit c = false := fun c first => (stops c first).1
  rw [numberParts, takeWhile_run digits noDigit, dropWhile_run digits noDigit]
  split
  · exact absurd rfl (stops '.' rfl).2
  · rfl

theorem numberParts_decimal (before : ∀ c ∈ whole, Text.isDigit c = true)
    (after : ∀ c ∈ fraction, Text.isDigit c = true)
    (stops : ∀ c ∈ rest.head?, Text.isDigit c = false) :
    numberParts (whole ++ '.' :: (fraction ++ rest)) = (whole, some fraction, rest) := by
  have point : ∀ c ∈ ('.' :: (fraction ++ rest)).head?, Text.isDigit c = false := by
    intro c first
    obtain rfl : '.' = c := by simpa using first
    decide
  rw [numberParts, takeWhile_run before point, dropWhile_run before point]
  simp only [takeWhile_run after stops, dropWhile_run after stops]

theorem scanNumber_whole {x : Float} (digits : ∀ c ∈ whole, Text.isDigit c = true)
    (stops : ∀ c ∈ rest.head?, Text.isDigit c = false ∧ c ≠ '.')
    (value : Number.literal? whole [] = some x) :
    scanNumber (whole ++ rest) = .ok (number x, rest) := by
  simp [scanNumber, numberParts_whole digits stops, value]

theorem scanNumber_decimal {x : Float} (before : ∀ c ∈ whole, Text.isDigit c = true)
    (after : ∀ c ∈ fraction, Text.isDigit c = true)
    (stops : ∀ c ∈ rest.head?, Text.isDigit c = false)
    (value : Number.literal? whole fraction = some x) :
    scanNumber (whole ++ '.' :: (fraction ++ rest)) = .ok (number x, rest) := by
  simp [scanNumber, numberParts_decimal before after stops, value]

theorem number_cases (text : List Char) :
    (∃ whole rest, text = whole ++ rest ∧ (∀ c ∈ whole, Text.isDigit c = true) ∧
      ∀ c ∈ rest.head?, Text.isDigit c = false ∧ c ≠ '.') ∨
    ∃ whole fraction rest, text = whole ++ '.' :: (fraction ++ rest) ∧
      (∀ c ∈ whole, Text.isDigit c = true) ∧ (∀ c ∈ fraction, Text.isDigit c = true) ∧
      ∀ c ∈ rest.head?, Text.isDigit c = false := by
  obtain ⟨whole, rest, rfl, digits, stops⟩ := exists_run Text.isDigit text
  by_cases point : rest.head? = some '.'
  · obtain ⟨more, rfl⟩ := List.head?_eq_some_iff.mp point
    obtain ⟨fraction, rest, rfl, after, stops⟩ := exists_run Text.isDigit more
    exact .inr ⟨whole, fraction, rest, rfl, digits, after, stops⟩
  · refine .inl ⟨whole, rest, rfl, digits, fun c first => ⟨stops c first, ?_⟩⟩
    rintro rfl
    exact point first

end Numbers

section Words

variable {word rest : List Char}

def opensWord (c : Char) : Bool :=
  Text.isLetter c && !Text.isBlank c && !Text.isDigit c

theorem capital_of_mem {c : Char} (held : ∀ d ∈ Text.capital c, d ∈ ['R', 'E', 'M']) :
    Text.capital c = [c.toUpper] := by
  unfold Text.capital at held ⊢
  split
  · rfl
  next large =>
    rw [if_neg large] at held
    split at held
    -- The last case is any other character, which stands for itself.
    case h_11 =>
      have letter := held c (by simp)
      simp only [List.mem_cons, List.not_mem_nil, or_false] at letter
      rcases letter with rfl | rfl | rfl <;> exact absurd (by decide) large
    all_goals simp at held

theorem remark_letter {c : Char} (held : c.toUpper ∈ ['R', 'E', 'M']) :
    c ∈ ['R', 'E', 'M', 'r', 'e', 'm'] := by
  unfold Char.toUpper at held
  split at held
  next =>
    have code : c.val = (c.val + ('A'.val - 'a'.val)) - ('A'.val - 'a'.val) :=
      (UInt32.add_sub_cancel ..).symm
    simp only [List.mem_cons, List.not_mem_nil, or_false, Char.ext_iff] at held ⊢
    rcases held with upper | upper | upper <;> rw [upper] at code <;> simp [code]
  next =>
    simp only [List.mem_cons] at held ⊢
    tauto

theorem capital_of_toUpper {c : Char} (held : c.toUpper ∈ ['R', 'E', 'M']) :
    Text.capital c = [c.toUpper] := by
  have letters : ['R', 'E', 'M', 'r', 'e', 'm'].all (fun c => Text.capital c == [c.toUpper]) = true := by
    decide
  simpa using List.all_eq_true.mp letters c (remark_letter held)

theorem capitals_eq_remark :
    String.ofList (Text.capitals word) = "REM" ↔ word.map Char.toUpper = ['R', 'E', 'M'] := by
  -- No character beyond ASCII has a capital form that is a letter of the comment's word.
  have listed : "REM" = String.ofList ['R', 'E', 'M'] := rfl
  rw [listed, String.ofList_inj, Text.capitals, List.map_eq_flatMap]
  constructor
  · intro upper
    rw [← upper]
    refine List.flatMap_congr fun c member => (capital_of_mem fun d held => ?_).symm
    exact upper ▸ List.mem_flatMap.mpr ⟨c, member, held⟩
  · intro upper
    rw [← upper]
    refine List.flatMap_congr fun c member => capital_of_toUpper ?_
    exact upper ▸ List.mem_flatMap.mpr ⟨c, member, by simp⟩

theorem remark_word {c : Char} (remark : word.map Char.toUpper = ['R', 'E', 'M']) (member : c ∈ word) :
    opensWord c = true ∧ Text.isWordPart c = true := by
  have letters : ['R', 'E', 'M', 'r', 'e', 'm'].all (fun c => opensWord c && Text.isWordPart c) = true := by
    decide
  simpa using List.all_eq_true.mp letters c (remark_letter (remark ▸ List.mem_map_of_mem member))

theorem scanWord_run (parts : ∀ c ∈ word, Text.isWordPart c = true)
    (stops : ∀ c ∈ rest.head?, Text.isWordPart c = false) :
    scanWord (word ++ rest) =
      if String.ofList (Text.capitals word) = "REM" then (none, afterLine rest)
      else if String.ofList (Text.capitals word) ∈ keywords then
        (some (keyword (String.ofList (Text.capitals word))), rest)
      else (some (identifier (String.ofList word)), rest) := by
  simp only [scanWord, takeWhile_run parts stops, dropWhile_run parts stops, beq_iff_eq,
    List.contains_iff_mem]

theorem afterLine_run (inLine : '\n' ∉ word) (stops : ∀ c ∈ rest.head?, c = '\n') :
    afterLine (word ++ rest) = rest := by
  apply dropWhile_run
  · intro c member
    have other : c ≠ '\n' := by
      rintro rfl
      exact inLine member
    simpa using other
  · intro c first
    simp [stops c first]

theorem exists_line (text : List Char) :
    ∃ line rest, text = line ++ rest ∧ '\n' ∉ line ∧ ∀ c ∈ rest.head?, c = '\n' := by
  obtain ⟨line, rest, rfl, inLine, stops⟩ := exists_run (· != '\n') text
  refine ⟨line, rest, rfl, fun member => ?_, fun c first => ?_⟩
  · exact absurd (inLine '\n' member) (by decide)
  · simpa using stops c first

end Words

section Literals

variable {mark c : Char} {text value rest more : List Char}

inductive Spells (mark : Char) : List Char → List Char → Prop
  | nil : Spells mark [] []
  | plain {c : Char} {text value : List Char} : c ≠ mark → c ≠ '\\' → Spells mark text value →
      Spells mark (c :: text) (c :: value)
  | escape (c : Char) {text value : List Char} : Spells mark text value →
      Spells mark ('\\' :: c :: text) (unescape mark c ++ value)

theorem literalBody_mark : literalBody mark (mark :: rest) = .ok ([], rest) := by
  cases rest <;> simp [literalBody]

theorem literalBody_plain (notMark : c ≠ mark) (noEscape : c ≠ '\\') :
    literalBody mark (c :: rest) =
      (literalBody mark rest).map fun (body, after) => (c :: body, after) := by
  cases rest <;> simp [literalBody, notMark, noEscape, Except.map]

theorem literalBody_escape (notMark : mark ≠ '\\') :
    literalBody mark ('\\' :: c :: rest) =
      (literalBody mark rest).map fun (body, after) => (unescape mark c ++ body, after) := by
  simp [literalBody, notMark.symm]

theorem literalBody_closed (notMark : mark ≠ '\\') (spelled : Spells mark text value) :
    literalBody mark (text ++ mark :: rest) = .ok (value, rest) := by
  induction spelled with
  | nil => exact literalBody_mark
  | plain other noEscape _ ih =>
    rw [List.cons_append, literalBody_plain other noEscape, ih]
    rfl
  | escape c _ ih =>
    rw [List.cons_append, List.cons_append, literalBody_escape notMark, ih]
    rfl

theorem literalBody_unclosed (notMark : mark ≠ '\\') (spelled : Spells mark text value) :
    literalBody mark text = .ok (value, []) := by
  induction spelled with
  | nil => rfl
  | plain other noEscape _ ih =>
    rw [literalBody_plain other noEscape, ih]
    rfl
  | escape c _ ih =>
    rw [literalBody_escape notMark, ih]
    rfl

theorem spells_of_literalBody (read : literalBody mark text = .ok (value, rest)) :
    ∃ body, Spells mark body value ∧ (text = body ++ mark :: rest ∨ text = body ∧ rest = []) := by
  fun_induction literalBody mark text generalizing value rest with
  | case1 => cases read; exact ⟨[], .nil, .inr ⟨rfl, rfl⟩⟩
  | case2 c isMark =>
    cases read
    obtain rfl : c = mark := by simpa using isMark
    exact ⟨[], .nil, .inl rfl⟩
  | case3 => cases read
  | case4 c notMark noEscape =>
    cases read
    exact ⟨[c], .plain (by simpa using notMark) (by simpa using noEscape) .nil, .inr ⟨rfl, rfl⟩⟩
  | case5 c d more isMark =>
    cases read
    obtain rfl : c = mark := by simpa using isMark
    exact ⟨[], .nil, .inl rfl⟩
  | case6 c d more notMark escapes ih =>
    obtain rfl : c = '\\' := by simpa using escapes
    cases inner : literalBody mark more with
    | error cause => simp [inner, Except.map] at read
    | ok found =>
      obtain ⟨rfl, rfl⟩ : unescape mark d ++ found.1 = value ∧ found.2 = rest := by
        simpa [inner, Except.map] using read
      obtain ⟨body, spelled, ends⟩ := ih inner
      exact ⟨'\\' :: d :: body, .escape d spelled, by simpa using ends⟩
  | case7 c d more notMark noEscape ih =>
    cases inner : literalBody mark (d :: more) with
    | error cause => simp [inner, Except.map] at read
    | ok found =>
      obtain ⟨rfl, rfl⟩ : c :: found.1 = value ∧ found.2 = rest := by
        simpa [inner, Except.map] using read
      obtain ⟨body, spelled, ends⟩ := ih inner
      exact ⟨c :: body, .plain (by simpa using notMark) (by simpa using noEscape) spelled,
        by simpa using ends⟩

theorem literalOpen_plain (notMark : c ≠ mark) (noEscape : c ≠ '\\') :
    literalOpen mark (c :: rest) = literalOpen mark rest := by
  cases rest <;> simp [literalOpen, notMark, noEscape]

theorem literalOpen_escape (notMark : mark ≠ '\\') :
    literalOpen mark ('\\' :: c :: rest) = literalOpen mark rest := by
  simp [literalOpen, notMark.symm]

theorem literalOpen_spelled (notMark : mark ≠ '\\') (spelled : Spells mark text value) :
    literalOpen mark (text ++ rest) = literalOpen mark rest := by
  induction spelled with
  | nil => rfl
  | plain other noEscape _ ih => rw [List.cons_append, literalOpen_plain other noEscape, ih]
  | escape c _ ih =>
    rw [List.cons_append, List.cons_append, literalOpen_escape notMark, ih]

theorem literalOpen_unclosed (notMark : mark ≠ '\\') (spelled : Spells mark text value) :
    literalOpen mark text = true := by
  rw [← List.append_nil text, literalOpen_spelled notMark spelled]
  rfl

theorem literalOpen_mark : literalOpen mark (mark :: rest) = false := by
  cases rest <;> simp [literalOpen]

end Literals

section Signs

variable {c : Char} {text rest after : List Char} {kind : Kind} {found : Option Token}

def signs : List (List Char × Kind) :=
  [(['+'], .plus), (['-'], .minus), (['*'], .multiply), (['/'], .divide), (['^'], .pow),
   (['('], .lparen), ([')'], .rparen), (['['], .lbracket), ([']'], .rbracket), ([':'], .colon),
   (['←'], .assign), (['='], .assign), (['<', '-'], .assign), (['=', '='], .equal),
   (['<', '>'], .notEqual), (['!', '='], .notEqual), (['<'], .less), (['<', '='], .lessEqual),
   (['>'], .greater), (['>', '='], .greaterEqual), ([','], .comma), ([';'], .sep)]

def lengthensSign (text : List Char) (c : Char) : Bool :=
  text ++ [c] == ['/', '/'] || signs.any (text ++ [c] == ·.1)

theorem scanSign_of_mem (listed : (text, kind) ∈ signs)
    (stops : ∀ d ∈ rest.head?, lengthensSign text d = false) :
    ∃ c more, text = c :: more ∧ scanSign c (more ++ rest) = .ok (some (Token.mark kind), rest) := by
  simp only [signs, List.mem_cons, Prod.mk.injEq, List.not_mem_nil, or_false] at listed
  rcases listed with ⟨rfl, rfl⟩ | ⟨rfl, rfl⟩ | ⟨rfl, rfl⟩ | ⟨rfl, rfl⟩ | ⟨rfl, rfl⟩ | ⟨rfl, rfl⟩ |
    ⟨rfl, rfl⟩ | ⟨rfl, rfl⟩ | ⟨rfl, rfl⟩ | ⟨rfl, rfl⟩ | ⟨rfl, rfl⟩ | ⟨rfl, rfl⟩ | ⟨rfl, rfl⟩ |
    ⟨rfl, rfl⟩ | ⟨rfl, rfl⟩ | ⟨rfl, rfl⟩ | ⟨rfl, rfl⟩ | ⟨rfl, rfl⟩ | ⟨rfl, rfl⟩ | ⟨rfl, rfl⟩ |
    ⟨rfl, rfl⟩ | ⟨rfl, rfl⟩
  -- A sign that begins no longer one is read whatever follows.
  any_goals exact ⟨_, _, rfl, rfl⟩
  all_goals
    refine ⟨_, _, rfl, ?_⟩
    cases rest <;> simp_all [scanSign, lengthensSign, signs]

theorem exists_sign (read : scanSign c rest = .ok (found, after)) :
    (∃ more kind, (c :: more, kind) ∈ signs ∧ rest = more ++ after ∧ found = some (mark kind) ∧
      ∀ d ∈ after.head?, lengthensSign (c :: more) d = false) ∨
    (c = '/' ∧ found = none ∧ ∃ more, rest = '/' :: more ∧ after = afterLine more) := by
  unfold scanSign at read
  split at read <;> cases read
  -- Signs of one character, then of two, and last the mark of a comment.
  any_goals exact .inl ⟨[], _, by simp [signs], rfl, rfl,
    by cases rest <;> simp_all [lengthensSign, signs]⟩
  any_goals exact .inl ⟨[_], _, by simp [signs], rfl, rfl, by simp [lengthensSign, signs]⟩
  exact .inr ⟨rfl, rfl, _, rfl, rfl⟩

end Signs

def quotes : List Char := ['"', '\'']

theorem ne_escape_of_mem {quote : Char} (quoted : quote ∈ quotes) : quote ≠ '\\' := by
  rintro rfl
  exact absurd quoted (by decide)

/-- The text stands for the token when nothing but the text is read. -/
inductive Lexeme : List Char → Token → Prop
  | sign {text : List Char} {kind : Kind} : (text, kind) ∈ signs → Lexeme text (mark kind)
  | whole {digits : List Char} {x : Float} : digits ≠ [] →
      (∀ c ∈ digits, Text.isDigit c = true) → Number.literal? digits [] = some x →
      Lexeme digits (number x)
  | decimal {before after : List Char} {x : Float} : (∀ c ∈ before, Text.isDigit c = true) →
      (∀ c ∈ after, Text.isDigit c = true) → Number.literal? before after = some x →
      Lexeme (before ++ '.' :: after) (number x)
  | keyword {first : Char} {more : List Char} : opensWord first = true →
      (∀ c ∈ more, Text.isWordPart c = true) →
      String.ofList (Text.capitals (first :: more)) ∈ keywords →
      String.ofList (Text.capitals (first :: more)) ≠ "REM" →
      Lexeme (first :: more) (keyword (String.ofList (Text.capitals (first :: more))))
  | identifier {first : Char} {more : List Char} : opensWord first = true →
      (∀ c ∈ more, Text.isWordPart c = true) →
      String.ofList (Text.capitals (first :: more)) ∉ keywords →
      Lexeme (first :: more) (identifier (String.ofList (first :: more)))
  | literal {quote : Char} {text value : List Char} : quote ∈ quotes → Spells quote text value →
      Lexeme (quote :: (text ++ [quote])) (string (String.ofList value))
  -- A literal that the source does not close goes on to its end.
  | unclosed {quote : Char} {text value : List Char} : quote ∈ quotes → Spells quote text value →
      Lexeme (quote :: text) (string (String.ofList value))

inductive Comment : List Char → Prop
  | slashes {body : List Char} : '\n' ∉ body → Comment ('/' :: '/' :: body)
  | remark {word body : List Char} : word.map Char.toUpper = ['R', 'E', 'M'] →
      (∀ c ∈ body.head?, Text.isWordPart c = false) → '\n' ∉ body → Comment (word ++ body)

end Token

end Pseudocode
