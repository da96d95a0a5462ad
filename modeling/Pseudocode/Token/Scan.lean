import Pseudocode.Token
import Pseudocode.Number.Read

set_option autoImplicit false

namespace Pseudocode

inductive ScanError where
  | loneExclamation
  | illegal (c : Char)
  | danglingEscape
  | notDecimal (digits : String)
  deriving Repr, DecidableEq

namespace ScanError

def message : ScanError → String
  | .loneExclamation => "Invalid character after '!'"
  | .illegal c => "Illegal character '" ++ c.toString ++ "'"
  | .danglingEscape => "can only concatenate str (not \"NoneType\") to str"
  | .notDecimal digits => "could not convert string to float: " ++ Text.quoted digits

end ScanError

namespace Token

def keywords : List String :=
  ["IF", "THEN", "ELSE", "ELIF", "ENDIF", "FOR", "TO", "STEP", "NEXT", "WHILE", "DO", "ENDWHILE",
   "DEF", "ENDEF", "RETURN", "PRINT", "INPUT", "AND", "OR", "NOT", "TRUE", "FALSE", "INCLUDE",
   "REPEAT", "UNTIL", "CASE", "OF", "OTHERWISE", "ENDCASE", "DECLARE", "FUNCTION", "ENDFUNCTION",
   "PROCEDURE", "ENDPROCEDURE", "RETURNS", "MOD", "DIV", "REM", "ARRAY", "INTEGER", "REAL",
   "STRING", "BOOLEAN"]

def afterLine (text : List Char) : List Char :=
  text.dropWhile (· != '\n')

def numberParts (text : List Char) : List Char × Option (List Char) × List Char :=
  let whole := text.takeWhile Text.isDigit
  match text.dropWhile Text.isDigit with
  | '.' :: more => (whole, some (more.takeWhile Text.isDigit), more.dropWhile Text.isDigit)
  | rest => (whole, .none, rest)

def numberText (whole : List Char) : Option (List Char) → List Char
  | .none => whole
  | some fraction =>
    (if whole.isEmpty then ['0'] else whole) ++ '.' ::
      (if fraction.isEmpty then ['0'] else fraction)

def scanNumber (text : List Char) : Except ScanError (Token × List Char) :=
  let (whole, fraction, rest) := numberParts text
  match Number.literal? whole (fraction.getD []) with
  | some x => .ok (number x, rest)
  | .none => .error (.notDecimal (String.ofList (numberText whole fraction)))

def scanWord (text : List Char) : Option Token × List Char :=
  let word := text.takeWhile Text.isWordPart
  let rest := text.dropWhile Text.isWordPart
  let upper := String.ofList (Text.capitals word)
  if upper == "REM" then (.none, afterLine rest)
  else if keywords.contains upper then (some (keyword upper), rest)
  else (some (identifier (String.ofList word)), rest)

def unescape (mark c : Char) : List Char :=
  if c == 'n' then ['\n']
  else if c == 't' then ['\t']
  else if c == '\\' then ['\\']
  else if c == mark then [mark]
  else ['\\', c]

def literalBody (mark : Char) : List Char → Except ScanError (List Char × List Char)
  | [] => .ok ([], [])
  | [c] =>
    if c == mark then .ok ([], [])
    else if c == '\\' then .error .danglingEscape
    else .ok ([c], [])
  | c :: d :: rest =>
    if c == mark then .ok ([], d :: rest)
    else if c == '\\' then
      (literalBody mark rest).map fun (body, after) => (unescape mark d ++ body, after)
    else (literalBody mark (d :: rest)).map fun (body, after) => (c :: body, after)

def scanLiteral (quote : Char) (text : List Char) : Except ScanError (Token × List Char) :=
  (literalBody quote text).map fun (body, rest) => (string (String.ofList body), rest)

def scanSign (c : Char) (rest : List Char) : Except ScanError (Option Token × List Char) :=
  match c, rest with
  | '+', _ => .ok (some (mark .plus), rest)
  | '-', _ => .ok (some (mark .minus), rest)
  | '*', _ => .ok (some (mark .multiply), rest)
  | '/', '/' :: more => .ok (.none, afterLine more)
  | '/', _ => .ok (some (mark .divide), rest)
  | '^', _ => .ok (some (mark .pow), rest)
  | '(', _ => .ok (some (mark .lparen), rest)
  | ')', _ => .ok (some (mark .rparen), rest)
  | '[', _ => .ok (some (mark .lbracket), rest)
  | ']', _ => .ok (some (mark .rbracket), rest)
  | ':', _ => .ok (some (mark .colon), rest)
  | '←', _ => .ok (some (mark .assign), rest)
  | '=', '=' :: more => .ok (some (mark .equal), more)
  | '=', _ => .ok (some (mark .assign), rest)
  | '<', '=' :: more => .ok (some (mark .lessEqual), more)
  | '<', '-' :: more => .ok (some (mark .assign), more)
  | '<', '>' :: more => .ok (some (mark .notEqual), more)
  | '<', _ => .ok (some (mark .less), rest)
  | '>', '=' :: more => .ok (some (mark .greaterEqual), more)
  | '>', _ => .ok (some (mark .greater), rest)
  | '!', '=' :: more => .ok (some (mark .notEqual), more)
  | '!', _ => .error .loneExclamation
  | ',', _ => .ok (some (mark .comma), rest)
  | ';', _ => .ok (some (mark .sep), rest)
  | c, _ => .error (.illegal c)

def scanStep (c : Char) (rest : List Char) : Except ScanError (Option Token × List Char) :=
  -- A line end is a blank, so no newline token is ever made.
  if Text.isBlank c then .ok (.none, rest)
  else if Text.isDigit c || c == '.' then
    (scanNumber (c :: rest)).map fun (t, after) => (some t, after)
  else if Text.isLetter c then .ok (scanWord (c :: rest))
  else if c == '"' || c == '\'' then
    (scanLiteral c rest).map fun (t, after) => (some t, after)
  else scanSign c rest

theorem length_dropWhile_le {α : Type} (p : α → Bool) (l : List α) :
    (l.dropWhile p).length ≤ l.length :=
  (List.dropWhile_sublist p).length_le

theorem length_dropWhile_cons_le {α : Type} {p : α → Bool} {a : α} (h : p a = true) (l : List α) :
    ((a :: l).dropWhile p).length ≤ l.length := by
  rw [List.dropWhile_cons_of_pos h]
  exact length_dropWhile_le p l

theorem literalBody_length {mark : Char} {text body rest : List Char}
    (h : literalBody mark text = .ok (body, rest)) : rest.length ≤ text.length := by
  fun_induction literalBody mark text generalizing body rest with
  | case1 => cases h; simp
  | case2 => cases h; simp
  | case3 => cases h
  | case4 => cases h; simp
  | case5 => cases h; simp
  | case6 c d more _ _ ih =>
    cases hr : literalBody mark more with
    | error e => simp [hr, Except.map] at h
    | ok p =>
      obtain ⟨b, r⟩ := p
      simp [hr, Except.map] at h
      have := ih hr
      simp [← h.2]; omega
  | case7 c d more _ _ ih =>
    cases hr : literalBody mark (d :: more) with
    | error e => simp [hr, Except.map] at h
    | ok p =>
      obtain ⟨b, r⟩ := p
      simp [hr, Except.map] at h
      have := ih hr
      simp [← h.2] at this ⊢; omega

theorem isWordPart_of_isLetter {c : Char} (h : Text.isLetter c = true) : Text.isWordPart c = true := by
  unfold Text.isLetter at h
  unfold Text.isWordPart
  split at h
  · simp_all [Char.isAlphanum]
  · simp_all

theorem scanWord_length {c : Char} (letter : Text.isLetter c = true) (rest : List Char) :
    (scanWord (c :: rest)).2.length ≤ rest.length := by
  have cut := length_dropWhile_cons_le (isWordPart_of_isLetter letter) rest
  unfold scanWord
  simp only []
  split
  · exact Nat.le_trans (length_dropWhile_le _ _) cut
  · split <;> exact cut

theorem numberParts_length {c : Char} (start : (Text.isDigit c || c == '.') = true)
    (rest : List Char) : (numberParts (c :: rest)).2.2.length ≤ rest.length := by
  unfold numberParts
  simp only []
  by_cases digit : Text.isDigit c = true
  · have cut := length_dropWhile_cons_le digit rest
    split
    · next more heq =>
      rw [heq] at cut
      simp only [List.length_cons] at cut
      have := length_dropWhile_le Text.isDigit more
      simp only []
      omega
    · simpa using cut
  · have point : c = '.' := by simpa [digit] using start
    subst point
    have keep : (('.' :: rest).dropWhile Text.isDigit) = '.' :: rest := by
      rw [List.dropWhile_cons_of_neg digit]
    rw [keep]
    exact length_dropWhile_le _ _

theorem scanSign_length {c : Char} {rest after : List Char} {t : Option Token}
    (h : scanSign c rest = .ok (t, after)) : after.length ≤ rest.length := by
  unfold scanSign at h
  split at h <;> first
    | (cases h; done)
    | (cases h; simp; done)
    | (cases h; exact Nat.le_trans (length_dropWhile_le _ _) (by simp))

theorem scanStep_length {c : Char} {rest after : List Char} {t : Option Token}
    (h : scanStep c rest = .ok (t, after)) : after.length ≤ rest.length := by
  unfold scanStep at h
  split at h
  · cases h; exact Nat.le_refl _
  split at h
  · next start =>
    unfold scanNumber at h
    have cut := numberParts_length start rest
    revert h
    generalize numberParts (c :: rest) = parts at cut
    obtain ⟨whole, fraction, more⟩ := parts
    simp only []
    cases Number.literal? whole (fraction.getD []) <;> intro h <;> simp [Except.map] at h
    rw [← h.2]; exact cut
  split at h
  · next letter =>
    have cut := scanWord_length letter rest
    simp only [Except.ok.injEq] at h
    rw [h] at cut
    exact cut
  split at h
  · unfold scanLiteral at h
    cases hb : literalBody c rest with
    | error e => simp [hb, Except.map] at h
    | ok p =>
      obtain ⟨body, more⟩ := p
      simp [hb, Except.map] at h
      rw [← h.2]
      exact literalBody_length hb
  · exact scanSign_length h

def scanChars : List Char → Except ScanError (List Token)
  | [] => .ok []
  | c :: rest =>
    match h : scanStep c rest with
    | .error e => .error e
    | .ok (found, after) =>
      have : after.length ≤ rest.length := scanStep_length h
      (scanChars after).map fun tokens => found.toList ++ tokens
termination_by text => text.length
decreasing_by simp only [List.length_cons]; omega

def scan (source : String) : Except ScanError (List Token) :=
  scanChars source.toList

end Token

end Pseudocode
