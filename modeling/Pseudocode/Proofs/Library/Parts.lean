import Mathlib.Data.List.Forall2
import Pseudocode.Eval
import Pseudocode.Proofs.Lines.Break
import Pseudocode.Proofs.Lines.Semicolon

set_option autoImplicit false

namespace Pseudocode

open Grammar Mode Node

namespace Parse

variable {α β : Type} {ts us : List Token} {t word : Token} {nodes : List Node}

theorem bind_of_error {p : Parse α} {f : α → Parse β} {cause : ParseError} (failed : p ts = .error cause) :
    (p >>= f) ts = .error cause := by
  change (p ts >>= fun found => f found.1 found.2) = _
  rw [failed]
  rfl

theorem listing_nameless (isWord : definitionWords.any word.isKeyword)
    (noName : (next ts).kind ≠ .identifier) : listing (word :: ts) = .error .defineName := by
  have isKeyword : word.kind = .keyword := by
    obtain ⟨name, _, isWord⟩ := List.any_eq_true.mp isWord
    exact kind_of_isKeyword isWord
  have solid : word.isSeparator = false := by simp [Token.isSeparator, isKeyword]
  have noAssignment : startsAssignment (word :: ts) = false := by
    cases ts <;> simp [startsAssignment, isKeyword]
  have nameless : expect .identifier .defineName ts = .error .defineName := by
    rw [expect, peek_bind, ite_apply, if_neg (by simpa using noName)]
    rfl
  have refused (n : Nat) : run (n + 1) .statement (word :: ts) = .error .defineName := by
    change statement (run n) n (word :: ts) = _
    rw [statement_eq_plain noAssignment, plainStatement_definition isWord, definition]
    exact bind_of_error nameless
  rw [listing_eq (word :: ts) (n := ts.length + 2) (k := ts.length + 2) (by simp) (by simp), skip_cons solid,
    toEnd, statementsUntil, peek_bind, ite_apply, if_neg (by simp [isKeyword]), bind_of_error (refused _)]
  rfl

end Parse

namespace Library

variable {part : String} {parts before after : List String} {t : Token} {ts us : List Token}
  {tokens others : List (List Token)} {nodes : List Node} {cause : ParseError}

section Scan

def Scanned (part : String) (ts : List Token) : Prop :=
  Token.scan part = .ok ts ∧ Token.endsInLiteral part = false

theorem scan_break (rest : String) : Token.scan ("\n" ++ rest) = Token.scan rest := by
  have first : ("\n" ++ rest).toList = '\n' :: rest.toList := by simp
  rw [Token.scan, first, Token.scanChars_blank (by decide), Token.scan]

theorem scan_file (scanned : List.Forall₂ Scanned parts tokens) :
    Token.scan (file parts) = .ok tokens.flatten := by
  induction scanned with
  | nil => exact Token.scanChars_nil
  | @cons part ts parts tokens scanned others ih =>
    cases others with
    | nil =>
      rw [file, String.intercalate_singleton, scanned.1]
      simp
    | @cons second _ parts _ _ _ =>
      have breaks : "\n\n" = "\n" ++ "\n" := rfl
      have parted : file (part :: second :: parts) = part ++ "\n" ++ ("\n" ++ file (second :: parts)) := by
        simp only [file, String.intercalate_cons_cons, breaks, String.append_assoc]
      rw [parted, Token.scan_line scanned.1 scanned.2, scan_break, ih]
      rfl

end Scan

section Parse

def begins (t : Token) : Bool :=
  !binds t && (Parse.additiveOf? t).isNone && !opens t

def complete (nodes : List Node) : Bool :=
  nodes.getLast?.all fun node =>
    match node.ending with
    | .line => false
    | .expression | .closed => true

theorem continues_of_begins (begun : begins t = true) (complete : complete nodes = true) :
    continues ts nodes (t :: us) = false := by
  simp only [begins, Bool.and_eq_true, Bool.not_eq_true', Option.isNone_iff_eq_none] at begun
  have apart (node : Node) (final : Token) (last : nodes.getLast? = some node) :
      joins node final t = false := by
    simp only [Library.complete, last, Option.all_some] at complete
    cases closed : node.ending with
    | line => simp [closed] at complete
    | expression | closed =>
      by_cases inner : final.kind = .rparen <;> simp [joins, inner, closed, begun]
  cases last : nodes.getLast? with
  | none => simp [continues, runsOn, last]
  | some node => simp [continues, runsOn, last, apart node _ last]

def Sound (ts : List Token) : Prop :=
  ts.head?.any begins = true ∧ ∃ nodes, listing ts = .ok nodes ∧ complete nodes = true

instance (ts : List Token) : Decidable (Sound ts) :=
  match parsed : listing ts with
  | .ok nodes =>
    decidable_of_iff (ts.head?.any begins = true ∧ complete nodes = true) (by simp [Sound, parsed])
  | .error _ | .unfinished => isFalse fun sound => by simp [Sound, parsed] at sound

theorem listing_after_parts (scanned : List.Forall₂ Scanned parts tokens) (sound : ∀ ts ∈ tokens, Sound ts)
    (begun : us.head?.any begins = true) (refused : listing us = .error cause) :
    listing (tokens.flatten ++ us) = .error cause := by
  -- From the last part to the first: what follows a part begins with a token that begins a part.
  suffices both : (tokens.flatten ++ us).head?.any begins = true ∧
      listing (tokens.flatten ++ us) = .error cause from both.2
  induction scanned with
  | nil => exact ⟨begun, refused⟩
  | @cons part ts parts tokens scanned _ ih =>
    obtain ⟨⟨first, nodes, parsed, complete⟩, sound⟩ := List.forall_mem_cons.mp sound
    obtain ⟨later, refused⟩ := ih sound
    have read := Parse.statements_iff.mp (parses_of_listing (Token.scanChars_kind scanned.1) parsed)
    rw [List.flatten_cons, List.append_assoc]
    generalize tokens.flatten ++ us = rest at later refused
    cases rest with
    | nil => cases later
    | cons t rest =>
      have unbound : binds t = false := by
        simp only [begins, List.head?_cons, Option.any_some, Bool.and_eq_true, Bool.not_eq_true'] at later
        exact later.1.1
      refine ⟨?_, ?_⟩
      · cases ts with
        | nil => cases first
        | cons => exact first
      · rw [Parse.listing_apart unbound read (continues_of_begins later complete), refused]
        rfl

theorem program_refused (scannedBefore : List.Forall₂ Scanned before tokens)
    (sound : ∀ ts ∈ tokens, Sound ts) (scannedPart : Scanned part ts)
    (scannedAfter : List.Forall₂ Scanned after others) (begun : ts.head?.any begins = true)
    (refused : ∀ us, listing (ts ++ us) = .error cause) :
    Eval.program (file (before ++ part :: after)) = .error (.parse cause) := by
  have scanned : Token.scan (file (before ++ part :: after)) = .ok (tokens.flatten ++ (ts ++ others.flatten)) := by
    rw [scan_file (List.rel_append scannedBefore (.cons scannedPart scannedAfter)), List.flatten_append,
      List.flatten_cons]
  have first : (ts ++ others.flatten).head?.any begins = true := by
    cases ts with
    | nil => cases begun
    | cons => exact begun
  simp only [Eval.program, scanned, ofTokens_eq, listing_after_parts scannedBefore sound first (refused _)]
  rfl

end Parse

end Library

end Pseudocode
