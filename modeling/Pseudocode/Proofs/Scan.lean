import Pseudocode.Token.Scan

set_option autoImplicit false

namespace Pseudocode

namespace Token

theorem scanChars_nil : scanChars [] = .ok [] := by
  rw [scanChars]

theorem scanChars_cons {c : Char} {rest after : List Char} {found : Option Token}
    (cut : scanStep c rest = .ok (found, after)) :
    scanChars (c :: rest) = (scanChars after).map (found.toList ++ ·) := by
  rw [scanChars]
  split
  next e h => simp [cut] at h
  next found' after' h =>
    obtain ⟨rfl, rfl⟩ : found = found' ∧ after = after' := by simpa [cut] using h
    rfl

theorem scanChars_error {c : Char} {rest : List Char} {cause : ScanError}
    (cut : scanStep c rest = .error cause) : scanChars (c :: rest) = .error cause := by
  rw [scanChars]
  split
  next e h => simpa [cut, eq_comm] using h
  next h => simp [cut] at h

theorem scanChars_induction {motive : List Char → List Token → Prop} (nil : motive [] [])
    (step : ∀ {c rest found after tokens}, scanStep c rest = .ok (found, after) →
      motive after tokens → motive (c :: rest) (found.toList ++ tokens))
    {text : List Char} {tokens : List Token} (read : scanChars text = .ok tokens) :
    motive text tokens := by
  -- The recursion is well-founded on the length, so the induction is on a bound for it.
  obtain ⟨n, enough⟩ : ∃ n, text.length ≤ n := ⟨_, Nat.le_refl _⟩
  induction n generalizing text tokens with
  | zero =>
    obtain rfl := List.length_eq_zero_iff.mp (Nat.le_zero.mp enough)
    obtain rfl : [] = tokens := by simpa [scanChars_nil] using read
    exact nil
  | succ n ih =>
    cases text with
    | nil =>
      obtain rfl : [] = tokens := by simpa [scanChars_nil] using read
      exact nil
    | cons c rest =>
      cases cut : scanStep c rest with
      | error cause => rw [scanChars_error cut] at read; cases read
      | ok pair =>
        have shorter := scanStep_length cut
        simp only [List.length_cons] at enough
        rw [scanChars_cons cut] at read
        cases later : scanChars pair.2 with
        | error cause => simp [later, Except.map] at read
        | ok tokens =>
          obtain rfl : pair.1.toList ++ tokens = _ := by simpa [later, Except.map] using read
          exact step cut (ih later (by omega))

def scanWithin : Nat → List Char → Except ScanError (List Token)
  | _, [] => .ok []
  | 0, _ => .ok []
  | n + 1, c :: rest =>
    match scanStep c rest with
    | .error cause => .error cause
    | .ok (found, after) => (scanWithin n after).map (found.toList ++ ·)

theorem scanWithin_eq (n : Nat) (text : List Char) (enough : text.length ≤ n) :
    scanWithin n text = scanChars text := by
  induction n generalizing text with
  | zero =>
    obtain rfl := List.length_eq_zero_iff.mp (Nat.le_zero.mp enough)
    simp [scanWithin, scanChars_nil]
  | succ n ih =>
    cases text with
    | nil => simp [scanWithin, scanChars_nil]
    | cons c rest =>
      cases cut : scanStep c rest with
      | error cause => simp [scanWithin, cut, scanChars_error cut]
      | ok found =>
        obtain ⟨token, after⟩ := found
        have shorter := scanStep_length cut
        simp only [List.length_cons] at enough
        simp only [scanWithin, cut, scanChars_cons cut, ih after (by omega)]

theorem scan_eq_within (source : String) :
    scan source = scanWithin source.toList.length source.toList :=
  (scanWithin_eq _ _ (Nat.le_refl _)).symm

theorem scan_ofList (text : List Char) : scan (String.ofList text) = scanWithin text.length text := by
  rw [scan_eq_within, String.toList_ofList]

def literalOpen (mark : Char) : List Char → Bool
  | [] => true
  | [c] => c != mark
  | c :: d :: rest =>
    if c == mark then false
    else if c == '\\' then literalOpen mark rest
    else literalOpen mark (d :: rest)

def openWithin : Nat → List Char → Bool
  | _, [] => false
  | 0, _ => false
  | n + 1, c :: rest =>
    (c == '"' || c == '\'') && literalOpen c rest ||
      match scanStep c rest with
      | .error _ => false
      | .ok (_, after) => openWithin n after

def endsInLiteral (source : String) : Bool :=
  openWithin source.toList.length source.toList

structure Made (token : Token) : Prop where
  kind : token.kind ≠ .none
  keyword : token.kind = .keyword → ∃ word ∈ keywords, token.name = some word

end Token

end Pseudocode
