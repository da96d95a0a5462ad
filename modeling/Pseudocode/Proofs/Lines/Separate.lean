import Pseudocode.Proofs.Lines.Break
import Pseudocode.Proofs.Lines.Growth

set_option autoImplicit false

namespace Pseudocode

namespace Grammar

open Parse Mode Node

variable {ts after rest us : List Token} {t : Token} {node first : Node} {nodes more others : List Node}
  {p : Mode} {stop : Token → Bool}

section First

def Begins (t : Token) : Prop :=
  binds t = false ∧ t.isSeparator = false

theorem begins_token
    (isFirst : t.kind ∈ [.identifier, .number, .string, .lparen, .lbracket, .plus, .minus]) :
    Begins t := by
  simp only [List.mem_cons, List.not_mem_nil, or_false] at isFirst
  rcases isFirst with isKind | isKind | isKind | isKind | isKind | isKind | isKind <;>
    simp [Begins, binds, comparisonOf?, connectiveOf?, multiplicativeOf?, Token.isKeyword,
      Token.isSeparator, isKind]

theorem begins_word {word : String} (isWord : t.isKeyword word)
    (other : word ∉ ["AND", "OR", "MOD", "DIV"]) : Begins t := by
  simp only [List.mem_cons, List.not_mem_nil, or_false, not_or] at other
  obtain ⟨noAnd, noOr, noMod, noDiv⟩ := other
  simp [Begins, binds, comparisonOf?, connectiveOf?, multiplicativeOf?, Token.isSeparator,
    kind_of_isKeyword isWord, isKeyword_ne isWord _ noAnd, isKeyword_ne isWord _ noOr,
    isKeyword_ne isWord _ noMod, isKeyword_ne isWord _ noDiv]

def OneOf (kinds : List Token.Kind) (words : List String) (t : Token) : Prop :=
  t.kind ∈ kinds ∨ ∃ word ∈ words, t.isKeyword word

def atomKinds : List Token.Kind := [.identifier, .number, .string, .lparen, .lbracket]

def signKinds : List Token.Kind := [.plus, .minus]

namespace OneOf

variable {kinds moreKinds : List Token.Kind} {words moreWords : List String}

theorem mono (oneOf : OneOf kinds words t) (kindsIn : kinds ⊆ moreKinds) (wordsIn : words ⊆ moreWords) :
    OneOf moreKinds moreWords t := by
  rcases oneOf with isKind | ⟨word, member, isWord⟩
  · exact .inl (kindsIn isKind)
  · exact .inr ⟨word, wordsIn member, isWord⟩

theorem kind_ne {kind : Token.Kind} (oneOf : OneOf kinds words t) (other : kind ∉ .keyword :: kinds) :
    t.kind ≠ kind := by
  rintro rfl
  rcases oneOf with isKind | ⟨word, member, isWord⟩
  · exact other (List.mem_cons_of_mem _ isKind)
  · exact other (by simp [kind_of_isKeyword isWord])

theorem isKeyword_eq_false {word : String} (oneOf : OneOf kinds words t) (other : word ∉ words)
    (noKind : .keyword ∉ kinds) : t.isKeyword word = false := by
  rcases oneOf with isKind | ⟨first, member, isWord⟩
  · have noWord : t.kind ≠ .keyword := fun same => noKind (same ▸ isKind)
    simp [Token.isKeyword, noWord]
  · exact isKeyword_ne isWord word fun same => other (same ▸ member)

end OneOf

theorem Reads.first_of_atom (read : Reads .atom p ts nodes rest) :
    OneOf atomKinds ["TRUE", "FALSE"] (next ts) := by
  cases read with
  | boolean isBoolean =>
    rcases Bool.or_eq_true_iff.mp isBoolean with isWord | isWord <;>
      exact .inr ⟨_, by simp, isWord⟩
  | number isKind => exact .inl (by simp [atomKinds, isKind])
  | string isKind => exact .inl (by simp [atomKinds, isKind])
  | emptyList isKind => exact .inl (by simp [atomKinds, isKind])
  | list isKind => exact .inl (by simp [atomKinds, isKind])
  | parentheses isKind => exact .inl (by simp [atomKinds, isKind])
  | access isKind => exact .inl (by simp [atomKinds, isKind])
  | emptyCall isKind => exact .inl (by simp [atomKinds, isKind])
  | call isKind => exact .inl (by simp [atomKinds, isKind])
  | element isKind => exact .inl (by simp [atomKinds, isKind])

theorem Reads.first_of_factor (read : Reads .factor p ts nodes rest) :
    OneOf (signKinds ++ atomKinds) ["TRUE", "FALSE"] (next ts) := by
  cases read with
  | @signed _ sign op _ _ _ isSign =>
    have isKind : sign.kind ∈ signKinds := by
      unfold signOf? at isSign
      split at isSign <;> simp_all [signKinds]
    exact .inl (List.mem_append_left _ isKind)
  | unsigned _ base =>
    exact base.first_of_atom.mono (List.subset_append_right _ _) (List.Subset.refl _)
  | power _ base =>
    exact base.first_of_atom.mono (List.subset_append_right _ _) (List.Subset.refl _)

theorem Reads.first_of_chain {level : Level} (read : Reads (.chain level) p ts nodes rest) :
    OneOf (signKinds ++ atomKinds) ["TRUE", "FALSE"] (next ts) := by
  have ofTerm {nodes : List Node} {rest : List Token}
      (read : Reads (.chain .multiplicative) p ts nodes rest) :
      OneOf (signKinds ++ atomKinds) ["TRUE", "FALSE"] (next ts) := by
    cases read with
    | chain factor => exact Reads.first_of_factor factor
  cases level with
  | multiplicative => exact ofTerm read
  | additive =>
    cases read with
    | chain term => exact ofTerm term

theorem Reads.first_of_comparison (read : Reads .comparison p ts nodes rest) :
    OneOf (signKinds ++ atomKinds) ["NOT", "TRUE", "FALSE"] (next ts) := by
  cases read with
  | negation isNot => exact .inr ⟨_, by simp, isNot⟩
  | comparison _ sum => exact sum.first_of_chain.mono (List.Subset.refl _) (by simp)

theorem Reads.first_of_statement (read : Reads .statement p ts [node] rest) :
    OneOf (signKinds ++ atomKinds) (["NOT", "TRUE", "FALSE"] ++ statementWords) (next ts) := by
  cases read with
  | assign _ isName => exact .inl (by simp [atomKinds, isName])
  | elementAssign _ isName => exact .inl (by simp [atomKinds, isName])
  | plain _ read =>
    cases isWord : statementWords.any (next ts).isKeyword with
    | false =>
      exact (read.comparison_of_plain isWord).first_of_comparison.mono (List.Subset.refl _)
        (List.subset_append_left _ _)
    | true =>
      obtain ⟨word, member, isWord⟩ := List.any_eq_true.mp isWord
      exact .inr ⟨word, List.mem_append_right _ member, isWord⟩

theorem Reads.begins (read : Reads .statement p ts [node] rest) : Begins (next ts) := by
  rcases read.first_of_statement with isKind | ⟨word, member, isWord⟩
  · have listed : ∀ kind ∈ signKinds ++ atomKinds,
        kind ∈ [.identifier, .number, .string, .lparen, .lbracket, .plus, .minus] := by decide
    exact begins_token (listed _ isKind)
  · have apart : ∀ word ∈ ["NOT", "TRUE", "FALSE"] ++ statementWords,
        word ∉ ["AND", "OR", "MOD", "DIV"] := by decide
    exact begins_word isWord (apart word member)

theorem binds_separator (isSeparator : t.isSeparator = true) : binds t = false := by
  rcases Bool.or_eq_true_iff.mp isSeparator with isKind | isKind <;>
    simp [binds, comparisonOf?, connectiveOf?, multiplicativeOf?, Token.isKeyword, beq_iff_eq.mp isKind]

end First

theorem skip_cons (solid : t.isSeparator = false) : skip (t :: ts) = t :: ts :=
  List.dropWhile_cons_of_neg (by simp [solid])

theorem skip_separator (isSeparator : t.isSeparator = true) : skip (t :: ts) = skip ts :=
  List.dropWhile_cons_of_pos isSeparator

theorem skip_skip_append : skip (skip ts ++ us) = skip (ts ++ us) := by
  induction ts with
  | nil => rfl
  | cons t ts ih =>
    cases here : t.isSeparator with
    | true => rw [skip_separator here, List.cons_append, skip_separator here, ih]
    | false => rw [skip_cons here]

theorem separator_of_skip {final : Token} (skipped : skip ts = []) (suffix : [final] <:+ ts) :
    final.isSeparator = true := by
  have same : ts.takeWhile Token.isSeparator = ts := by
    have parts : ts.takeWhile Token.isSeparator ++ skip ts = ts := List.takeWhile_append_dropWhile
    rwa [skipped, List.append_nil] at parts
  have separators : (ts.takeWhile Token.isSeparator).all Token.isSeparator = true := List.all_takeWhile
  rw [same] at separators
  exact List.all_eq_true.mp separators final (suffix.subset (List.mem_singleton_self final))

theorem Reads.skip_statement (read : Reads .statement p ts [node] rest) (us : List Token) :
    skip (ts ++ us) = ts ++ us := by
  cases ts with
  | nil => exact absurd rfl (read.ne_nil rfl)
  | cons t ts => exact skip_cons read.begins.2

theorem Reads.body_nil (read : Reads (.body stop) p ts [] rest) : rest = ts := by
  cases read
  rfl

theorem Reads.body_ne_nil (read : Reads (.body stop) p ts (first :: others) rest) : ts ≠ [] := by
  cases read with
  | bodyNext _ first => exact first.ne_nil rfl

/-- Whether the first of the further tokens goes on with the last statement, with no separator between
them. -/
def continues (ts : List Token) (nodes : List Node) (us : List Token) : Bool :=
  ts.getLast?.any (!·.isSeparator) && us.head?.any (runsOn ts nodes)

theorem continues_of_suffix (suffix : after <:+ ts) (some : after ≠ []) :
    continues ts nodes us = continues after nodes us := by
  have same : runsOn ts nodes = runsOn after nodes := funext fun _ => runsOn_of_suffix suffix some
  rw [continues, continues, getLast?_of_suffix suffix some, same]

theorem continues_cons (some : nodes ≠ []) : continues ts (node :: nodes) us = continues ts nodes us := by
  have same : runsOn ts (node :: nodes) = runsOn ts nodes := funext fun _ => runsOn_cons some
  rw [continues, continues, same]

theorem continues_skip : continues (skip ts) nodes us = continues ts nodes us := by
  by_cases skipped : skip ts = []
  · rw [skipped, continues, continues]
    cases last : ts.getLast? with
    | none => rfl
    | some final =>
      have suffix : [final] <:+ ts := by
        obtain ⟨init, rfl⟩ := List.getLast?_eq_some_iff.mp last
        exact List.suffix_append init [final]
      simp [separator_of_skip skipped suffix]
  · exact (continues_of_suffix (List.dropWhile_suffix _) skipped).symm

theorem continues_statement (firstRead : Reads .statement p.body ts [first] after)
    (othersRead : Reads (.body stop) p (skip after) more []) :
    continues ts (first :: more) (t :: us) = false ↔
      (after = [] → runsOn ts [first] t = false) ∧ continues (skip after) more (t :: us) = false := by
  have suffix := firstRead.takes.suffix
  cases more with
  | nil =>
    have skipped := othersRead.body_nil
    by_cases ended : after = []
    · subst ended
      obtain ⟨final, last, solid, _⟩ := firstRead.ends
      have here : ts.getLast? = some final := getLast?_of_suffix last nofun
      simp [continues, here, solid, skip]
    · rw [continues_of_suffix suffix ended, ← continues_skip, ← skipped]
      simp [continues, ended]
  | cons second more =>
    have some := othersRead.body_ne_nil
    have goesOn : after ≠ [] := by
      rintro rfl
      exact some rfl
    rw [continues_cons (List.cons_ne_nil _ _), continues_of_suffix suffix goesOn, continues_skip]
    simp [goesOn]

theorem body_statement_iff (goesOn : stop (next ts) = false)
    (firstRead : Reads .statement p.body ts [first] after) (begins : binds t = false)
    (loose : p.careful = false) :
    Reads (.body stop) p (ts ++ t :: us) (first :: others) rest ↔
      (after = [] → runsOn ts [first] t = false) ∧
        Reads (.body stop) p (skip (after ++ t :: us)) others rest := by
  constructor
  · intro longer
    obtain ⟨later, firstLonger, othersLonger⟩ :
        ∃ later, Reads .statement p.body (ts ++ t :: us) [first] later ∧
          Reads (.body stop) p (skip later) others rest := by
      generalize ts ++ t :: us = all at longer
      cases longer with
      | bodyNext _ first others => exact ⟨_, first, others⟩
    -- A statement that the token goes on with would outweigh the one that is there.
    have alone : after = [] → runsOn ts [first] t = false := by
      intro ended
      refine Bool.eq_false_iff.mpr fun joined => ?_
      exact absurd (firstRead.grows begins loose ended joined firstLonger) (Nat.lt_irrefl _)
    obtain ⟨_, rfl⟩ := firstRead.stable begins loose firstLonger fun ended => ⟨rfl, alone ended⟩
    exact ⟨alone, othersLonger⟩
  · rintro ⟨alone, othersRead⟩
    have firstLonger := firstRead.append us begins fun ended => ⟨rfl, alone ended⟩
    exact .bodyNext (by rwa [next_append (firstRead.ne_nil rfl)]) firstLonger othersRead

theorem body_append_iff (read : Reads (.body stop) p ts nodes []) (begins : binds t = false)
    (loose : p.careful = false) :
    Reads (.body stop) p (skip (ts ++ t :: us)) (nodes ++ others) rest ↔
      continues ts nodes (t :: us) = false ∧ Reads (.body stop) p (skip (t :: us)) others rest := by
  induction nodes generalizing ts with
  | nil =>
    obtain rfl := read.body_nil
    simp [continues]
  | cons first nodes ih =>
    cases read with
    | bodyNext goesOn firstRead othersRead =>
      rw [firstRead.skip_statement, List.cons_append, body_statement_iff goesOn firstRead begins loose,
        ← skip_skip_append, ih othersRead, continues_statement firstRead othersRead, and_assoc]

theorem Reads.body_stop (read : Reads (.body stop) p ts nodes rest) : stop (next rest) = true := by
  induction nodes generalizing ts with
  | nil =>
    cases read with
    | bodyEnd ends => exact ends
  | cons first nodes ih =>
    cases read with
    | bodyNext _ _ others => exact ih others

theorem Reads.to_end (solid : ∀ t ∈ ts, t.kind ≠ .none)
    (read : Reads (.body (·.kind == .none)) p (skip ts) nodes rest) : rest = [] := by
  cases rest with
  | nil => rfl
  | cons t rest =>
    have suffix : t :: rest <:+ ts := read.takes.suffix.trans (List.dropWhile_suffix _)
    exact absurd (beq_iff_eq.mp read.body_stop) (solid t (suffix.subset List.mem_cons_self))

theorem Reads.binds_body (read : Reads (.body (·.kind == .none)) p (skip (t :: us)) nodes rest) :
    binds t = false := by
  cases isSeparator : t.isSeparator with
  | true => exact binds_separator isSeparator
  | false =>
    rw [skip_cons isSeparator] at read
    cases read with
    | bodyEnd ends =>
      have isEnd : t.kind = .none := beq_iff_eq.mp ends
      simp [binds, comparisonOf?, connectiveOf?, multiplicativeOf?, Token.isKeyword, isEnd]
    | bodyNext _ first => exact first.begins.1

end Grammar

open Grammar Mode

def ParsesTo (source : String) (nodes : List Node) : Prop :=
  ∃ tokens rest, Token.scan source = .ok tokens ∧
    Node.statements (Node.bound tokens) tokens = .ok (nodes, rest)

theorem parsesTo_iff {source : String} {ts : List Token} {nodes : List Node}
    (scanned : Token.scan source = .ok ts) :
    ParsesTo source nodes ↔ Reads (.body (·.kind == .none)) usual (skip ts) nodes [] := by
  constructor
  · rintro ⟨tokens, rest, same, parsed⟩
    obtain rfl := Except.ok.inj (scanned.symm.trans same)
    have read := Parse.statements_iff.mp parsed
    obtain rfl := read.to_end (Token.scanChars_kind scanned)
    exact read
  · intro read
    exact ⟨ts, [], scanned, Parse.statements_iff.mpr read⟩

/-- Texts that are parsed on their own are parsed with a line break between them as the statements of the
one and then of the other exactly if the first token of the second does not go on with the last statement
of the first. -/
theorem line_break_separates_iff {first second : String} {ts us : List Token} {nodes others : List Node}
    (scanned : Token.scan first = .ok ts) (closed : Token.endsInLiteral first = false)
    (parsed : ParsesTo first nodes) (scannedSecond : Token.scan second = .ok us)
    (parsedSecond : ParsesTo second others) :
    ParsesTo (first ++ "\n" ++ second) (nodes ++ others) ↔ continues ts nodes us = false := by
  have joined : Token.scan (first ++ "\n" ++ second) = .ok (ts ++ us) := by
    rw [Token.scan_line scanned closed, scannedSecond]
    rfl
  rw [parsesTo_iff scanned] at parsed
  rw [parsesTo_iff scannedSecond] at parsedSecond
  rw [parsesTo_iff joined]
  cases us with
  | nil =>
    cases others with
    | nil => simpa [continues] using parsed
    | cons => exact absurd rfl parsedSecond.body_ne_nil
  | cons t us =>
    rw [← skip_skip_append, body_append_iff parsed parsedSecond.binds_body rfl, continues_skip]
    exact and_iff_left parsedSecond

theorem closed_statement_separates :
    let test := [Token.keyword "IF", .identifier "x", .keyword "THEN", .keyword "PRINT",
      .keyword "ENDIF"]
    let name (text : String) := Node.named .access (some text) []
    let choice := Node.of .ifThen [name "x", Node.block [Node.of .print []]]
    let minus := Node.sign .minus (name "y")
    Token.scan "IF x THEN PRINT ENDIF" = .ok test ∧
      Token.endsInLiteral "IF x THEN PRINT ENDIF" = false ∧
      ParsesTo "IF x THEN PRINT ENDIF" [choice] ∧
      Token.scan "-y" = .ok [.mark .minus, .identifier "y"] ∧ ParsesTo "-y" [minus] ∧
      continues test [choice] [.mark .minus, .identifier "y"] = false ∧
      ParsesTo ("IF x THEN PRINT ENDIF" ++ "\n" ++ "-y") [choice, minus] := by
  intro test name choice minus
  have scanned : Token.scan "IF x THEN PRINT ENDIF" = .ok test := by
    rw [Token.scan_eq_within]
    rfl
  have closed : Token.endsInLiteral "IF x THEN PRINT ENDIF" = false := by rfl
  have parsed : ParsesTo "IF x THEN PRINT ENDIF" [choice] := ⟨test, [], scanned, rfl⟩
  have scannedSecond : Token.scan "-y" = .ok [.mark .minus, .identifier "y"] := by
    rw [Token.scan_eq_within]
    rfl
  have parsedSecond : ParsesTo "-y" [minus] := ⟨_, [], scannedSecond, rfl⟩
  have apart : continues test [choice] [.mark .minus, .identifier "y"] = false := by rfl
  exact ⟨scanned, closed, parsed, scannedSecond, parsedSecond, apart,
    (line_break_separates_iff scanned closed parsed scannedSecond parsedSecond).mpr apart⟩

/-- A sign at the start of a line goes on with the expression of the line before. -/
theorem sign_continues_expression :
    let name (text : String) := Node.named .access (some text) []
    let minus := Node.sign .minus (name "y")
    Token.endsInLiteral "x" = false ∧ ParsesTo "x" [name "x"] ∧ ParsesTo "-y" [minus] ∧
      ParsesTo ("x" ++ "\n" ++ "-y") [Node.arithmetic .subtract (name "x") (name "y")] ∧
      ¬ ParsesTo ("x" ++ "\n" ++ "-y") ([name "x"] ++ [minus]) := by
  intro name minus
  have scanned : Token.scan "x" = .ok [.identifier "x"] := by
    rw [Token.scan_eq_within]
    rfl
  have scannedSecond : Token.scan "-y" = .ok [.mark .minus, .identifier "y"] := by
    rw [Token.scan_eq_within]
    rfl
  have joined : Token.scan ("x" ++ "\n" ++ "-y") =
      .ok [.identifier "x", .mark .minus, .identifier "y"] := by
    rw [Token.scan_line scanned rfl, scannedSecond]
    rfl
  refine ⟨rfl, ⟨_, [], scanned, rfl⟩, ⟨_, [], scannedSecond, rfl⟩, ⟨_, [], joined, rfl⟩, ?_⟩
  rintro ⟨tokens, rest, same, parsed⟩
  obtain rfl := Except.ok.inj (joined.symm.trans same)
  have parts := Outcome.ok.inj parsed
  cases congrArg (List.length ∘ Prod.fst) parts

end Pseudocode
