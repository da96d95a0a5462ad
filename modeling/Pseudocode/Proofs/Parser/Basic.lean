import Pseudocode.Proofs.Grammar

set_option autoImplicit false

namespace Pseudocode

namespace Parse

open Grammar

variable {α β : Type} {ts rest : List Token}

theorem bind_ok {p : Parse α} {f : α → Parse β} {b : β} :
    (p >>= f) ts = .ok (b, rest) ↔ ∃ a mid, p ts = .ok (a, mid) ∧ f a mid = .ok (b, rest) := by
  change (p ts >>= fun found => f found.1 found.2) = _ ↔ _
  rw [Outcome.bind_eq_ok]
  constructor
  · rintro ⟨⟨a, mid⟩, first, second⟩
    exact ⟨a, mid, first, second⟩
  · rintro ⟨a, mid, first, second⟩
    exact ⟨(a, mid), first, second⟩

theorem pure_ok {a b : α} : (pure a : Parse α) ts = .ok (b, rest) ↔ b = a ∧ rest = ts := by
  change Outcome.ok (a, ts) = _ ↔ _
  simp [eq_comm]

theorem map_ok {p : Parse α} {f : α → β} {b : β} :
    (f <$> p) ts = .ok (b, rest) ↔ ∃ a, p ts = .ok (a, rest) ∧ b = f a := by
  change (p ts >>= fun found => pure (f found.1, found.2)) = _ ↔ _
  rw [Outcome.bind_eq_ok]
  constructor
  · rintro ⟨⟨a, mid⟩, first, second⟩
    obtain ⟨rfl, rfl⟩ : f a = b ∧ mid = rest := by simpa using second
    exact ⟨a, first, rfl⟩
  · rintro ⟨a, first, rfl⟩
    exact ⟨(a, rest), first, rfl⟩

theorem fail_ok {cause : ParseError} {a : α} : (fail cause : Parse α) ts = .ok (a, rest) ↔ False := by
  simp [fail]

theorem unfinished_ok {a : α} : (unfinished : Parse α) ts = .ok (a, rest) ↔ False := by
  simp [unfinished]

theorem peek_bind {f : Token → Parse β} : (peek >>= f) ts = f (next ts) ts := rfl

theorem advance_bind {f : Unit → Parse β} : (advance >>= f) ts = f () ts.tail := rfl

theorem skip_bind {f : Unit → Parse β} :
    (skipSeparators >>= f) ts = f () (ts.dropWhile Token.isSeparator) := rfl

theorem ite_apply {condition : Prop} [Decidable condition] {p q : Parse α} :
    (if condition then p else q) ts = if condition then p ts else q ts := by
  split <;> rfl

theorem ite_ok {condition : Prop} [Decidable condition] {p q : Parse α} {a : α} :
    (if condition then p else q) ts = .ok (a, rest) ↔
      condition ∧ p ts = .ok (a, rest) ∨ ¬ condition ∧ q ts = .ok (a, rest) := by
  split <;> simp_all

theorem next_kind {kind : Token.Kind} (real : kind ≠ .none)
    (here : (next ts).kind = kind) : ∃ t mid, ts = t :: mid ∧ t.kind = kind := by
  cases ts with
  | nil => exact absurd here.symm real
  | cons t mid => exact ⟨t, mid, rfl, here⟩

theorem next_word {word : String} (here : (next ts).isKeyword word = true) :
    ∃ t mid, ts = t :: mid ∧ t.isKeyword word = true := by
  cases ts with
  | nil => simp [Token.stop, Token.mark, Token.isKeyword] at here
  | cons t mid => exact ⟨t, mid, rfl, here⟩

theorem expect_ok {kind : Token.Kind} (real : kind ≠ .none) {cause : ParseError} {t : Token} :
    expect kind cause ts = .ok (t, rest) ↔ ts = t :: rest ∧ t.kind = kind := by
  rw [expect, peek_bind, ite_apply]
  by_cases here : (next ts).kind = kind
  · obtain ⟨head, mid, rfl, same⟩ := next_kind real here
    rw [if_pos (by simpa using here), advance_bind, pure_ok]
    constructor
    · rintro ⟨rfl, rfl⟩
      exact ⟨rfl, same⟩
    · rintro ⟨heads, _⟩
      simpa [eq_comm] using heads
  · rw [if_neg (by simpa using here)]
    constructor
    · intro accepted
      exact absurd accepted (by simp [fail])
    · rintro ⟨rfl, same⟩
      exact absurd same here

theorem expectWord_ok {word : String} {cause : ParseError} {u : Unit} :
    expectWord word cause ts = .ok (u, rest) ↔ ∃ t, ts = t :: rest ∧ t.isKeyword word = true := by
  rw [expectWord, peek_bind, ite_apply]
  by_cases here : (next ts).isKeyword word = true
  · obtain ⟨head, mid, rfl, same⟩ := next_word here
    rw [if_pos here]
    constructor
    · intro accepted
      obtain rfl : mid = rest := by simpa [advance] using accepted
      exact ⟨head, rfl, same⟩
    · rintro ⟨t, heads, _⟩
      obtain ⟨rfl, rfl⟩ := List.cons.inj heads
      rfl
  · rw [if_neg here]
    constructor
    · intro accepted
      exact absurd accepted (by simp [fail])
    · rintro ⟨t, rfl, same⟩
      exact absurd same here

theorem takeWord_bind {word : String} {f : Bool → Parse β} :
    (takeWord word >>= f) ts =
      if (next ts).isKeyword word then f true ts.tail else f false ts := by
  change ((if (next ts).isKeyword word then _ else _ : Parse Bool) ts >>= fun found =>
    f found.1 found.2) = _
  split <;> rfl

theorem takeWord_ok {word : String} {f : Bool → Parse β} {b : β} :
    (takeWord word >>= f) ts = .ok (b, rest) ↔
      (∃ t mid, ts = t :: mid ∧ t.isKeyword word = true ∧ f true mid = .ok (b, rest)) ∨
      ((next ts).isKeyword word = false ∧ f false ts = .ok (b, rest)) := by
  rw [takeWord_bind]
  by_cases here : (next ts).isKeyword word = true
  · obtain ⟨t, mid, rfl, same⟩ := next_word here
    rw [if_pos here]
    constructor
    · intro accepted
      exact .inl ⟨t, mid, rfl, same, accepted⟩
    · rintro (⟨t', mid', heads, _, accepted⟩ | ⟨absent, _⟩)
      · obtain ⟨rfl, rfl⟩ := List.cons.inj heads
        exact accepted
      · exact absurd here (by rw [absent]; decide)
  · rw [if_neg here]
    constructor
    · intro accepted
      exact .inr ⟨Bool.eq_false_iff.mpr here, accepted⟩
    · rintro (⟨t, mid, rfl, same, _⟩ | ⟨_, accepted⟩)
      · exact absurd same here
      · exact accepted

theorem bind_of_ok {p : Parse α} {f : α → Parse β} {a : α} {mid : List Token}
    (accepted : p ts = .ok (a, mid)) : (p >>= f) ts = f a mid := by
  change (p ts >>= fun found => f found.1 found.2) = _
  rw [accepted]
  rfl

theorem expect_of {kind : Token.Kind} {cause : ParseError} {t : Token} (isKind : t.kind = kind) :
    expect kind cause (t :: ts) = .ok (t, ts) := by
  rw [expect, peek_bind, if_pos (by simpa using isKind)]
  rfl

theorem expectWord_of {word : String} {cause : ParseError} {t : Token} (isWord : t.isKeyword word) :
    expectWord word cause (t :: ts) = .ok ((), ts) := by
  rw [expectWord, peek_bind, if_pos (by simpa using isWord)]
  rfl

theorem takeWord_of {word : String} {t : Token} (isWord : t.isKeyword word) :
    takeWord word (t :: ts) = .ok (true, ts) := by
  rw [takeWord, peek_bind, if_pos (by simpa using isWord)]
  rfl

theorem parameter_of {t : Token} (isName : t.kind = .identifier) :
    parameter (t :: ts) = .ok (Node.named .parameter t.name [], ts) := by
  rw [parameter, bind_of_ok (expect_of isName)]
  rfl

theorem takeWord_of_not {word : String} (noWord : (next ts).isKeyword word = false) :
    takeWord word ts = .ok (false, ts) := by
  rw [takeWord, peek_bind, if_neg (Bool.eq_false_iff.mp noWord)]
  rfl

theorem takeWord_other {token : Token} {word : String} (other : token.isKeyword word = false) :
    takeWord word (token :: ts) = .ok (false, token :: ts) :=
  takeWord_of_not other

theorem takeWord_choice {word : String} {p q : Parse α} {f : α → Parse β} :
    (takeWord word >>= fun taken => if taken then p >>= f else q >>= f) ts =
      ((takeWord word >>= fun taken => if taken then p else q) >>= f) ts := by
  change _ = ((takeWord word >>= fun taken => if taken then p else q) ts >>= fun found =>
    f found.1 found.2)
  rw [takeWord_bind, takeWord_bind]
  split <;> rfl

theorem isKeyword_of_name {token : Token} {word : String} (isWord : token.kind = .keyword)
    (named : token.name = some word) : token.isKeyword word = true := by
  simp [Token.isKeyword, isWord, named]

theorem name_of_isKeyword {token : Token} {word : String} (isWord : token.isKeyword word) :
    token.name = some word := by
  simp only [Token.isKeyword, Bool.and_eq_true, beq_iff_eq] at isWord
  exact isWord.2

theorem kind_of_isKeyword {token : Token} {word : String} (isWord : token.isKeyword word) :
    token.kind = .keyword := by
  simp only [Token.isKeyword, Bool.and_eq_true, beq_iff_eq] at isWord
  exact isWord.1

theorem isKeyword_ne {token : Token} {word : String} (isWord : token.isKeyword word) (other : String)
    (differ : word ≠ other) : token.isKeyword other = false := by
  simp [Token.isKeyword, name_of_isKeyword isWord, differ]

theorem any_isKeyword_eq_false {token : Token} {words : List String} (noWord : token.kind ≠ .keyword) :
    words.any token.isKeyword = false := by
  simp [Token.isKeyword, noWord]

section Choices

variable {rec : Goal → Parse Node} {n : Nat}

-- The parsers that choose by what comes next, one equation for each choice.

theorem identifier_eq {name : Option String} :
    identifier rec n name ts =
      if (next ts).kind = .lparen then call rec n name ts
      else if (next ts).kind = .lbracket then element rec n name ts
      else (pure (Node.named .access name []) : Parse Node) ts := by
  simp only [identifier, peek_bind]
  cases (next ts).kind <;> rfl

theorem factor_eq :
    factor rec n ts =
      match signOf? (next ts) with
      | some op => (rec .factor >>= fun operand => pure (Node.sign op operand)) ts.tail
      | none => power rec n ts := by
  simp only [factor, peek_bind, signOf?]
  cases (next ts).kind <;> rfl

theorem atom_name {name : Token} (isName : name.kind = .identifier) :
    atom rec n (name :: ts) = identifier rec n name.name ts := by
  rw [atom, peek_bind, next_cons, isName]
  rfl

theorem atom_list {opening : Token} (isOpen : opening.kind = .lbracket) :
    atom rec n (opening :: ts) = list rec n (opening :: ts) := by
  rw [atom, peek_bind, next_cons, isOpen]

theorem atom_parentheses {opening : Token} (isOpen : opening.kind = .lparen) :
    atom rec n (opening :: ts) =
      (rec .statement >>= fun inner => expect .rparen .parenthesis >>= fun _ => pure inner) ts := by
  rw [atom, peek_bind, next_cons, isOpen]
  rfl

theorem atom_boolean {word : Token} (isBoolean : (word.isKeyword "TRUE" || word.isKeyword "FALSE") = true) :
    atom rec n (word :: ts) = .ok (Node.named .boolean word.name [], ts) := by
  have isWord : word.kind = .keyword := by
    rcases (Bool.or_eq_true _ _).mp isBoolean with isWord | isWord <;> exact kind_of_isKeyword isWord
  rw [atom, peek_bind, next_cons, isWord]
  dsimp only
  rw [if_pos isBoolean]
  rfl

theorem factor_signed {sign : Token} {op : Sign} (isSign : signOf? sign = some op) :
    factor rec n (sign :: ts) = (rec .factor >>= fun operand => pure (Node.sign op operand)) ts := by
  rw [factor_eq, next_cons, isSign]
  rfl

theorem factor_unsigned (noSign : signOf? (next ts) = none) : factor rec n ts = power rec n ts := by
  rw [factor_eq, noSign]

theorem operators_none {operator? : Token → Option Arithmetic} {operand : Parse Node} {left : Node}
    (none : operator? (next ts) = none) :
    operators operator? operand (n + 1) left ts = .ok (left, ts) := by
  rw [operators, peek_bind, none]
  rfl

theorem operators_some {operator? : Token → Option Arithmetic} {operand : Parse Node} {left : Node}
    {sign : Token} {op : Arithmetic} (isOperator : operator? sign = some op) :
    operators operator? operand (n + 1) left (sign :: ts) =
      (operand >>= fun right => operators operator? operand n (Node.arithmetic op left right)) ts := by
  rw [operators, peek_bind, next_cons, isOperator]
  rfl

theorem relations_none {depth : Nat} {left : Node} (noComparison : comparisonOf? (next ts) = none)
    (noConnective : connectiveOf? (next ts) = none) :
    relations rec depth (n + 1) left ts = .ok (left, ts) := by
  simp only [relations, peek_bind, noComparison, noConnective]
  rfl

theorem relations_compare {depth : Nat} {left : Node} {sign : Token} {op : Comparison}
    (isComparison : comparisonOf? sign = some op) :
    relations rec depth (n + 1) left (sign :: ts) =
      (sum rec depth >>= fun right => relations rec depth n (Node.comparison op left right)) ts := by
  simp only [relations, peek_bind, next_cons, isComparison]
  rfl

theorem relations_connect {depth : Nat} {left : Node} {word : Token} {op : Connective}
    (noComparison : comparisonOf? word = none) (isConnective : connectiveOf? word = some op) :
    relations rec depth (n + 1) left (word :: ts) =
      (rec .comparison >>= fun right => relations rec depth n (Node.connective op left right)) ts := by
  simp only [relations, peek_bind, next_cons, noComparison, isConnective]
  rfl

theorem statement_eq_plain (none : startsAssignment ts = false) :
    statement rec n ts = plainStatement rec n ts := by
  match ts with
  | [] => rfl
  | [_] => rfl
  | first :: second :: ts =>
    change (if _ then _ else if _ then _ else _ : Parse Node) (first :: second :: ts) = _
    simp only [startsAssignment, Bool.and_eq_false_imp, Bool.or_eq_false_iff] at none
    rw [if_neg, if_neg] <;> simp_all

theorem statement_assign {first second : Token} (isName : first.kind = .identifier)
    (isAssign : second.kind = .assign) :
    statement rec n (first :: second :: ts) =
      (rec .statement >>= fun value => pure (Node.named .assign first.name [value])) ts := by
  change (if _ then _ else _ : Parse Node) (first :: second :: ts) = _
  rw [if_pos (by simp [isName, isAssign])]
  rfl

theorem statement_elementAssign {first second : Token} (isName : first.kind = .identifier)
    (isOpen : second.kind = .lbracket) (ahead : assignsElement ts = true) :
    statement rec n (first :: second :: ts) = elementAssign rec n first.name ts := by
  change (if _ then _ else if _ then _ else _ : Parse Node) (first :: second :: ts) = _
  rw [if_neg (by simp [isName, isOpen]), if_pos (by simp [isName, isOpen, ahead])]
  rfl

theorem plainStatement_word {word : Token} {name : String} {parser : Parse Node}
    (isWord : word.isKeyword name) (chosen : keywordStatement rec n word = advance >>= fun _ => parser) :
    plainStatement rec n (word :: ts) = parser ts := by
  rw [plainStatement, peek_bind, if_pos (by simp [kind_of_isKeyword isWord]), next_cons, chosen]
  rfl

theorem dimension_of {low high : Node} {colon : Token} {mid : List Token}
    (lowRead : rec .statement ts = .ok (low, colon :: mid)) (isColon : colon.kind = .colon)
    (highRead : rec .statement mid = .ok (high, rest)) :
    dimension rec ts = .ok ((low, high), rest) := by
  rw [dimension, bind_of_ok lowRead, bind_of_ok (expect_of isColon), bind_of_ok highRead]
  rfl

theorem otherwise_of {colon : Token} {body : List Node} (isColon : colon.kind = .colon)
    (read : statementsUntil rec endsOtherwise n ts = .ok (body, rest)) :
    otherwise rec n (colon :: ts) = .ok (Node.of .caseOtherwise body, rest) := by
  rw [otherwise, bind_of_ok (expect_of isColon), bind_of_ok read]
  rfl

variable {word : Token}

theorem plainStatement_if (isWord : word.isKeyword "IF") :
    plainStatement rec n (word :: ts) = ifStatement rec n ts :=
  plainStatement_word isWord (by rw [keywordStatement, name_of_isKeyword isWord]; rfl)

theorem plainStatement_for (isWord : word.isKeyword "FOR") :
    plainStatement rec n (word :: ts) = forStatement rec n ts :=
  plainStatement_word isWord (by rw [keywordStatement, name_of_isKeyword isWord]; rfl)

theorem plainStatement_while (isWord : word.isKeyword "WHILE") :
    plainStatement rec n (word :: ts) = whileStatement rec n ts :=
  plainStatement_word isWord (by rw [keywordStatement, name_of_isKeyword isWord]; rfl)

theorem plainStatement_repeat (isWord : word.isKeyword "REPEAT") :
    plainStatement rec n (word :: ts) = repeatStatement rec n ts :=
  plainStatement_word isWord (by rw [keywordStatement, name_of_isKeyword isWord]; rfl)

theorem plainStatement_print (isWord : word.isKeyword "PRINT") :
    plainStatement rec n (word :: ts) = printStatement rec n ts :=
  plainStatement_word isWord (by rw [keywordStatement, name_of_isKeyword isWord]; rfl)

theorem plainStatement_input (isWord : word.isKeyword "INPUT") :
    plainStatement rec n (word :: ts) = inputStatement ts :=
  plainStatement_word isWord (by rw [keywordStatement, name_of_isKeyword isWord]; rfl)

theorem plainStatement_read (isWord : word.isKeyword "read") :
    plainStatement rec n (word :: ts) = readStatement rec n ts :=
  plainStatement_word isWord (by rw [keywordStatement, name_of_isKeyword isWord]; rfl)

theorem plainStatement_include (isWord : word.isKeyword "INCLUDE") :
    plainStatement rec n (word :: ts) = includeStatement ts :=
  plainStatement_word isWord (by rw [keywordStatement, name_of_isKeyword isWord]; rfl)

theorem plainStatement_case (isWord : word.isKeyword "CASE") :
    plainStatement rec n (word :: ts) = caseStatement rec n ts :=
  plainStatement_word isWord (by rw [keywordStatement, name_of_isKeyword isWord]; rfl)

theorem plainStatement_declare (isWord : word.isKeyword "DECLARE") :
    plainStatement rec n (word :: ts) = declareStatement rec n ts :=
  plainStatement_word isWord (by rw [keywordStatement, name_of_isKeyword isWord]; rfl)

theorem plainStatement_return (isWord : word.isKeyword "RETURN") :
    plainStatement rec n (word :: ts) = returnStatement rec ts :=
  plainStatement_word isWord (by rw [keywordStatement, name_of_isKeyword isWord]; rfl)

theorem plainStatement_definition (isWord : definitionWords.any word.isKeyword) :
    plainStatement rec n (word :: ts) = definition rec n word.name ts := by
  simp only [definitionWords, List.any_cons, List.any_nil, Bool.or_false, Bool.or_eq_true] at isWord
  obtain isWord | isWord | isWord := isWord <;>
    exact plainStatement_word isWord (by rw [keywordStatement, name_of_isKeyword isWord]; rfl)

theorem plainStatement_expression (noWord : statementWords.any (next ts).isKeyword = false) :
    plainStatement rec n ts = comparison rec n ts := by
  rw [plainStatement, peek_bind, ite_apply]
  by_cases isWord : (next ts).kind = .keyword
  · simp only [statementWords, Token.isKeyword, isWord, List.any_cons, List.any_nil, beq_self_eq_true,
      Bool.true_and, Bool.or_false, Bool.or_eq_false_iff, beq_eq_false_iff_ne] at noWord
    rw [if_pos (by simp [isWord])]
    generalize chosen : keywordStatement rec n (next ts) = parser
    unfold keywordStatement at chosen
    split at chosen <;> simp_all
  · rw [if_neg (by simpa using isWord)]

end Choices

end Parse

end Pseudocode
