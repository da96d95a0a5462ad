import Pseudocode.Proofs.Expression
import Pseudocode.Proofs.Lines.Semicolon

set_option autoImplicit false

namespace Pseudocode

namespace Grammar

open Parse Mode

variable {p : Mode} {ts rest : List Token} {node : Node}

theorem Reads.startsAssignment_eq_false (read : Reads .comparison p ts [node] rest)
    (noAssign : ∀ after, rest <:+ after → after <:+ ts → (next after).kind ≠ .assign) :
    startsAssignment ts = false := by
  match ts, read with
  | [], _ => rfl
  | [_], _ => rfl
  | name :: second :: more, read =>
    by_cases isName : name.kind = .identifier
    · have suffix : rest <:+ second :: more := by
        have shorter := read.length_add_least_le
        rcases List.suffix_cons_iff.mp read.takes.suffix with same | suffix
        · rw [same] at shorter
          exact absurd shorter (Nat.not_succ_le_self _)
        · exact suffix
      have noSign : second.kind ≠ .assign := noAssign _ suffix (List.suffix_cons _ _)
      by_cases isOpen : second.kind = .lbracket
      · -- The look ahead finds what stands after the element.
        obtain ⟨_, after, atom, later⟩ :=
          read.first_atom (by simp [Token.isKeyword, isName]) (by simp [signOf?, isName])
        have ahead := atom.ahead isName isOpen []
        rw [List.append_nil, List.append_nil] at ahead
        have noElement : assignsElement more = false := by
          rw [assignsElement, ahead]
          exact beq_eq_false_iff_ne.mpr (noAssign after later atom.takes.suffix)
        simp [startsAssignment, isOpen, noElement]
      · simp [startsAssignment, noSign, isOpen]
    · simp [startsAssignment, isName]

theorem Reads.statement_of_comparison (read : Reads .comparison p ts [node] rest)
    (noAssign : ∀ after, rest <:+ after → after <:+ ts → (next after).kind ≠ .assign) :
    Reads .statement p ts [node] rest := by
  have noWord : statementWords.any (next ts).isKeyword = false := by
    have others : ∀ word ∈ statementWords, word ∉ ["NOT", "TRUE", "FALSE"] := by decide
    refine List.any_eq_false.mpr fun word member => ?_
    simp [read.first_of_comparison.isKeyword_eq_false (others word member) (by decide)]
  exact .plain (fun _ => read.startsAssignment_eq_false noAssign) (.expression noWord read)

theorem Reads.first_of_items {nodes : List Node} (read : Reads .items p ts nodes rest) :
    OneOf (signKinds ++ atomKinds) (["NOT", "TRUE", "FALSE"] ++ statementWords) (next ts) := by
  cases read with
  | items first => exact first.first_of_statement

theorem Reads.signOf?_eq_none {nodes : List Node} (read : Reads .atom p ts nodes rest) :
    signOf? (next ts) = none := by
  have noPlus : (next ts).kind ≠ .plus := read.first_of_atom.kind_ne (by decide)
  have noMinus : (next ts).kind ≠ .minus := read.first_of_atom.kind_ne (by decide)
  unfold signOf?
  split <;> simp_all

theorem Reads.block_of_body {nodes : List Node} {sep close : Token} {words : List String}
    (read : Reads (.body (·.kind == .none)) usual (skip ts) nodes [])
    (isSeparator : sep.isSeparator = true) (solid : close.isSeparator = false)
    (closes : endsBlock words close = true)
    (noFirst : ∀ word ∈ words, word ∉ ["NOT", "TRUE", "FALSE"] ++ statementWords) :
    Reads (.block words) usual (ts ++ sep :: close :: rest) [Node.block nodes] (close :: rest) := by
  refine .block ?_
  rw [← skip_skip_append]
  generalize skip ts = ts at read
  induction nodes generalizing ts with
  | nil =>
    obtain rfl := read.body_nil
    rw [List.nil_append, skip_separator isSeparator, skip_cons solid]
    exact .bodyEnd closes
  | cons first nodes ih =>
    cases read with
    | bodyNext goesOn firstRead othersRead =>
      have longer := firstRead.append (close :: rest) (binds_separator isSeparator) fun _ =>
        ⟨rfl, runsOn_separator isSeparator⟩
      have noWord : words.any (next ts).isKeyword = false := by
        refine List.any_eq_false.mpr fun word member => ?_
        simp [firstRead.first_of_statement.isKeyword_eq_false (noFirst word member) (by decide)]
      have goesOn : endsBlock words (next (ts ++ sep :: close :: rest)) = false := by
        rw [next_append (firstRead.ne_nil rfl), endsBlock, noWord, Bool.or_false]
        exact goesOn
      rw [firstRead.skip_statement]
      refine .bodyNext goesOn longer ?_
      rw [← skip_skip_append]
      exact ih _ othersRead

theorem ofTokens_of_statement (read : Reads .statement usual ts [node] []) :
    Node.ofTokens ts = .ok node := by
  have goesOn : ((next ts).kind == .none) = false :=
    beq_eq_false_iff_ne.mpr (read.first_of_statement.kind_ne (by decide))
  have listed : Node.listing ts = .ok [node] := by
    rw [listing_cons goesOn read]
    rfl
  exact Node.ofTokens_of_listing listed

end Grammar

namespace Expression

open Grammar Parse Mode

variable {form tight : Form} {es : List Expression} {e : Expression} {ts rest : List Token} {t : Token}
  {p : Mode}

theorem Writes.no_assign (written : Writes form es ts) : ∀ t ∈ ts, t.kind ≠ .assign := by
  induction written with
  | @sign op => cases op <;> simp_all [signToken, Token.mark, Token.keyword]
  | @join op =>
    rcases op with op | op | op <;> cases op <;>
      simp_all [Operator.token, Token.mark, Token.keyword, or_imp]
  | tighter _ _ ih => exact ih
  | _ => simp_all [Token.mark, Token.keyword, or_imp]

structure Form.Stops (form : Form) (t : Token) : Prop where
  name : opens t = false
  atom : form.rank ≤ Form.power.rank → t.kind ≠ .pow
  factor : form.rank ≤ Form.sum.rank → multiplicativeOf? t = none
  term : form.rank ≤ Form.relation.rank → additiveOf? t = none
  sum : form.rank ≤ Form.comparison.rank → comparisonOf? t = none ∧ connectiveOf? t = none
  item : form.rank ≤ Form.items.rank → t.kind ≠ .comma

theorem Form.Stops.tighten (stops : form.Stops t) (tighter : form.rank ≤ tight.rank) :
    tight.Stops t where
  name := stops.name
  atom le := stops.atom (Nat.le_trans tighter le)
  factor le := stops.factor (Nat.le_trans tighter le)
  term le := stops.term (Nat.le_trans tighter le)
  sum le := stops.sum (Nat.le_trans tighter le)
  item le := stops.item (Nat.le_trans tighter le)

theorem stops_operator (op : Operator) : op.left.Stops op.token := by
  rcases op with op | op | op <;> cases op <;> constructor <;> decide

theorem Form.Stops.right {op : Operator} (stops : op.form.Stops t) : op.right.Stops t := by
  by_cases tighter : op.form.rank ≤ op.right.rank
  · exact stops.tighten tighter
  · -- Only an exponent is looser than its whole, and what ends the one ends the other.
    obtain rfl : op = .arithmetic .power := by
      rcases op with op | op | op <;> cases op <;> first | rfl | exact absurd (by decide) tighter
    exact ⟨stops.name, fun _ => stops.atom (by decide), fun le => absurd le (by decide),
      fun le => absurd le (by decide), fun le => absurd le (by decide), fun le => absurd le (by decide)⟩

def Form.Reads : Form → Mode → List Token → List Node → List Token → Prop
  | .items, p, ts, nodes, rest => Grammar.Reads .items p ts nodes rest
  | .comparison, p, ts, nodes, rest => Grammar.Reads .comparison p ts nodes rest
  -- A loop of the parser goes on with what it has read so far, so the operators that follow are read
  -- in the same go.
  | .relation, p, ts, nodes, rest => ∀ left node final, nodes = [left] →
    Grammar.Reads (.relations left) p rest [node] final → Grammar.Reads .comparison p ts [node] final
  | .sum, p, ts, nodes, rest => ∀ left node final, nodes = [left] →
    Grammar.Reads (.operators .additive left) p rest [node] final →
    Grammar.Reads (.chain .additive) p ts [node] final
  | .term, p, ts, nodes, rest => ∀ left node final, nodes = [left] →
    Grammar.Reads (.operators .multiplicative left) p rest [node] final →
    Grammar.Reads (.chain .multiplicative) p ts [node] final
  | .factor, p, ts, nodes, rest | .power, p, ts, nodes, rest => Grammar.Reads .factor p ts nodes rest
  | .atom, p, ts, nodes, rest => Grammar.Reads .atom p ts nodes rest

theorem noAssign_append (written : ∀ t ∈ ts, t.kind ≠ .assign) (stops : Form.comparison.Stops (next rest))
    {after : List Token} (later : rest <:+ after) (inside : after <:+ ts ++ rest) :
    (next after).kind ≠ .assign := by
  obtain ⟨us, rfl⟩ := later
  cases us with
  | nil =>
    intro isAssign
    have none := (stops.sum (by decide)).1
    simp [comparisonOf?, show (next rest).kind = .assign from isAssign] at none
  | cons u us =>
    have inside : u :: us <:+ ts := List.suffix_append_self_iff.mp inside
    exact written u (inside.subset List.mem_cons_self)

theorem statement_of_writes (written : Writes .comparison [e] ts)
    (read : Grammar.Reads .comparison p (ts ++ rest) [e.tree] rest)
    (stops : Form.comparison.Stops (next rest)) :
    Grammar.Reads .statement p (ts ++ rest) [e.tree] rest :=
  read.statement_of_comparison fun _ later inside => noAssign_append written.no_assign stops later inside

theorem reads_tighter {loose : Form} (closer : loose.tighter? = some tight)
    (written : Writes tight [e] ts) (stops : loose.Stops (next rest))
    (read : ∀ p, tight.Reads p (ts ++ rest) [e.tree] rest) (p : Mode) :
    loose.Reads p (ts ++ rest) [e.tree] rest := by
  cases loose <;> cases closer
  case items =>
    have first := statement_of_writes written (read p.inside) (stops.tighten (by decide))
    exact .items first (.noFurtherItems (stops.item (by decide)))
  case comparison =>
    have none := stops.sum (by decide)
    exact read p _ _ _ rfl (.noRelation none.1 none.2)
  case relation =>
    rintro left node final ⟨⟩ relations
    have sum : Grammar.Reads (.chain .additive) p (ts ++ rest) [e.tree] rest :=
      read p _ _ _ rfl (.noOperator (stops.term (by decide)))
    exact .comparison (sum.first_of_chain.isKeyword_eq_false (by decide) (by decide)) sum relations
  case sum =>
    rintro left node final ⟨⟩ sums
    have term : Grammar.Reads (.chain .multiplicative) p (ts ++ rest) [e.tree] rest :=
      read p _ _ _ rfl (.noOperator (stops.factor (by decide)))
    exact .chain term sums
  case term =>
    rintro left node final ⟨⟩ terms
    have factor : Grammar.Reads Level.multiplicative.operand p (ts ++ rest) [e.tree] rest := read p
    exact .chain factor terms
  case factor => exact read p
  case power =>
    have base : Grammar.Reads .atom p (ts ++ rest) [e.tree] rest := read p
    exact .unsigned base.signOf?_eq_none base (stops.atom (by decide))

theorem reads_join {op : Operator} {left right : Node} {us : List Token}
    (stops : op.form.Stops (next rest))
    (leftRead : op.left.Reads p (ts ++ op.token :: (us ++ rest)) [left] (op.token :: (us ++ rest)))
    (rightRead : op.right.Reads p (us ++ rest) [right] rest) :
    op.form.Reads p (ts ++ op.token :: (us ++ rest)) [op.node left right] rest := by
  rcases op with op | op | op
  case connective =>
    have none := stops.sum (Nat.le_refl _)
    have word : connectiveOf? (Operator.connective op).token = some op := by cases op <;> rfl
    exact leftRead _ _ _ rfl
      (.connect (by cases op <;> rfl) word rightRead (.noRelation none.1 none.2))
  case comparison =>
    rintro _ node final ⟨⟩ relations
    have sign : comparisonOf? (Operator.comparison op).token = some op := by cases op <;> rfl
    have sum := rightRead _ _ _ rfl (.noOperator (stops.term (Nat.le_refl _)))
    exact leftRead _ _ _ rfl (.compare sign sum relations)
  case arithmetic =>
    cases op with
    | add | subtract =>
      rintro _ node final ⟨⟩ sums
      have term := rightRead _ _ _ rfl (.noOperator (stops.factor (Nat.le_refl _)))
      exact leftRead _ _ _ rfl (.operator rfl term sums)
    | multiply | divide | modulo | wholeDivide =>
      rintro _ node final ⟨⟩ terms
      exact leftRead _ _ _ rfl (.operator rfl rightRead terms)
    | power =>
      have base : Grammar.Reads .atom p _ [left] _ := leftRead
      exact .power base.signOf?_eq_none base rfl rightRead

theorem stops_closing (t : Token) (closing : t ∈ [.mark .rparen, .mark .rbracket]) :
    Form.items.Stops t := by
  simp only [List.mem_cons, List.not_mem_nil, or_false] at closing
  rcases closing with rfl | rfl <;> constructor <;> decide

theorem Writes.reads (written : Writes form es ts) (stops : form.Stops (next rest)) (p : Mode) :
    form.Reads p (ts ++ rest) (tree.trees es) rest := by
  -- By induction on the writing: each rule of the grammar is one or two rules of the parser's, and the
  -- token after an operand, an operator or a closing one, never goes on with it.
  induction written generalizing rest p with
  | tighter closer inner ih =>
    have rank := Form.rank_tighter closer
    exact reads_tighter closer inner stops (fun p => ih (stops.tighten (by omega)) p) p
  | @sign op e ts _ ih =>
    cases op with
    | not => exact .negation rfl (ih stops p)
    | plus => exact .signed rfl (ih stops p)
    | minus => exact .signed rfl (ih stops p)
  | @join op left right ts us _ _ leftIh rightIh =>
    rw [List.append_assoc, List.cons_append]
    have sign : op.left.Stops (next (op.token :: (us ++ rest))) := stops_operator op
    exact reads_join stops (leftIh sign p) (rightIh stops.right p)
  | number value => exact .number rfl
  | string text => exact .string rfl
  | boolean truth => exact .boolean (by cases truth <;> decide)
  | access name =>
    have alone := stops.name
    simp only [opens, Bool.or_eq_false_iff, beq_eq_false_iff_ne] at alone
    exact .access rfl alone.1 alone.2
  | emptyList => exact .emptyList rfl rfl
  | @list items ts _ ih =>
    have closing : Form.items.Stops (next (.mark .rbracket :: rest)) := stops_closing _ (by simp)
    have read : Grammar.Reads .items p _ _ _ := ih closing p
    rw [List.cons_append, List.append_assoc, List.singleton_append]
    exact .list rfl (read.first_of_items.kind_ne (by decide)) read rfl
  | emptyCall name => exact .emptyCall rfl rfl rfl
  | @call name arguments ts _ ih =>
    have closing : Form.items.Stops (next (.mark .rparen :: rest)) := stops_closing _ (by simp)
    have read : Grammar.Reads .items p _ _ _ := ih closing p
    rw [List.cons_append, List.cons_append, List.append_assoc, List.singleton_append]
    exact .call rfl rfl (read.first_of_items.kind_ne (by decide)) read rfl
  | @element name first others ts _ ih =>
    have closing : Form.items.Stops (next (.mark .rbracket :: rest)) := stops_closing _ (by simp)
    have read : Grammar.Reads .items p _ _ _ := ih closing p
    rw [List.cons_append, List.cons_append, List.append_assoc, List.singleton_append]
    exact .element rfl rfl read rfl
  | @parentheses e ts inner ih =>
    have closing : Form.comparison.Stops (next (.mark .rparen :: rest)) :=
      (stops_closing _ (by simp)).tighten (by decide)
    have read := statement_of_writes inner (ih closing p.inside) closing
    rw [List.cons_append, List.append_assoc, List.singleton_append]
    exact .parentheses rfl read rfl
  | @items e es ts us first _ firstIh othersIh =>
    have comma : Form.comparison.Stops (next (.mark .comma :: (us ++ rest))) := by
      change Form.comparison.Stops (.mark .comma)
      constructor <;> decide
    have read := statement_of_writes first (firstIh comma p.inside) comma
    rw [List.append_assoc, List.cons_append]
    exact .items read (.furtherItems rfl (othersIh stops p))

theorem Writes.statement (written : Writes .comparison [e] ts)
    (stops : Form.comparison.Stops (next rest)) (p : Mode) :
    Grammar.Reads .statement p (ts ++ rest) [e.tree] rest :=
  statement_of_writes written (written.reads stops p) stops

theorem Writes.ofTokens (written : Writes .comparison [e] ts) : Node.ofTokens ts = .ok e.tree := by
  have stops : Form.comparison.Stops (next []) := by constructor <;> decide
  have read := written.statement stops usual
  rw [List.append_nil] at read
  exact ofTokens_of_statement read

theorem ofTokens_of_plain {word : String} {node : Node}
    (read : Grammar.Reads .plain usual (.keyword word :: ts) [node] []) :
    Node.ofTokens (.keyword word :: ts) = .ok node := by
  refine ofTokens_of_statement (.plain (fun _ => ?_) read)
  cases ts <;> rfl

theorem Writes.condition {word : String} (written : Writes .comparison [e] ts)
    (isWord : word ∈ ["THEN", "DO"]) (rest : List Token) :
    Grammar.Reads .statement usual.test (ts ++ .keyword word :: rest) [e.tree]
      (.keyword word :: rest) := by
  have stops : Form.comparison.Stops (.keyword word) := by
    simp only [List.mem_cons, List.not_mem_nil, or_false] at isWord
    rcases isWord with rfl | rfl <;> constructor <;> decide
  have follows : Form.comparison.Stops (next (.keyword word :: rest)) := stops
  exact written.statement follows usual.test

/-- An expression printed with parentheses only where the grammar needs them is parsed to its tree, by
itself and as the condition of a choice or of a loop. Whatever else is written in the grammar for it has
further tokens and is parsed to the same tree. -/
theorem printed_expression_parses (e : Expression) :
    Writes .comparison [e] e.tokens ∧
    (∀ ts, Writes .comparison [e] ts → e.tokens.Sublist ts ∧ Node.ofTokens ts = .ok e.tree) ∧
    Node.ofTokens e.tokens = .ok e.tree ∧
    ∀ (yes no : List Token) (nodes others : List Node), (∀ t ∈ yes ++ no, t.kind ≠ .none) →
      Node.listing yes = .ok nodes → Node.listing no = .ok others →
      Node.ofTokens (.keyword "IF" :: (e.tokens ++ .keyword "THEN" ::
          (yes ++ [.mark .sep, .keyword "ENDIF"]))) =
        .ok (Node.of .ifThen [e.tree, Node.block nodes]) ∧
      Node.ofTokens (.keyword "IF" :: (e.tokens ++ .keyword "THEN" ::
          (yes ++ .mark .sep :: .keyword "ELSE" :: (no ++ [.mark .sep, .keyword "ENDIF"])))) =
        .ok (Node.of .ifElse [e.tree, Node.block nodes, Node.block others]) ∧
      Node.ofTokens (.keyword "WHILE" :: (e.tokens ++ .keyword "DO" ::
          (yes ++ [.mark .sep, .keyword "ENDWHILE"]))) =
        .ok (Node.of .whileLoop [e.tree, Node.block nodes]) := by
  have written : Writes .comparison [e] e.tokens := (writes_tokens e).loosen e.comparison_le_form
  refine ⟨written, fun ts other => ⟨?_, other.ofTokens⟩, written.ofTokens, ?_⟩
  · exact printed_comparison ▸ other.printed_sublist
  intro yes no nodes others solid parsedYes parsedNo
  have yesRead := statements_iff.mp (Node.parses_of_listing
    (fun t member => solid t (List.mem_append_left _ member)) parsedYes)
  have noRead := statements_iff.mp (Node.parses_of_listing
    (fun t member => solid t (List.mem_append_right _ member)) parsedNo)
  refine ⟨ofTokens_of_plain ?_, ofTokens_of_plain ?_, ofTokens_of_plain ?_⟩
  · exact .ifThen rfl (written.condition (by simp) _) rfl
      (yesRead.block_of_body rfl rfl rfl (by decide)) rfl
  · exact .ifElse rfl (written.condition (by simp) _) rfl
      (yesRead.block_of_body rfl rfl rfl (by decide)) rfl
      (noRead.block_of_body rfl rfl rfl (by decide)) rfl
  · exact .whileLoop rfl (written.condition (by simp) _) rfl
      (yesRead.block_of_body rfl rfl rfl (by decide)) rfl

theorem printed_condition_parses :
    let x := Expression.access (some "x")
    let sum := Expression.join (.arithmetic .add) x x
    let power := Expression.join (.arithmetic .power) sum (.sign .minus x)
    let test := Expression.join (.comparison .equal) (.sign .minus power) (.sign .not x)
    let e := Expression.join (.connective .and) (.join (.connective .or) test x) (.sign .not x)
    let print := Node.of .print []
    (∀ t ∈ [Token.keyword "PRINT"] ++ [], t.kind ≠ .none) ∧
      Node.listing [.keyword "PRINT"] = .ok [print] ∧ Node.listing [] = .ok [] ∧
      Node.ofTokens e.tokens = .ok e.tree ∧
      Node.ofTokens (.keyword "WHILE" :: (e.tokens ++ .keyword "DO" ::
          ([.keyword "PRINT"] ++ [.mark .sep, .keyword "ENDWHILE"]))) =
        .ok (Node.of .whileLoop [e.tree, Node.block [print]]) := by
  intro x sum power test e print
  have solid : ∀ t ∈ [Token.keyword "PRINT"] ++ [], t.kind ≠ .none := by decide
  have parsed : Node.listing [.keyword "PRINT"] = .ok [print] := by rfl
  have nothing : Node.listing [] = .ok [] := by rfl
  obtain ⟨_, _, alone, conditions⟩ := printed_expression_parses e
  exact ⟨solid, parsed, nothing, alone, (conditions _ _ _ _ solid parsed nothing).2.2⟩

end Expression

end Pseudocode
