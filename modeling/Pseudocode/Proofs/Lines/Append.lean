import Pseudocode.Proofs.Lines.Ending

set_option autoImplicit false

namespace Pseudocode

namespace Grammar

open Parse Mode

variable {ts after rest us : List Token} {t name : Token} {node : Node} {nodes : List Node}
  {part : Part} {p : Mode}

theorem next_append (more : ts ≠ []) : next (ts ++ us) = next ts := by
  cases ts with
  | nil => exact absurd rfl more
  | cons t ts => rfl

theorem skip_append (more : skip ts ≠ []) : skip (ts ++ us) = skip ts ++ us := by
  rw [skip, List.dropWhile_append]
  cases here : (ts.dropWhile Token.isSeparator).isEmpty with
  | true => exact absurd (List.isEmpty_iff.mp here) more
  | false => rfl

theorem Reads.ne_nil (read : Reads part p ts nodes rest) (least : part.least = 1) : ts ≠ [] := by
  have shorter := read.length_add_least_le
  rintro rfl
  simp [least] at shorter

theorem Reads.ne_nil_of_rest (read : Reads part p ts nodes rest) (more : rest ≠ []) : ts ≠ [] := by
  rintro rfl
  exact more (List.suffix_nil.mp read.takes.suffix)

theorem Reads.rest_eq_nil (read : Reads part p [] nodes rest) : rest = [] :=
  List.suffix_nil.mp read.takes.suffix

section Binds

variable (begins : binds t = false)

include begins

theorem comparisonOf?_begins : comparisonOf? t = none := by
  simp only [binds, Bool.or_eq_false_iff, Option.isSome_eq_false_iff,
    Option.isNone_iff_eq_none] at begins
  exact begins.1.1.2

theorem connectiveOf?_begins : connectiveOf? t = none := by
  simp only [binds, Bool.or_eq_false_iff, Option.isSome_eq_false_iff,
    Option.isNone_iff_eq_none] at begins
  exact begins.1.2

theorem multiplicativeOf?_begins : multiplicativeOf? t = none := by
  simp only [binds, Bool.or_eq_false_iff, Option.isSome_eq_false_iff,
    Option.isNone_iff_eq_none] at begins
  exact begins.2

theorem ne_comma_begins : t.kind ≠ .comma := by
  rintro isComma
  simp [binds, isComma] at begins

theorem ne_pow_begins : t.kind ≠ .pow := by
  rintro isPower
  simp [binds, isPower] at begins

theorem ne_assign_begins : t.kind ≠ .assign := by
  rintro isAssign
  simp [binds, comparisonOf?, isAssign] at begins

end Binds

section FirstAtom

theorem Reads.first_atom (read : Reads .comparison p ts [node] rest)
    (noNot : (next ts).isKeyword "NOT" = false) (noSign : signOf? (next ts) = none) :
    ∃ base after, Reads .atom p ts [base] after ∧ rest <:+ after := by
  cases read with
  | negation isNot => exact absurd isNot (by simpa using noNot)
  | comparison _ sum relations =>
    cases sum with
    | chain term sums =>
      change Reads (.chain .multiplicative) _ _ _ _ at term
      cases term with
      | chain factor terms =>
        change Reads .factor _ _ _ _ at factor
        have later := relations.takes.suffix.trans (sums.takes.suffix.trans terms.takes.suffix)
        cases factor with
        | signed isSign => rw [next_cons, isSign] at noSign; cases noSign
        | unsigned _ base => exact ⟨_, _, base, later⟩
        | power _ base _ exponent =>
          exact ⟨_, _, base, later.trans (exponent.takes.suffix.trans (List.suffix_cons _ _))⟩

theorem statementWord {word : String} (isWord : t.isKeyword word) (member : word ∈ statementWords) :
    statementWords.any t.isKeyword = true :=
  List.any_eq_true.mpr ⟨word, member, isWord⟩

theorem definitionWord (isWord : definitionWords.any t.isKeyword) :
    statementWords.any t.isKeyword = true := by
  obtain ⟨word, member, isWord⟩ := List.any_eq_true.mp isWord
  exact statementWord isWord (List.Sublist.mem member (by decide))

theorem Reads.comparison_of_plain (read : Reads .plain p ts nodes rest)
    (noWord : statementWords.any (next ts).isKeyword = false) : Reads .comparison p ts nodes rest := by
  have clash {word : String} (isWord : (next ts).isKeyword word) (member : word ∈ statementWords) :
      False := by
    rw [statementWord isWord member] at noWord
    cases noWord
  cases read with
  | expression _ read => exact read
  | ifThen isWord => exact (clash isWord (by decide)).elim
  | ifElse isWord => exact (clash isWord (by decide)).elim
  | forLoop isWord => exact (clash isWord (by decide)).elim
  | whileLoop isWord => exact (clash isWord (by decide)).elim
  | repeatUntil isWord => exact (clash isWord (by decide)).elim
  | define isWord => exact absurd (definitionWord isWord) (by simpa using noWord)
  | printLine isWord => exact (clash isWord (by decide)).elim
  | print isWord => exact (clash isWord (by decide)).elim
  | input isWord => exact (clash isWord (by decide)).elim
  | read isWord => exact (clash isWord (by decide)).elim
  | includeFile isWord => exact (clash isWord (by decide)).elim
  | returnValue isWord => exact (clash isWord (by decide)).elim
  | declare isWord => exact (clash isWord (by decide)).elim
  | declareArray isWord => exact (clash isWord (by decide)).elim
  | case isWord => exact (clash isWord (by decide)).elim

theorem Reads.ahead {second : Token} (read : Reads .atom p (name :: second :: ts) [node] rest)
    (isName : name.kind = .identifier) (isOpen : second.kind = .lbracket) (us : List Token) :
    afterClosing 1 (ts ++ us) = rest ++ us := by
  cases read with
  | element _ _ indices isClose =>
    obtain ⟨used, rfl, balanced, _⟩ := indices.takes
    rw [List.append_assoc, balanced, List.cons_append, afterClosing_close isClose, afterClosing]
  | number isNumber => rw [isNumber] at isName; cases isName
  | string isString => rw [isString] at isName; cases isName
  | boolean isBoolean => simp [Token.isKeyword, isName] at isBoolean
  | emptyList opening => rw [opening] at isName; cases isName
  | list opening => rw [opening] at isName; cases isName
  | parentheses opening => rw [opening] at isName; cases isName
  | access _ _ noElement => exact absurd isOpen noElement
  | emptyCall _ opening => rw [opening] at isOpen; cases isOpen
  | call _ opening => rw [opening] at isOpen; cases isOpen

theorem startsAssignment_append (us : List Token) (begins : binds t = false)
    (read : Reads .plain p ts [node] rest) (plain : startsAssignment ts = false) :
    startsAssignment (ts ++ t :: us) = false ∨
      ∃ name, ts = [name] ∧ name.kind = .identifier ∧ t.kind = .lbracket := by
  have noAssign := ne_assign_begins begins
  match ts, read with
  | [], read => exact absurd rfl (read.ne_nil rfl)
  | [name], read =>
    by_cases element : name.kind = .identifier ∧ t.kind = .lbracket
    · exact .inr ⟨name, rfl, element⟩
    · refine .inl ?_
      simp only [startsAssignment, List.cons_append, List.nil_append, beq_eq_false_iff_ne.mpr noAssign,
        Bool.false_or, Bool.and_eq_false_imp, beq_iff_eq]
      intro isName isOpen
      exact absurd ⟨isName, isOpen⟩ element
  | name :: second :: ts, read =>
    refine .inl ?_
    by_cases element : name.kind = .identifier ∧ second.kind = .lbracket
    · obtain ⟨isName, isOpen⟩ := element
      have noWord : statementWords.any name.isKeyword = false :=
        any_isKeyword_eq_false (by rw [isName]; decide)
      obtain ⟨base, after, atom, _⟩ := (read.comparison_of_plain noWord).first_atom
        (by simp [Token.isKeyword, isName]) (by simp [signOf?, isName])
      -- The look ahead finds the bracket that closes the element, and sees what stands after it.
      have ahead := atom.ahead isName isOpen
      have here : assignsElement ts = false := by simpa [startsAssignment, isName, isOpen] using plain
      have later : assignsElement (ts ++ t :: us) = false := by
        have same := ahead []
        rw [List.append_nil, List.append_nil] at same
        rw [assignsElement, same] at here
        rw [assignsElement, ahead]
        cases after with
        | nil => exact beq_eq_false_iff_ne.mpr noAssign
        | cons => exact here
      simp [startsAssignment, isOpen, later]
    · simp only [startsAssignment, List.cons_append] at plain ⊢
      cases isName : name.kind == .identifier with
      | false => rfl
      | true =>
        have noOpen : (second.kind == .lbracket) = false := by simp_all
        simpa only [isName, noOpen, Bool.true_and, Bool.false_and, Bool.or_false] using plain

end FirstAtom

theorem Level.last_operand (level : Level) : level.operand.last = true := by
  cases level <;> rfl

theorem Level.joins_operand (begins : binds t = false) (level : Level) :
    level.operand.joins ts nodes t = called ts t := by
  cases level with
  | additive => simp [Level.operand, Part.joins, Level.operator?, multiplicativeOf?_begins begins]
  | multiplicative => rfl

theorem Reads.items_ne_nil (read : Reads .items p ts nodes rest) : nodes ≠ [] := by
  cases read
  nofun

theorem Reads.furtherItems_eq_nil (read : Reads .furtherItems p [] nodes rest) : nodes = [] := by
  cases read
  rfl

theorem Reads.furtherItems_ne_nil (read : Reads .furtherItems p ts nodes []) (more : ts ≠ []) :
    nodes ≠ [] := by
  cases read with
  | noFurtherItems => exact absurd rfl more
  | furtherItems _ items => exact items.items_ne_nil

theorem of_cons_eq_nil {holds : Prop} (ended : t :: ts = []) : holds :=
  absurd ended (List.cons_ne_nil t ts)

theorem never_ended {holds goal : Prop} (apart : rest = [] → part.last = true ∧ holds)
    (never : part.last = false) (ended : rest = []) : goal := by
  have last := (apart ended).1
  rw [never] at last
  cases last

theorem Reads.append (us : List Token) (read : Reads part p ts nodes rest) (begins : binds t = false)
    (apart : rest = [] → part.last = true ∧ part.joins ts nodes t = false) :
    Reads part p (ts ++ t :: us) nodes (rest ++ t :: us) := by
  -- A part inside another leaves the token that closes it, so nothing is asked of it. Only the part at
  -- the very end has to stand apart from the next token, and it does if the whole does.
  induction read with
  | assign free isName isAssign valueRead value =>
    refine .assign free isName isAssign (value fun ended => ⟨rfl, ?_⟩)
    exact (runsOn_value [] (.inl rfl) (List.suffix_refl _) (valueRead.ne_nil rfl)).symm.trans
      (apart ended).2
  | @elementAssign _ _ _ _ ts more _ indices value free isName isOpen ahead itemsRead isClose valueRead
      itemsMore valueMore =>
    have itemsMore := itemsMore of_cons_eq_nil
    rw [assignsElement, itemsRead.takes.afterClosing_one isClose] at ahead
    cases more with
    | nil => exact absurd ahead (by decide)
    | cons sign more =>
      refine .elementAssign free isName isOpen ?_ itemsMore isClose (valueMore fun ended => ⟨rfl, ?_⟩)
      · change assignsElement (ts ++ t :: us) = true
        rw [assignsElement, itemsMore.takes.afterClosing_one isClose]
        exact ahead
      · have inner := (List.suffix_append [_, sign] more).trans itemsRead.takes.suffix
        exact (runsOn_value _ (.inr rfl) inner (valueRead.ne_nil rfl)).symm.trans (apart ended).2
  | plain goesOn nodeRead node =>
    refine .plain (fun free => ?_) (node apart)
    rcases startsAssignment_append us begins nodeRead (goesOn free) with
      none | ⟨name, rfl, isName, isOpen⟩
    · exact none
    · -- The bracket would go on with the name.
      have ended : _ = [] := List.eq_nil_of_length_eq_zero (by
        have shorter := nodeRead.length_add_least_le
        simpa [Part.least] using shorter)
      subst ended
      have noWord : statementWords.any name.isKeyword = false :=
        any_isKeyword_eq_false (by rw [isName]; decide)
      have alone := (runsOn_expression (nodeRead.comparison_of_plain noWord)).symm.trans (apart rfl).2
      simp [called, isName, opens, isOpen] at alone
  | ifThen isWord _ isThen _ isClose test yes =>
    exact .ifThen isWord (test of_cons_eq_nil) isThen (yes of_cons_eq_nil) isClose
  | ifElse isWord _ isThen _ isElse _ isClose test yes no =>
    exact .ifElse isWord (test of_cons_eq_nil) isThen (yes of_cons_eq_nil) isElse (no of_cons_eq_nil)
      isClose
  | forLoop isWord isName isSign _ isTo finalRead stepRead bodyRead isNext closes same start final step
      body =>
    have afterStep := bodyRead.ne_nil_of_rest of_cons_eq_nil
    have afterFinal := stepRead.ne_nil_of_rest afterStep
    exact .forLoop isWord isName isSign (start of_cons_eq_nil) isTo
      (final fun ended => absurd ended afterFinal) (step fun ended => absurd ended afterStep)
      (body of_cons_eq_nil) isNext closes same
  | step isWord _ value => exact .step isWord (value (never_ended apart rfl))
  | noStep noWord =>
    exact .noStep (by rwa [next_append (never_ended apart rfl)])
  | whileLoop isWord _ isDo _ isClose test body =>
    exact .whileLoop isWord (test of_cons_eq_nil) isDo (body of_cons_eq_nil) isClose
  | repeatUntil isWord bodyRead isUntil testRead body test =>
    refine .repeatUntil isWord (body of_cons_eq_nil) isUntil (test fun ended => ⟨rfl, ?_⟩)
    have suffix := (List.suffix_cons _ _).trans bodyRead.takes.suffix
    exact (runsOn_repeat suffix (testRead.ne_nil rfl)).symm.trans (apart ended).2
  | define isWord isName isOpen _ isClose _ bodyRead resultRead isEnd names head body result =>
    have afterBody := resultRead.ne_nil_of_rest of_cons_eq_nil
    have afterHead := bodyRead.ne_nil_of_rest afterBody
    exact .define isWord isName isOpen (names of_cons_eq_nil) isClose
      (head fun ended => absurd ended afterHead)
      (body fun ended => absurd ended afterBody) (result of_cons_eq_nil) isEnd
  | noParameters noName =>
    exact .noParameters (by rwa [next_append (never_ended apart rfl)])
  | parameters isName _ names => exact .parameters isName (names (never_ended apart rfl))
  | noFurtherParameters noComma =>
    exact .noFurtherParameters (by rwa [next_append (never_ended apart rfl)])
  | furtherParameters isComma isName _ names =>
    exact .furtherParameters isComma isName (names (never_ended apart rfl))
  | functionHead noReturns =>
    exact .functionHead (by rwa [next_append (never_ended apart rfl)])
  | @returnsHead _ _ ts isReturns noType =>
    have noType : (next (ts ++ t :: us)).kind ≠ .keyword := by
      rwa [next_append (never_ended apart rfl)]
    exact .returnsHead isReturns noType
  | returnsTypeHead isReturns isType => exact .returnsTypeHead isReturns isType
  | procedureHead => exact .procedureHead
  | doHead noFunction noProcedure isDo => exact .doHead noFunction noProcedure isDo
  | @result _ _ _ _ after _ isWord _ closes value =>
    have more : skip after ≠ [] := never_ended apart rfl
    rw [← skip_append more]
    refine .result isWord (value fun ended => ?_) (by rwa [skip_append more, next_append more])
    rw [ended] at more
    exact absurd rfl more
  | noResult noWord =>
    exact .noResult (by rwa [next_append (never_ended apart rfl)])
  | @printLine _ word ts isWord ends =>
    have ends : endsPrint (next (ts ++ t :: us)) = true := by
      cases ts with
      | nil =>
        have bare := (runsOn_bare isWord).symm.trans (apart rfl).2
        simpa using bare
      | cons => exact ends
    exact .printLine isWord ends
  | @print _ _ ts _ _ isWord goesOn argumentsRead arguments =>
    have goesOn : endsPrint (next (ts ++ t :: us)) = false := by
      rwa [next_append (argumentsRead.ne_nil rfl)]
    refine .print isWord goesOn (arguments fun ended => ⟨rfl, ?_⟩)
    exact (runsOn_arguments (.inl rfl) (argumentsRead.ne_nil rfl) argumentsRead.items_ne_nil).symm.trans
      (apart ended).2
  | input isWord isName => exact .input isWord isName
  | read isWord argumentsRead arguments =>
    refine .read isWord (arguments fun ended => ⟨rfl, ?_⟩)
    exact (runsOn_arguments (.inr (.inl rfl)) (argumentsRead.ne_nil rfl)
      argumentsRead.items_ne_nil).symm.trans (apart ended).2
  | includeFile isWord isName => exact .includeFile isWord isName
  | returnValue isWord valueRead value =>
    refine .returnValue isWord (value fun ended => ⟨rfl, ?_⟩)
    exact (runsOn_arguments (.inr (.inr rfl)) (valueRead.ne_nil rfl) (List.cons_ne_nil _ _)).symm.trans
      (apart ended).2
  | declare isWord isName isColon isType noArray => exact .declare isWord isName isColon isType noArray
  | declareArray isWord isName isColon isArray isOpen _ isClose isOf isType bounds =>
    exact .declareArray isWord isName isColon isArray isOpen (bounds of_cons_eq_nil) isClose isOf isType
  | dimensions _ isColon _ furtherRead low high further =>
    have more := furtherRead.ne_nil_of_rest (never_ended apart rfl)
    exact .dimensions (low of_cons_eq_nil) isColon (high fun ended => absurd ended more)
      (further (never_ended apart rfl))
  | noFurtherDimensions noComma =>
    exact .noFurtherDimensions (by rwa [next_append (never_ended apart rfl)])
  | furtherDimensions isComma _ bounds =>
    exact .furtherDimensions isComma (bounds (never_ended apart rfl))
  | case isWord isOf isName _ items =>
    exact .case isWord isOf isName (items fun _ => ⟨rfl, rfl⟩)
  | endCase isWord => exact .endCase isWord
  | otherwise isWord isColon _ itemsRead body items =>
    exact .otherwise isWord isColon (body fun ended => absurd ended (itemsRead.ne_nil rfl))
      (items fun _ => ⟨rfl, rfl⟩)
  | caseItem begins itemRead itemsRead item items =>
    exact .caseItem (by rwa [next_append (itemRead.ne_nil rfl)])
      (item fun ended => absurd ended (itemsRead.ne_nil rfl)) (items fun _ => ⟨rfl, rfl⟩)
  | single _ isColon _ value body =>
    exact .single (value of_cons_eq_nil) isColon (body (never_ended apart rfl))
  | range _ isTo _ isColon _ value upper body =>
    exact .range (value of_cons_eq_nil) isTo (upper of_cons_eq_nil) isColon (body (never_ended apart rfl))
  | block bodyRead body =>
    have more := bodyRead.ne_nil_of_rest (never_ended apart rfl)
    refine .block ?_
    rw [skip_append more]
    exact body (never_ended apart rfl)
  | bodyEnd ends => exact .bodyEnd (by rwa [next_append (never_ended apart rfl)])
  | @bodyNext _ _ _ after _ _ _ goesOn firstRead othersRead first others =>
    have more := othersRead.ne_nil_of_rest (never_ended apart rfl)
    refine .bodyNext (by rwa [next_append (firstRead.ne_nil rfl)]) (first fun ended => ?_) ?_
    · rw [ended] at more
      exact absurd rfl more
    · rw [skip_append more]
      exact others (never_ended apart rfl)
  | @items _ _ after _ _ _ firstRead othersRead first others =>
    refine .items (first fun ended => ⟨rfl, ?_⟩) (others fun ended => ⟨rfl, ?_⟩)
    · subst ended
      have := (apart othersRead.rest_eq_nil).2
      rwa [othersRead.furtherItems_eq_nil] at this
    · subst ended
      by_cases more : after = []
      · subst more
        rfl
      · have some := othersRead.furtherItems_ne_nil more
        exact (runsOn_rest firstRead.takes.suffix more some).symm.trans (apart rfl).2
  | @noFurtherItems _ ts noComma =>
    refine .noFurtherItems ?_
    cases ts with
    | nil => exact ne_comma_begins begins
    | cons => exact noComma
  | furtherItems isComma itemsRead items =>
    refine .furtherItems isComma (items fun ended => ⟨rfl, ?_⟩)
    exact (runsOn_of_suffix (List.suffix_cons _ _) (itemsRead.ne_nil rfl)).symm.trans (apart ended).2
  | expression noWord nodeRead node =>
    refine .expression (by rwa [next_append (nodeRead.ne_nil rfl)]) (node fun ended => ⟨rfl, ?_⟩)
    subst ended
    exact (runsOn_expression nodeRead).symm.trans (apart rfl).2
  | negation isWord operandRead operand =>
    refine .negation isWord (operand fun ended => ⟨rfl, ?_⟩)
    have joined := (apart ended).2
    rwa [Part.joins, called_of_suffix (List.suffix_cons _ _) (operandRead.ne_nil rfl)] at joined
  | comparison noNot firstRead furtherRead first further =>
    refine .comparison (by rwa [next_append (firstRead.ne_nil rfl)]) (first fun ended => ⟨rfl, ?_⟩)
      (further fun ended => ⟨rfl, ?_⟩)
    · subst ended
      exact (apart furtherRead.rest_eq_nil).2
    · have joined := (apart ended).2
      simp only [Part.joins, Bool.or_eq_false_iff] at joined
      simp [Part.joins, joined.1, called_after firstRead.takes.suffix joined.2]
  | @noRelation _ ts _ noComparison noConnective =>
    cases ts with
    | nil => exact .noRelation (comparisonOf?_begins begins) (connectiveOf?_begins begins)
    | cons => exact .noRelation noComparison noConnective
  | compare isComparison rightRead furtherRead right further =>
    have alone (ended : _ = []) := (apart ended).2
    simp only [Part.joins, List.isEmpty_cons, Bool.not_false, Bool.true_and, Bool.or_eq_false_iff,
      called_of_suffix (List.suffix_cons _ _) (rightRead.ne_nil rfl)] at alone
    refine .compare isComparison (right fun ended => ⟨rfl, ?_⟩) (further fun ended => ⟨rfl, ?_⟩)
    · subst ended
      obtain ⟨noSign, noCall⟩ := alone furtherRead.rest_eq_nil
      simp [Part.joins, Level.operator?, noSign, noCall]
    · obtain ⟨noSign, noCall⟩ := alone ended
      simp [Part.joins, noSign, called_after rightRead.takes.suffix noCall]
  | connect noComparison isConnective rightRead furtherRead right further =>
    have alone (ended : _ = []) := (apart ended).2
    simp only [Part.joins, List.isEmpty_cons, Bool.not_false, Bool.true_and, Bool.or_eq_false_iff,
      called_of_suffix (List.suffix_cons _ _) (rightRead.ne_nil rfl)] at alone
    refine .connect noComparison isConnective (right fun ended => ⟨rfl, ?_⟩)
      (further fun ended => ⟨rfl, ?_⟩)
    · subst ended
      obtain ⟨noSign, noCall⟩ := alone furtherRead.rest_eq_nil
      simp [Part.joins, noSign, noCall]
    · obtain ⟨noSign, noCall⟩ := alone ended
      simp [Part.joins, noSign, called_after rightRead.takes.suffix noCall]
  | @chain _ level _ _ _ _ _ firstRead furtherRead first further =>
    have alone (ended : _ = []) := (apart ended).2
    simp only [Part.joins, Bool.or_eq_false_iff] at alone
    refine .chain (first fun ended => ⟨level.last_operand, ?_⟩) (further fun ended => ⟨rfl, ?_⟩)
    · subst ended
      rw [level.joins_operand begins]
      exact (alone furtherRead.rest_eq_nil).2
    · obtain ⟨noSign, noCall⟩ := alone ended
      simp [Part.joins, noSign, called_after firstRead.takes.suffix noCall]
  | @noOperator _ level ts _ noOperator =>
    refine .noOperator ?_
    cases ts with
    | nil =>
      have alone := (apart rfl).2
      simp only [Part.joins, Bool.or_eq_false_iff, Option.isSome_eq_false_iff,
        Option.isNone_iff_eq_none] at alone
      exact alone.1
    | cons => exact noOperator
  | @operator _ level _ _ _ _ _ _ _ _ isOperator rightRead furtherRead right further =>
    have alone (ended : _ = []) := (apart ended).2
    simp only [Part.joins, Bool.or_eq_false_iff,
      called_of_suffix (List.suffix_cons _ _) (rightRead.ne_nil level.least_operand)] at alone
    refine .operator isOperator (right fun ended => ⟨level.last_operand, ?_⟩)
      (further fun ended => ⟨rfl, ?_⟩)
    · subst ended
      rw [level.joins_operand begins]
      exact (alone furtherRead.rest_eq_nil).2
    · obtain ⟨noSign, noCall⟩ := alone ended
      simp [Part.joins, noSign, called_after rightRead.takes.suffix noCall]
  | signed isSign operandRead operand =>
    refine .signed isSign (operand fun ended => ⟨rfl, ?_⟩)
    exact (called_of_suffix (List.suffix_cons _ _) (operandRead.ne_nil rfl)).symm.trans (apart ended).2
  | @unsigned _ _ rest _ noSign baseRead noPower base =>
    refine .unsigned (by rwa [next_append (baseRead.ne_nil rfl)]) (base apart) ?_
    cases rest with
    | nil => exact ne_pow_begins begins
    | cons => exact noPower
  | power noSign baseRead isPower exponentRead base exponent =>
    refine .power (by rwa [next_append (baseRead.ne_nil rfl)]) (base of_cons_eq_nil) isPower
      (exponent fun ended => ⟨rfl, ?_⟩)
    have suffix := (List.suffix_cons _ _).trans baseRead.takes.suffix
    exact (called_of_suffix suffix (exponentRead.ne_nil rfl)).symm.trans (apart ended).2
  | number isNumber => exact .number isNumber
  | string isString => exact .string isString
  | boolean isBoolean => exact .boolean isBoolean
  | emptyList isOpen isClose => exact .emptyList isOpen isClose
  | @list _ _ _ ts _ _ isOpen goesOn itemsRead isClose items =>
    have goesOn : (next (ts ++ t :: us)).kind ≠ .rbracket := by
      rwa [next_append (itemsRead.ne_nil rfl)]
    exact .list isOpen goesOn (items of_cons_eq_nil) isClose
  | parentheses isOpen _ isClose inner => exact .parentheses isOpen (inner of_cons_eq_nil) isClose
  | @access _ name rest isName noCall noElement =>
    cases rest with
    | nil =>
      have alone : called [name] t = false := (apart rfl).2
      simp only [called, List.getLast?_singleton, Option.any_some, isName, beq_self_eq_true,
        Bool.true_and, opens, Bool.or_eq_false_iff, beq_eq_false_iff_ne] at alone
      exact .access isName alone.1 alone.2
    | cons => exact .access isName noCall noElement
  | emptyCall isName isOpen isClose => exact .emptyCall isName isOpen isClose
  | @call _ _ _ _ ts _ _ isName isOpen goesOn argumentsRead isClose arguments =>
    have goesOn : (next (ts ++ t :: us)).kind ≠ .rparen := by
      rwa [next_append (argumentsRead.ne_nil rfl)]
    exact .call isName isOpen goesOn (arguments of_cons_eq_nil) isClose
  | element isName isOpen _ isClose indices =>
    exact .element isName isOpen (indices of_cons_eq_nil) isClose

end Grammar

end Pseudocode
