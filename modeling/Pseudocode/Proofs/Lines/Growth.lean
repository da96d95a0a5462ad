import Pseudocode.Proofs.Lines.Append
import Pseudocode.Proofs.Parser.Complete

set_option autoImplicit false

namespace Pseudocode

namespace Node

mutual

def weight : Node → Nat
  | ⟨kind, _, _, children⟩ => (if kind = .access then 1 else 2) + weights children

def weights : List Node → Nat
  | [] => 0
  | node :: nodes => weight node + weights nodes

end

variable {kind : Kind} {name : Option String} {node : Node} {nodes others : List Node}

@[simp] theorem weights_nil : weights [] = 0 := by rw [weights]

@[simp] theorem weights_cons : weights (node :: nodes) = node.weight + weights nodes := by rw [weights]

@[simp] theorem weights_append : weights (nodes ++ others) = weights nodes + weights others := by
  induction nodes with
  | nil => simp
  | cons node nodes ih => simp [ih, Nat.add_assoc]

@[simp] theorem weight_named (other : kind ≠ .access) :
    (Node.named kind name nodes).weight = 2 + weights nodes := by
  rw [Node.named, weight, if_neg other]

@[simp] theorem weight_of (other : kind ≠ .access) : (Node.of kind nodes).weight = 2 + weights nodes :=
  weight_named other

@[simp] theorem weight_sign {op : Sign} : (Node.sign op node).weight = 2 + node.weight := by
  simp [Node.sign]

@[simp] theorem weight_arithmetic {op : Arithmetic} {left right : Node} :
    (Node.arithmetic op left right).weight = 2 + (left.weight + right.weight) := by
  simp [Node.arithmetic]

@[simp] theorem weight_comparison {op : Comparison} {left right : Node} :
    (Node.comparison op left right).weight = 2 + (left.weight + right.weight) := by
  simp [Node.comparison]

@[simp] theorem weight_connective {op : Connective} {left right : Node} :
    (Node.connective op left right).weight = 2 + (left.weight + right.weight) := by
  simp [Node.connective]

theorem weight_access : (Node.named .access name []).weight = 1 := by
  rw [Node.named, weight, weights_nil, if_pos rfl]

theorem weight_pos (node : Node) : 0 < node.weight := by
  obtain ⟨kind, _, _, children⟩ := node
  rw [weight]
  split <;> omega

theorem weights_pos (some : nodes ≠ []) : 0 < weights nodes := by
  cases nodes with
  | nil => exact absurd rfl some
  | cons node nodes =>
    have positive := weight_pos node
    rw [weights_cons]
    omega

end Node

namespace Grammar

open Parse Mode Node

variable {ts after rest rest' us : List Token} {t : Token} {node node' : Node} {nodes nodes' : List Node}
  {part : Part} {p : Mode}

theorem Reads.unique (read : Reads part p ts [node] rest) (other : Reads part p ts [node'] rest')
    (loose : p.careful = false) : node = node' ∧ rest = rest' := by
  have first := (complete read loose).below (n := ts.length + 2) (by omega)
  have second := (complete other loose).below (n := ts.length + 2) (by omega)
  cases part with
  | dimensions => cases read
  | furtherDimensions =>
    cases read with
    | furtherDimensions _ bounds => cases bounds
  | head => exact first.elim
  | _ =>
    have same := Outcome.ok.inj (Eq.trans (Eq.symm first) second)
    simpa using same

theorem Reads.unique_items (read : Reads .items p ts nodes rest) (other : Reads .items p ts nodes' rest')
    (loose : p.careful = false) : nodes = nodes' ∧ rest = rest' := by
  have first := (complete read loose).below (n := ts.length + 2) (by omega)
  have second := (complete other loose).below (n := ts.length + 2) (by omega)
  have same := Outcome.ok.inj (Eq.trans (Eq.symm first) second)
  simpa using same

theorem Reads.weights_given_le (read : Reads part p ts nodes rest) :
    weights part.given ≤ weights nodes := by
  induction read with
  | endCase => exact Nat.le_refl _
  | caseItem _ _ _ _ items => exact Nat.le_trans items (by simp)
  | noRelation => exact Nat.le_refl _
  | compare _ _ _ _ further =>
    refine Nat.le_trans ?_ further
    simp only [Part.given, weights_cons, weight_comparison]
    omega
  | connect _ _ _ _ _ further =>
    refine Nat.le_trans ?_ further
    simp only [Part.given, weights_cons, weight_connective]
    omega
  | noOperator => exact Nat.le_refl _
  | operator _ _ _ _ further =>
    refine Nat.le_trans ?_ further
    simp only [Part.given, weights_cons, weight_arithmetic]
    omega
  | _ => exact Nat.zero_le _

section Inversion

variable {word : Token}

theorem Reads.of_repeat (read : Reads .plain p (word :: ts) nodes rest)
    (isWord : word.isKeyword "REPEAT") :
    ∃ body untilWord after condition, Reads (.block ["UNTIL"]) p ts [body] (untilWord :: after) ∧
      Reads .statement p.test.inside after [condition] rest ∧
      nodes = [Node.of .repeatUntil [body, condition]] := by
  cases read with
  | repeatUntil _ body _ test => exact ⟨_, _, _, _, body, test, rfl⟩
  | _ => simp_all [Token.isKeyword, definitionWords, statementWords]

theorem Reads.of_print (read : Reads .plain p (word :: ts) nodes rest) (isWord : word.isKeyword "PRINT")
    (goesOn : endsPrint (next ts) = false) :
    ∃ arguments, Reads .items p ts arguments rest ∧ nodes = [Node.of .print arguments] := by
  cases read with
  | print _ _ arguments => exact ⟨_, arguments, rfl⟩
  | _ => simp_all [Token.isKeyword, definitionWords, statementWords]

theorem Reads.of_read (read : Reads .plain p (word :: ts) nodes rest) (isWord : word.isKeyword "read") :
    ∃ arguments, Reads .items p ts arguments rest ∧ nodes = [Node.of .read arguments] := by
  cases read with
  | read _ arguments => exact ⟨_, arguments, rfl⟩
  | _ => simp_all [Token.isKeyword, definitionWords, statementWords]

theorem Reads.of_return (read : Reads .plain p (word :: ts) nodes rest)
    (isWord : word.isKeyword "RETURN") :
    ∃ value, Reads .statement p.inside ts [value] rest ∧ nodes = [Node.of .return [value]] := by
  cases read with
  | returnValue _ value => exact ⟨_, value, rfl⟩
  | _ => simp_all [Token.isKeyword, definitionWords, statementWords]

theorem Reads.plain_of_statement (read : Reads .statement p ts nodes rest)
    (plain : p.condition = false → startsAssignment ts = false) : Reads .plain p ts nodes rest := by
  cases read with
  | assign free isName isAssign =>
    exact absurd (plain free) (by simp [startsAssignment, isName, isAssign])
  | elementAssign free isName isOpen ahead =>
    exact absurd (plain free) (by simp [startsAssignment, isName, isOpen, ahead])
  | plain _ read => exact read

theorem Reads.of_items (read : Reads .items p ts nodes rest) :
    ∃ first after others, Reads .statement p.inside ts [first] after ∧
      Reads .furtherItems p after others rest ∧ nodes = first :: others := by
  cases read with
  | items first others => exact ⟨_, _, _, first, others, rfl⟩

theorem Reads.of_comparison (read : Reads .comparison p ts nodes rest)
    (noNot : (next ts).isKeyword "NOT" = false) :
    ∃ first after, Reads (.chain .additive) p ts [first] after ∧
      Reads (.relations first) p after nodes rest := by
  cases read with
  | negation isNot => exact absurd isNot (by simpa using noNot)
  | comparison _ first further => exact ⟨_, _, first, further⟩

theorem Reads.of_chain {level : Level} (read : Reads (.chain level) p ts nodes rest) :
    ∃ first after, Reads level.operand p ts [first] after ∧
      Reads (.operators level first) p after nodes rest := by
  cases read with
  | chain first further => exact ⟨_, _, first, further⟩

theorem Reads.of_factor (read : Reads .factor p ts nodes rest) (noSign : signOf? (next ts) = none) :
    ∃ base after, Reads .atom p ts [base] after ∧
      ((nodes = [base] ∧ (next after).kind ≠ .pow) ∨
        ∃ sign later exponent, after = sign :: later ∧ Reads .factor p later [exponent] rest ∧
          nodes = [Node.arithmetic .power base exponent]) := by
  cases read with
  | signed isSign => rw [next_cons, isSign] at noSign; cases noSign
  | unsigned _ base noPower => exact ⟨_, _, base, .inl ⟨rfl, noPower⟩⟩
  | power _ base _ exponent => exact ⟨_, _, base, .inr ⟨_, _, _, rfl, exponent, rfl⟩⟩

theorem Reads.of_name {name : Token} (read : Reads .atom p (name :: t :: ts) nodes rest)
    (isName : name.kind = .identifier) (isOpen : opens t = true) : 1 < weights nodes := by
  cases read with
  | number isNumber => cases isName.symm.trans isNumber
  | string isString => cases isName.symm.trans isString
  | boolean isBoolean => simp [Token.isKeyword, isName] at isBoolean
  | emptyList opening => cases isName.symm.trans opening
  | list opening => cases isName.symm.trans opening
  | parentheses opening => cases isName.symm.trans opening
  | access _ noCall noElement => simp_all [opens]
  | emptyCall => simp
  | call => simp; omega
  | element => simp; omega

theorem Reads.relations_nil {left : Node} (read : Reads (.relations left) p [] nodes rest) :
    nodes = [left] := by
  cases read
  rfl

theorem Reads.operators_nil {level : Level} {left : Node}
    (read : Reads (.operators level left) p [] nodes rest) : nodes = [left] := by
  cases read
  rfl

end Inversion

theorem Reads.stable {after' : List Token} (read : Reads part p ts [node] after)
    (begins : binds t = false) (loose : p.careful = false)
    (longer : Reads part p (ts ++ t :: us) [node'] after')
    (apart : after = [] → part.last = true ∧ part.joins ts [node] t = false) :
    node = node' ∧ after ++ t :: us = after' :=
  (read.append us begins apart).unique longer loose

theorem Reads.operand_stable {level : Level} {after' : List Token}
    (read : Reads level.operand p ts [node] after) (begins : binds t = false) (loose : p.careful = false)
    (longer : Reads level.operand p (ts ++ t :: us) [node'] after')
    (uncalled : ¬ (after = [] ∧ called ts t = true)) : node = node' ∧ after ++ t :: us = after' := by
  refine read.stable begins loose longer fun ended => ⟨level.last_operand, ?_⟩
  rw [level.joins_operand begins]
  simpa [ended] using uncalled

theorem Level.joins_after {level : Level} (suffix : after <:+ ts)
    (joined : ((level.operator? t).isSome || called ts t) = true)
    (uncalled : ¬ (after = [] ∧ called ts t = true)) :
    ((level.operator? t).isSome || called after t) = true := by
  by_cases more : after = []
  · have isOperator := (Bool.or_eq_true_iff.mp joined).resolve_right fun isCall => uncalled ⟨more, isCall⟩
    rw [isOperator, Bool.true_or]
  · rwa [called_of_suffix suffix more] at joined

theorem Reads.eq_access {name : Token} (read : Reads .plain p [name] [node] rest)
    (isName : name.kind = .identifier) (loose : p.careful = false) :
    node = Node.named .access name.name [] := by
  have noWord : statementWords.any name.isKeyword = false :=
    any_isKeyword_eq_false (by rw [isName]; decide)
  have atom : Reads .atom p [name] [Node.named .access name.name []] [] := .access isName nofun nofun
  have factor := Reads.unsigned (by simp [signOf?, isName]) atom nofun
  have term : Reads (.chain .multiplicative) p [name] _ [] := .chain factor (.noOperator rfl)
  have sum : Reads (.chain .additive) p [name] _ [] := .chain term (.noOperator rfl)
  have relation := Reads.comparison (by simp [Token.isKeyword, isName]) sum (.noRelation rfl rfl)
  exact (read.unique (.expression noWord relation) loose).1

theorem Reads.grows (read : Reads part p ts nodes rest) (begins : binds t = false)
    (loose : p.careful = false) (ended : rest = []) (joined : part.joins ts nodes t = true)
    (longer : Reads part p (ts ++ t :: us) nodes' rest') : weights nodes < weights nodes' := by
  -- Up to the last part the longer tokens are read the same way. The last part is read at the same place
  -- in both, and there the induction goes on.
  induction read generalizing nodes' rest' with
  | assign free isName isAssign valueRead value =>
    have joined := (runsOn_value [] (.inl rfl) (List.suffix_refl _) (valueRead.ne_nil rfl)).symm.trans
      joined
    cases longer with
    | assign _ _ _ longer => simpa using value loose ended joined longer
    | elementAssign _ _ isOpen => rw [isAssign] at isOpen; cases isOpen
    | plain goesOn => exact absurd (goesOn free) (by simp [startsAssignment, isName, isAssign])
  | @elementAssign _ _ _ _ ts more _ _ _ free isName isOpen ahead itemsRead isClose valueRead _ value =>
    have itemsMore := itemsRead.append us begins of_cons_eq_nil
    have inside := itemsMore.takes.afterClosing_one isClose
    rw [assignsElement, itemsRead.takes.afterClosing_one isClose] at ahead
    cases more with
    | nil => exact absurd ahead (by decide)
    | cons sign more =>
      have suffix := (List.suffix_append [_, sign] more).trans itemsRead.takes.suffix
      have joined := (runsOn_value _ (.inr rfl) suffix (valueRead.ne_nil rfl)).symm.trans joined
      have isSign : sign.kind = .assign := by simpa using ahead
      cases longer with
      | assign _ _ isAssign => rw [isOpen] at isAssign; cases isAssign
      | elementAssign _ _ _ _ itemsLonger _ longer =>
        obtain ⟨rfl, same⟩ := itemsMore.unique_items itemsLonger loose
        obtain ⟨rfl, rfl⟩ := List.cons.inj same
        simpa using value loose ended joined longer
      | plain goesOn =>
        have looks : assignsElement (ts ++ t :: us) = true := by simp [assignsElement, inside, isSign]
        exact absurd (goesOn free) (by simpa [startsAssignment, isName, isOpen] using looks)
  | @plain p _ _ _ goesOn nodeRead node =>
    cases free : p.condition with
    | true => exact node loose ended joined (longer.plain_of_statement (by simp [free]))
    | false =>
      rcases startsAssignment_append us begins nodeRead (goesOn free) with
        none | ⟨name, rfl, isName, isOpen⟩
      · exact node loose ended joined (longer.plain_of_statement fun _ => none)
      -- The bracket makes an element of the name, which may even be assigned.
      cases longer with
      | assign _ _ isAssign => rw [isOpen] at isAssign; cases isAssign
      | elementAssign =>
        rw [nodeRead.eq_access isName loose]
        simp [weight_access]
        omega
      | plain _ longer => exact node loose ended joined longer
  | ifThen isWord testRead isThen yesRead isClose =>
    subst ended
    exact absurd joined (runsOn_closed (.ifThen isWord testRead isThen yesRead isClose)
      (statementWord isWord (by decide)) rfl rfl)
  | ifElse isWord testRead isThen yesRead isElse noRead isClose =>
    subst ended
    exact absurd joined (runsOn_closed (.ifElse isWord testRead isThen yesRead isElse noRead isClose)
      (statementWord isWord (by decide)) rfl rfl)
  | forLoop isWord isName isSign startRead isTo finalRead stepRead bodyRead isNext closes same =>
    subst ended
    exact absurd joined (runsOn_closed (.forLoop isWord isName isSign startRead isTo finalRead stepRead
      bodyRead isNext closes same) (statementWord isWord (by decide)) rfl rfl)
  | whileLoop isWord testRead isDo bodyRead isClose =>
    subst ended
    exact absurd joined (runsOn_closed (.whileLoop isWord testRead isDo bodyRead isClose)
      (statementWord isWord (by decide)) rfl rfl)
  | @repeatUntil p _ _ _ _ _ _ _ isWord bodyRead isUntil testRead _ test =>
    have suffix := (List.suffix_cons _ _).trans bodyRead.takes.suffix
    have joined := (runsOn_repeat suffix (testRead.ne_nil rfl)).symm.trans joined
    obtain ⟨_, _, _, _, bodyLonger, testLonger, rfl⟩ := longer.of_repeat isWord
    obtain ⟨rfl, same⟩ := bodyRead.stable begins loose bodyLonger of_cons_eq_nil
    obtain ⟨rfl, rfl⟩ := List.cons.inj same
    simpa using test (careful_inside (p := p.test) loose) ended joined testLonger
  | define isWord isName isOpen namesRead isClose headRead bodyRead resultRead isEnd =>
    subst ended
    exact absurd joined (runsOn_closed (.define isWord isName isOpen namesRead isClose headRead bodyRead
      resultRead isEnd) (definitionWord isWord) rfl rfl)
  | printLine isWord =>
    subst ended
    have goesOn := (runsOn_bare isWord).symm.trans joined
    obtain ⟨_, items, rfl⟩ := longer.of_print isWord (by simpa using goesOn)
    simpa using weights_pos items.items_ne_nil
  | print isWord goesOn argumentsRead arguments =>
    have some := argumentsRead.ne_nil rfl
    have joined := (runsOn_arguments (.inl rfl) some argumentsRead.items_ne_nil).symm.trans joined
    obtain ⟨_, items, rfl⟩ := longer.of_print isWord
      ((congrArg endsPrint (next_append some)).trans goesOn)
    simpa using arguments loose ended joined items
  | @input p _ _ _ isWord isName =>
    subst ended
    exact absurd joined (runsOn_closed (p := p) (.input isWord isName)
      (statementWord isWord (by decide)) rfl rfl)
  | read isWord argumentsRead arguments =>
    have some := argumentsRead.ne_nil rfl
    have joined := (runsOn_arguments (.inr (.inl rfl)) some argumentsRead.items_ne_nil).symm.trans joined
    obtain ⟨_, items, rfl⟩ := longer.of_read isWord
    simpa using arguments loose ended joined items
  | @includeFile p _ _ _ isWord isName =>
    subst ended
    exact absurd joined (runsOn_closed (p := p) (.includeFile isWord isName)
      (statementWord isWord (by decide)) rfl rfl)
  | returnValue isWord valueRead value =>
    have joined := (runsOn_arguments (.inr (.inr rfl)) (valueRead.ne_nil rfl)
      (List.cons_ne_nil _ _)).symm.trans joined
    obtain ⟨_, valueLonger, rfl⟩ := longer.of_return isWord
    simpa using value (careful_inside loose) ended joined valueLonger
  | @declare p _ _ _ _ _ isWord isName isColon isType noArray =>
    subst ended
    exact absurd joined (runsOn_closed (p := p) (.declare isWord isName isColon isType noArray)
      (statementWord isWord (by decide)) rfl rfl)
  | declareArray isWord isName isColon isArray isOpen boundsRead isClose isOf isType =>
    subst ended
    exact absurd joined (runsOn_closed (.declareArray isWord isName isColon isArray isOpen boundsRead
      isClose isOf isType) (statementWord isWord (by decide)) rfl rfl)
  | case isWord isOf isName itemsRead =>
    subst ended
    exact absurd joined (runsOn_closed (.case isWord isOf isName itemsRead)
      (statementWord isWord (by decide)) rfl rfl)
  | @items _ _ after _ _ _ firstRead othersRead first others =>
    obtain ⟨_, _, _, firstLonger, othersLonger, rfl⟩ := longer.of_items
    by_cases more : after = []
    · subst more
      obtain rfl := othersRead.furtherItems_eq_nil
      have grown := first (careful_inside loose) rfl joined firstLonger
      simp only [weights_cons, weights_nil] at grown ⊢
      omega
    · obtain ⟨rfl, rfl⟩ := firstRead.stable begins (careful_inside loose) firstLonger
        fun ended => absurd ended more
      subst ended
      have some := othersRead.furtherItems_ne_nil more
      have joined := (runsOn_rest firstRead.takes.suffix more some).symm.trans joined
      simpa using others loose rfl joined othersLonger
  | noFurtherItems =>
    subst ended
    cases joined
  | furtherItems isComma itemsRead items =>
    have joined := (runsOn_of_suffix (List.suffix_cons _ _) (itemsRead.ne_nil rfl)).symm.trans joined
    cases longer with
    | noFurtherItems noComma => exact absurd isComma noComma
    | furtherItems _ longer => exact items loose ended joined longer
  | expression noWord nodeRead node =>
    subst ended
    have longer := longer.comparison_of_plain (by rwa [next_append (nodeRead.ne_nil rfl)])
    exact node loose rfl ((runsOn_expression nodeRead).symm.trans joined) longer
  | negation isWord operandRead operand =>
    rw [Part.joins, called_of_suffix (List.suffix_cons _ _) (operandRead.ne_nil rfl)] at joined
    cases longer with
    | negation _ longer => simpa using operand loose ended joined longer
    | comparison noNot => exact absurd isWord (by simpa using noNot)
  | @comparison _ _ after _ _ _ noNot firstRead furtherRead first further =>
    obtain ⟨_, _, firstLonger, furtherLonger⟩ :=
      longer.of_comparison (by rwa [next_append (firstRead.ne_nil rfl)])
    by_cases more : after = []
    · subst more
      rw [furtherRead.relations_nil]
      exact Nat.lt_of_lt_of_le (first loose rfl joined firstLonger) furtherLonger.weights_given_le
    · obtain ⟨rfl, rfl⟩ := firstRead.stable begins loose firstLonger fun ended => absurd ended more
      refine further loose ended ?_ furtherLonger
      rw [Part.joins, called_of_suffix firstRead.takes.suffix more] at joined
      simpa [Part.joins, more] using joined
  | noRelation =>
    subst ended
    cases joined
  | @compare _ _ _ _ after _ _ _ _ isComparison rightRead furtherRead right further =>
    rw [Part.joins, called_of_suffix (List.suffix_cons _ _) (rightRead.ne_nil rfl)] at joined
    cases longer with
    | noRelation noComparison => cases isComparison.symm.trans noComparison
    | connect noComparison => cases isComparison.symm.trans noComparison
    | compare sameComparison rightLonger furtherLonger =>
      obtain rfl := Option.some.inj (isComparison.symm.trans sameComparison)
      by_cases more : after = []
      · subst more
        have grown := right loose rfl joined rightLonger
        have bound := furtherLonger.weights_given_le
        rw [furtherRead.relations_nil]
        simp only [Part.given, weights_cons, weights_nil, weight_comparison] at grown bound ⊢
        omega
      · obtain ⟨rfl, rfl⟩ := rightRead.stable begins loose rightLonger fun ended => absurd ended more
        refine further loose ended ?_ furtherLonger
        rw [called_of_suffix rightRead.takes.suffix more] at joined
        simpa [Part.joins, more] using joined
  | @connect _ _ _ _ after _ _ _ _ noComparison isConnective rightRead furtherRead right further =>
    rw [Part.joins, called_of_suffix (List.suffix_cons _ _) (rightRead.ne_nil rfl)] at joined
    cases longer with
    | noRelation _ noConnective => cases isConnective.symm.trans noConnective
    | compare isComparison => cases noComparison.symm.trans isComparison
    | connect _ sameConnective rightLonger furtherLonger =>
      obtain rfl := Option.some.inj (isConnective.symm.trans sameConnective)
      by_cases more : after = []
      · subst more
        have grown := right loose rfl joined rightLonger
        have bound := furtherLonger.weights_given_le
        rw [furtherRead.relations_nil]
        simp only [Part.given, weights_cons, weights_nil, weight_connective] at grown bound ⊢
        omega
      · obtain ⟨rfl, rfl⟩ := rightRead.stable begins loose rightLonger fun ended => absurd ended more
        refine further loose ended ?_ furtherLonger
        rw [called_of_suffix rightRead.takes.suffix more] at joined
        simpa [Part.joins, more] using joined
  | @chain _ level ts after _ _ _ firstRead furtherRead first further =>
    obtain ⟨_, _, firstLonger, furtherLonger⟩ := longer.of_chain
    by_cases isCalled : after = [] ∧ called ts t = true
    · obtain ⟨rfl, isCall⟩ := isCalled
      rw [furtherRead.operators_nil]
      rw [← level.joins_operand begins] at isCall
      exact Nat.lt_of_lt_of_le (first loose rfl isCall firstLonger) furtherLonger.weights_given_le
    · obtain ⟨rfl, rfl⟩ := firstRead.operand_stable begins loose firstLonger isCalled
      exact further loose ended (Level.joins_after firstRead.takes.suffix joined isCalled) furtherLonger
  | noOperator =>
    subst ended
    have isOperator := Option.isSome_iff_exists.mp ((Bool.or_false _).symm.trans joined)
    obtain ⟨op, isOperator⟩ := isOperator
    cases longer with
    | noOperator noOperator => cases isOperator.symm.trans noOperator
    | operator _ _ furtherLonger =>
      have bound := furtherLonger.weights_given_le
      simp only [Part.given, weights_cons, weights_nil, weight_arithmetic] at bound ⊢
      omega
  | @operator _ level _ _ ts after _ _ _ _ isOperator rightRead furtherRead right further =>
    have some := rightRead.ne_nil level.least_operand
    rw [Part.joins, called_of_suffix (List.suffix_cons _ _) some] at joined
    cases longer with
    | noOperator noOperator => cases isOperator.symm.trans noOperator
    | operator sameOperator rightLonger furtherLonger =>
      obtain rfl := Option.some.inj (isOperator.symm.trans sameOperator)
      by_cases isCalled : after = [] ∧ called ts t = true
      · obtain ⟨rfl, isCall⟩ := isCalled
        rw [← level.joins_operand begins] at isCall
        have grown := right loose rfl isCall rightLonger
        have bound := furtherLonger.weights_given_le
        rw [furtherRead.operators_nil]
        simp only [Part.given, weights_cons, weights_nil, weight_arithmetic] at grown bound ⊢
        omega
      · obtain ⟨rfl, rfl⟩ := rightRead.operand_stable begins loose rightLonger isCalled
        exact further loose ended (Level.joins_after rightRead.takes.suffix joined isCalled) furtherLonger
  | signed isSign operandRead operand =>
    rw [Part.joins, called_of_suffix (List.suffix_cons _ _) (operandRead.ne_nil rfl)] at joined
    cases longer with
    | signed _ operandLonger => simpa using operand loose ended joined operandLonger
    | unsigned noSign => cases isSign.symm.trans noSign
    | power noSign => cases isSign.symm.trans noSign
  | unsigned noSign baseRead _ base =>
    obtain ⟨_, _, baseLonger, ⟨rfl, _⟩ | ⟨_, _, _, rfl, _, rfl⟩⟩ :=
      longer.of_factor (by rwa [next_append (baseRead.ne_nil rfl)])
    · exact base loose ended joined baseLonger
    · have grown := base loose ended joined baseLonger
      simp only [weights_cons, weights_nil, weight_arithmetic] at grown ⊢
      omega
  | power noSign baseRead isPower exponentRead _ exponent =>
    have suffix := (List.suffix_cons _ _).trans baseRead.takes.suffix
    rw [Part.joins, called_of_suffix suffix (exponentRead.ne_nil rfl)] at joined
    obtain ⟨_, _, baseLonger, further⟩ := longer.of_factor (by rwa [next_append (baseRead.ne_nil rfl)])
    obtain ⟨rfl, rfl⟩ := baseRead.stable begins loose baseLonger of_cons_eq_nil
    rcases further with ⟨_, noPower⟩ | ⟨_, _, _, same, exponentLonger, rfl⟩
    · exact absurd isPower noPower
    · obtain ⟨rfl, rfl⟩ := List.cons.inj same
      simpa using exponent loose ended joined exponentLonger
  | number isNumber =>
    subst ended
    exact absurd joined (not_called (List.suffix_refl _) isNumber (by decide))
  | string isString =>
    subst ended
    exact absurd joined (not_called (List.suffix_refl _) isString (by decide))
  | @boolean _ token _ isBoolean =>
    subst ended
    have isWord : token.kind = .keyword := by
      rcases Bool.or_eq_true_iff.mp isBoolean with isWord | isWord <;> exact kind_of_isKeyword isWord
    exact absurd joined (not_called (List.suffix_refl _) isWord (by decide))
  | emptyList _ isClose =>
    subst ended
    exact absurd joined (not_called (List.suffix_append [_] [_]) isClose (by decide))
  | list _ _ itemsRead isClose =>
    subst ended
    exact absurd joined (not_called (itemsRead.takes.suffix.trans (List.suffix_cons _ _))
      isClose (by decide))
  | parentheses _ innerRead isClose =>
    subst ended
    exact absurd joined (not_called (innerRead.takes.suffix.trans (List.suffix_cons _ _))
      isClose (by decide))
  | @access _ name _ isName =>
    subst ended
    have isOpen : opens t = true := by simpa [Part.joins, called, isName] using joined
    rw [weights_cons, weight_access, weights_nil]
    exact longer.of_name isName isOpen
  | emptyCall _ _ isClose =>
    subst ended
    exact absurd joined (not_called (List.suffix_append [_, _] [_]) isClose (by decide))
  | call _ _ _ argumentsRead isClose =>
    subst ended
    exact absurd joined (not_called (argumentsRead.takes.suffix.trans (List.suffix_append [_, _] _))
      isClose (by decide))
  | element _ _ indicesRead isClose =>
    subst ended
    exact absurd joined (not_called (indicesRead.takes.suffix.trans (List.suffix_append [_, _] _))
      isClose (by decide))
  | _ => cases joined

end Grammar

end Pseudocode
