import Pseudocode.Proofs.Parser.Basic

set_option autoImplicit false

namespace Pseudocode

namespace Parse

open Grammar Grammar.Mode

variable {ts rest : List Token}

variable {rec : Goal → Parse Node} {n : Nat} {c : Bool} {node : Node} {nodes : List Node}

structure Faithful (rec : Goal → Parse Node) : Prop where
  statement {ts rest : List Token} {node : Node} :
    rec .statement ts = .ok (node, rest) → Reads .statement usual ts [node] rest
  condition {ts rest : List Token} {node : Node} :
    rec .condition ts = .ok (node, rest) → Reads .statement usual.test ts [node] rest
  comparison {ts rest : List Token} {node : Node} (c : Bool) :
    rec .comparison ts = .ok (node, rest) → Reads .comparison ⟨c, false⟩ ts [node] rest
  factor {ts rest : List Token} {node : Node} (c : Bool) :
    rec .factor ts = .ok (node, rest) → Reads .factor ⟨c, false⟩ ts [node] rest

theorem reads_commaTail (faithful : Faithful rec)
    (accepted : commaTail (rec .statement) n ts = .ok (nodes, rest)) :
    Reads .furtherItems ⟨c, false⟩ ts nodes rest := by
  induction n generalizing ts nodes with
  | zero => exact (unfinished_ok.mp accepted).elim
  | succ n ih =>
    simp only [commaTail, peek_bind, ite_ok, advance_bind, bind_ok, pure_ok, beq_iff_eq] at accepted
    obtain ⟨isComma, first, _, read, others, _, further, rfl, rfl⟩ | ⟨noComma, rfl, rfl⟩ := accepted
    · obtain ⟨comma, ts, rfl, isComma⟩ := next_kind (by decide) isComma
      exact .furtherItems isComma (.items (faithful.statement read) (ih further))
    · exact .noFurtherItems noComma

theorem reads_commaList (faithful : Faithful rec)
    (accepted : commaList (rec .statement) n ts = .ok (nodes, rest)) :
    Reads .items ⟨c, false⟩ ts nodes rest := by
  simp only [commaList, bind_ok, pure_ok] at accepted
  obtain ⟨first, _, read, others, _, further, rfl, rfl⟩ := accepted
  exact .items (faithful.statement read) (reads_commaTail faithful further)

theorem reads_statementsUntil (faithful : Faithful rec) {stop : Token → Bool}
    (accepted : statementsUntil rec stop n ts = .ok (nodes, rest)) :
    Reads (.body stop) ⟨c, false⟩ ts nodes rest := by
  induction n generalizing ts nodes with
  | zero => exact (unfinished_ok.mp accepted).elim
  | succ n ih =>
    simp only [statementsUntil, peek_bind, ite_ok, skip_bind, bind_ok, pure_ok] at accepted
    obtain ⟨ends, rfl, rfl⟩ | ⟨goesOn, first, _, read, others, _, further, rfl, rfl⟩ := accepted
    · exact .bodyEnd ends
    · exact .bodyNext (Bool.eq_false_iff.mpr goesOn) (faithful.statement read) (ih further)

theorem reads_block (faithful : Faithful rec) {terminators : List String}
    (accepted : block rec n terminators ts = .ok (node, rest)) :
    Reads (.block terminators) ⟨c, false⟩ ts [node] rest := by
  simp only [block, skip_bind, bind_ok, pure_ok] at accepted
  obtain ⟨body, _, read, rfl, rfl⟩ := accepted
  exact .block (reads_statementsUntil faithful read)

theorem reads_list (faithful : Faithful rec) {opening : Token} (isOpen : opening.kind = .lbracket)
    (accepted : list rec n (opening :: ts) = .ok (node, rest)) :
    Reads .atom ⟨c, false⟩ (opening :: ts) [node] rest := by
  simp only [list, advance_bind, peek_bind, List.tail_cons, ite_ok, bind_ok, pure_ok,
    beq_iff_eq] at accepted
  obtain ⟨isClose, rfl, rfl⟩ | ⟨noClose, items, _, read, close, _, closed, rfl, rfl⟩ := accepted
  · obtain ⟨close, ts, rfl, isClose⟩ := next_kind (by decide) isClose
    exact .emptyList isOpen isClose
  · obtain ⟨rfl, isClose⟩ := (expect_ok (by decide)).mp closed
    exact .list isOpen noClose (reads_commaList faithful read) isClose

theorem reads_call (faithful : Faithful rec) {name opening : Token}
    (isName : name.kind = .identifier) (isOpen : opening.kind = .lparen)
    (accepted : call rec n name.name (opening :: ts) = .ok (node, rest)) :
    Reads .atom ⟨c, false⟩ (name :: opening :: ts) [node] rest := by
  simp only [call, advance_bind, peek_bind, List.tail_cons, ite_ok, bind_ok, pure_ok,
    beq_iff_eq] at accepted
  obtain ⟨isClose, rfl, rfl⟩ | ⟨noClose, items, _, read, close, _, closed, rfl, rfl⟩ := accepted
  · obtain ⟨close, ts, rfl, isClose⟩ := next_kind (by decide) isClose
    exact .emptyCall isName isOpen isClose
  · obtain ⟨rfl, isClose⟩ := (expect_ok (by decide)).mp closed
    exact .call isName isOpen noClose (reads_commaList faithful read) isClose

theorem reads_element (faithful : Faithful rec) {name opening : Token}
    (isName : name.kind = .identifier) (isOpen : opening.kind = .lbracket)
    (accepted : element rec n name.name (opening :: ts) = .ok (node, rest)) :
    Reads .atom ⟨c, false⟩ (name :: opening :: ts) [node] rest := by
  simp only [element, advance_bind, List.tail_cons, bind_ok, pure_ok] at accepted
  obtain ⟨indices, _, read, close, _, closed, rfl, rfl⟩ := accepted
  obtain ⟨rfl, isClose⟩ := (expect_ok (by decide)).mp closed
  exact .element isName isOpen (reads_commaList faithful read) isClose

theorem reads_identifier (faithful : Faithful rec) {name : Token}
    (isName : name.kind = .identifier)
    (accepted : identifier rec n name.name ts = .ok (node, rest)) :
    Reads .atom ⟨c, false⟩ (name :: ts) [node] rest := by
  rw [identifier_eq] at accepted
  by_cases isCall : (next ts).kind = .lparen
  · obtain ⟨opening, ts, rfl, isOpen⟩ := next_kind (by decide) isCall
    exact reads_call faithful isName isOpen (by rwa [if_pos isCall] at accepted)
  rw [if_neg isCall] at accepted
  by_cases isElement : (next ts).kind = .lbracket
  · obtain ⟨opening, ts, rfl, isOpen⟩ := next_kind (by decide) isElement
    exact reads_element faithful isName isOpen (by rwa [if_pos isElement] at accepted)
  · obtain ⟨rfl, rfl⟩ := pure_ok.mp (by rwa [if_neg isElement] at accepted)
    exact .access isName isCall isElement

theorem reads_atom (faithful : Faithful rec) (accepted : atom rec n ts = .ok (node, rest)) :
    Reads .atom ⟨c, false⟩ ts [node] rest := by
  simp only [atom, peek_bind] at accepted
  cases here : (next ts).kind <;>
    simp only [here, advance_bind, bind_ok, pure_ok, ite_ok, fail_ok, and_false, or_false] at accepted
  case number =>
    obtain ⟨token, _, rfl, isNumber⟩ := next_kind (by decide) here
    obtain ⟨rfl, rfl⟩ := accepted
    exact .number isNumber
  case string =>
    obtain ⟨token, _, rfl, isString⟩ := next_kind (by decide) here
    obtain ⟨rfl, rfl⟩ := accepted
    exact .string isString
  case lbracket =>
    obtain ⟨opening, _, rfl, isOpen⟩ := next_kind (by decide) here
    exact reads_list faithful isOpen accepted
  case identifier =>
    obtain ⟨name, _, rfl, isName⟩ := next_kind (by decide) here
    exact reads_identifier faithful isName accepted
  case lparen =>
    obtain ⟨opening, _, rfl, isOpen⟩ := next_kind (by decide) here
    obtain ⟨inner, _, read, close, _, closed, rfl, rfl⟩ := accepted
    obtain ⟨rfl, isClose⟩ := (expect_ok (by decide)).mp closed
    exact .parentheses isOpen (faithful.statement read) isClose
  all_goals
    obtain ⟨isBoolean, rfl, rfl⟩ := accepted
    cases ts with
    | nil => exact absurd isBoolean (by decide)
    | cons token ts => exact .boolean isBoolean

theorem reads_power (faithful : Faithful rec) (unsigned : signOf? (next ts) = none)
    (accepted : power rec n ts = .ok (node, rest)) : Reads .factor ⟨c, false⟩ ts [node] rest := by
  simp only [power, bind_ok, peek_bind, ite_ok, advance_bind, pure_ok, beq_iff_eq] at accepted
  obtain ⟨base, mid, read, ⟨isPower, exponent, _, above, rfl, rfl⟩ | ⟨noPower, rfl, rfl⟩⟩ := accepted
  · obtain ⟨sign, mid, rfl, isPower⟩ := next_kind (by decide) isPower
    exact .power unsigned (reads_atom faithful read) isPower (faithful.factor c above)
  · exact .unsigned unsigned (reads_atom faithful read) noPower

theorem reads_factor (faithful : Faithful rec) (accepted : factor rec n ts = .ok (node, rest)) :
    Reads .factor ⟨c, false⟩ ts [node] rest := by
  rw [factor_eq] at accepted
  split at accepted
  case h_1 op signed =>
    obtain ⟨operand, _, read, made⟩ := bind_ok.mp accepted
    obtain ⟨rfl, rfl⟩ := pure_ok.mp made
    cases ts with
    | nil => exact nomatch signed
    | cons sign ts => exact .signed signed (faithful.factor c read)
  case h_2 unsigned => exact reads_power faithful unsigned accepted

theorem reads_operators {operand : Parse Node} {level : Level}
    (reads_operand : ∀ {ts rest : List Token} {node : Node}, operand ts = .ok (node, rest) →
      Reads level.operand ⟨c, false⟩ ts [node] rest)
    {left : Node} (accepted : operators level.operator? operand n left ts = .ok (node, rest)) :
    Reads (.operators level left) ⟨c, false⟩ ts [node] rest := by
  induction n generalizing ts left with
  | zero => exact (unfinished_ok.mp accepted).elim
  | succ n ih =>
    simp only [operators, peek_bind] at accepted
    cases here : level.operator? (next ts) with
    | none =>
      simp only [here, pure_ok] at accepted
      obtain ⟨rfl, rfl⟩ := accepted
      exact .noOperator here
    | some op =>
      simp only [here, advance_bind, bind_ok] at accepted
      obtain ⟨right, _, read, further⟩ := accepted
      cases ts with
      | nil => cases level <;> cases here
      | cons sign ts => exact .operator here (reads_operand read) (ih further)

theorem reads_term (faithful : Faithful rec) (accepted : term rec n ts = .ok (node, rest)) :
    Reads (.chain .multiplicative) ⟨c, false⟩ ts [node] rest := by
  obtain ⟨first, _, read, further⟩ := bind_ok.mp accepted
  exact .chain (reads_factor faithful read) (reads_operators (reads_factor faithful) further)

theorem reads_sum (faithful : Faithful rec) (accepted : sum rec n ts = .ok (node, rest)) :
    Reads (.chain .additive) ⟨c, false⟩ ts [node] rest := by
  obtain ⟨first, _, read, further⟩ := bind_ok.mp accepted
  exact .chain (reads_term faithful read) (reads_operators (reads_term faithful) further)

theorem reads_relations (faithful : Faithful rec) {depth : Nat} {left : Node}
    (accepted : relations rec depth n left ts = .ok (node, rest)) :
    Reads (.relations left) ⟨c, false⟩ ts [node] rest := by
  induction n generalizing ts left with
  | zero => exact (unfinished_ok.mp accepted).elim
  | succ n ih =>
    simp only [relations, peek_bind] at accepted
    cases compares : comparisonOf? (next ts) with
    | some op =>
      simp only [compares, advance_bind, bind_ok] at accepted
      obtain ⟨right, _, read, further⟩ := accepted
      cases ts with
      | nil => cases compares
      | cons sign ts => exact .compare compares (reads_sum faithful read) (ih further)
    | none =>
      cases connects : connectiveOf? (next ts) with
      | some op =>
        simp only [compares, connects, advance_bind, bind_ok] at accepted
        obtain ⟨right, _, read, further⟩ := accepted
        cases ts with
        | nil => cases connects
        | cons word ts => exact .connect compares connects (faithful.comparison c read) (ih further)
      | none =>
        simp only [compares, connects, pure_ok] at accepted
        obtain ⟨rfl, rfl⟩ := accepted
        exact .noRelation compares connects

theorem reads_comparison (faithful : Faithful rec)
    (accepted : comparison rec n ts = .ok (node, rest)) :
    Reads .comparison ⟨c, false⟩ ts [node] rest := by
  rw [comparison, takeWord_ok] at accepted
  simp only [if_true, Bool.false_eq_true, if_false, bind_ok, pure_ok] at accepted
  obtain ⟨word, _, rfl, isNot, operand, _, read, rfl, rfl⟩ | ⟨noNot, first, _, read, further⟩ :=
    accepted
  · exact .negation isNot (faithful.comparison c read)
  · exact .comparison noNot (reads_sum faithful read) (reads_relations faithful further)

theorem reads_ifStatement (faithful : Faithful rec) {word : Token} (isWord : word.isKeyword "IF")
    (accepted : ifStatement rec n ts = .ok (node, rest)) :
    Reads .plain ⟨c, false⟩ (word :: ts) [node] rest := by
  simp only [ifStatement, bind_ok, expectWord_ok, ↓takeWord_ok, if_true, Bool.false_eq_true, if_false,
    pure_ok] at accepted
  obtain ⟨condition, _, test, _, _, ⟨thenWord, rfl, isThen⟩, yes, _, yesRead, choice⟩ := accepted
  obtain ⟨elseWord, _, rfl, isElse, no, _, noRead, _, _, ⟨close, rfl, isClose⟩, rfl, rfl⟩ |
    ⟨_, _, _, ⟨close, rfl, isClose⟩, rfl, rfl⟩ := choice
  · exact .ifElse isWord (faithful.condition test) isThen (reads_block faithful yesRead) isElse
      (reads_block faithful noRead) isClose
  · exact .ifThen isWord (faithful.condition test) isThen (reads_block faithful yesRead) isClose

theorem reads_forStatement (faithful : Faithful rec) {word : Token} (isWord : word.isKeyword "FOR")
    (accepted : forStatement rec n ts = .ok (node, rest)) :
    Reads .plain ⟨c, false⟩ (word :: ts) [node] rest := by
  simp only [forStatement, bind_ok, expectWord_ok, ↓takeWord_ok, if_true, Bool.false_eq_true,
    if_false, pure_ok, peek_bind, ite_ok, fail_ok, and_false, or_false, advance_bind,
    Bool.and_eq_true, beq_iff_eq] at accepted
  obtain ⟨target, _, named, sign, _, signed, start, _, startRead, _, _, ⟨toWord, rfl, isTo⟩, final, _,
    finalRead, choice⟩ := accepted
  obtain ⟨rfl, isName⟩ := (expect_ok (by decide)).mp named
  obtain ⟨rfl, isSign⟩ := (expect_ok (by decide)).mp signed
  obtain ⟨stepWord, _, rfl, isStep, step, _, stepRead, body, _, bodyRead, _, _,
      ⟨nextWord, rfl, isNext⟩, ⟨closes, same⟩, rfl, rfl⟩ |
    ⟨noStep, _, _, ⟨rfl, rfl⟩, body, _, bodyRead, _, _,
      ⟨nextWord, rfl, isNext⟩, ⟨closes, same⟩, rfl, rfl⟩ := choice
  · obtain ⟨closing, rest, rfl, closes⟩ := next_kind (by decide) closes
    exact .forLoop isWord isName isSign (faithful.statement startRead) isTo
      (faithful.statement finalRead) (.step isStep (faithful.statement stepRead))
      (reads_block faithful bodyRead) isNext closes same
  · obtain ⟨closing, rest, rfl, closes⟩ := next_kind (by decide) closes
    exact .forLoop isWord isName isSign (faithful.statement startRead) isTo
      (faithful.statement finalRead) (.noStep noStep) (reads_block faithful bodyRead) isNext closes
      same

theorem reads_whileStatement (faithful : Faithful rec) {word : Token}
    (isWord : word.isKeyword "WHILE") (accepted : whileStatement rec n ts = .ok (node, rest)) :
    Reads .plain ⟨c, false⟩ (word :: ts) [node] rest := by
  simp only [whileStatement, bind_ok, expectWord_ok, pure_ok] at accepted
  obtain ⟨condition, _, test, _, _, ⟨doWord, rfl, isDo⟩, body, _, bodyRead, _, _,
    ⟨close, rfl, isClose⟩, rfl, rfl⟩ := accepted
  exact .whileLoop isWord (faithful.condition test) isDo (reads_block faithful bodyRead) isClose

theorem reads_repeatStatement (faithful : Faithful rec) {word : Token}
    (isWord : word.isKeyword "REPEAT") (accepted : repeatStatement rec n ts = .ok (node, rest)) :
    Reads .plain ⟨c, false⟩ (word :: ts) [node] rest := by
  simp only [repeatStatement, bind_ok, expectWord_ok, pure_ok] at accepted
  obtain ⟨body, _, bodyRead, _, _, ⟨untilWord, rfl, isUntil⟩, condition, _, test, rfl, rfl⟩ := accepted
  exact .repeatUntil isWord (reads_block faithful bodyRead) isUntil (faithful.statement test)

theorem reads_parameterTail (accepted : commaTail parameter n ts = .ok (nodes, rest)) :
    Reads .furtherParameters ⟨c, false⟩ ts nodes rest := by
  induction n generalizing ts nodes with
  | zero => exact (unfinished_ok.mp accepted).elim
  | succ n ih =>
    simp only [commaTail, parameter, peek_bind, ite_ok, advance_bind, bind_ok, pure_ok,
      beq_iff_eq] at accepted
    obtain ⟨isComma, _, _, ⟨name, _, named, rfl, rfl⟩, names, _, further, rfl, rfl⟩ |
      ⟨noComma, rfl, rfl⟩ := accepted
    · obtain ⟨comma, _, rfl, isComma⟩ := next_kind (by decide) isComma
      obtain ⟨rfl, isName⟩ := (expect_ok (by decide)).mp named
      exact .furtherParameters isComma isName (ih further)
    · exact .noFurtherParameters noComma

theorem reads_parameters (accepted : parameters n ts = .ok (nodes, rest)) :
    Reads .parameters ⟨c, false⟩ ts nodes rest := by
  simp only [parameters, commaList, parameter, peek_bind, ite_ok, bind_ok, pure_ok,
    beq_iff_eq] at accepted
  obtain ⟨_, _, _, ⟨name, _, named, rfl, rfl⟩, names, _, further, rfl, rfl⟩ | ⟨noName, rfl, rfl⟩ :=
    accepted
  · obtain ⟨rfl, isName⟩ := (expect_ok (by decide)).mp named
    exact .parameters isName (reads_parameterTail further)
  · exact .noParameters noName

theorem reads_definitionHead {opening : Option String} {u : Unit}
    (accepted : definitionHead opening ts = .ok (u, rest)) :
    Reads (.head opening) ⟨c, false⟩ ts [] rest := by
  simp only [definitionHead, ite_ok, beq_iff_eq] at accepted
  obtain ⟨rfl, function⟩ | ⟨noFunction, ⟨rfl, procedure⟩ | ⟨noProcedure, other⟩⟩ := accepted
  · obtain ⟨word, _, rfl, isReturns, type⟩ | ⟨noReturns, none⟩ := takeWord_ok.mp function
    · simp only [if_true, peek_bind, ite_ok, pure_ok] at type
      obtain ⟨isType, taken⟩ | ⟨noType, _, rfl⟩ := type
      · obtain ⟨type, _, rfl, isType⟩ := next_kind (by decide) isType
        obtain rfl : _ = rest := congrArg Prod.snd (Outcome.ok.inj taken)
        exact .returnsTypeHead isReturns isType
      · exact .returnsHead isReturns noType
    · obtain ⟨rfl, rfl⟩ := pure_ok.mp none
      exact .functionHead noReturns
  · obtain ⟨rfl, rfl⟩ := pure_ok.mp procedure
    exact .procedureHead
  · obtain ⟨word, rfl, isDo⟩ := expectWord_ok.mp other
    exact .doHead noFunction noProcedure isDo

theorem reads_finalResult (faithful : Faithful rec) {closing : Parse.Closing}
    (accepted : finalResult rec closing ts = .ok (node, rest)) :
    Reads (.result closing) ⟨c, false⟩ ts [node] rest := by
  rw [finalResult, takeWord_ok] at accepted
  simp only [if_true, Bool.false_eq_true, if_false, bind_ok, skip_bind, peek_bind, ite_ok, pure_ok,
    fail_ok, and_false, or_false] at accepted
  obtain ⟨word, _, rfl, isReturn, value, _, read, closes, rfl, rfl⟩ | ⟨noReturn, rfl, rfl⟩ := accepted
  · exact .result isReturn (faithful.statement read) closes
  · exact .noResult noReturn

theorem reads_definition (faithful : Faithful rec) {word : Token}
    (isWord : definitionWords.any word.isKeyword)
    (accepted : definition rec n word.name ts = .ok (node, rest)) :
    Reads .plain ⟨c, false⟩ (word :: ts) [node] rest := by
  simp only [definition, bind_ok, expectWord_ok, pure_ok] at accepted
  obtain ⟨function, _, named, opening, _, opened, names, _, namesRead, close, _, closed, _, _, head,
    body, _, bodyRead, result, _, resultRead, _, _, ⟨endWord, rfl, isEnd⟩, rfl, rfl⟩ := accepted
  obtain ⟨rfl, isName⟩ := (expect_ok (by decide)).mp named
  obtain ⟨rfl, isOpen⟩ := (expect_ok (by decide)).mp opened
  obtain ⟨rfl, isClose⟩ := (expect_ok (by decide)).mp closed
  exact .define isWord isName isOpen (reads_parameters namesRead) isClose (reads_definitionHead head)
    (reads_block faithful bodyRead) (reads_finalResult faithful resultRead) isEnd

theorem reads_printStatement (faithful : Faithful rec) {word : Token}
    (isWord : word.isKeyword "PRINT") (accepted : printStatement rec n ts = .ok (node, rest)) :
    Reads .plain ⟨c, false⟩ (word :: ts) [node] rest := by
  simp only [printStatement, peek_bind, ite_ok, bind_ok, pure_ok] at accepted
  obtain ⟨ends, rfl, rfl⟩ | ⟨goesOn, arguments, _, read, rfl, rfl⟩ := accepted
  · exact .printLine isWord ends
  · exact .print isWord (Bool.eq_false_iff.mpr goesOn) (reads_commaList faithful read)

theorem reads_readStatement (faithful : Faithful rec) {word : Token}
    (isWord : word.isKeyword "read") (accepted : readStatement rec n ts = .ok (node, rest)) :
    Reads .plain ⟨c, false⟩ (word :: ts) [node] rest := by
  simp only [readStatement, bind_ok, pure_ok] at accepted
  obtain ⟨arguments, _, read, rfl, rfl⟩ := accepted
  exact .read isWord (reads_commaList faithful read)

theorem reads_inputStatement {word : Token} (isWord : word.isKeyword "INPUT")
    (accepted : inputStatement ts = .ok (node, rest)) :
    Reads .plain ⟨c, false⟩ (word :: ts) [node] rest := by
  simp only [inputStatement, bind_ok, pure_ok] at accepted
  obtain ⟨name, _, named, rfl, rfl⟩ := accepted
  obtain ⟨rfl, isName⟩ := (expect_ok (by decide)).mp named
  exact .input isWord isName

theorem reads_includeStatement {word : Token} (isWord : word.isKeyword "INCLUDE")
    (accepted : includeStatement ts = .ok (node, rest)) :
    Reads .plain ⟨c, false⟩ (word :: ts) [node] rest := by
  simp only [includeStatement, bind_ok, pure_ok] at accepted
  obtain ⟨name, _, named, rfl, rfl⟩ := accepted
  obtain ⟨rfl, isName⟩ := (expect_ok (by decide)).mp named
  exact .includeFile isWord isName

theorem reads_returnStatement (faithful : Faithful rec) {word : Token}
    (isWord : word.isKeyword "RETURN") (accepted : returnStatement rec ts = .ok (node, rest)) :
    Reads .plain ⟨c, false⟩ (word :: ts) [node] rest := by
  simp only [returnStatement, bind_ok, pure_ok] at accepted
  obtain ⟨value, _, read, rfl, rfl⟩ := accepted
  exact .returnValue isWord (faithful.statement read)

theorem reads_dimensionTail (faithful : Faithful rec) {bounds : List (Node × Node)}
    (accepted : commaTail (dimension rec) n ts = .ok (bounds, rest)) :
    ∃ nodes, Reads .furtherDimensions ⟨c, false⟩ ts nodes rest ∧ pairs nodes = bounds := by
  induction n generalizing ts bounds with
  | zero => exact (unfinished_ok.mp accepted).elim
  | succ n ih =>
    simp only [commaTail, dimension, peek_bind, ite_ok, advance_bind, bind_ok, pure_ok,
      beq_iff_eq] at accepted
    obtain ⟨isComma, _, _, ⟨low, _, lowRead, colon, _, colonRead, high, _, highRead, rfl, rfl⟩,
      others, _, further, rfl, rfl⟩ | ⟨noComma, rfl, rfl⟩ := accepted
    · obtain ⟨comma, _, rfl, isComma⟩ := next_kind (by decide) isComma
      obtain ⟨rfl, isColon⟩ := (expect_ok (by decide)).mp colonRead
      obtain ⟨nodes, furtherRead, rfl⟩ := ih further
      exact ⟨low :: high :: nodes, .furtherDimensions isComma
        (.dimensions (faithful.statement lowRead) isColon (faithful.statement highRead) furtherRead),
        rfl⟩
    · exact ⟨[], .noFurtherDimensions noComma, rfl⟩

theorem reads_dimensions (faithful : Faithful rec) {bounds : List (Node × Node)}
    (accepted : commaList (dimension rec) n ts = .ok (bounds, rest)) :
    ∃ nodes, Reads .dimensions ⟨c, false⟩ ts nodes rest ∧ pairs nodes = bounds := by
  simp only [commaList, dimension, bind_ok, pure_ok] at accepted
  obtain ⟨_, _, ⟨low, _, lowRead, colon, _, colonRead, high, _, highRead, rfl, rfl⟩, others, _, further,
    rfl, rfl⟩ := accepted
  obtain ⟨rfl, isColon⟩ := (expect_ok (by decide)).mp colonRead
  obtain ⟨nodes, furtherRead, rfl⟩ := reads_dimensionTail faithful further
  exact ⟨low :: high :: nodes,
    .dimensions (faithful.statement lowRead) isColon (faithful.statement highRead) furtherRead, rfl⟩

theorem reads_declareStatement (faithful : Faithful rec) {word : Token}
    (isWord : word.isKeyword "DECLARE") (accepted : declareStatement rec n ts = .ok (node, rest)) :
    Reads .plain ⟨c, false⟩ (word :: ts) [node] rest := by
  simp only [declareStatement, bind_ok, ↓takeWord_ok, if_true, Bool.false_eq_true, if_false,
    expectWord_ok, pure_ok] at accepted
  obtain ⟨name, _, named, colon, _, colonRead, choice⟩ := accepted
  obtain ⟨rfl, isName⟩ := (expect_ok (by decide)).mp named
  obtain ⟨rfl, isColon⟩ := (expect_ok (by decide)).mp colonRead
  obtain ⟨array, _, rfl, isArray, opening, _, opened, bounds, _, read, close, _, closed, _, _,
      ⟨ofWord, rfl, isOf⟩, type, _, typed, rfl, rfl⟩ | ⟨noArray, type, _, typed, rfl, rfl⟩ := choice
  · obtain ⟨rfl, isOpen⟩ := (expect_ok (by decide)).mp opened
    obtain ⟨rfl, isClose⟩ := (expect_ok (by decide)).mp closed
    obtain ⟨rfl, isType⟩ := (expect_ok (by decide)).mp typed
    obtain ⟨nodes, boundsRead, rfl⟩ := reads_dimensions faithful read
    exact .declareArray isWord isName isColon isArray isOpen boundsRead isClose isOf isType
  · obtain ⟨rfl, isType⟩ := (expect_ok (by decide)).mp typed
    exact .declare isWord isName isColon isType noArray

theorem reads_caseItem (faithful : Faithful rec) (accepted : caseItem rec n ts = .ok (node, rest)) :
    Reads .item ⟨c, false⟩ ts [node] rest := by
  simp only [caseItem, bind_ok, ↓takeWord_ok, if_true, Bool.false_eq_true, if_false, map_ok,
    pure_ok] at accepted
  obtain ⟨value, _, valueRead, choice⟩ := accepted
  obtain ⟨toWord, _, rfl, isTo, _, _, ⟨upper, upperRead, rfl⟩, colon, _, colonRead, body, _, bodyRead,
      rfl, rfl⟩ |
    ⟨_, _, _, ⟨rfl, rfl⟩, colon, _, colonRead, body, _, bodyRead, rfl, rfl⟩ := choice
  · obtain ⟨rfl, isColon⟩ := (expect_ok (by decide)).mp colonRead
    exact .range (faithful.statement valueRead) isTo (faithful.statement upperRead) isColon
      (reads_statementsUntil faithful bodyRead)
  · obtain ⟨rfl, isColon⟩ := (expect_ok (by decide)).mp colonRead
    exact .single (faithful.statement valueRead) isColon (reads_statementsUntil faithful bodyRead)

theorem reads_caseItems (faithful : Faithful rec) {depth : Nat} {last : Option Node}
    (accepted : caseItems rec depth n last ts = .ok (nodes, rest)) :
    ∃ more, Reads (.cases last more) ⟨c, false⟩ ts nodes rest := by
  induction n generalizing ts nodes last with
  | zero => exact (unfinished_ok.mp accepted).elim
  | succ n ih =>
    rw [caseItems, takeWord_ok] at accepted
    obtain ⟨word, _, rfl, isEnd, ended⟩ | ⟨noEnd, goesOn⟩ := accepted
    · obtain ⟨rfl, rfl⟩ := pure_ok.mp ended
      exact ⟨false, .endCase isEnd⟩
    rw [if_neg (by decide), takeWord_ok] at goesOn
    simp only [if_true, Bool.false_eq_true, if_false, otherwise, bind_ok, pure_ok] at goesOn
    obtain ⟨word, _, rfl, isOtherwise, _, _, ⟨colon, _, colonRead, body, _, bodyRead, rfl, rfl⟩,
        further⟩ |
      ⟨noOtherwise, item, _, itemRead, others, _, further, rfl, rfl⟩ := goesOn
    · obtain ⟨rfl, isColon⟩ := (expect_ok (by decide)).mp colonRead
      obtain ⟨more, further⟩ := ih further
      refine ⟨true, .otherwise isOtherwise isColon ?_ further⟩
      cases more <;> exact reads_statementsUntil faithful bodyRead
    · obtain ⟨more, further⟩ := ih further
      have begins : endsOtherwise (next ts) = false := by
        simp only [endsOtherwise, noEnd, noOtherwise, Bool.or_self]
      exact ⟨more, .caseItem begins (reads_caseItem faithful itemRead) further⟩

theorem reads_caseStatement (faithful : Faithful rec) {word : Token}
    (isWord : word.isKeyword "CASE") (accepted : caseStatement rec n ts = .ok (node, rest)) :
    Reads .plain ⟨c, false⟩ (word :: ts) [node] rest := by
  simp only [caseStatement, bind_ok, expectWord_ok, pure_ok] at accepted
  obtain ⟨_, _, ⟨ofWord, rfl, isOf⟩, name, _, named, items, _, read, rfl, rfl⟩ := accepted
  obtain ⟨rfl, isName⟩ := (expect_ok (by decide)).mp named
  obtain ⟨more, read⟩ := reads_caseItems faithful read
  exact .case isWord isOf isName read

theorem reads_keywordStatement (faithful : Faithful rec) {word : Token}
    (isWord : word.kind = .keyword)
    (accepted : keywordStatement rec n word (word :: ts) = .ok (node, rest)) :
    Reads .plain ⟨c, false⟩ (word :: ts) [node] rest := by
  generalize chosen : keywordStatement rec n word = parser at accepted
  unfold keywordStatement at chosen
  split at chosen <;> subst chosen
  case h_1 named => exact reads_ifStatement faithful (isKeyword_of_name isWord named) accepted
  case h_2 named => exact reads_forStatement faithful (isKeyword_of_name isWord named) accepted
  case h_3 named => exact reads_whileStatement faithful (isKeyword_of_name isWord named) accepted
  case h_4 named =>
    exact reads_definition faithful (by simp [definitionWords, Token.isKeyword, isWord, named]) accepted
  case h_5 named =>
    exact reads_definition faithful (by simp [definitionWords, Token.isKeyword, isWord, named]) accepted
  case h_6 named =>
    exact reads_definition faithful (by simp [definitionWords, Token.isKeyword, isWord, named]) accepted
  case h_7 named => exact reads_printStatement faithful (isKeyword_of_name isWord named) accepted
  case h_8 named => exact reads_inputStatement (isKeyword_of_name isWord named) accepted
  case h_9 named => exact reads_readStatement faithful (isKeyword_of_name isWord named) accepted
  case h_10 named => exact reads_includeStatement (isKeyword_of_name isWord named) accepted
  case h_11 named => exact reads_caseStatement faithful (isKeyword_of_name isWord named) accepted
  case h_12 named => exact reads_repeatStatement faithful (isKeyword_of_name isWord named) accepted
  case h_13 named => exact reads_declareStatement faithful (isKeyword_of_name isWord named) accepted
  case h_14 named => exact reads_returnStatement faithful (isKeyword_of_name isWord named) accepted
  case h_15 => exact (fail_ok.mp accepted).elim
  case h_16 =>
    have noStatement : statementWords.any word.isKeyword = false := by
      simp only [statementWords, Token.isKeyword, isWord, List.any_cons, List.any_nil, beq_self_eq_true,
        Bool.true_and, Bool.or_false, Bool.or_eq_false_iff, beq_eq_false_iff_ne]
      and_intros <;> assumption
    exact .expression noStatement (reads_comparison faithful accepted)

theorem reads_plainStatement (faithful : Faithful rec)
    (accepted : plainStatement rec n ts = .ok (node, rest)) :
    Reads .plain ⟨c, false⟩ ts [node] rest := by
  simp only [plainStatement, peek_bind, ite_ok, beq_iff_eq] at accepted
  obtain ⟨isWord, accepted⟩ | ⟨noWord, accepted⟩ := accepted
  · obtain ⟨word, _, rfl, isWord⟩ := next_kind (by decide) isWord
    exact reads_keywordStatement faithful isWord accepted
  · exact .expression (any_isKeyword_eq_false noWord) (reads_comparison faithful accepted)

theorem reads_elementAssign (faithful : Faithful rec) {first second : Token}
    (isName : first.kind = .identifier) (isOpen : second.kind = .lbracket)
    (ahead : assignsElement ts = true)
    (accepted : elementAssign rec n first.name ts = .ok (node, rest)) :
    Reads .statement usual (first :: second :: ts) [node] rest := by
  simp only [elementAssign, bind_ok, advance_bind, pure_ok] at accepted
  obtain ⟨indices, _, read, close, _, closed, value, _, valueRead, rfl, rfl⟩ := accepted
  obtain ⟨rfl, isClose⟩ := (expect_ok (by decide)).mp closed
  exact .elementAssign rfl isName isOpen ahead (reads_commaList faithful read) isClose
    (faithful.statement valueRead)

theorem reads_statement (faithful : Faithful rec)
    (accepted : statement rec n ts = .ok (node, rest)) :
    Reads .statement usual ts [node] rest := by
  by_cases assigns : startsAssignment ts = true
  · match ts with
    | first :: second :: ts =>
      simp only [startsAssignment, Bool.and_eq_true, Bool.or_eq_true, beq_iff_eq] at assigns
      obtain ⟨isName, isAssign | ⟨isOpen, ahead⟩⟩ := assigns
      · rw [statement_assign isName isAssign] at accepted
        obtain ⟨value, _, read, made⟩ := bind_ok.mp accepted
        obtain ⟨rfl, rfl⟩ := pure_ok.mp made
        exact .assign rfl isName isAssign (faithful.statement read)
      · rw [statement_elementAssign isName isOpen ahead] at accepted
        exact reads_elementAssign faithful isName isOpen ahead accepted
  · rw [statement_eq_plain (Bool.eq_false_iff.mpr assigns)] at accepted
    exact .plain (fun _ => Bool.eq_false_iff.mpr assigns) (reads_plainStatement faithful accepted)

theorem reads_step (faithful : Faithful rec) : Faithful (step rec n) where
  statement := reads_statement faithful
  condition accepted := .plain (fun free => nomatch free) (reads_plainStatement faithful accepted)
  comparison _ := reads_comparison faithful
  factor _ := reads_factor faithful

theorem reads_run (n : Nat) : Faithful (run n) := by
  induction n with
  | zero => exact ⟨nofun, nofun, nofun, nofun⟩
  | succ n ih => exact reads_step ih

end Parse

end Pseudocode
