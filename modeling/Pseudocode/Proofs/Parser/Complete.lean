import Pseudocode.Eval
import Pseudocode.Proofs.Parser.Sound

set_option autoImplicit false

namespace Pseudocode

namespace Parse

open Grammar Grammar.Mode

variable {ts rest : List Token}

def slack : Part → Nat
  | .items | .furtherItems | .body _ | .block _ | .dimensions | .furtherDimensions | .cases _ _
  | .item => 1
  | _ => 0

def operandOf (n : Nat) : Level → Parse Node
  | .additive => term (run n) n
  | .multiplicative => factor (run n) n

def chainOf (n : Nat) (level : Level) : Parse Node := do
  let first ← operandOf n level
  operators level.operator? (operandOf n level) n first

def accepts (n k : Nat) : Part → Mode → List Token → List Node → List Token → Prop
  | .statement, p, ts, [node], rest =>
    (bif p.condition then plainStatement (run n) n ts else statement (run n) n ts) = .ok (node, rest)
  | .plain, _, ts, [node], rest => plainStatement (run n) n ts = .ok (node, rest)
  | .comparison, _, ts, [node], rest => comparison (run n) n ts = .ok (node, rest)
  | .relations left, _, ts, [node], rest => relations (run n) n k left ts = .ok (node, rest)
  | .chain level, _, ts, [node], rest => chainOf n level ts = .ok (node, rest)
  | .operators level left, _, ts, [node], rest =>
    operators level.operator? (operandOf n level) k left ts = .ok (node, rest)
  | .factor, _, ts, [node], rest => factor (run n) n ts = .ok (node, rest)
  | .atom, _, ts, [node], rest => atom (run n) n ts = .ok (node, rest)
  | .items, _, ts, nodes, rest => commaList (run n .statement) k ts = .ok (nodes, rest)
  | .furtherItems, _, ts, nodes, rest => commaTail (run n .statement) k ts = .ok (nodes, rest)
  | .body stop, _, ts, nodes, rest => statementsUntil (run n) stop k ts = .ok (nodes, rest)
  | .block terminators, _, ts, [node], rest => block (run n) n terminators ts = .ok (node, rest)
  | .increment, _, ts, [node], rest =>
    (takeWord "STEP" >>= fun steps =>
      if steps then run n .statement else pure (Node.number (some (.number 1.0)))) ts = .ok (node, rest)
  | .parameters, _, ts, nodes, rest => parameters n ts = .ok (nodes, rest)
  | .furtherParameters, _, ts, nodes, rest => commaTail parameter k ts = .ok (nodes, rest)
  | .head opening, _, ts, [], rest => definitionHead opening ts = .ok ((), rest)
  | .result closing, _, ts, [node], rest => finalResult (run n) closing ts = .ok (node, rest)
  | .dimensions, _, ts, nodes, rest => commaList (dimension (run n)) k ts = .ok (pairs nodes, rest)
  | .furtherDimensions, _, ts, nodes, rest =>
    commaTail (dimension (run n)) k ts = .ok (pairs nodes, rest)
  | .cases last _, _, ts, nodes, rest => caseItems (run n) n k last ts = .ok (nodes, rest)
  | .item, _, ts, [node], rest => caseItem (run n) n ts = .ok (node, rest)
  | _, _, _, _, _ => False

def Complete (part : Part) (p : Mode) (ts : List Token) (nodes : List Node) (rest : List Token) :
    Prop :=
  ∀ n k, ts.length + slack part < n → ts.length + slack part < k → accepts n k part p ts nodes rest

variable {part : Part} {p : Mode} {nodes : List Node} {n k : Nat} {node : Node}

theorem Complete.accepted (complete : Complete part p ts nodes rest) (enough : ts.length + 1 < n)
    (loops : ts.length + 1 < k) : accepts n k part p ts nodes rest := by
  have least : slack part ≤ 1 := by unfold slack; split <;> decide
  exact complete n k (by omega) (by omega)

theorem Complete.below (complete : Complete part p ts nodes rest) (enough : ts.length + 1 < n) :
    accepts n n part p ts nodes rest :=
  complete.accepted enough enough

theorem Complete.tight (complete : Complete part p ts nodes rest) (none : slack part = 0)
    (enough : ts.length < n) (loops : ts.length < k) : accepts n k part p ts nodes rest :=
  complete n k (by omega) (by omega)

theorem Complete.operand {level : Level} (complete : Complete level.operand p ts [node] rest)
    (enough : ts.length < n) : operandOf n level ts = .ok (node, rest) := by
  cases level <;> exact complete.tight rfl enough enough

theorem Complete.statement (complete : Complete .statement p ts [node] rest)
    (free : p.condition = false) (enough : ts.length + 1 < n) :
    run n .statement ts = .ok (node, rest) := by
  obtain ⟨m, rfl⟩ : ∃ m, n = m + 1 := ⟨n - 1, by omega⟩
  have accepted := complete.tight rfl (n := m) (k := m) (by omega) (by omega)
  rw [accepts, free] at accepted
  exact accepted

theorem Complete.condition (complete : Complete .statement p ts [node] rest)
    (tests : p.condition = true) (enough : ts.length + 1 < n) :
    run n .condition ts = .ok (node, rest) := by
  obtain ⟨m, rfl⟩ : ∃ m, n = m + 1 := ⟨n - 1, by omega⟩
  have accepted := complete.tight rfl (n := m) (k := m) (by omega) (by omega)
  rw [accepts, tests] at accepted
  exact accepted

theorem Complete.comparison (complete : Complete .comparison p ts [node] rest)
    (enough : ts.length + 1 < n) : run n .comparison ts = .ok (node, rest) := by
  obtain ⟨m, rfl⟩ : ∃ m, n = m + 1 := ⟨n - 1, by omega⟩
  exact complete.tight (k := m) rfl (by omega) (by omega)

theorem Complete.factor (complete : Complete .factor p ts [node] rest)
    (enough : ts.length + 1 < n) : run n .factor ts = .ok (node, rest) := by
  obtain ⟨m, rfl⟩ : ∃ m, n = m + 1 := ⟨n - 1, by omega⟩
  exact complete.tight (k := m) rfl (by omega) (by omega)

theorem complete (read : Reads part p ts nodes rest) (loose : p.careful = false) :
    Complete part p ts nodes rest := by
  -- Every part that is read through a goal has taken a token before it, so the bound suffices.
  induction read with
  | assign free isName isAssign _ value =>
    intro n k enough _
    simp only [slack, List.length_cons] at enough
    rw [accepts, free, cond_false, statement_assign isName isAssign,
      bind_of_ok ((value loose).statement free (by omega))]
    rfl
  | elementAssign free isName isOpen ahead items isClose _ indices value =>
    intro n k enough _
    have shorter := items.length_add_least_le
    simp only [slack, List.length_cons, Part.least] at enough shorter
    have value := (value loose).statement free (n := n) (by rw [List.length_tail]; omega)
    rw [accepts, free, cond_false, statement_elementAssign isName isOpen ahead, elementAssign,
      bind_of_ok ((indices loose).below (by omega)), bind_of_ok (expect_of isClose), advance_bind,
      bind_of_ok value]
    rfl
  | @plain p _ _ _ starts _ accepted =>
    intro n k enough loops
    have accepted := accepted loose n k enough loops
    cases tests : p.condition with
    | true => rwa [accepts, tests]
    | false => rwa [accepts, tests, cond_false, statement_eq_plain (starts tests)]
  | ifThen isWord testRead isThen _ isClose test yes =>
    intro n k enough _
    have afterTest := testRead.length_add_least_le
    simp only [slack, List.length_cons, Part.least] at enough afterTest
    have noElse := isKeyword_ne isClose "ELSE" (by decide)
    rw [accepts, plainStatement_if isWord, ifStatement,
      bind_of_ok ((test loose).condition rfl (by omega)), bind_of_ok (expectWord_of isThen),
      bind_of_ok ((yes loose).below (by omega)), bind_of_ok (takeWord_other noElse),
      if_neg (by decide), bind_of_ok (expectWord_of isClose)]
    rfl
  | ifElse isWord testRead isThen yesRead isElse _ isClose test yes no =>
    intro n k enough _
    have afterTest := testRead.length_add_least_le
    have afterYes := yesRead.length_add_least_le
    simp only [slack, List.length_cons, Part.least] at enough afterTest afterYes
    rw [accepts, plainStatement_if isWord, ifStatement,
      bind_of_ok ((test loose).condition rfl (by omega)), bind_of_ok (expectWord_of isThen),
      bind_of_ok ((yes loose).below (by omega)), bind_of_ok (takeWord_of isElse), if_pos rfl,
      bind_of_ok ((no loose).below (by omega)), bind_of_ok (expectWord_of isClose)]
    rfl
  | forLoop isWord isName isSign startRead isTo finalRead stepRead _ isNext closes same start final step
      body =>
    intro n k enough _
    have afterStart := startRead.length_add_least_le
    have afterFinal := finalRead.length_add_least_le
    have afterStep := stepRead.length_add_least_le
    simp only [slack, List.length_cons, Part.least] at enough afterStart afterFinal afterStep
    have inside := careful_inside loose
    have free := condition_inside loose
    rw [accepts, plainStatement_for isWord, forStatement, bind_of_ok (expect_of isName),
      bind_of_ok (expect_of isSign), bind_of_ok ((start inside).statement free (by omega)),
      bind_of_ok (expectWord_of isTo), bind_of_ok ((final inside).statement free (by omega)),
      takeWord_choice, bind_of_ok ((step loose).below (n := n) (by omega))]
    dsimp only
    rw [bind_of_ok ((body loose).below (n := n) (by omega)), bind_of_ok (expectWord_of isNext),
      peek_bind, if_pos (by simp [closes, same])]
    rfl
  | step isWord _ value =>
    intro n k enough _
    simp only [slack, List.length_cons] at enough
    rw [accepts, bind_of_ok (takeWord_of isWord), if_pos rfl]
    exact (value (careful_inside loose)).statement (condition_inside loose) (by omega)
  | noStep noWord =>
    intro n k _ _
    rw [accepts, bind_of_ok (takeWord_of_not noWord)]
    rfl
  | whileLoop isWord testRead isDo _ isClose test body =>
    intro n k enough _
    have afterTest := testRead.length_add_least_le
    simp only [slack, List.length_cons, Part.least] at enough afterTest
    rw [accepts, plainStatement_while isWord, whileStatement,
      bind_of_ok ((test loose).condition rfl (by omega)), bind_of_ok (expectWord_of isDo),
      bind_of_ok ((body loose).below (by omega)), bind_of_ok (expectWord_of isClose)]
    rfl
  | repeatUntil isWord bodyRead isUntil _ body test =>
    intro n k enough _
    have afterBody := bodyRead.length_add_least_le
    simp only [slack, List.length_cons, Part.least] at enough afterBody
    have test := (test (careful_inside (p := Mode.test _) loose)).statement
      (condition_inside (p := Mode.test _) loose) (n := n) (by omega)
    rw [accepts, plainStatement_repeat isWord, repeatStatement,
      bind_of_ok ((body loose).below (by omega)), bind_of_ok (expectWord_of isUntil), bind_of_ok test]
    rfl
  | define isWord isName isOpen namesRead isClose headRead bodyRead resultRead isEnd names head body
      result =>
    intro n k enough _
    have afterNames := namesRead.length_add_least_le
    have afterHead := headRead.length_add_least_le
    have afterBody := bodyRead.length_add_least_le
    simp only [slack, List.length_cons, Part.least] at enough afterNames afterHead afterBody
    rw [accepts, plainStatement_definition isWord, definition, bind_of_ok (expect_of isName),
      bind_of_ok (expect_of isOpen), bind_of_ok ((names loose).below (by omega)),
      bind_of_ok (expect_of isClose), bind_of_ok ((head loose).below (n := n) (by omega)),
      bind_of_ok ((body loose).below (by omega)), bind_of_ok ((result loose).below (by omega)),
      bind_of_ok (expectWord_of isEnd)]
    rfl
  | noParameters noName =>
    intro n k _ _
    rw [accepts, Parse.parameters, peek_bind, if_neg (by simpa using noName)]
    rfl
  | parameters isName _ names =>
    intro n k enough _
    simp only [slack, List.length_cons] at enough
    rw [accepts, Parse.parameters, peek_bind, if_pos (by simpa using isName), commaList,
      bind_of_ok (parameter_of isName),
      bind_of_ok ((names loose).tight rfl (n := n) (by omega) (by omega))]
    rfl
  | noFurtherParameters noComma =>
    intro n k _ loops
    obtain ⟨k, rfl⟩ : ∃ m, k = m + 1 := ⟨k - 1, by omega⟩
    rw [accepts, commaTail, peek_bind, if_neg (by simpa using noComma)]
    rfl
  | furtherParameters isComma isName _ names =>
    intro n k enough loops
    obtain ⟨k, rfl⟩ : ∃ m, k = m + 1 := ⟨k - 1, by omega⟩
    simp only [slack, List.length_cons] at enough loops
    rw [accepts, commaTail, peek_bind, if_pos (by simpa using isComma), advance_bind,
      List.tail_cons, bind_of_ok (parameter_of isName),
      bind_of_ok ((names loose).tight rfl (n := n) (by omega) (by omega))]
    rfl
  | functionHead noReturns =>
    intro n k _ _
    rw [accepts, definitionHead, if_pos (beq_self_eq_true _), bind_of_ok (takeWord_of_not noReturns)]
    rfl
  | returnsHead isReturns noType =>
    intro n k _ _
    rw [accepts, definitionHead, if_pos (beq_self_eq_true _), bind_of_ok (takeWord_of isReturns),
      if_pos rfl, peek_bind, if_neg (by simpa using noType)]
    rfl
  | returnsTypeHead isReturns isType =>
    intro n k _ _
    rw [accepts, definitionHead, if_pos (beq_self_eq_true _), bind_of_ok (takeWord_of isReturns),
      if_pos rfl, peek_bind, if_pos (by simpa using isType)]
    rfl
  | procedureHead =>
    intro n k _ _
    rfl
  | doHead noFunction noProcedure isDo =>
    intro n k _ _
    rw [accepts, definitionHead, if_neg (by simpa using noFunction),
      if_neg (by simpa using noProcedure)]
    exact expectWord_of isDo
  | result isWord valueRead closes value =>
    intro n k enough _
    simp only [slack, List.length_cons] at enough
    rw [accepts, finalResult, bind_of_ok (takeWord_of isWord), if_pos rfl,
      bind_of_ok ((value loose).statement rfl (by omega)), skip_bind, peek_bind]
    exact (ite_apply.trans (if_pos closes)).trans rfl
  | noResult noWord =>
    intro n k _ _
    rw [accepts, finalResult, bind_of_ok (takeWord_of_not noWord)]
    rfl
  | printLine isWord ends =>
    intro n k _ _
    rw [accepts, plainStatement_print isWord, printStatement, peek_bind, if_pos ends]
    rfl
  | print isWord goesOn _ arguments =>
    intro n k enough _
    simp only [slack, List.length_cons] at enough
    rw [accepts, plainStatement_print isWord, printStatement, peek_bind,
      if_neg (Bool.eq_false_iff.mp goesOn), bind_of_ok ((arguments loose).below (by omega))]
    rfl
  | input isWord isName =>
    intro n k _ _
    rw [accepts, plainStatement_input isWord, inputStatement, bind_of_ok (expect_of isName)]
    rfl
  | read isWord _ arguments =>
    intro n k enough _
    simp only [slack, List.length_cons] at enough
    rw [accepts, plainStatement_read isWord, readStatement,
      bind_of_ok ((arguments loose).below (by omega))]
    rfl
  | includeFile isWord isName =>
    intro n k _ _
    rw [accepts, plainStatement_include isWord, includeStatement, bind_of_ok (expect_of isName)]
    rfl
  | returnValue isWord _ value =>
    intro n k enough _
    simp only [slack, List.length_cons] at enough
    rw [accepts, plainStatement_return isWord, returnStatement,
      bind_of_ok ((value (careful_inside loose)).statement (condition_inside loose) (by omega))]
    rfl
  | declare isWord isName isColon isType noArray =>
    intro n k _ _
    rw [accepts, plainStatement_declare isWord, declareStatement, bind_of_ok (expect_of isName),
      bind_of_ok (expect_of isColon), bind_of_ok (takeWord_other noArray),
      if_neg (by decide), bind_of_ok (expect_of isType)]
    rfl
  | declareArray isWord isName isColon isArray isOpen _ isClose isOf isType bounds =>
    intro n k enough _
    simp only [slack, List.length_cons] at enough
    rw [accepts, plainStatement_declare isWord, declareStatement, bind_of_ok (expect_of isName),
      bind_of_ok (expect_of isColon), bind_of_ok (takeWord_of isArray), if_pos rfl,
      bind_of_ok (expect_of isOpen), bind_of_ok ((bounds loose).below (by omega)),
      bind_of_ok (expect_of isClose), bind_of_ok (expectWord_of isOf), bind_of_ok (expect_of isType)]
    rfl
  | dimensions lowRead isColon highRead _ low high bounds =>
    intro n k enough loops
    have afterLow := lowRead.length_add_least_le
    have afterHigh := highRead.length_add_least_le
    simp only [slack, List.length_cons, Part.least] at enough loops afterLow afterHigh
    rw [accepts, commaList, bind_of_ok (dimension_of ((low rfl).statement rfl (by omega)) isColon
      ((high rfl).statement rfl (by omega))), bind_of_ok ((bounds loose).accepted (by omega) (by omega))]
    rfl
  | noFurtherDimensions noComma =>
    intro n k _ loops
    obtain ⟨k, rfl⟩ : ∃ m, k = m + 1 := ⟨k - 1, by omega⟩
    rw [accepts, commaTail, peek_bind, if_neg (by simpa using noComma)]
    rfl
  | furtherDimensions isComma _ bounds =>
    intro n k enough loops
    obtain ⟨k, rfl⟩ : ∃ m, k = m + 1 := ⟨k - 1, by omega⟩
    simp only [slack, List.length_cons] at enough loops
    rw [accepts, commaTail, peek_bind, if_pos (by simpa using isComma), advance_bind]
    exact (bounds loose).accepted (by omega) (by omega)
  | case isWord isOf isName _ items =>
    intro n k enough _
    simp only [slack, List.length_cons] at enough
    rw [accepts, plainStatement_case isWord, caseStatement, bind_of_ok (expectWord_of isOf),
      bind_of_ok (expect_of isName), bind_of_ok ((items loose).below (by omega))]
    rfl
  | endCase isWord =>
    intro n k _ loops
    obtain ⟨k, rfl⟩ : ∃ m, k = m + 1 := ⟨k - 1, by omega⟩
    rw [accepts, caseItems, bind_of_ok (takeWord_of isWord)]
    rfl
  | otherwise isWord isColon bodyRead _ body items =>
    intro n k enough loops
    obtain ⟨k, rfl⟩ : ∃ m, k = m + 1 := ⟨k - 1, by omega⟩
    have afterBody := bodyRead.length_add_least_le
    simp only [slack, List.length_cons, Part.least] at enough loops afterBody
    have noEnd := isKeyword_ne isWord "ENDCASE" (by decide)
    have body := otherwise_of isColon ((body (careful_unlessSuperseded _ loose)).below (n := n) (by omega))
    rw [accepts, caseItems, bind_of_ok (takeWord_other noEnd), if_neg (by decide),
      bind_of_ok (takeWord_of isWord), if_pos rfl, bind_of_ok body]
    exact (items loose).accepted (by omega) (by omega)
  | caseItem begins itemRead _ item items =>
    intro n k enough loops
    obtain ⟨k, rfl⟩ : ∃ m, k = m + 1 := ⟨k - 1, by omega⟩
    have afterItem := itemRead.length_add_least_le
    simp only [slack, Part.least] at enough loops afterItem
    simp only [endsOtherwise, Bool.or_eq_false_iff] at begins
    rw [accepts, caseItems, bind_of_ok (takeWord_of_not begins.1), if_neg (by decide),
      bind_of_ok (takeWord_of_not begins.2), if_neg (by decide),
      bind_of_ok ((item loose).below (by omega)),
      bind_of_ok ((items loose).accepted (by omega) (by omega))]
    rfl
  | @single _ colon _ _ _ _ _ valueRead isColon _ value body =>
    intro n k enough _
    have afterValue := valueRead.length_add_least_le
    simp only [slack, List.length_cons, Part.least] at enough afterValue
    have noTo : colon.isKeyword "TO" = false := by simp [Token.isKeyword, isColon]
    have value := (value (careful_inside loose)).statement (condition_inside loose) (n := n) (by omega)
    rw [accepts, Parse.caseItem, bind_of_ok value,
      bind_of_ok (takeWord_other noTo), if_neg (by decide),
      bind_of_ok (pure_ok.mpr ⟨rfl, rfl⟩)]
    dsimp only
    rw [bind_of_ok (expect_of isColon), bind_of_ok ((body loose).below (by omega))]
    rfl
  | range valueRead isTo upperRead isColon _ value upper body =>
    intro n k enough _
    have afterValue := valueRead.length_add_least_le
    have afterUpper := upperRead.length_add_least_le
    simp only [slack, List.length_cons, Part.least] at enough afterValue afterUpper
    have value := (value (careful_inside loose)).statement (condition_inside loose) (n := n) (by omega)
    rw [accepts, Parse.caseItem, bind_of_ok value,
      bind_of_ok (takeWord_of isTo), if_pos rfl,
      bind_of_ok (map_ok.mpr ⟨_, (upper loose).statement rfl (by omega), rfl⟩)]
    dsimp only
    rw [bind_of_ok (expect_of isColon), bind_of_ok ((body loose).below (by omega))]
    rfl
  | @block _ terminators ts _ _ _ body =>
    intro n k enough _
    have skipped := length_skip_le ts
    simp only [slack] at enough
    have body := (body loose).below (n := n) (by omega)
    exact (bind_of_ok (f := fun body => pure (Node.block body)) body).trans rfl
  | bodyEnd ends =>
    intro n k _ loops
    obtain ⟨k, rfl⟩ : ∃ m, k = m + 1 := ⟨k - 1, by omega⟩
    rw [accepts, statementsUntil, peek_bind, if_pos ends]
    rfl
  | @bodyNext _ _ _ after _ _ _ goesOn firstRead _ first others =>
    intro n k enough loops
    obtain ⟨k, rfl⟩ : ∃ m, k = m + 1 := ⟨k - 1, by omega⟩
    have afterFirst := firstRead.length_add_least_le
    have skipped := length_skip_le after
    simp only [slack, Part.least] at enough loops afterFirst
    rw [accepts, statementsUntil, peek_bind, if_neg (Bool.eq_false_iff.mp goesOn),
      bind_of_ok ((first loose).statement rfl (by omega)), skip_bind]
    exact (bind_of_ok ((others loose).accepted (by omega) (by omega))).trans rfl
  | items firstRead _ first others =>
    intro n k enough loops
    have shorter := firstRead.length_add_least_le
    simp only [slack, Part.least] at enough loops shorter
    rw [accepts, commaList, bind_of_ok ((first (careful_inside loose)).statement
      (condition_inside loose) (by omega)), bind_of_ok ((others loose).accepted (by omega) (by omega))]
    rfl
  | noFurtherItems noComma =>
    intro n k enough loops
    obtain ⟨k, rfl⟩ : ∃ m, k = m + 1 := ⟨k - 1, by omega⟩
    rw [accepts, commaTail, peek_bind, if_neg (by simpa using noComma)]
    rfl
  | furtherItems isComma _ items =>
    intro n k enough loops
    obtain ⟨k, rfl⟩ : ∃ m, k = m + 1 := ⟨k - 1, by omega⟩
    simp only [slack, List.length_cons] at enough loops
    rw [accepts, commaTail, peek_bind, if_pos (by simpa using isComma), advance_bind]
    exact (items loose).accepted (by omega) (by omega)
  | expression noWord _ accepted =>
    intro n k enough loops
    rw [accepts, plainStatement_expression noWord]
    exact accepted loose n k enough loops
  | negation isWord _ operand =>
    intro n k enough _
    simp only [slack, List.length_cons] at enough
    rw [accepts, Parse.comparison, bind_of_ok (takeWord_of isWord), if_pos rfl,
      bind_of_ok ((operand loose).comparison (by omega))]
    rfl
  | comparison noNot firstRead _ first further =>
    intro n k enough _
    have afterFirst := firstRead.length_add_least_le
    simp only [slack, Part.least] at enough afterFirst
    have first := (first loose).tight rfl (n := n) (k := n) (by omega) (by omega)
    rw [accepts, Parse.comparison, bind_of_ok (takeWord_of_not noNot), if_neg (by decide)]
    exact (bind_of_ok first).trans ((further loose).tight rfl (by omega) (by omega))
  | noRelation noComparison noConnective =>
    intro n k _ loops
    obtain ⟨k, rfl⟩ : ∃ m, k = m + 1 := ⟨k - 1, by omega⟩
    exact relations_none noComparison noConnective
  | compare isComparison rightRead _ right further =>
    intro n k enough loops
    obtain ⟨k, rfl⟩ : ∃ m, k = m + 1 := ⟨k - 1, by omega⟩
    have afterRight := rightRead.length_add_least_le
    simp only [slack, List.length_cons, Part.least] at enough loops afterRight
    have right := (right loose).tight rfl (n := n) (k := n) (by omega) (by omega)
    rw [accepts, relations_compare isComparison]
    exact (bind_of_ok right).trans ((further loose).tight rfl (by omega) (by omega))
  | connect noComparison isConnective rightRead _ right further =>
    intro n k enough loops
    obtain ⟨k, rfl⟩ : ∃ m, k = m + 1 := ⟨k - 1, by omega⟩
    have afterRight := rightRead.length_add_least_le
    simp only [slack, List.length_cons, Part.least] at enough loops afterRight
    rw [accepts, relations_connect noComparison isConnective,
      bind_of_ok ((right loose).comparison (by omega))]
    exact (further loose).tight rfl (by omega) (by omega)
  | chain firstRead _ first further =>
    intro n k enough _
    have afterFirst := firstRead.length_add_least_le
    simp only [slack, ↓Level.least_operand] at enough afterFirst
    rw [accepts, chainOf, bind_of_ok ((first loose).operand (by omega))]
    exact (further loose).tight rfl (by omega) (by omega)
  | noOperator noOperator =>
    intro n k _ loops
    obtain ⟨k, rfl⟩ : ∃ m, k = m + 1 := ⟨k - 1, by omega⟩
    exact operators_none noOperator
  | operator isOperator rightRead _ right further =>
    intro n k enough loops
    obtain ⟨k, rfl⟩ : ∃ m, k = m + 1 := ⟨k - 1, by omega⟩
    have afterRight := rightRead.length_add_least_le
    simp only [slack, List.length_cons, ↓Level.least_operand] at enough loops afterRight
    rw [accepts, operators_some isOperator, bind_of_ok ((right loose).operand (by omega))]
    exact (further loose).tight rfl (by omega) (by omega)
  | signed isSign _ operand =>
    intro n k enough _
    simp only [slack, List.length_cons] at enough
    rw [accepts, factor_signed isSign, bind_of_ok ((operand loose).factor (by omega))]
    rfl
  | unsigned noSign _ noPower base =>
    intro n k enough _
    rw [accepts, factor_unsigned noSign, Parse.power, bind_of_ok (base loose n n enough enough),
      peek_bind, if_neg (by simpa using noPower)]
    rfl
  | power noSign baseRead isPower _ base exponent =>
    intro n k enough _
    have afterBase := baseRead.length_add_least_le
    simp only [slack, List.length_cons, Part.least] at enough afterBase
    rw [accepts, factor_unsigned noSign, Parse.power,
      bind_of_ok ((base loose).tight rfl (n := n) (k := n) (by omega) (by omega)), peek_bind,
      if_pos (by simpa using isPower), advance_bind, List.tail_cons,
      bind_of_ok ((exponent loose).factor (by omega))]
    rfl
  | number isNumber =>
    intro n k _ _
    rw [accepts, atom, peek_bind, next_cons, isNumber]
    rfl
  | string isString =>
    intro n k _ _
    rw [accepts, atom, peek_bind, next_cons, isString]
    rfl
  | boolean isBoolean =>
    intro n k _ _
    exact atom_boolean isBoolean
  | emptyList isOpen isClose =>
    intro n k _ _
    rw [accepts, atom_list isOpen, Parse.list, advance_bind, peek_bind,
      if_pos (by simpa using isClose)]
    rfl
  | list isOpen noClose _ isClose items =>
    intro n k enough _
    simp only [slack, List.length_cons] at enough
    rw [accepts, atom_list isOpen, Parse.list, advance_bind, List.tail_cons, peek_bind,
      if_neg (by simpa using noClose), bind_of_ok ((items loose).below (by omega)),
      bind_of_ok (expect_of isClose)]
    rfl
  | parentheses isOpen _ isClose inner =>
    intro n k enough _
    simp only [slack, List.length_cons] at enough
    have inner := (inner (careful_inside loose)).statement (condition_inside loose) (n := n) (by omega)
    rw [accepts, atom_parentheses isOpen, bind_of_ok inner, bind_of_ok (expect_of isClose)]
    rfl
  | access isName noCall noElement =>
    intro n k _ _
    rw [accepts, atom_name isName, identifier_eq, if_neg noCall, if_neg noElement]
    rfl
  | emptyCall isName isOpen isClose =>
    intro n k _ _
    rw [accepts, atom_name isName, identifier_eq, if_pos (by simpa using isOpen), Parse.call,
      advance_bind, List.tail_cons, peek_bind, if_pos (by simpa using isClose)]
    rfl
  | call isName isOpen noClose _ isClose arguments =>
    intro n k enough _
    simp only [slack, List.length_cons] at enough
    rw [accepts, atom_name isName, identifier_eq, if_pos (by simpa using isOpen), Parse.call,
      advance_bind, List.tail_cons, peek_bind, if_neg (by simpa using noClose),
      bind_of_ok ((arguments loose).below (by omega)), bind_of_ok (expect_of isClose)]
    rfl
  | element isName isOpen _ isClose indices =>
    intro n k enough _
    simp only [slack, List.length_cons] at enough
    rw [accepts, atom_name isName, identifier_eq, if_neg (by simp [isOpen]),
      if_pos (by simpa using isOpen), Parse.element, advance_bind, List.tail_cons,
      bind_of_ok ((indices loose).below (by omega)), bind_of_ok (expect_of isClose)]
    rfl

theorem statements_iff :
    Node.statements (Node.bound ts) ts = .ok (nodes, rest) ↔
      Reads (.body (·.kind == .none)) usual (skip ts) nodes rest := by
  rw [Node.statements, skip_bind]
  constructor
  · exact reads_statementsUntil (reads_run _)
  · intro read
    have skipped := length_skip_le ts
    exact (complete read rfl).below (by rw [Node.bound]; omega)

theorem program_iff {source : String} {tree : Node} :
    Eval.program source = .ok tree ↔ ∃ tokens nodes rest, Token.scan source = .ok tokens ∧
      Reads (.body (·.kind == .none)) usual (skip tokens) nodes rest ∧ tree = Node.program nodes := by
  unfold Eval.program
  cases Token.scan source with
  | error cause => simp
  | ok tokens =>
    have parsed : (Node.ofTokens tokens).mapError Fault.parse = .ok tree ↔
        ∃ nodes rest, Node.statements (Node.bound tokens) tokens = .ok (nodes, rest) ∧
          tree = Node.program nodes := by
      rw [Node.ofTokens]
      cases Node.statements (Node.bound tokens) tokens <;>
        simp [Outcome.mapError, eq_comm, Prod.ext_iff]
    simp only [parsed, statements_iff, Except.ok.injEq, exists_and_left, exists_eq_left']

end Parse

end Pseudocode
