import Pseudocode.Node.Parse

/-!
The grammar of programs as a relation: `Reads part mode ts nodes rest` says that the tokens `ts` begin
with a `part`, which stands for `nodes`, and go on with `rest`.

A mode says whether the part stands in a condition, where an assignment sign compares. In a careful
reading this carries over into parentheses, lists, arguments, indices and the condition of `UNTIL`; in
the other it ends there. What no tree keeps is never read carefully: the bounds in a declaration, and an
`OTHERWISE` that another one supersedes.
-/

set_option autoImplicit false

namespace Pseudocode

namespace Node

inductive Within : Node → Node → Prop where
  | refl (node : Node) : Within node node
  | deeper {inner child outer : Node} :
    child ∈ outer.children → Within inner child → Within inner outer

def Everywhere (holds : Node → Prop) (tree : Node) : Prop :=
  ∀ node, Within node tree → holds node

theorem everywhere_iff {holds : Node → Prop} {tree : Node} :
    Everywhere holds tree ↔ holds tree ∧ ∀ child ∈ tree.children, Everywhere holds child := by
  constructor
  · intro everywhere
    exact ⟨everywhere tree (.refl tree), fun child member node within =>
      everywhere node (.deeper member within)⟩
  · rintro ⟨here, below⟩ node within
    cases within with
    | refl => exact here
    | deeper member within => exact below _ member node within

end Node

structure CaseItem where
  value : Node
  upper : Option Node
  body : List Node

def CaseItem.node (item : CaseItem) : Node :=
  Node.of .caseItem (item.value :: item.upper.toList ++ item.body)

namespace Grammar

structure Mode where
  condition : Bool
  careful : Bool

namespace Mode

def usual : Mode := ⟨false, false⟩

def test (p : Mode) : Mode := { p with condition := true }

def body (p : Mode) : Mode := { p with condition := false }

def inside (p : Mode) : Mode := if p.careful then p else p.body

def unlessSuperseded (p : Mode) (superseded : Bool) : Mode := if superseded then usual else p

theorem careful_inside {p : Mode} (loose : p.careful = false) : p.inside.careful = false := by
  simp [inside, loose, body]

theorem careful_unlessSuperseded {p : Mode} (superseded : Bool) (loose : p.careful = false) :
    (p.unlessSuperseded superseded).careful = false := by
  cases superseded
  · exact loose
  · rfl

theorem condition_inside {p : Mode} (loose : p.careful = false) : p.inside.condition = false := by
  simp [inside, loose, body]

end Mode

inductive Level where
  | additive
  | multiplicative

def Level.operator? : Level → Token → Option Arithmetic
  | .additive => Parse.additiveOf?
  | .multiplicative => Parse.multiplicativeOf?

inductive Part where
  | statement
  | plain
  | comparison
  | relations (left : Node)
  | chain (level : Level)
  | operators (level : Level) (left : Node)
  | factor
  | atom
  | items
  | furtherItems
  | body (stop : Token → Bool)
  | block (terminators : List String)
  | increment
  | parameters
  | furtherParameters
  | head (opening : Option String)
  | result (closing : Parse.Closing)
  | dimensions
  | furtherDimensions
  -- The items of a case, after an `OTHERWISE` or none, and before another one or not.
  | cases (last : Option Node) (more : Bool)
  | item

def Part.given : Part → List Node
  | .relations left | .operators _ left => [left]
  | .cases last false => last.toList
  | _ => []

def Level.operand : Level → Part
  | .additive => .chain .multiplicative
  | .multiplicative => .factor

def next (ts : List Token) : Token := ts.headD Token.stop

@[simp] theorem next_nil : next [] = Token.stop := rfl

@[simp] theorem next_cons (t : Token) (ts : List Token) : next (t :: ts) = t := rfl

def skip (ts : List Token) : List Token := ts.dropWhile Token.isSeparator

def endsBlock (terminators : List String) (token : Token) : Bool :=
  token.kind == .none || terminators.any token.isKeyword

def startsAssignment : List Token → Bool
  | first :: second :: rest =>
    first.kind == .identifier &&
      (second.kind == .assign || second.kind == .lbracket && Parse.assignsElement rest)
  | _ => false

def statementWords : List String :=
  ["IF", "FOR", "WHILE", "DEF", "FUNCTION", "PROCEDURE", "PRINT", "INPUT", "read", "INCLUDE", "CASE",
   "REPEAT", "DECLARE", "RETURN", "ENDEF"]

def definitionWords : List String := ["DEF", "FUNCTION", "PROCEDURE"]

def signOf? (token : Token) : Option Sign :=
  match token.kind with
  | .plus => some .plus
  | .minus => some .minus
  | _ => none

def pairs : List Node → List (Node × Node)
  | low :: high :: rest => (low, high) :: pairs rest
  | _ => []

open Parse Mode

inductive Reads : Part → Mode → List Token → List Node → List Token → Prop where
  | assign {p : Mode} {first second : Token} {ts rest : List Token} {value : Node} :
    p.condition = false → first.kind = .identifier → second.kind = .assign →
    Reads .statement p ts [value] rest →
    Reads .statement p (first :: second :: ts) [Node.named .assign first.name [value]] rest
  | elementAssign {p : Mode} {first second close : Token} {ts more rest : List Token}
      {indices : List Node} {value : Node} :
    p.condition = false → first.kind = .identifier → second.kind = .lbracket →
    assignsElement ts = true → Reads .items p ts indices (close :: more) → close.kind = .rbracket →
    Reads .statement p more.tail [value] rest →
    Reads .statement p (first :: second :: ts)
      [Node.named .elementAssign first.name (indices ++ [value])] rest
  | plain {p : Mode} {ts rest : List Token} {node : Node} :
    (p.condition = false → startsAssignment ts = false) → Reads .plain p ts [node] rest →
    Reads .statement p ts [node] rest
  | ifThen {p : Mode} {word thenWord close : Token} {ts after rest : List Token}
      {condition yes : Node} :
    word.isKeyword "IF" → Reads .statement p.test ts [condition] (thenWord :: after) →
    thenWord.isKeyword "THEN" → Reads (.block ["ELSE", "ENDIF"]) p after [yes] (close :: rest) →
    close.isKeyword "ENDIF" →
    Reads .plain p (word :: ts) [Node.of .ifThen [condition, yes]] rest
  | ifElse {p : Mode} {word thenWord elseWord close : Token} {ts after later rest : List Token}
      {condition yes no : Node} :
    word.isKeyword "IF" → Reads .statement p.test ts [condition] (thenWord :: after) →
    thenWord.isKeyword "THEN" → Reads (.block ["ELSE", "ENDIF"]) p after [yes] (elseWord :: later) →
    elseWord.isKeyword "ELSE" → Reads (.block ["ENDIF"]) p later [no] (close :: rest) →
    close.isKeyword "ENDIF" →
    Reads .plain p (word :: ts) [Node.of .ifElse [condition, yes, no]] rest
  | forLoop {p : Mode} {word target sign toWord nextWord closing : Token}
      {ts afterStart afterFinal afterStep rest : List Token} {start final step body : Node} :
    word.isKeyword "FOR" → target.kind = .identifier → sign.kind = .assign →
    Reads .statement p.inside ts [start] (toWord :: afterStart) → toWord.isKeyword "TO" →
    Reads .statement p.inside afterStart [final] afterFinal →
    Reads .increment p afterFinal [step] afterStep →
    Reads (.block ["NEXT"]) p afterStep [body] (nextWord :: closing :: rest) →
    nextWord.isKeyword "NEXT" → closing.kind = .identifier → closing.name = target.name →
    Reads .plain p (word :: target :: sign :: ts)
      [Node.named .forLoop target.name [start, final, step, body]] rest
  | step {p : Mode} {word : Token} {ts rest : List Token} {value : Node} :
    word.isKeyword "STEP" → Reads .statement p.inside ts [value] rest →
    Reads .increment p (word :: ts) [value] rest
  | noStep {p : Mode} {ts : List Token} :
    (next ts).isKeyword "STEP" = false →
    Reads .increment p ts [Node.number (some (.number 1.0))] ts
  | whileLoop {p : Mode} {word doWord close : Token} {ts after rest : List Token}
      {condition body : Node} :
    word.isKeyword "WHILE" → Reads .statement p.test ts [condition] (doWord :: after) →
    doWord.isKeyword "DO" → Reads (.block ["ENDWHILE"]) p after [body] (close :: rest) →
    close.isKeyword "ENDWHILE" →
    Reads .plain p (word :: ts) [Node.of .whileLoop [condition, body]] rest
  | repeatUntil {p : Mode} {word untilWord : Token} {ts after rest : List Token}
      {body condition : Node} :
    word.isKeyword "REPEAT" → Reads (.block ["UNTIL"]) p ts [body] (untilWord :: after) →
    untilWord.isKeyword "UNTIL" → Reads .statement p.test.inside after [condition] rest →
    Reads .plain p (word :: ts) [Node.of .repeatUntil [body, condition]] rest
  | define {p : Mode} {word function opening close endWord : Token}
      {ts afterNames afterHead afterBody rest : List Token} {names : List Node} {body result : Node} :
    definitionWords.any word.isKeyword → function.kind = .identifier → opening.kind = .lparen →
    Reads .parameters p.body ts names (close :: afterNames) → close.kind = .rparen →
    Reads (.head word.name) p.body afterNames [] afterHead →
    Reads (.block (closingOf word.name).terminators) p.body afterHead [body] afterBody →
    Reads (.result (closingOf word.name)) p.body afterBody [result] (endWord :: rest) →
    endWord.isKeyword (closingOf word.name).word →
    Reads .plain p (word :: function :: opening :: ts)
      [Node.named .define function.name [Node.of .parameters names, body, result]] rest
  | noParameters {p : Mode} {ts : List Token} :
    (next ts).kind ≠ .identifier → Reads .parameters p ts [] ts
  | parameters {p : Mode} {name : Token} {ts rest : List Token} {names : List Node} :
    name.kind = .identifier → Reads .furtherParameters p ts names rest →
    Reads .parameters p (name :: ts) (Node.named .parameter name.name [] :: names) rest
  | noFurtherParameters {p : Mode} {ts : List Token} :
    (next ts).kind ≠ .comma → Reads .furtherParameters p ts [] ts
  | furtherParameters {p : Mode} {comma name : Token} {ts rest : List Token} {names : List Node} :
    comma.kind = .comma → name.kind = .identifier → Reads .furtherParameters p ts names rest →
    Reads .furtherParameters p (comma :: name :: ts)
      (Node.named .parameter name.name [] :: names) rest
  | functionHead {p : Mode} {ts : List Token} :
    (next ts).isKeyword "RETURNS" = false → Reads (.head (some "FUNCTION")) p ts [] ts
  | returnsHead {p : Mode} {word : Token} {ts : List Token} :
    word.isKeyword "RETURNS" → (next ts).kind ≠ .keyword →
    Reads (.head (some "FUNCTION")) p (word :: ts) [] ts
  | returnsTypeHead {p : Mode} {word type : Token} {ts : List Token} :
    word.isKeyword "RETURNS" → type.kind = .keyword →
    Reads (.head (some "FUNCTION")) p (word :: type :: ts) [] ts
  | procedureHead {p : Mode} {ts : List Token} : Reads (.head (some "PROCEDURE")) p ts [] ts
  | doHead {p : Mode} {opening : Option String} {word : Token} {ts : List Token} :
    opening ≠ some "FUNCTION" → opening ≠ some "PROCEDURE" → word.isKeyword "DO" →
    Reads (.head opening) p (word :: ts) [] ts
  | result {p : Mode} {closing : Parse.Closing} {word : Token} {ts after : List Token} {value : Node} :
    word.isKeyword "RETURN" → Reads .statement p.body ts [value] after →
    (next (skip after)).isKeyword closing.word →
    Reads (.result closing) p (word :: ts) [value] (skip after)
  | noResult {p : Mode} {closing : Parse.Closing} {ts : List Token} :
    (next ts).isKeyword "RETURN" = false → Reads (.result closing) p ts [Node.null] ts
  | printLine {p : Mode} {word : Token} {ts : List Token} :
    word.isKeyword "PRINT" → endsPrint (next ts) = true →
    Reads .plain p (word :: ts) [Node.of .print []] ts
  | print {p : Mode} {word : Token} {ts rest : List Token} {arguments : List Node} :
    word.isKeyword "PRINT" → endsPrint (next ts) = false → Reads .items p ts arguments rest →
    Reads .plain p (word :: ts) [Node.of .print arguments] rest
  | input {p : Mode} {word name : Token} {rest : List Token} :
    word.isKeyword "INPUT" → name.kind = .identifier →
    Reads .plain p (word :: name :: rest) [Node.named .input name.name []] rest
  | read {p : Mode} {word : Token} {ts rest : List Token} {arguments : List Node} :
    word.isKeyword "read" → Reads .items p ts arguments rest →
    Reads .plain p (word :: ts) [Node.of .read arguments] rest
  | includeFile {p : Mode} {word name : Token} {rest : List Token} :
    word.isKeyword "INCLUDE" → name.kind = .string →
    Reads .plain p (word :: name :: rest) [Node.named .includeFile name.name []] rest
  | returnValue {p : Mode} {word : Token} {ts rest : List Token} {value : Node} :
    word.isKeyword "RETURN" → Reads .statement p.inside ts [value] rest →
    Reads .plain p (word :: ts) [Node.of .return [value]] rest
  | declare {p : Mode} {word name colon type : Token} {rest : List Token} :
    word.isKeyword "DECLARE" → name.kind = .identifier → colon.kind = .colon →
    type.kind = .keyword → type.isKeyword "ARRAY" = false →
    Reads .plain p (word :: name :: colon :: type :: rest)
      [Node.named .declare name.name [Node.named .string type.name []]] rest
  | declareArray {p : Mode} {word name colon array opening close ofWord type : Token}
      {ts rest : List Token} {bounds : List Node} :
    word.isKeyword "DECLARE" → name.kind = .identifier → colon.kind = .colon →
    array.isKeyword "ARRAY" → opening.kind = .lbracket →
    Reads .dimensions p ts bounds (close :: ofWord :: type :: rest) → close.kind = .rbracket →
    ofWord.isKeyword "OF" → type.kind = .keyword →
    Reads .plain p (word :: name :: colon :: array :: opening :: ts)
      [Node.named .declare name.name
        [Node.named .string (some (arrayType (pairs bounds) type.name)) []]] rest
  | dimensions {p : Mode} {colon : Token} {ts afterLow after rest : List Token} {low high : Node}
      {bounds : List Node} :
    Reads .statement usual ts [low] (colon :: afterLow) → colon.kind = .colon →
    Reads .statement usual afterLow [high] after → Reads .furtherDimensions p after bounds rest →
    Reads .dimensions p ts (low :: high :: bounds) rest
  | noFurtherDimensions {p : Mode} {ts : List Token} :
    (next ts).kind ≠ .comma → Reads .furtherDimensions p ts [] ts
  | furtherDimensions {p : Mode} {comma : Token} {ts rest : List Token} {bounds : List Node} :
    comma.kind = .comma → Reads .dimensions p ts bounds rest →
    Reads .furtherDimensions p (comma :: ts) bounds rest
  | case {p : Mode} {more : Bool} {word ofWord name : Token} {ts rest : List Token}
      {items : List Node} :
    word.isKeyword "CASE" → ofWord.isKeyword "OF" → name.kind = .identifier →
    Reads (.cases none more) p ts items rest →
    Reads .plain p (word :: ofWord :: name :: ts) [Node.named .case name.name items] rest
  | endCase {p : Mode} {last : Option Node} {word : Token} {rest : List Token} :
    word.isKeyword "ENDCASE" → Reads (.cases last false) p (word :: rest) last.toList rest
  | otherwise {p : Mode} {last : Option Node} {more : Bool} {word colon : Token}
      {ts after rest : List Token} {body items : List Node} :
    word.isKeyword "OTHERWISE" → colon.kind = .colon →
    Reads (.body endsOtherwise) (p.unlessSuperseded more) ts body after →
    Reads (.cases (some (Node.of .caseOtherwise body)) more) p after items rest →
    Reads (.cases last true) p (word :: colon :: ts) items rest
  | caseItem {p : Mode} {last : Option Node} {more : Bool} {ts after rest : List Token}
      {item : Node} {items : List Node} :
    endsOtherwise (next ts) = false → Reads .item p ts [item] after →
    Reads (.cases last more) p after items rest → Reads (.cases last more) p ts (item :: items) rest
  | single {p : Mode} {colon : Token} {ts after rest : List Token} {value : Node}
      {body : List Node} :
    Reads .statement p.inside ts [value] (colon :: after) → colon.kind = .colon →
    Reads (.body endsCase) p after body rest →
    Reads .item p ts [CaseItem.node ⟨value, none, body⟩] rest
  | range {p : Mode} {toWord colon : Token} {ts afterValue after rest : List Token}
      {value upper : Node} {body : List Node} :
    Reads .statement p.inside ts [value] (toWord :: afterValue) → toWord.isKeyword "TO" →
    Reads .statement p.body afterValue [upper] (colon :: after) → colon.kind = .colon →
    Reads (.body endsCase) p after body rest →
    Reads .item p ts [CaseItem.node ⟨value, some upper, body⟩] rest
  | block {p : Mode} {terminators : List String} {ts rest : List Token} {body : List Node} :
    Reads (.body (endsBlock terminators)) p (skip ts) body rest →
    Reads (.block terminators) p ts [Node.block body] rest
  | bodyEnd {p : Mode} {stop : Token → Bool} {ts : List Token} :
    stop (next ts) = true → Reads (.body stop) p ts [] ts
  | bodyNext {p : Mode} {stop : Token → Bool} {ts after rest : List Token} {first : Node}
      {others : List Node} :
    stop (next ts) = false → Reads .statement p.body ts [first] after →
    Reads (.body stop) p (skip after) others rest → Reads (.body stop) p ts (first :: others) rest
  | items {p : Mode} {ts after rest : List Token} {first : Node} {others : List Node} :
    Reads .statement p.inside ts [first] after → Reads .furtherItems p after others rest →
    Reads .items p ts (first :: others) rest
  | noFurtherItems {p : Mode} {ts : List Token} :
    (next ts).kind ≠ .comma → Reads .furtherItems p ts [] ts
  | furtherItems {p : Mode} {comma : Token} {ts rest : List Token} {nodes : List Node} :
    comma.kind = .comma → Reads .items p ts nodes rest →
    Reads .furtherItems p (comma :: ts) nodes rest
  | expression {p : Mode} {ts rest : List Token} {node : Node} :
    statementWords.any (next ts).isKeyword = false → Reads .comparison p ts [node] rest →
    Reads .plain p ts [node] rest
  | negation {p : Mode} {word : Token} {ts rest : List Token} {operand : Node} :
    word.isKeyword "NOT" → Reads .comparison p ts [operand] rest →
    Reads .comparison p (word :: ts) [Node.sign .not operand] rest
  | comparison {p : Mode} {ts after rest : List Token} {first node : Node} :
    (next ts).isKeyword "NOT" = false → Reads (.chain .additive) p ts [first] after →
    Reads (.relations first) p after [node] rest → Reads .comparison p ts [node] rest
  | noRelation {p : Mode} {ts : List Token} {left : Node} :
    comparisonOf? (next ts) = none → connectiveOf? (next ts) = none →
    Reads (.relations left) p ts [left] ts
  | compare {p : Mode} {sign : Token} {op : Comparison} {ts after rest : List Token}
      {left right node : Node} :
    comparisonOf? sign = some op → Reads (.chain .additive) p ts [right] after →
    Reads (.relations (Node.comparison op left right)) p after [node] rest →
    Reads (.relations left) p (sign :: ts) [node] rest
  | connect {p : Mode} {word : Token} {op : Connective} {ts after rest : List Token}
      {left right node : Node} :
    comparisonOf? word = none → connectiveOf? word = some op →
    Reads .comparison p ts [right] after →
    Reads (.relations (Node.connective op left right)) p after [node] rest →
    Reads (.relations left) p (word :: ts) [node] rest
  | chain {p : Mode} {level : Level} {ts after rest : List Token} {first node : Node} :
    Reads level.operand p ts [first] after → Reads (.operators level first) p after [node] rest →
    Reads (.chain level) p ts [node] rest
  | noOperator {p : Mode} {level : Level} {ts : List Token} {left : Node} :
    level.operator? (next ts) = none → Reads (.operators level left) p ts [left] ts
  | operator {p : Mode} {level : Level} {sign : Token} {op : Arithmetic}
      {ts after rest : List Token} {left right node : Node} :
    level.operator? sign = some op → Reads level.operand p ts [right] after →
    Reads (.operators level (Node.arithmetic op left right)) p after [node] rest →
    Reads (.operators level left) p (sign :: ts) [node] rest
  | signed {p : Mode} {sign : Token} {op : Sign} {ts rest : List Token} {operand : Node} :
    signOf? sign = some op → Reads .factor p ts [operand] rest →
    Reads .factor p (sign :: ts) [Node.sign op operand] rest
  | unsigned {p : Mode} {ts rest : List Token} {node : Node} :
    signOf? (next ts) = none → Reads .atom p ts [node] rest → (next rest).kind ≠ .pow →
    Reads .factor p ts [node] rest
  | power {p : Mode} {sign : Token} {ts after rest : List Token} {base exponent : Node} :
    signOf? (next ts) = none → Reads .atom p ts [base] (sign :: after) → sign.kind = .pow →
    Reads .factor p after [exponent] rest →
    Reads .factor p ts [Node.arithmetic .power base exponent] rest
  | number {p : Mode} {token : Token} {rest : List Token} :
    token.kind = .number → Reads .atom p (token :: rest) [Node.number token.value] rest
  | string {p : Mode} {token : Token} {rest : List Token} :
    token.kind = .string → Reads .atom p (token :: rest) [Node.named .string token.name []] rest
  | boolean {p : Mode} {token : Token} {rest : List Token} :
    (token.isKeyword "TRUE" || token.isKeyword "FALSE") = true →
    Reads .atom p (token :: rest) [Node.named .boolean token.name []] rest
  | emptyList {p : Mode} {opening close : Token} {rest : List Token} :
    opening.kind = .lbracket → close.kind = .rbracket →
    Reads .atom p (opening :: close :: rest) [Node.of .list []] rest
  | list {p : Mode} {opening close : Token} {ts rest : List Token} {nodes : List Node} :
    opening.kind = .lbracket → (next ts).kind ≠ .rbracket →
    Reads .items p ts nodes (close :: rest) → close.kind = .rbracket →
    Reads .atom p (opening :: ts) [Node.of .list nodes] rest
  | parentheses {p : Mode} {opening close : Token} {ts rest : List Token} {node : Node} :
    opening.kind = .lparen → Reads .statement p.inside ts [node] (close :: rest) →
    close.kind = .rparen → Reads .atom p (opening :: ts) [node] rest
  | access {p : Mode} {name : Token} {rest : List Token} :
    name.kind = .identifier → (next rest).kind ≠ .lparen → (next rest).kind ≠ .lbracket →
    Reads .atom p (name :: rest) [Node.named .access name.name []] rest
  | emptyCall {p : Mode} {name opening close : Token} {rest : List Token} :
    name.kind = .identifier → opening.kind = .lparen → close.kind = .rparen →
    Reads .atom p (name :: opening :: close :: rest) [Node.named .call name.name []] rest
  | call {p : Mode} {name opening close : Token} {ts rest : List Token} {nodes : List Node} :
    name.kind = .identifier → opening.kind = .lparen → (next ts).kind ≠ .rparen →
    Reads .items p ts nodes (close :: rest) → close.kind = .rparen →
    Reads .atom p (name :: opening :: ts) [Node.named .call name.name nodes] rest
  | element {p : Mode} {name opening close : Token} {ts rest : List Token} {nodes : List Node} :
    name.kind = .identifier → opening.kind = .lbracket →
    Reads .items p ts nodes (close :: rest) → close.kind = .rbracket →
    Reads .atom p (name :: opening :: ts) [Node.named .elementAccess name.name nodes] rest

def Part.least : Part → Nat
  | .statement | .plain | .comparison | .chain _ | .factor | .atom | .items | .dimensions
  | .cases _ _ | .item => 1
  | _ => 0

theorem Level.least_operand (level : Level) : level.operand.least = 1 := by
  cases level <;> rfl

theorem length_skip_le (ts : List Token) : (skip ts).length ≤ ts.length :=
  List.IsSuffix.length_le (List.dropWhile_suffix _)

variable {part : Part} {p : Mode} {ts rest : List Token} {nodes : List Node}

theorem Reads.length_add_least_le (read : Reads part p ts nodes rest) :
    rest.length + part.least ≤ ts.length := by
  induction read with
  | @block _ _ ts =>
    have skipped := length_skip_le ts
    simp only [Part.least] at *
    omega
  | @bodyNext _ _ _ after =>
    have skipped := length_skip_le after
    simp only [Part.least] at *
    omega
  | @result _ _ _ _ after =>
    have skipped := length_skip_le after
    simp only [Part.least, List.length_cons] at *
    omega
  | _ =>
    simp only [↓Level.least_operand, Part.least, List.length_cons, List.length_tail] at *
    omega

end Grammar

end Pseudocode
