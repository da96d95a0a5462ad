import Pseudocode.Proofs.Brackets

set_option autoImplicit false

namespace Pseudocode

namespace Node

inductive Ending where
  | expression
  | line
  | closed

def Kind.closes : Kind → Bool
  | .ifThen | .ifElse | .forLoop | .whileLoop | .define | .case | .input | .includeFile | .declare =>
    true
  | _ => false

mutual

def ending : Node → Ending
  | ⟨kind, _, _, children⟩ =>
    match kind with
    | .assign | .elementAssign | .print | .read | .return | .repeatUntil => lastEnding children
    | kind => if kind.closes then .closed else .expression

def lastEnding : List Node → Ending
  | [] => .line
  | [node] => ending node
  | _ :: node :: nodes => lastEnding (node :: nodes)

end

theorem lastEnding_append (nodes : List Node) (node : Node) :
    lastEnding (nodes ++ [node]) = node.ending := by
  induction nodes with
  | nil => rw [List.nil_append, lastEnding]
  | cons first nodes ih =>
    cases nodes with
    | nil => rw [List.cons_append, List.nil_append, lastEnding, lastEnding]
    | cons second nodes => rw [List.cons_append, List.cons_append, lastEnding, ← List.cons_append, ih]

end Node

namespace Grammar

open Parse Mode

def opens (t : Token) : Bool :=
  t.kind == .lparen || t.kind == .lbracket

/-- Whether the token goes on with a statement that has the given last token. -/
def joins (node : Node) (final t : Token) : Bool :=
  -- Between parentheses any statement is an operand.
  match if final.kind == .rparen then .expression else node.ending with
  | .expression => (additiveOf? t).isSome || final.kind == .identifier && opens t
  | .line => !endsPrint t
  | .closed => false

def called (ts : List Token) (t : Token) : Bool :=
  ts.getLast?.any fun final => final.kind == .identifier && opens t

def runsOn (ts : List Token) (nodes : List Node) (t : Token) : Bool :=
  ts.getLast?.any fun final => nodes.getLast?.any fun node => joins node final t

def Part.joins : Part → List Token → List Node → Token → Bool
  | .statement, ts, nodes, t | .plain, ts, nodes, t | .items, ts, nodes, t
  | .furtherItems, ts, nodes, t => runsOn ts nodes t
  | .comparison, ts, _, t => (additiveOf? t).isSome || called ts t
  -- Before any relation the sign would go on with the left side.
  | .relations _, ts, _, t => !ts.isEmpty && ((additiveOf? t).isSome || called ts t)
  | .chain level, ts, _, t | .operators level _, ts, _, t => (level.operator? t).isSome || called ts t
  | .factor, ts, _, t | .atom, ts, _, t => called ts t
  | _, _, _, _ => false

def Part.last : Part → Bool
  | .statement | .plain | .items | .furtherItems | .comparison | .chain _ | .operators _ _
  | .relations _ | .factor | .atom | .cases _ _ => true
  | _ => false

def binds (t : Token) : Bool :=
  t.kind == .comma || t.kind == .pow || (comparisonOf? t).isSome || (connectiveOf? t).isSome ||
    (multiplicativeOf? t).isSome

variable {ts after rest : List Token} {t final : Token} {node inner : Node} {nodes : List Node}

theorem getLast?_of_suffix {α : Type} {xs ys : List α} (suffix : ys <:+ xs) (more : ys ≠ []) :
    xs.getLast? = ys.getLast? := by
  obtain ⟨used, rfl⟩ := suffix
  rw [List.getLast?_append]
  cases last : ys.getLast? with
  | none => exact absurd (List.getLast?_eq_none_iff.mp last) more
  | some t => rfl

theorem called_of_suffix (suffix : after <:+ ts) (more : after ≠ []) : called ts t = called after t := by
  rw [called, called, getLast?_of_suffix suffix more]

theorem called_after (suffix : after <:+ ts) (alone : called ts t = false) : called after t = false := by
  cases after with
  | nil => rfl
  | cons => rwa [called_of_suffix suffix nofun] at alone

theorem runsOn_of_suffix (suffix : after <:+ ts) (more : after ≠ []) :
    runsOn ts nodes t = runsOn after nodes t := by
  rw [runsOn, runsOn, getLast?_of_suffix suffix more]

theorem runsOn_cons (more : nodes ≠ []) : runsOn ts (node :: nodes) t = runsOn ts nodes t := by
  rw [runsOn, runsOn, getLast?_of_suffix (List.suffix_cons node nodes) more]

theorem runsOn_rest (suffix : after <:+ ts) (more : after ≠ []) (some : nodes ≠ []) :
    runsOn ts (node :: nodes) t = runsOn after nodes t := by
  rw [runsOn_of_suffix suffix more, runsOn_cons some]

theorem runsOn_last : runsOn ts (nodes ++ [node]) t = runsOn ts [node] t := by
  rw [runsOn, runsOn, getLast?_of_suffix (List.suffix_append nodes [node]) nofun]

theorem runsOn_children (passes : node.ending = Node.lastEnding nodes) (more : nodes ≠ []) :
    runsOn ts [node] t = runsOn ts nodes t := by
  obtain ⟨others, last, rfl⟩ : ∃ others last, nodes = others ++ [last] :=
    ⟨_, _, (List.dropLast_concat_getLast more).symm⟩
  rw [Node.lastEnding_append] at passes
  simp only [runsOn, joins, List.getLast?_singleton, List.getLast?_concat, Option.any_some, passes]

theorem runsOn_inner (nodes : List Node) (suffix : after <:+ ts) (more : after ≠ [])
    (passes : node.ending = Node.lastEnding nodes) (some : nodes ≠ []) :
    runsOn ts [node] t = runsOn after nodes t := by
  rw [runsOn_of_suffix suffix more, runsOn_children passes some]

theorem runsOn_value {first second : Token} {name : Option String} {kind : Node.Kind} (nodes : List Node)
    (passes : kind = .assign ∨ kind = .elementAssign) (suffix : after <:+ ts) (more : after ≠ []) :
    runsOn (first :: second :: ts) [Node.named kind name (nodes ++ [inner])] t =
      runsOn after [inner] t := by
  have outer : after <:+ first :: second :: ts := suffix.trans (List.suffix_append [first, second] ts)
  rw [runsOn_inner (nodes ++ [inner]) outer more (by rcases passes with rfl | rfl <;> rfl) (by simp),
    runsOn_last]

theorem runsOn_repeat {word : Token} (suffix : after <:+ ts) (more : after ≠ []) :
    runsOn (word :: ts) [Node.of .repeatUntil [node, inner]] t = runsOn after [inner] t := by
  have outer : after <:+ word :: ts := suffix.trans (List.suffix_cons word ts)
  exact (runsOn_inner [node, inner] outer more rfl nofun).trans (runsOn_cons nofun)

theorem runsOn_arguments {word : Token} {kind : Node.Kind}
    (passes : kind = .print ∨ kind = .read ∨ kind = .return) (more : ts ≠ []) (some : nodes ≠ []) :
    runsOn (word :: ts) [Node.of kind nodes] t = runsOn ts nodes t :=
  runsOn_inner nodes (List.suffix_cons word ts) more
    (by rcases passes with rfl | rfl | rfl <;> rfl) some

theorem runsOn_final (suffix : [final] <:+ ts) : runsOn ts [node] t = joins node final t := by
  rw [runsOn_of_suffix suffix nofun]
  rfl

theorem runsOn_bare {word : Token} (isWord : word.isKeyword "PRINT") :
    runsOn [word] [Node.of .print []] t = !endsPrint t := by
  have bare : (Node.of .print []).ending = .line := rfl
  rw [runsOn_final (List.suffix_refl _), joins, kind_of_isKeyword isWord, bare]
  rfl

def EndsWith (holds : Token → Prop) (ts rest : List Token) : Prop :=
  ∃ final, final :: rest <:+ ts ∧ final.isSeparator = false ∧ holds final

namespace EndsWith

variable {holds : Token → Prop}

theorem before (ends : EndsWith holds after rest) (suffix : after <:+ ts) : EndsWith holds ts rest := by
  obtain ⟨final, here, solid, held⟩ := ends
  exact ⟨final, here.trans suffix, solid, held⟩

theorem cons (ends : EndsWith holds ts rest) : EndsWith holds (t :: ts) rest :=
  ends.before (List.suffix_cons t ts)

theorem token {kind : Token.Kind} (isKind : t.kind = kind)
    (solid : Token.isSeparator (.mark kind) = false) (held : holds t) : EndsWith holds (t :: rest) rest :=
  ⟨t, List.suffix_refl _, by simpa [Token.isSeparator, Token.mark, isKind] using solid, held⟩

end EndsWith

theorem EndsWith.imp {holds weaker : Token → Prop} (ends : EndsWith holds ts rest)
    (implies : ∀ final, holds final → weaker final) : EndsWith weaker ts rest := by
  obtain ⟨final, here, solid, held⟩ := ends
  exact ⟨final, here, solid, implies final held⟩

abbrev Solid : List Token → List Token → Prop := EndsWith fun _ => True

theorem solid_token {kind : Token.Kind} (isKind : t.kind = kind)
    (solid : Token.isSeparator (.mark kind) = false) : Solid (t :: rest) rest :=
  .token isKind solid trivial

theorem solid_word {name : String} (isWord : t.isKeyword name) : Solid (t :: rest) rest :=
  solid_token (kind_of_isKeyword isWord) rfl

def Completes (ts : List Token) (nodes : List Node) (final : Token) : Prop :=
  final.kind = .rparen → statementWords.any (next ts).isKeyword = true →
    ∀ node ∈ nodes, node.kind.closes = false

abbrev Bare : List Token → List Token → Prop := EndsWith (·.kind ≠ .rparen)

theorem bare_token {kind : Token.Kind} (isKind : t.kind = kind)
    (solid : Token.isSeparator (.mark kind) = false) (other : kind ≠ .rparen) : Bare (t :: rest) rest :=
  .token isKind solid (isKind ▸ other)

theorem bare_word {name : String} (isWord : t.isKeyword name) : Bare (t :: rest) rest :=
  bare_token (kind_of_isKeyword isWord) rfl nofun

theorem EndsWith.closes {all : List Token} (bare : Bare ts rest) :
    EndsWith (Completes all nodes) ts rest :=
  bare.imp fun _ other isParen => absurd isParen other

theorem EndsWith.opened {all : List Token} {holds : Token → Prop} (ends : EndsWith holds ts rest)
    (opened : node.kind.closes = false) : EndsWith (Completes all [node]) ts rest :=
  ends.imp fun _ _ _ _ => by simpa using opened

def Expresses (nodes : List Node) (final : Token) : Prop :=
  final.kind = .rparen ∨ ∀ node ∈ nodes, node.ending = .expression

namespace EndsWith

variable {holds : Token → Prop}

theorem expresses (ends : EndsWith holds ts rest) (expression : node.ending = .expression) :
    EndsWith (Expresses [node]) ts rest := by
  obtain ⟨final, suffix, solid, _⟩ := ends
  exact ⟨final, suffix, solid, .inr (by simpa using expression)⟩

theorem wrap (right : EndsWith holds ts after) (whole : node.ending = .expression)
    (further : nodes = [node] ∧ rest = after ∨ EndsWith (Expresses nodes) after rest)
    (suffix : after <:+ ts) : EndsWith (Expresses nodes) ts rest := by
  rcases further with ⟨rfl, rfl⟩ | further
  · exact right.expresses whole
  · exact further.before suffix

end EndsWith

def Part.Ends : Part → List Token → List Node → List Token → Prop
  | .statement, ts, _, rest | .items, ts, _, rest => Solid ts rest
  | .plain, ts, nodes, rest => EndsWith (Completes ts nodes) ts rest
  | .cases _ _, ts, _, rest => Bare ts rest
  | .furtherItems, ts, _, rest => rest = ts ∨ Solid ts rest
  | .comparison, ts, nodes, rest | .chain _, ts, nodes, rest | .factor, ts, nodes, rest
  | .atom, ts, nodes, rest => EndsWith (Expresses nodes) ts rest
  | .relations left, ts, nodes, rest | .operators _ left, ts, nodes, rest =>
    nodes = [left] ∧ rest = ts ∨ EndsWith (Expresses nodes) ts rest
  | _, _, _, _ => True

theorem Level.ends_operand (level : Level) :
    level.operand.Ends ts nodes rest = EndsWith (Expresses nodes) ts rest := by
  cases level <;> rfl

variable {part : Part} {p : Mode}

theorem Reads.ends (read : Reads part p ts nodes rest) : part.Ends ts nodes rest := by
  induction read with
  | assign _ _ _ _ value => exact value.cons.cons
  | elementAssign _ _ _ _ items _ _ _ value =>
    have signed := (List.suffix_cons _ _).trans items.takes.suffix
    exact (value.before ((List.tail_suffix _).trans signed)).cons.cons
  | plain _ _ node => exact node.imp fun _ _ => trivial
  | ifThen _ test _ yes isClose =>
    have later := (bare_word isClose).before yes.takes.suffix
    exact (later.cons.before test.takes.suffix).cons.closes
  | ifElse _ test _ yes _ no isClose =>
    have later := (bare_word isClose).before no.takes.suffix
    exact ((later.cons.before yes.takes.suffix).cons.before test.takes.suffix).cons.closes
  | forLoop _ _ _ start _ final step body _ closes =>
    have later := ((bare_token closes rfl nofun).cons.before body.takes.suffix).before step.takes.suffix
    exact ((later.before final.takes.suffix).cons.before start.takes.suffix).cons.cons.cons.closes
  | whileLoop _ test _ body isClose =>
    have later := (bare_word isClose).before body.takes.suffix
    exact (later.cons.before test.takes.suffix).cons.closes
  | repeatUntil _ body _ _ _ test => exact (test.cons.before body.takes.suffix).cons.opened rfl
  | define _ _ _ names _ head body result isEnd =>
    have later := ((bare_word isEnd).before result.takes.suffix).before body.takes.suffix
    exact ((later.before head.takes.suffix).cons.before names.takes.suffix).cons.cons.cons.closes
  | printLine isWord => exact (bare_word isWord).closes
  | print _ _ _ arguments => exact arguments.cons.opened rfl
  | input _ isName => exact (bare_token isName rfl nofun).cons.closes
  | read _ _ arguments => exact arguments.cons.opened rfl
  | includeFile _ isName => exact (bare_token isName rfl nofun).cons.closes
  | returnValue _ _ value => exact value.cons.opened rfl
  | declare _ _ _ isType => exact (bare_token isType rfl nofun).cons.cons.cons.closes
  | declareArray _ _ _ _ _ bounds _ _ isType =>
    have later := (bare_token isType rfl nofun).cons.cons.before bounds.takes.suffix
    exact later.cons.cons.cons.cons.cons.closes
  | case _ _ _ _ items => exact items.cons.cons.cons.closes
  | endCase isWord => exact bare_word isWord
  | otherwise _ _ body _ _ items => exact (items.before body.takes.suffix).cons.cons
  | caseItem _ item _ _ items => exact items.before item.takes.suffix
  | items first _ firstEnds others =>
    rcases others with rfl | others
    · exact firstEnds
    · exact others.before first.takes.suffix
  | noFurtherItems => exact .inl rfl
  | furtherItems _ _ items => exact .inr items.cons
  | expression noWord _ node =>
    exact node.imp fun _ _ _ isWord => absurd isWord (by simp [noWord])
  | negation _ _ operand => exact operand.cons.expresses rfl
  | comparison _ first _ firstEnds further =>
    rcases further with ⟨same, rfl⟩ | further
    · rw [same]
      exact firstEnds
    · exact further.before first.takes.suffix
  | noRelation => exact .inl ⟨rfl, rfl⟩
  | compare _ right _ rightEnds further =>
    exact .inr (rightEnds.wrap rfl further right.takes.suffix).cons
  | connect _ _ right _ rightEnds further =>
    exact .inr (rightEnds.wrap rfl further right.takes.suffix).cons
  | @chain _ level _ _ _ _ _ first _ firstEnds further =>
    rw [level.ends_operand] at firstEnds
    rcases further with ⟨same, rfl⟩ | further
    · rw [same]
      exact firstEnds
    · exact further.before first.takes.suffix
  | noOperator => exact .inl ⟨rfl, rfl⟩
  | @operator _ level _ _ _ _ _ _ _ _ _ right _ rightEnds further =>
    rw [level.ends_operand] at rightEnds
    exact .inr (rightEnds.wrap rfl further right.takes.suffix).cons
  | signed _ _ operand => exact operand.cons.expresses rfl
  | unsigned _ _ _ base => exact base
  | power _ base _ _ _ exponent => exact (exponent.cons.before base.takes.suffix).expresses rfl
  | number isNumber => exact (solid_token isNumber rfl).expresses rfl
  | string isString => exact (solid_token isString rfl).expresses rfl
  | boolean isBoolean =>
    rcases Bool.or_eq_true_iff.mp isBoolean with isWord | isWord <;>
      exact (solid_word isWord).expresses rfl
  | emptyList _ isClose => exact (solid_token isClose rfl).cons.expresses rfl
  | list _ _ items isClose =>
    exact ((solid_token isClose rfl).before items.takes.suffix).cons.expresses rfl
  | parentheses _ inner isClose =>
    exact ((EndsWith.token isClose rfl (.inl isClose)).before inner.takes.suffix).cons
  | access isName => exact (solid_token isName rfl).expresses rfl
  | emptyCall _ _ isClose => exact (solid_token isClose rfl).cons.cons.expresses rfl
  | call _ _ _ arguments isClose =>
    exact ((solid_token isClose rfl).before arguments.takes.suffix).cons.cons.expresses rfl
  | element _ _ indices isClose =>
    exact ((solid_token isClose rfl).before indices.takes.suffix).cons.cons.expresses rfl
  | _ => trivial

theorem called_final (suffix : [final] <:+ ts) :
    called ts t = (final.kind == .identifier && opens t) := by
  rw [called_of_suffix suffix nofun]
  rfl

theorem not_called {kind : Token.Kind} (suffix : [final] <:+ ts) (isKind : final.kind = kind)
    (other : kind ≠ .identifier) : ¬ called ts t = true := by
  rw [called_final suffix, isKind, beq_eq_false_iff_ne.mpr other]
  nofun

theorem runsOn_closed (read : Reads .plain p ts [node] [])
    (isWord : statementWords.any (next ts).isKeyword = true) (closes : node.kind.closes = true)
    (closed : node.ending = .closed) : ¬ runsOn ts [node] t = true := by
  obtain ⟨final, suffix, _, completes⟩ := read.ends
  have noParen : final.kind ≠ .rparen := by
    intro isParen
    rw [completes isParen isWord node (by simp)] at closes
    cases closes
  rw [runsOn_final suffix, joins, closed, if_neg (by simpa using noParen)]
  nofun

theorem runsOn_expression (read : Reads .comparison p ts [node] []) :
    runsOn ts [node] t = ((additiveOf? t).isSome || called ts t) := by
  obtain ⟨final, suffix, _, expresses⟩ := read.ends
  rw [runsOn_final suffix, called_final suffix, joins]
  -- A statement between parentheses is no expression, but what closes it shows that it stands for one.
  rcases expresses with closes | expression
  · simp [closes]
  · simp [expression node (by simp)]

end Grammar

end Pseudocode
