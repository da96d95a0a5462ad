import Pseudocode.Proofs.Brackets
import Pseudocode.Proofs.Parser.Complete

set_option autoImplicit false

namespace Pseudocode

structure Case where
  subject : Option String
  items : List CaseItem
  otherwise : Option (List Node)

namespace Case

def otherwiseNode (body : List Node) : Node := Node.of .caseOtherwise body

def node (written : Case) : Node :=
  Node.named .case written.subject
    (written.items.map CaseItem.node ++ (written.otherwise.map otherwiseNode).toList)

end Case

namespace Parse

section Parts

variable (rec : Goal → Parse Node)

def itemParts (n : Nat) : Parse CaseItem := do
  let value ← rec .statement
  let upper ← if ← takeWord "TO" then some <$> rec .statement else pure none
  let _ ← expect .colon .caseColon
  let body ← statementsUntil rec endsCase n
  pure ⟨value, upper, body⟩

def itemsParts (depth : Nat) : Nat → Option (List Node) → Parse (List CaseItem × Option (List Node))
  | 0, _ => unfinished
  | n + 1, last => do
    if ← takeWord "ENDCASE" then pure ([], last)
    else if ← takeWord "OTHERWISE" then
      let _ ← expect .colon .otherwiseColon
      let body ← statementsUntil rec endsOtherwise depth
      itemsParts depth n (some body)
    else
      let item ← itemParts rec depth
      let rest ← itemsParts depth n last
      pure (item :: rest.1, rest.2)

def caseParts (n : Nat) : Parse Case := do
  expectWord "OF" .caseOf
  let subject ← expect .identifier .caseName
  let parts ← itemsParts rec n n none
  pure ⟨subject.name, parts.1, parts.2⟩

end Parts

open Grammar

variable {rec : Goal → Parse Node} {n : Nat} {ts rest : List Token} {node : Node}

theorem itemParts_of_caseItem (accepted : caseItem rec n ts = .ok (node, rest)) :
    ∃ item, itemParts rec n ts = .ok (item, rest) ∧ node = item.node := by
  simp only [caseItem, bind_ok, ↓takeWord_ok, if_true, Bool.false_eq_true, if_false, map_ok,
    pure_ok] at accepted
  obtain ⟨value, _, valueRead, choice⟩ := accepted
  obtain ⟨toWord, _, rfl, isTo, _, _, ⟨upper, upperRead, rfl⟩, colon, _, colonRead, body, _, bodyRead,
      rfl, rfl⟩ |
    ⟨noTo, _, _, ⟨rfl, rfl⟩, colon, _, colonRead, body, _, bodyRead, rfl, rfl⟩ := choice
  · refine ⟨⟨value, some upper, body⟩, ?_, rfl⟩
    rw [itemParts, bind_of_ok valueRead, bind_of_ok (takeWord_of isTo), if_pos rfl,
      bind_of_ok (map_ok.mpr ⟨_, upperRead, rfl⟩)]
    dsimp only
    rw [bind_of_ok colonRead, bind_of_ok bodyRead]
    rfl
  · refine ⟨⟨value, none, body⟩, ?_, rfl⟩
    rw [itemParts, bind_of_ok valueRead, bind_of_ok (takeWord_of_not noTo), if_neg (by decide),
      bind_of_ok (pure_ok.mpr ⟨rfl, rfl⟩)]
    dsimp only
    rw [bind_of_ok colonRead, bind_of_ok bodyRead]
    rfl

theorem itemsParts_of_caseItems {depth : Nat} {nodes : List Node} (last : Option (List Node))
    (accepted : caseItems rec depth n (last.map Case.otherwiseNode) ts = .ok (nodes, rest)) :
    ∃ parts, itemsParts rec depth n last ts = .ok (parts, rest) ∧
      nodes = parts.1.map CaseItem.node ++ (parts.2.map Case.otherwiseNode).toList := by
  induction n generalizing ts nodes last with
  | zero => exact (unfinished_ok.mp accepted).elim
  | succ n ih =>
    rw [caseItems, takeWord_ok] at accepted
    obtain ⟨word, _, rfl, isEnd, ended⟩ | ⟨noEnd, goesOn⟩ := accepted
    · obtain ⟨rfl, rfl⟩ := pure_ok.mp ended
      refine ⟨([], last), ?_, by simp⟩
      rw [itemsParts, bind_of_ok (takeWord_of isEnd)]
      rfl
    rw [if_neg (by decide), takeWord_ok] at goesOn
    simp only [if_true, Bool.false_eq_true, if_false, otherwise, bind_ok, pure_ok] at goesOn
    obtain ⟨word, _, rfl, isOtherwise, _, _, ⟨colon, _, colonRead, body, _, bodyRead, rfl, rfl⟩,
        further⟩ |
      ⟨noOtherwise, item, _, itemRead, others, _, further, rfl, rfl⟩ := goesOn
    · obtain ⟨parts, later, rfl⟩ := ih (some body) further
      refine ⟨parts, ?_, rfl⟩
      rw [itemsParts, bind_of_ok (takeWord_of_not noEnd), if_neg (by decide),
        bind_of_ok (takeWord_of isOtherwise), if_pos rfl, bind_of_ok colonRead, bind_of_ok bodyRead]
      exact later
    · obtain ⟨item, partsRead, rfl⟩ := itemParts_of_caseItem itemRead
      obtain ⟨parts, later, rfl⟩ := ih last further
      refine ⟨(item :: parts.1, parts.2), ?_, rfl⟩
      rw [itemsParts, bind_of_ok (takeWord_of_not noEnd), if_neg (by decide),
        bind_of_ok (takeWord_of_not noOtherwise), if_neg (by decide), bind_of_ok partsRead,
        bind_of_ok later]
      rfl

theorem caseParts_of_caseStatement (accepted : caseStatement rec n ts = .ok (node, rest)) :
    ∃ written, caseParts rec n ts = .ok (written, rest) ∧ node = written.node := by
  simp only [caseStatement, bind_ok, pure_ok] at accepted
  obtain ⟨_, _, ofRead, subject, _, named, items, _, itemsRead, rfl, rfl⟩ := accepted
  obtain ⟨parts, partsRead, rfl⟩ := itemsParts_of_caseItems none itemsRead
  refine ⟨⟨subject.name, parts.1, parts.2⟩, ?_, rfl⟩
  rw [caseParts, bind_of_ok ofRead, bind_of_ok named, bind_of_ok partsRead]
  rfl

end Parse

section Origin

open Grammar Parse

def Case.ReadFrom (tokens : List Token) (node : Node) : Prop :=
  ∃ word ts rest n, word :: ts <:+ tokens ∧ word.isKeyword "CASE" ∧
    caseStatement (run n) n ts = .ok (node, rest)

def Traced (tokens : List Token) (nodes : List Node) : Prop :=
  ∀ node ∈ nodes, node.Everywhere fun inner => inner.kind = .case → Case.ReadFrom tokens inner

variable {tokens ts rest : List Token} {t : Token}

namespace Traced

variable {node : Node} {nodes others : List Node}

theorem nil : Traced tokens [] := nofun

theorem append (first : Traced tokens nodes) (second : Traced tokens others) :
    Traced tokens (nodes ++ others) := by
  intro node member
  rcases List.mem_append.mp member with member | member
  · exact first node member
  · exact second node member

theorem cons (first : Traced tokens [node]) (second : Traced tokens nodes) :
    Traced tokens (node :: nodes) :=
  append first second

theorem of_children (here : node.kind = .case → Case.ReadFrom tokens node)
    (below : Traced tokens node.children) : Traced tokens [node] := by
  intro node member
  obtain rfl := List.mem_singleton.mp member
  exact Node.everywhere_iff.mpr ⟨here, below⟩

theorem of {kind : Node.Kind} (other : kind ≠ .case) (below : Traced tokens nodes) :
    Traced tokens [Node.of kind nodes] :=
  of_children (fun isCase => absurd isCase other) below

theorem named {kind : Node.Kind} {name : Option String} (other : kind ≠ .case)
    (below : Traced tokens nodes) : Traced tokens [Node.named kind name nodes] :=
  of_children (fun isCase => absurd isCase other) below

end Traced

def At (tokens ts : List Token) : Prop := ts <:+ tokens

namespace At

theorem tail (here : At tokens (t :: ts)) : At tokens ts := (List.suffix_cons t ts).trans here

theorem skip (here : At tokens ts) : At tokens (Grammar.skip ts) :=
  (List.dropWhile_suffix _).trans here

theorem after {part : Part} {p : Mode} {nodes : List Node} (here : At tokens ts)
    (read : Reads part p ts nodes rest) : At tokens rest :=
  read.takes.suffix.trans here

end At

theorem readFrom_case {p : Mode} {more : Bool} {word ofWord name : Token} {items : List Node}
    (loose : p.careful = false) (here : At tokens (word :: ofWord :: name :: ts))
    (isWord : word.isKeyword "CASE") (isOf : ofWord.isKeyword "OF") (isName : name.kind = .identifier)
    (read : Reads (.cases none more) p ts items rest) :
    Case.ReadFrom tokens (Node.named .case name.name items) := by
  refine ⟨word, ofWord :: name :: ts, rest, ts.length + 2, here, isWord, ?_⟩
  rw [caseStatement, bind_of_ok (expectWord_of isOf), bind_of_ok (expect_of isName),
    bind_of_ok ((complete read loose).below (by omega))]
  rfl

theorem traced {part : Part} {p : Mode} {nodes : List Node} (read : Reads part p ts nodes rest)
    (loose : p.careful = false) (here : At tokens ts) (given : Traced tokens part.given) :
    Traced tokens nodes := by
  induction read with
  | assign _ _ _ _ value => exact .named nofun (value loose here.tail.tail .nil)
  | elementAssign _ _ _ _ indicesRead _ _ indices value =>
    have rest := (here.tail.tail.after indicesRead).tail
    exact .named nofun ((indices loose here.tail.tail .nil).append
      (value loose ((List.tail_suffix _).trans rest) .nil))
  | plain _ _ node => exact node loose here .nil
  | ifThen _ testRead _ _ _ test yes =>
    have afterTest := (here.tail.after testRead).tail
    exact .of nofun (.cons (test loose here.tail .nil) (yes loose afterTest .nil))
  | ifElse _ testRead _ yesRead _ _ _ test yes no =>
    have afterTest := (here.tail.after testRead).tail
    have afterYes := (afterTest.after yesRead).tail
    exact .of nofun (.cons (test loose here.tail .nil)
      (.cons (yes loose afterTest .nil) (no loose afterYes .nil)))
  | forLoop _ _ _ startRead _ finalRead stepRead _ _ _ _ start final step body =>
    have inside := Mode.careful_inside loose
    have afterStart := (here.tail.tail.tail.after startRead).tail
    have afterFinal := afterStart.after finalRead
    have afterStep := afterFinal.after stepRead
    exact .named nofun (.cons (start inside here.tail.tail.tail .nil)
      (.cons (final inside afterStart .nil)
        (.cons (step loose afterFinal .nil) (body loose afterStep .nil))))
  | step _ _ value => exact value (Mode.careful_inside loose) here.tail .nil
  | noStep => exact .of_children nofun .nil
  | whileLoop _ testRead _ _ _ test body =>
    have afterTest := (here.tail.after testRead).tail
    exact .of nofun (.cons (test loose here.tail .nil) (body loose afterTest .nil))
  | @repeatUntil p _ _ _ _ _ _ _ _ bodyRead _ _ body test =>
    have afterBody := (here.tail.after bodyRead).tail
    exact .of nofun (.cons (body loose here.tail .nil)
      (test (Mode.careful_inside (p := p.test) loose) afterBody .nil))
  | define _ _ _ namesRead _ headRead bodyRead _ _ names _ body result =>
    have afterHead := (here.tail.tail.tail.after namesRead).tail.after headRead
    have afterBody := afterHead.after bodyRead
    exact .named nofun (.cons (.of nofun (names loose here.tail.tail.tail .nil))
      (.cons (body loose afterHead .nil) (result loose afterBody .nil)))
  | noParameters => exact .nil
  | parameters _ _ names => exact .cons (.named nofun .nil) (names loose here.tail .nil)
  | noFurtherParameters => exact .nil
  | furtherParameters _ _ _ names => exact .cons (.named nofun .nil) (names loose here.tail.tail .nil)
  | functionHead => exact .nil
  | returnsHead => exact .nil
  | returnsTypeHead => exact .nil
  | procedureHead => exact .nil
  | doHead => exact .nil
  | result _ _ _ value => exact value loose here.tail .nil
  | noResult => exact .of_children nofun .nil
  | printLine => exact .of nofun .nil
  | print _ _ _ arguments => exact .of nofun (arguments loose here.tail .nil)
  | input => exact .named nofun .nil
  | read _ _ arguments => exact .of nofun (arguments loose here.tail .nil)
  | includeFile => exact .named nofun .nil
  | returnValue _ _ value => exact .of nofun (value (Mode.careful_inside loose) here.tail .nil)
  | declare => exact .named nofun (.named nofun .nil)
  | declareArray => exact .named nofun (.named nofun .nil)
  | dimensions lowRead _ highRead _ low high bounds =>
    have afterLow := (here.after lowRead).tail
    exact .cons (low rfl here .nil) (.cons (high rfl afterLow .nil)
      (bounds loose (afterLow.after highRead) .nil))
  | noFurtherDimensions => exact .nil
  | furtherDimensions _ _ bounds => exact bounds loose here.tail .nil
  | @case _ more _ _ _ _ _ _ isWord isOf isName itemsRead items =>
    refine .of_children (fun _ => readFrom_case loose here isWord isOf isName itemsRead) ?_
    exact items loose here.tail.tail.tail (by cases more <;> exact .nil)
  | endCase => exact given
  | @otherwise _ _ more _ _ _ _ _ _ _ _ _ bodyRead _ body items =>
    have bodyTraced := body (Mode.careful_unlessSuperseded more loose) here.tail.tail .nil
    have rest := here.tail.tail.after bodyRead
    cases more with
    | true => exact items loose rest .nil
    | false => exact items loose rest (.of nofun bodyTraced)
  | caseItem _ itemRead _ item items =>
    exact .cons (item loose here .nil) (items loose (here.after itemRead) given)
  | single valueRead _ _ value body =>
    have afterValue := (here.after valueRead).tail
    exact .of nofun (.cons (value (Mode.careful_inside loose) here .nil)
      (body loose afterValue .nil))
  | range valueRead _ upperRead _ _ value upper body =>
    have afterValue := (here.after valueRead).tail
    have afterUpper := (afterValue.after upperRead).tail
    exact .of nofun (.cons (value (Mode.careful_inside loose) here .nil)
      (.cons (upper loose afterValue .nil) (body loose afterUpper .nil)))
  | block _ body => exact .of nofun (body loose here.skip .nil)
  | bodyEnd => exact .nil
  | bodyNext _ firstRead _ first others =>
    exact .cons (first loose here .nil) (others loose (here.after firstRead).skip .nil)
  | items firstRead _ first others =>
    exact .cons (first (Mode.careful_inside loose) here .nil)
      (others loose (here.after firstRead) .nil)
  | noFurtherItems => exact .nil
  | furtherItems _ _ items => exact items loose here.tail .nil
  | expression _ _ node => exact node loose here .nil
  | negation _ _ operand => exact .of nofun (operand loose here.tail .nil)
  | comparison _ firstRead _ first further =>
    exact further loose (here.after firstRead) (first loose here .nil)
  | noRelation => exact given
  | compare _ rightRead _ right further =>
    exact further loose (here.tail.after rightRead)
      (.of nofun (.cons given (right loose here.tail .nil)))
  | connect _ _ rightRead _ right further =>
    exact further loose (here.tail.after rightRead)
      (.of nofun (.cons given (right loose here.tail .nil)))
  | @chain _ level _ _ _ _ _ firstRead _ first further =>
    exact further loose (here.after firstRead) (first loose here (by cases level <;> exact .nil))
  | noOperator => exact given
  | @operator _ level _ _ _ _ _ _ _ _ _ rightRead _ right further =>
    have right := right loose here.tail (by cases level <;> exact .nil)
    exact further loose (here.tail.after rightRead) (.of nofun (.cons given right))
  | signed _ _ operand => exact .of nofun (operand loose here.tail .nil)
  | unsigned _ _ _ base => exact base loose here .nil
  | power _ baseRead _ _ base exponent =>
    exact .of nofun (.cons (base loose here .nil)
      (exponent loose (here.after baseRead).tail .nil))
  | number => exact .of_children nofun .nil
  | string => exact .named nofun .nil
  | boolean => exact .named nofun .nil
  | emptyList => exact .of nofun .nil
  | list _ _ _ _ items => exact .of nofun (items loose here.tail .nil)
  | parentheses _ _ _ inner => exact inner (Mode.careful_inside loose) here.tail .nil
  | access => exact .named nofun .nil
  | emptyCall => exact .named nofun .nil
  | call _ _ _ _ _ arguments => exact .named nofun (arguments loose here.tail.tail .nil)
  | element _ _ _ _ indices => exact .named nofun (indices loose here.tail.tail .nil)

end Origin

end Pseudocode
