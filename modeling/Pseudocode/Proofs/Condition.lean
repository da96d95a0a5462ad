import Pseudocode.Proofs.Parser.Complete
import Pseudocode.Proofs.Scan

set_option autoImplicit false

namespace Pseudocode

namespace Node

def Kind.assigns : Kind → Bool
  | .assign | .elementAssign => true
  | _ => false

/-- The child from which on the children are a body. The node of a case item does not say where its body
begins: all that follows its value counts as body. -/
def Kind.bodyAt? : Kind → Option Nat
  | .block | .define | .caseOtherwise => some 0
  | .caseItem => some 1
  | _ => none

def Kind.conditionAt? : Kind → Option Nat
  | .ifThen | .ifElse | .whileLoop => some 0
  | .repeatUntil => some 1
  | _ => none

def outsideBody (node : Node) : List Node :=
  match node.kind.bodyAt? with
  | some n => node.children.take n
  | none => node.children

def condition? (node : Node) : Option Node :=
  node.kind.conditionAt?.bind (node.children[·]?)

/-- There is an assignment in the node that is in no body of a statement. -/
inductive Assigns : Node → Prop where
  | here {node : Node} : node.kind.assigns = true → Assigns node
  | inside {node child : Node} : child ∈ node.outsideBody → Assigns child → Assigns node

/-- No condition in the tree assigns. -/
def Settled (tree : Node) : Prop :=
  tree.Everywhere fun node => ∀ condition, node.condition? = some condition → ¬ condition.Assigns

variable {node : Node}

theorem assigns_iff : node.Assigns ↔
    node.kind.assigns = true ∨ ∃ child ∈ node.outsideBody, child.Assigns := by
  constructor
  · rintro (here | ⟨member, assigns⟩)
    · exact .inl here
    · exact .inr ⟨_, member, assigns⟩
  · rintro (here | ⟨child, member, assigns⟩)
    · exact .here here
    · exact .inside member assigns

theorem settled_iff : node.Settled ↔
    (∀ condition, node.condition? = some condition → ¬ condition.Assigns) ∧
      ∀ child ∈ node.children, child.Settled :=
  everywhere_iff

end Node

namespace Grammar

open Parse Mode

def Fits (exposed : Bool) (nodes : List Node) : Prop :=
  ∀ node ∈ nodes, node.Settled ∧ (exposed = true → ¬ node.Assigns)

section Fits

variable {exposed : Bool} {node condition : Node} {nodes others : List Node}

theorem Fits.nil : Fits exposed [] := nofun

theorem fits_append : Fits exposed (nodes ++ others) ↔ Fits exposed nodes ∧ Fits exposed others :=
  List.forall_mem_append

theorem fits_cons : Fits exposed (node :: nodes) ↔ Fits exposed [node] ∧ Fits exposed nodes :=
  show Fits exposed ([node] ++ nodes) ↔ _ from fits_append

theorem fits_iff (node : Node) : Fits exposed [node] ↔
    (∀ condition, node.condition? = some condition → ¬ condition.Assigns) ∧ Fits false node.children ∧
      (exposed = true → node.kind.assigns = false ∧ ∀ child ∈ node.outsideBody, ¬ child.Assigns) := by
  simp only [Fits, List.mem_singleton, forall_eq]
  rw [Node.settled_iff, Node.assigns_iff]
  grind

theorem fits_assignment (assigns : node.kind.assigns = true) (noCondition : node.kind.conditionAt? = none) :
    Fits exposed [node] ↔ exposed = false ∧ Fits false node.children := by
  rw [fits_iff, Node.condition?, noCondition, assigns]
  grind

theorem fits_plain (noAssignment : node.kind.assigns = false) (noCondition : node.kind.conditionAt? = none)
    (noBody : node.kind.bodyAt? = none) : Fits exposed [node] ↔ Fits exposed node.children := by
  rw [fits_iff, Node.condition?, noCondition, noAssignment, Node.outsideBody, noBody]
  simp only [Fits]
  grind

theorem fits_body (n : Nat) (noAssignment : node.kind.assigns = false)
    (noCondition : node.kind.conditionAt? = none) (body : node.kind.bodyAt? = some n) :
    Fits exposed [node] ↔ Fits exposed (node.children.take n) ∧ Fits false (node.children.drop n) := by
  have split : Fits false node.children ↔
      Fits false (node.children.take n) ∧ Fits false (node.children.drop n) := by
    rw [← fits_append, List.take_append_drop]
  rw [fits_iff, Node.condition?, noCondition, noAssignment, Node.outsideBody, body, split]
  simp only [Fits]
  grind

theorem fits_test (nodes : List Node) (noAssignment : node.kind.assigns = false)
    (test : node.kind.conditionAt? = some nodes.length) (noBody : node.kind.bodyAt? = none)
    (children : node.children = nodes ++ condition :: others) :
    Fits exposed [node] ↔ Fits exposed nodes ∧ Fits true [condition] ∧ Fits exposed others := by
  rw [fits_iff, Node.condition?, test, noAssignment, Node.outsideBody, noBody, children]
  simp only [Fits]
  grind

end Fits

def Part.exposed : Part → Bool → Bool
  | .body _, _ | .result _, _ => false
  | _, exposed => exposed

def Part.kept : Part → Bool
  | .dimensions | .furtherDimensions => false
  | _ => true

theorem Level.exposed_operand (level : Level) (exposed : Bool) :
    level.operand.exposed exposed = exposed := by
  cases level <;> rfl

theorem Level.kept_operand (level : Level) : level.operand.kept = true := by
  cases level <;> rfl

theorem Level.given_operand (level : Level) : level.operand.given = [] := by
  cases level <;> rfl

variable {part : Part} {p : Mode} {ts rest : List Token} {nodes : List Node} {exposed : Bool}

theorem fits_of_careful (read : Reads part p ts nodes rest) (mode : p = ⟨exposed, true⟩)
    (kept : part.kept = true) (given : Fits exposed part.given) : Fits (part.exposed exposed) nodes := by
  -- A careful mode is exposed everywhere below a condition, so an assignment is never read there.
  induction read generalizing exposed with
  | assign compares _ _ _ value =>
    obtain rfl : false = exposed := by simpa [mode] using compares.symm
    exact (fits_assignment rfl rfl).mpr ⟨rfl, value mode rfl .nil⟩
  | elementAssign compares _ _ _ _ _ _ indices value =>
    obtain rfl : false = exposed := by simpa [mode] using compares.symm
    exact (fits_assignment rfl rfl).mpr ⟨rfl, fits_append.mpr
      ⟨indices mode rfl .nil, value mode rfl .nil⟩⟩
  | plain _ _ node => exact node mode rfl .nil
  | ifThen _ _ _ _ _ test yes =>
    exact (fits_test [] rfl rfl rfl rfl).mpr
      ⟨.nil, test (congrArg Mode.test mode) rfl .nil, yes mode rfl .nil⟩
  | ifElse _ _ _ _ _ _ _ test yes no =>
    exact (fits_test [] rfl rfl rfl rfl).mpr ⟨.nil, test (congrArg Mode.test mode) rfl .nil,
      fits_cons.mpr ⟨yes mode rfl .nil, no mode rfl .nil⟩⟩
  | forLoop _ _ _ _ _ _ _ _ _ _ _ start final step body =>
    have bounds := fits_cons.mpr ⟨start (congrArg Mode.inside mode) rfl .nil,
      final (congrArg Mode.inside mode) rfl .nil⟩
    have further := fits_cons.mpr ⟨step mode rfl .nil, body mode rfl .nil⟩
    exact (fits_plain rfl rfl rfl).mpr (fits_append.mpr ⟨bounds, further⟩)
  | step _ _ value => exact value (congrArg Mode.inside mode) rfl .nil
  | noStep => exact (fits_plain rfl rfl rfl).mpr .nil
  | whileLoop _ _ _ _ _ test body =>
    exact (fits_test [] rfl rfl rfl rfl).mpr
      ⟨.nil, test (congrArg Mode.test mode) rfl .nil, body mode rfl .nil⟩
  | repeatUntil _ _ _ _ body test =>
    exact (fits_test [_] rfl rfl rfl rfl).mpr ⟨body mode rfl .nil,
      test (congrArg (Mode.inside ∘ Mode.test) mode) rfl .nil, .nil⟩
  | define _ _ _ _ _ _ _ _ _ names _ body result =>
    have body := fits_cons.mpr ⟨body (congrArg Mode.body mode) rfl .nil,
      result (congrArg Mode.body mode) rfl .nil⟩
    exact (fits_body 0 rfl rfl rfl).mpr ⟨.nil, fits_cons.mpr
      ⟨(fits_plain rfl rfl rfl).mpr (names (congrArg Mode.body mode) rfl .nil), body⟩⟩
  | noParameters => exact .nil
  | parameters _ _ names =>
    exact fits_cons.mpr ⟨(fits_plain rfl rfl rfl).mpr .nil, names mode rfl .nil⟩
  | noFurtherParameters => exact .nil
  | furtherParameters _ _ _ names =>
    exact fits_cons.mpr ⟨(fits_plain rfl rfl rfl).mpr .nil, names mode rfl .nil⟩
  | functionHead => exact .nil
  | returnsHead => exact .nil
  | returnsTypeHead => exact .nil
  | procedureHead => exact .nil
  | doHead => exact .nil
  | result _ _ _ value => exact value (congrArg Mode.body mode) rfl .nil
  | noResult => exact (fits_plain rfl rfl rfl).mpr .nil
  | printLine => exact (fits_plain rfl rfl rfl).mpr .nil
  | print _ _ _ arguments => exact (fits_plain rfl rfl rfl).mpr (arguments mode rfl .nil)
  | input => exact (fits_plain rfl rfl rfl).mpr .nil
  | read _ _ arguments => exact (fits_plain rfl rfl rfl).mpr (arguments mode rfl .nil)
  | includeFile => exact (fits_plain rfl rfl rfl).mpr .nil
  | returnValue _ _ value =>
    exact (fits_plain rfl rfl rfl).mpr (value (congrArg Mode.inside mode) rfl .nil)
  | declare => exact (fits_plain rfl rfl rfl).mpr ((fits_plain rfl rfl rfl).mpr .nil)
  | declareArray => exact (fits_plain rfl rfl rfl).mpr ((fits_plain rfl rfl rfl).mpr .nil)
  | dimensions => cases kept
  | noFurtherDimensions => cases kept
  | furtherDimensions => cases kept
  | @case _ more _ _ _ _ _ _ _ _ _ _ items =>
    exact (fits_plain rfl rfl rfl).mpr (items mode rfl (by cases more <;> exact .nil))
  | endCase => exact given
  | @otherwise _ _ more _ _ _ _ _ _ _ _ _ _ _ body items =>
    cases more with
    | true => exact items mode rfl .nil
    | false => exact items mode rfl ((fits_body 0 rfl rfl rfl).mpr ⟨.nil, body mode rfl .nil⟩)
  | caseItem _ _ _ item items => exact fits_cons.mpr ⟨item mode rfl .nil, items mode rfl given⟩
  | single _ _ _ value body =>
    exact (fits_body 1 rfl rfl rfl).mpr
      ⟨value (congrArg Mode.inside mode) rfl .nil, body mode rfl .nil⟩
  | range _ _ _ _ _ value upper body =>
    have upper := upper (congrArg Mode.body mode) rfl .nil
    exact (fits_body 1 rfl rfl rfl).mpr ⟨value (congrArg Mode.inside mode) rfl .nil,
      fits_cons.mpr ⟨upper, body mode rfl .nil⟩⟩
  | block _ body => exact (fits_body 0 rfl rfl rfl).mpr ⟨.nil, body mode rfl .nil⟩
  | bodyEnd => exact .nil
  | bodyNext _ _ _ first others =>
    exact fits_cons.mpr ⟨first (congrArg Mode.body mode) rfl .nil, others mode rfl .nil⟩
  | items _ _ first others =>
    exact fits_cons.mpr ⟨first (congrArg Mode.inside mode) rfl .nil, others mode rfl .nil⟩
  | noFurtherItems => exact .nil
  | furtherItems _ _ items => exact items mode rfl .nil
  | expression _ _ node => exact node mode rfl .nil
  | negation _ _ operand => exact (fits_plain rfl rfl rfl).mpr (operand mode rfl .nil)
  | comparison _ _ _ first further => exact further mode rfl (first mode rfl .nil)
  | noRelation => exact given
  | compare _ _ _ right further =>
    exact further mode rfl ((fits_plain rfl rfl rfl).mpr (fits_cons.mpr ⟨given, right mode rfl .nil⟩))
  | connect _ _ _ _ right further =>
    exact further mode rfl ((fits_plain rfl rfl rfl).mpr (fits_cons.mpr ⟨given, right mode rfl .nil⟩))
  | @chain _ level _ _ _ _ _ _ _ first further =>
    have first := first mode level.kept_operand (by rw [level.given_operand]; exact .nil)
    rw [level.exposed_operand] at first
    exact further mode rfl first
  | noOperator => exact given
  | @operator _ level _ _ _ _ _ _ _ _ _ _ _ right further =>
    have right := right mode level.kept_operand (by rw [level.given_operand]; exact .nil)
    rw [level.exposed_operand] at right
    exact further mode rfl ((fits_plain rfl rfl rfl).mpr (fits_cons.mpr ⟨given, right⟩))
  | signed _ _ operand => exact (fits_plain rfl rfl rfl).mpr (operand mode rfl .nil)
  | unsigned _ _ _ base => exact base mode rfl .nil
  | power _ _ _ _ base exponent =>
    exact (fits_plain rfl rfl rfl).mpr (fits_cons.mpr ⟨base mode rfl .nil, exponent mode rfl .nil⟩)
  | number => exact (fits_plain rfl rfl rfl).mpr .nil
  | string => exact (fits_plain rfl rfl rfl).mpr .nil
  | boolean => exact (fits_plain rfl rfl rfl).mpr .nil
  | emptyList => exact (fits_plain rfl rfl rfl).mpr .nil
  | list _ _ _ _ items => exact (fits_plain rfl rfl rfl).mpr (items mode rfl .nil)
  | parentheses _ _ _ inner => exact inner (congrArg Mode.inside mode) rfl .nil
  | access => exact (fits_plain rfl rfl rfl).mpr .nil
  | emptyCall => exact (fits_plain rfl rfl rfl).mpr .nil
  | call _ _ _ _ _ arguments => exact (fits_plain rfl rfl rfl).mpr (arguments mode rfl .nil)
  | element _ _ _ _ indices => exact (fits_plain rfl rfl rfl).mpr (indices mode rfl .nil)

theorem careful_of_fits (read : Reads part p ts nodes rest) (loose : p.careful = false)
    (fits : part.kept = true → Fits (part.exposed exposed) nodes)
    (within : exposed = false → p.condition = false) :
    Reads part ⟨exposed, true⟩ ts nodes rest ∧ Fits exposed part.given := by
  -- Where the two readings part, the other one assigns, and then the node would not fit. What a part is
  -- read after is fitted backwards: the nodes of a chain hold all that stands before them.
  induction read generalizing exposed with
  | assign compares isName isAssign _ value =>
    obtain ⟨rfl, valueFits⟩ : exposed = false ∧ Fits false [_] := (fits_assignment rfl rfl).mp (fits rfl)
    exact ⟨.assign rfl isName isAssign (value loose (fun _ => valueFits) within).1, .nil⟩
  | elementAssign compares isName isOpen ahead _ isClose _ indices value =>
    obtain ⟨rfl, children⟩ : exposed = false ∧ Fits false (_ ++ [_]) :=
      (fits_assignment rfl rfl).mp (fits rfl)
    obtain ⟨indicesFit, valueFits⟩ := fits_append.mp children
    exact ⟨.elementAssign rfl isName isOpen ahead (indices loose (fun _ => indicesFit) within).1 isClose
      (value loose (fun _ => valueFits) within).1, .nil⟩
  | plain goesOn _ node =>
    exact ⟨.plain (fun hidden => goesOn (within hidden)) (node loose fits within).1, .nil⟩
  | ifThen isWord _ isThen _ isClose test yes =>
    obtain ⟨_, testFits, yesFits⟩ := (fits_test [] rfl rfl rfl rfl).mp (fits rfl)
    exact ⟨.ifThen isWord (test loose (fun _ => testFits) nofun).1 isThen
      (yes loose (fun _ => yesFits) within).1 isClose, .nil⟩
  | ifElse isWord _ isThen _ isElse _ isClose test yes no =>
    obtain ⟨_, testFits, others⟩ := (fits_test [] rfl rfl rfl rfl).mp (fits rfl)
    obtain ⟨yesFits, noFits⟩ := fits_cons.mp others
    exact ⟨.ifElse isWord (test loose (fun _ => testFits) nofun).1 isThen
      (yes loose (fun _ => yesFits) within).1 isElse (no loose (fun _ => noFits) within).1 isClose, .nil⟩
  | forLoop isWord isName isSign _ isTo _ _ _ isNext closes same start final step body =>
    have inside := careful_inside loose
    obtain ⟨startFits, others⟩ := fits_cons.mp ((fits_plain rfl rfl rfl).mp (fits rfl))
    obtain ⟨finalFits, others⟩ := fits_cons.mp others
    obtain ⟨stepFits, bodyFits⟩ := fits_cons.mp others
    exact ⟨.forLoop isWord isName isSign
      (start inside (fun _ => startFits) fun _ => condition_inside loose).1 isTo
      (final inside (fun _ => finalFits) fun _ => condition_inside loose).1
      (step loose (fun _ => stepFits) within).1 (body loose (fun _ => bodyFits) within).1
      isNext closes same, .nil⟩
  | step isWord _ value =>
    exact ⟨.step isWord (value (careful_inside loose) fits fun _ => condition_inside loose).1, .nil⟩
  | noStep noWord => exact ⟨.noStep noWord, .nil⟩
  | whileLoop isWord _ isDo _ isClose test body =>
    obtain ⟨_, testFits, bodyFits⟩ := (fits_test [] rfl rfl rfl rfl).mp (fits rfl)
    exact ⟨.whileLoop isWord (test loose (fun _ => testFits) nofun).1 isDo
      (body loose (fun _ => bodyFits) within).1 isClose, .nil⟩
  | @repeatUntil p _ _ _ _ _ _ _ isWord _ isUntil _ body test =>
    obtain ⟨bodyFits, testFits, _⟩ := (fits_test [_] rfl rfl rfl rfl).mp (fits rfl)
    exact ⟨.repeatUntil isWord (body loose (fun _ => bodyFits) within).1 isUntil
      (test (careful_inside (p := p.test) loose) (fun _ => testFits) nofun).1, .nil⟩
  | define isWord isName isOpen _ isClose _ _ _ isEnd names head body result =>
    obtain ⟨_, children⟩ := (fits_body 0 rfl rfl rfl).mp (fits rfl)
    obtain ⟨namesFit, others⟩ := fits_cons.mp children
    obtain ⟨bodyFits, resultFits⟩ := fits_cons.mp others
    have namesFit := (fits_plain rfl rfl rfl).mp namesFit
    exact ⟨.define isWord isName isOpen (names loose (fun _ => namesFit) fun _ => rfl).1 isClose
      (head loose (fun _ => Fits.nil) fun _ => rfl).1 (body loose (fun _ => bodyFits) fun _ => rfl).1
      (result loose (fun _ => resultFits) fun _ => rfl).1 isEnd, .nil⟩
  | noParameters noName => exact ⟨.noParameters noName, .nil⟩
  | parameters isName _ names =>
    have namesFit := (fits_cons.mp (fits rfl)).2
    exact ⟨.parameters isName (names loose (fun _ => namesFit) within).1, .nil⟩
  | noFurtherParameters noComma => exact ⟨.noFurtherParameters noComma, .nil⟩
  | furtherParameters isComma isName _ names =>
    have namesFit := (fits_cons.mp (fits rfl)).2
    exact ⟨.furtherParameters isComma isName (names loose (fun _ => namesFit) within).1, .nil⟩
  | functionHead noReturns => exact ⟨.functionHead noReturns, .nil⟩
  | returnsHead isReturns noType => exact ⟨.returnsHead isReturns noType, .nil⟩
  | returnsTypeHead isReturns isType => exact ⟨.returnsTypeHead isReturns isType, .nil⟩
  | procedureHead => exact ⟨.procedureHead, .nil⟩
  | doHead noFunction noProcedure isDo => exact ⟨.doHead noFunction noProcedure isDo, .nil⟩
  | result isWord _ closes value =>
    exact ⟨.result isWord (value loose fits fun _ => rfl).1 closes, .nil⟩
  | noResult noWord => exact ⟨.noResult noWord, .nil⟩
  | printLine isWord ends => exact ⟨.printLine isWord ends, .nil⟩
  | print isWord goesOn _ arguments =>
    have argumentsFit := (fits_plain rfl rfl rfl).mp (fits rfl)
    exact ⟨.print isWord goesOn (arguments loose (fun _ => argumentsFit) within).1, .nil⟩
  | input isWord isName => exact ⟨.input isWord isName, .nil⟩
  | read isWord _ arguments =>
    have argumentsFit := (fits_plain rfl rfl rfl).mp (fits rfl)
    exact ⟨.read isWord (arguments loose (fun _ => argumentsFit) within).1, .nil⟩
  | includeFile isWord isName => exact ⟨.includeFile isWord isName, .nil⟩
  | returnValue isWord _ value =>
    have valueFits := (fits_plain rfl rfl rfl).mp (fits rfl)
    exact ⟨.returnValue isWord
      (value (careful_inside loose) (fun _ => valueFits) fun _ => condition_inside loose).1, .nil⟩
  | declare isWord isName isColon isType noArray =>
    exact ⟨.declare isWord isName isColon isType noArray, .nil⟩
  | declareArray isWord isName isColon isArray isOpen _ isClose isOf isType bounds =>
    exact ⟨.declareArray isWord isName isColon isArray isOpen (bounds loose nofun within).1 isClose isOf
      isType, .nil⟩
  | dimensions low isColon high _ _ _ bounds =>
    exact ⟨.dimensions low isColon high (bounds loose nofun within).1, .nil⟩
  | noFurtherDimensions noComma => exact ⟨.noFurtherDimensions noComma, .nil⟩
  | furtherDimensions isComma _ bounds =>
    exact ⟨.furtherDimensions isComma (bounds loose nofun within).1, .nil⟩
  | case isWord isOf isName _ items =>
    have itemsFit := (fits_plain rfl rfl rfl).mp (fits rfl)
    exact ⟨.case isWord isOf isName (items loose (fun _ => itemsFit) within).1, .nil⟩
  | endCase isWord => exact ⟨.endCase isWord, fits rfl⟩
  | @otherwise _ _ more _ _ _ _ _ _ _ isWord isColon bodyRead _ body items =>
    obtain ⟨items, otherwiseFits⟩ := items loose fits within
    cases more with
    | true =>
      refine ⟨.otherwise isWord isColon ?_ items, .nil⟩
      exact bodyRead
    | false =>
      have bodyFits := ((fits_body 0 rfl rfl rfl).mp otherwiseFits).2
      refine ⟨.otherwise isWord isColon ?_ items, .nil⟩
      exact (body loose (fun _ => bodyFits) within).1
  | caseItem begins _ _ item items =>
    obtain ⟨itemFits, itemsFit⟩ := fits_cons.mp (fits rfl)
    obtain ⟨items, given⟩ := items loose (fun _ => itemsFit) within
    exact ⟨.caseItem begins (item loose (fun _ => itemFits) within).1 items, given⟩
  | single _ isColon _ value body =>
    obtain ⟨valueFits, bodyFits⟩ := (fits_body 1 rfl rfl rfl).mp (fits rfl)
    exact ⟨.single (value (careful_inside loose) (fun _ => valueFits) fun _ => condition_inside loose).1
      isColon (body loose (fun _ => bodyFits) within).1, .nil⟩
  | range _ isTo _ isColon _ value upper body =>
    obtain ⟨valueFits, others⟩ := (fits_body 1 rfl rfl rfl).mp (fits rfl)
    obtain ⟨upperFits, bodyFits⟩ := fits_cons.mp others
    exact ⟨.range (value (careful_inside loose) (fun _ => valueFits) fun _ => condition_inside loose).1
      isTo (upper loose (fun _ => upperFits) fun _ => rfl).1 isColon
      (body loose (fun _ => bodyFits) within).1, .nil⟩
  | block _ body =>
    have bodyFits := ((fits_body 0 rfl rfl rfl).mp (fits rfl)).2
    exact ⟨.block (body loose (fun _ => bodyFits) within).1, .nil⟩
  | bodyEnd ends => exact ⟨.bodyEnd ends, .nil⟩
  | bodyNext goesOn _ _ first others =>
    obtain ⟨firstFits, othersFit⟩ := fits_cons.mp (fits rfl)
    exact ⟨.bodyNext goesOn (first loose (fun _ => firstFits) fun _ => rfl).1
      (others loose (fun _ => othersFit) within).1, .nil⟩
  | items _ _ first others =>
    obtain ⟨firstFits, othersFit⟩ := fits_cons.mp (fits rfl)
    exact ⟨.items (first (careful_inside loose) (fun _ => firstFits) fun _ => condition_inside loose).1
      (others loose (fun _ => othersFit) within).1, .nil⟩
  | noFurtherItems noComma => exact ⟨.noFurtherItems noComma, .nil⟩
  | furtherItems isComma _ items => exact ⟨.furtherItems isComma (items loose fits within).1, .nil⟩
  | expression noWord _ node => exact ⟨.expression noWord (node loose fits within).1, .nil⟩
  | negation isWord _ operand =>
    have operandFits := (fits_plain rfl rfl rfl).mp (fits rfl)
    exact ⟨.negation isWord (operand loose (fun _ => operandFits) within).1, .nil⟩
  | comparison noNot _ _ first further =>
    obtain ⟨further, firstFits⟩ := further loose fits within
    exact ⟨.comparison noNot (first loose (fun _ => firstFits) within).1 further, .nil⟩
  | noRelation noComparison noConnective => exact ⟨.noRelation noComparison noConnective, fits rfl⟩
  | compare isComparison _ _ right further =>
    obtain ⟨further, bothFit⟩ := further loose fits within
    obtain ⟨leftFits, rightFits⟩ := fits_cons.mp ((fits_plain rfl rfl rfl).mp bothFit)
    exact ⟨.compare isComparison (right loose (fun _ => rightFits) within).1 further, leftFits⟩
  | connect noComparison isConnective _ _ right further =>
    obtain ⟨further, bothFit⟩ := further loose fits within
    obtain ⟨leftFits, rightFits⟩ := fits_cons.mp ((fits_plain rfl rfl rfl).mp bothFit)
    exact ⟨.connect noComparison isConnective (right loose (fun _ => rightFits) within).1 further,
      leftFits⟩
  | @chain _ level _ _ _ _ _ _ _ first further =>
    obtain ⟨further, firstFits⟩ := further loose fits within
    exact ⟨.chain (first loose (fun _ => by rwa [level.exposed_operand]) within).1 further, .nil⟩
  | noOperator noOperator => exact ⟨.noOperator noOperator, fits rfl⟩
  | @operator _ level _ _ _ _ _ _ _ _ isOperator _ _ right further =>
    obtain ⟨further, bothFit⟩ := further loose fits within
    obtain ⟨leftFits, rightFits⟩ := fits_cons.mp ((fits_plain rfl rfl rfl).mp bothFit)
    exact ⟨.operator isOperator (right loose (fun _ => by rwa [level.exposed_operand]) within).1 further,
      leftFits⟩
  | signed isSign _ operand =>
    have operandFits := (fits_plain rfl rfl rfl).mp (fits rfl)
    exact ⟨.signed isSign (operand loose (fun _ => operandFits) within).1, .nil⟩
  | unsigned noSign _ noPower base => exact ⟨.unsigned noSign (base loose fits within).1 noPower, .nil⟩
  | power noSign _ isPower _ base exponent =>
    obtain ⟨baseFits, exponentFits⟩ := fits_cons.mp ((fits_plain rfl rfl rfl).mp (fits rfl))
    exact ⟨.power noSign (base loose (fun _ => baseFits) within).1 isPower
      (exponent loose (fun _ => exponentFits) within).1, .nil⟩
  | number isNumber => exact ⟨.number isNumber, .nil⟩
  | string isString => exact ⟨.string isString, .nil⟩
  | boolean isBoolean => exact ⟨.boolean isBoolean, .nil⟩
  | emptyList isOpen isClose => exact ⟨.emptyList isOpen isClose, .nil⟩
  | list isOpen goesOn _ isClose items =>
    have itemsFit := (fits_plain rfl rfl rfl).mp (fits rfl)
    exact ⟨.list isOpen goesOn (items loose (fun _ => itemsFit) within).1 isClose, .nil⟩
  | parentheses isOpen _ isClose inner =>
    exact ⟨.parentheses isOpen (inner (careful_inside loose) fits fun _ => condition_inside loose).1
      isClose, .nil⟩
  | access isName noCall noElement => exact ⟨.access isName noCall noElement, .nil⟩
  | emptyCall isName isOpen isClose => exact ⟨.emptyCall isName isOpen isClose, .nil⟩
  | call isName isOpen goesOn _ isClose arguments =>
    have argumentsFit := (fits_plain rfl rfl rfl).mp (fits rfl)
    exact ⟨.call isName isOpen goesOn (arguments loose (fun _ => argumentsFit) within).1 isClose, .nil⟩
  | element isName isOpen _ isClose indices =>
    have indicesFit := (fits_plain rfl rfl rfl).mp (fits rfl)
    exact ⟨.element isName isOpen (indices loose (fun _ => indicesFit) within).1 isClose, .nil⟩

theorem settled_program (nodes : List Node) : (Node.program nodes).Settled ↔ Fits false nodes := by
  have single (node : Node) : node.Settled ↔ Fits false [node] := by simp [Fits]
  match nodes with
  | [] => exact (single _).trans (fits_plain rfl rfl rfl)
  | [node] => exact single node
  | first :: second :: others =>
    exact (single _).trans ((fits_body 0 rfl rfl rfl).trans ⟨And.right, And.intro .nil⟩)

end Grammar

open Grammar

/-- The statements of a source text are what the grammar reads. None of their conditions assigns exactly
if the careful grammar reads the same statements: if in every condition, however nested, a name followed
by the sign of an assignment is compared. -/
theorem conditions_settled_iff {source : String} {tree : Node} (read : Eval.program source = .ok tree) :
    ∃ tokens nodes rest, Token.scan source = .ok tokens ∧ tree = Node.program nodes ∧
      Reads (.body (·.kind == .none)) ⟨false, false⟩ (skip tokens) nodes rest ∧
      (tree.Settled ↔ Reads (.body (·.kind == .none)) ⟨false, true⟩ (skip tokens) nodes rest) := by
  obtain ⟨tokens, nodes, rest, scanned, loose, rfl⟩ := Parse.program_iff.mp read
  refine ⟨tokens, nodes, rest, scanned, rfl, loose, ?_⟩
  rw [settled_program]
  exact ⟨fun fits => (careful_of_fits loose rfl (fun _ => fits) fun _ => rfl).1,
    fun careful => fits_of_careful careful rfl rfl .nil⟩

theorem comparing_condition_settled_iff :
    let source := "REPEAT x = x + [y] UNTIL NOT (x) = y"
    let name (text : String) := Node.named .access (some text) []
    let tree := Node.of .repeatUntil
      [Node.block [Node.named .assign (some "x")
        [Node.arithmetic .add (name "x") (Node.of .list [name "y"])]],
       Node.sign .not (Node.comparison .equal (name "x") (name "y"))]
    Eval.program source = .ok tree ∧
    ∃ tokens nodes rest, Token.scan source = .ok tokens ∧ tree = Node.program nodes ∧
      Reads (.body (·.kind == .none)) ⟨false, false⟩ (skip tokens) nodes rest ∧
      (tree.Settled ↔ Reads (.body (·.kind == .none)) ⟨false, true⟩ (skip tokens) nodes rest) := by
  intro source name tree
  have tokens : Token.scan "REPEAT x = x + [y] UNTIL NOT (x) = y" =
      .ok [.keyword "REPEAT", .identifier "x", .mark .assign, .identifier "x", .mark .plus,
        .mark .lbracket, .identifier "y", .mark .rbracket, .keyword "UNTIL", .keyword "NOT",
        .mark .lparen, .identifier "x", .mark .rparen, .mark .assign, .identifier "y"] := by
    rw [Token.scan_eq_within]
    rfl
  have read : Eval.program source = .ok tree := by
    rw [Eval.program, tokens]
    rfl
  exact ⟨read, conditions_settled_iff read⟩

/-- Parentheses turn the comparison of a condition into an assignment. -/
theorem parentheses_let_assignment_in :
    let yes := Node.block [Node.of .print [Node.named .access (some "x") []]]
    let condition := Node.named .assign (some "x") [Node.named .access (some "y") []]
    let tree := Node.of .ifThen [condition, yes]
    Eval.program "IF (x = y) THEN PRINT x ENDIF" = .ok tree ∧
      tree.condition? = some condition ∧ condition.Assigns ∧ ¬ tree.Settled := by
  intro yes condition tree
  have tokens : Token.scan "IF (x = y) THEN PRINT x ENDIF" =
      .ok [.keyword "IF", .mark .lparen, .identifier "x", .mark .assign, .identifier "y",
        .mark .rparen, .keyword "THEN", .keyword "PRINT", .identifier "x", .keyword "ENDIF"] := by
    rw [Token.scan_eq_within]
    rfl
  have read : Eval.program "IF (x = y) THEN PRINT x ENDIF" = .ok tree := by
    rw [Eval.program, tokens]
    rfl
  have assigns : condition.Assigns := .here rfl
  exact ⟨read, rfl, assigns, fun settled => settled tree (.refl tree) condition rfl assigns⟩

end Pseudocode
