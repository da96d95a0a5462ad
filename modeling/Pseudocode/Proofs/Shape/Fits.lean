import Pseudocode.Proofs.Composition
import Pseudocode.Proofs.Lines.Append
import Pseudocode.Proofs.Parser.Complete
import Pseudocode.Proofs.Segment

set_option autoImplicit false

namespace Pseudocode

open Grammar

namespace Node

def Kind.owned : Kind → Bool
  | .parameters | .parameter | .caseItem | .caseOtherwise => true
  | _ => false

/-- Whether the children of a node of the kind are of kinds that may stand there. -/
def Kind.places : Kind → List Node → Bool
  | .define, first :: others => first.kind == .parameters && others.all (!·.kind.owned)
  | .parameters, children => children.all (·.kind == .parameter)
  | .case, children => children.all fun child => child.kind == .caseItem || child.kind == .caseOtherwise
  | .declare, children => children.all (·.kind == .string)
  | _, children => children.all (!·.kind.owned)

def Kind.ordinary : Kind → Bool
  | .define | .parameters | .case | .declare => false
  | _ => true

theorem Kind.places_of_ordinary {kind : Kind} (ordinary : kind.ordinary = true) (children : List Node) :
    kind.places children = children.all (!·.kind.owned) := by
  cases kind with
  | define | parameters | case | declare => cases ordinary
  | _ => rfl

def fits (node : Node) : Bool :=
  node.kind.allows node.children.length && node.kind.places node.children

def Fits (tree : Node) : Prop :=
  tree.Everywhere fun node => node.fits = true

variable {kind : Kind} {name : Option String} {node : Node} {nodes others : List Node} {kinds : Kind → Bool}

theorem fits_iff : node.Fits ↔ node.fits = true ∧ ∀ child ∈ node.children, child.Fits :=
  everywhere_iff

theorem Fits.allows (fits : node.Fits) : node.kind.allows node.children.length = true :=
  (Bool.and_eq_true_iff.mp (fits_iff.mp fits).1).1

theorem Fits.places (fits : node.Fits) : node.kind.places node.children = true :=
  (Bool.and_eq_true_iff.mp (fits_iff.mp fits).1).2

theorem Fits.child {child : Node} (fits : node.Fits) (member : child ∈ node.children) : child.Fits :=
  (fits_iff.mp fits).2 child member

theorem Fits.case_item {item : Node} (fits : node.Fits) (kind : node.kind = .case)
    (member : item ∈ node.children) (other : item.kind ≠ .caseOtherwise) : item.kind = .caseItem := by
  have items : ∀ item ∈ node.children, item.kind = .caseItem ∨ item.kind = .caseOtherwise := by
    simpa [kind, Kind.places] using fits.places
  exact (items item member).resolve_right other

def AllFit (kinds : Kind → Bool) (nodes : List Node) : Prop :=
  (∀ node ∈ nodes, kinds node.kind = true) ∧ ∀ node ∈ nodes, node.Fits

@[simp] theorem fits_named :
    (Node.named kind name nodes).Fits ↔
      kind.allows nodes.length = true ∧ kind.places nodes = true ∧ ∀ node ∈ nodes, node.Fits := by
  rw [fits_iff, fits, Bool.and_eq_true, and_assoc]
  rfl

@[simp] theorem fits_of :
    (Node.of kind nodes).Fits ↔
      kind.allows nodes.length = true ∧ kind.places nodes = true ∧ ∀ node ∈ nodes, node.Fits :=
  fits_named

@[simp] theorem fits_number (value : Option Plain) : (Node.number value).Fits :=
  fits_iff.mpr ⟨rfl, nofun⟩

theorem fits_leaf (leaf : (Node.named kind name []).fits = true) : (Node.named kind name []).Fits :=
  fits_iff.mpr ⟨leaf, nofun⟩

@[simp] theorem fits_null : Node.null.Fits :=
  fits_iff.mpr ⟨rfl, nofun⟩

namespace AllFit

theorem nil : AllFit kinds [] := ⟨nofun, nofun⟩

theorem append (first : AllFit kinds nodes) (second : AllFit kinds others) : AllFit kinds (nodes ++ others) :=
  ⟨List.forall_mem_append.mpr ⟨first.1, second.1⟩, List.forall_mem_append.mpr ⟨first.2, second.2⟩⟩

theorem cons (first : AllFit kinds [node]) (second : AllFit kinds nodes) : AllFit kinds (node :: nodes) :=
  append first second

theorem mono {more : Kind → Bool} (fit : AllFit kinds nodes)
    (imp : ∀ kind, kinds kind = true → more kind = true) : AllFit more nodes :=
  ⟨fun node member => imp _ (fit.1 node member), fit.2⟩

theorem single (isKind : kinds node.kind = true) (fits : node.Fits) : AllFit kinds [node] :=
  ⟨List.forall_mem_singleton.mpr isKind, List.forall_mem_singleton.mpr fits⟩

theorem above (isKind : kinds kind = true) (count : kind.allows nodes.length = true)
    (places : kind.places nodes = true) (below : ∀ node ∈ nodes, node.Fits) :
    AllFit kinds [Node.named kind name nodes] :=
  single isKind (fits_named.mpr ⟨count, places, below⟩)

-- A node of an ordinary kind, over nodes none of which belongs in one place only.
theorem named (made : (kind.ordinary && kinds kind && kind.allows nodes.length) = true)
    (below : AllFit (!·.owned) nodes) : AllFit kinds [Node.named kind name nodes] := by
  obtain ⟨⟨ordinary, isKind⟩, count⟩ : (kind.ordinary = true ∧ kinds kind = true) ∧ _ := by
    simpa only [Bool.and_eq_true] using made
  refine above isKind count ?_ below.2
  rw [Kind.places_of_ordinary ordinary, List.all_eq_true]
  exact below.1

theorem of (made : (kind.ordinary && kinds kind && kind.allows nodes.length) = true)
    (below : AllFit (!·.owned) nodes) : AllFit kinds [Node.of kind nodes] :=
  named made below

end AllFit

end Node

open Node

def Grammar.Part.makes : Part → Node.Kind → Bool
  | .parameters | .furtherParameters => (· == .parameter)
  | .cases _ _ => fun kind => kind == .caseItem || kind == .caseOtherwise
  | .item => (· == .caseItem)
  | _ => (!·.owned)

def Clean (ts : List Token) : Prop :=
  ∀ t ∈ ts, t.isKeyword "read" = false

namespace Clean

variable {ts rest : List Token}

theorem of_suffix (clean : Clean ts) (suffix : rest <:+ ts) : Clean rest :=
  fun t member => clean t (suffix.subset member)

theorem skip (clean : Clean ts) : Clean (skip ts) :=
  clean.of_suffix (List.dropWhile_suffix _)

theorem tail (clean : Clean ts) : Clean ts.tail :=
  clean.of_suffix (List.tail_suffix ts)

theorem after {part : Part} {p : Mode} {nodes : List Node} (clean : Clean ts)
    (read : Reads part p ts nodes rest) : Clean rest :=
  clean.of_suffix read.takes.suffix

end Clean

theorem fits_define {name : Option String} {names : List Node} {body result : Node}
    (namesFit : AllFit (· == .parameter) names) (bodyFits : AllFit (!·.owned) [body])
    (resultFits : AllFit (!·.owned) [result]) :
    (Node.named .define name [Node.of .parameters names, body, result]).Fits := by
  have head : (Node.of .parameters names).Fits :=
    fits_of.mpr ⟨rfl, List.all_eq_true.mpr namesFit.1, namesFit.2⟩
  obtain ⟨plain, fit⟩ := bodyFits.cons resultFits
  refine fits_named.mpr ⟨rfl, ?_, List.forall_mem_cons.mpr ⟨head, fit⟩⟩
  exact List.all_eq_true.mpr plain

theorem allFit_of_reads {part : Part} {p : Mode} {ts rest : List Token} {nodes : List Node}
    (read : Reads part p ts nodes rest) (clean : Clean ts) (given : AllFit part.makes part.given) :
    AllFit part.makes nodes := by
  -- Rule by rule: the children of a node that a rule makes are of the kinds that its parts make.
  induction read with
  | assign _ _ _ _ value => exact .named rfl (value clean.tail.tail .nil)
  | elementAssign _ _ _ _ indicesRead _ _ indices value =>
    have valueClean := (clean.tail.tail.after indicesRead).tail.tail
    have some := List.length_pos_iff.mpr indicesRead.items_ne_nil
    refine .named ?_ ((indices clean.tail.tail .nil).append (value valueClean .nil))
    rw [List.length_append]
    exact decide_eq_true (Nat.add_le_add_right some 1)
  | plain _ _ node => exact node clean .nil
  | ifThen _ testRead _ _ _ test yes =>
    have afterTest := (clean.tail.after testRead).tail
    exact .of rfl (.cons (test clean.tail .nil) (yes afterTest .nil))
  | ifElse _ testRead _ yesRead _ _ _ test yes no =>
    have afterTest := (clean.tail.after testRead).tail
    have afterYes := (afterTest.after yesRead).tail
    exact .of rfl
      (.cons (test clean.tail .nil) (.cons (yes afterTest .nil) (no afterYes .nil)))
  | forLoop _ _ _ startRead _ finalRead stepRead _ _ _ _ start final step body =>
    have afterStart := (clean.tail.tail.tail.after startRead).tail
    have afterFinal := afterStart.after finalRead
    have afterStep := afterFinal.after stepRead
    exact .named rfl (.cons (start clean.tail.tail.tail .nil)
      (.cons (final afterStart .nil) (.cons (step afterFinal .nil) (body afterStep .nil))))
  | step _ _ value => exact value clean.tail .nil
  | noStep => exact .single rfl (fits_number _)
  | whileLoop _ testRead _ _ _ test body =>
    have afterTest := (clean.tail.after testRead).tail
    exact .of rfl (.cons (test clean.tail .nil) (body afterTest .nil))
  | repeatUntil _ bodyRead _ _ body test =>
    have afterBody := (clean.tail.after bodyRead).tail
    exact .of rfl (.cons (body clean.tail .nil) (test afterBody .nil))
  | define _ _ _ namesRead _ headRead bodyRead _ _ names _ body result =>
    have afterHead := (clean.tail.tail.tail.after namesRead).tail.after headRead
    have afterBody := afterHead.after bodyRead
    exact .single rfl
      (fits_define (names clean.tail.tail.tail .nil) (body afterHead .nil) (result afterBody .nil))
  | noParameters => exact .nil
  | parameters _ _ names => exact .cons (.named rfl .nil) (names clean.tail .nil)
  | noFurtherParameters => exact .nil
  | furtherParameters _ _ _ names =>
    exact .cons (.named rfl .nil) (names clean.tail.tail .nil)
  | functionHead => exact .nil
  | returnsHead => exact .nil
  | returnsTypeHead => exact .nil
  | procedureHead => exact .nil
  | doHead => exact .nil
  | result _ _ _ value => exact value clean.tail .nil
  | noResult => exact .single rfl fits_null
  | printLine => exact .of rfl .nil
  | print _ _ _ arguments => exact .of rfl (arguments clean.tail .nil)
  | input => exact .named rfl .nil
  | read isWord =>
    -- No token is this word.
    rw [clean _ List.mem_cons_self] at isWord
    cases isWord
  | includeFile => exact .named rfl .nil
  | returnValue _ _ value => exact .of rfl (value clean.tail .nil)
  | declare => exact .above rfl rfl rfl (List.forall_mem_singleton.mpr (fits_leaf rfl))
  | declareArray => exact .above rfl rfl rfl (List.forall_mem_singleton.mpr (fits_leaf rfl))
  | dimensions lowRead _ highRead _ low high bounds =>
    have afterLow := (clean.after lowRead).tail
    exact .cons (low clean .nil) (.cons (high afterLow .nil) (bounds (afterLow.after highRead) .nil))
  | noFurtherDimensions => exact .nil
  | furtherDimensions _ _ bounds => exact bounds clean.tail .nil
  | @case _ more _ _ _ _ _ _ _ _ _ _ items =>
    obtain ⟨kinds, fit⟩ := items clean.tail.tail.tail (by cases more <;> exact .nil)
    exact .above rfl rfl (List.all_eq_true.mpr kinds) fit
  | endCase => exact given
  | @otherwise _ _ more _ _ _ _ _ _ _ _ _ bodyRead _ body items =>
    have bodyFits := body clean.tail.tail .nil
    have afterBody := clean.tail.tail.after bodyRead
    cases more with
    | true => exact items afterBody .nil
    | false => exact items afterBody (.of rfl bodyFits)
  | caseItem _ itemRead _ item items =>
    refine .cons ((item clean .nil).mono fun kind isItem => ?_) (items (clean.after itemRead) given)
    exact Bool.or_eq_true_iff.mpr (.inl isItem)
  | single valueRead _ _ value body =>
    have afterValue := (clean.after valueRead).tail
    exact .of rfl (.cons (value clean .nil) (body afterValue .nil))
  | range valueRead _ upperRead _ _ value upper body =>
    have afterValue := (clean.after valueRead).tail
    have afterUpper := (afterValue.after upperRead).tail
    exact .of rfl
      (.cons (value clean .nil) (.cons (upper afterValue .nil) (body afterUpper .nil)))
  | block _ body => exact .of rfl (body clean.skip .nil)
  | bodyEnd => exact .nil
  | bodyNext _ firstRead _ first others =>
    exact .cons (first clean .nil) (others (clean.after firstRead).skip .nil)
  | items firstRead _ first others => exact .cons (first clean .nil) (others (clean.after firstRead) .nil)
  | noFurtherItems => exact .nil
  | furtherItems _ _ items => exact items clean.tail .nil
  | expression _ _ node => exact node clean .nil
  | negation _ _ operand => exact .of rfl (operand clean.tail .nil)
  | comparison _ firstRead _ first further => exact further (clean.after firstRead) (first clean .nil)
  | noRelation => exact given
  | compare _ rightRead _ right further =>
    have right := right clean.tail .nil
    exact further (clean.tail.after rightRead) (.of rfl (.cons given right))
  | connect _ _ rightRead _ right further =>
    have right := right clean.tail .nil
    exact further (clean.tail.after rightRead) (.of rfl (.cons given right))
  | @chain _ level _ _ _ _ _ firstRead _ first further =>
    refine further (clean.after firstRead) ?_
    cases level <;> exact first clean .nil
  | noOperator => exact given
  | @operator _ level _ _ _ _ _ _ _ _ _ rightRead _ right further =>
    refine further (clean.tail.after rightRead) (.of rfl (.cons given ?_))
    cases level <;> exact right clean.tail .nil
  | signed _ _ operand => exact .of rfl (operand clean.tail .nil)
  | unsigned _ _ _ base => exact base clean .nil
  | power _ baseRead _ _ base exponent =>
    have afterBase := (clean.after baseRead).tail
    exact .of rfl (.cons (base clean .nil) (exponent afterBase .nil))
  | number => exact .single rfl (fits_number _)
  | string => exact .named rfl .nil
  | boolean => exact .named rfl .nil
  | emptyList => exact .of rfl .nil
  | list _ _ _ _ items => exact .of rfl (items clean.tail .nil)
  | parentheses _ _ _ inner => exact inner clean.tail .nil
  | access => exact .named rfl .nil
  | emptyCall => exact .named rfl .nil
  | call _ _ _ _ _ arguments => exact .named rfl (arguments clean.tail.tail .nil)
  | element _ _ indicesRead _ indices =>
    have some := List.length_pos_iff.mpr indicesRead.items_ne_nil
    exact .named (decide_eq_true some) (indices clean.tail.tail .nil)

theorem clean_of_scan {source : String} {tokens : List Token} (read : Token.scan source = .ok tokens) :
    Clean tokens := by
  intro token member
  cases held : token.isKeyword "read" with
  | false => rfl
  | true =>
    obtain ⟨isKeyword, isRead⟩ : token.kind = .keyword ∧ token.name = some "read" := by
      simpa [Token.isKeyword] using held
    obtain ⟨word, known, isWord⟩ := (Token.scanChars_made read token member).keyword isKeyword
    obtain rfl : "read" = word := Option.some.inj (isRead.symm.trans isWord)
    exact absurd known (by decide)

theorem fits_of_program {source : String} {tree : Node} (read : Eval.program source = .ok tree) :
    tree.kind.owned = false ∧ tree.Fits := by
  obtain ⟨tokens, nodes, rest, scanned, reads, rfl⟩ := Parse.program_iff.mp read
  obtain ⟨kinds, fit⟩ := allFit_of_reads reads (clean_of_scan scanned).skip .nil
  have kinds : ∀ node ∈ nodes, node.kind.owned = false := by simpa [Part.makes] using kinds
  -- One statement is the tree itself.
  match nodes with
  | [] => exact ⟨rfl, fits_null⟩
  | [statement] => exact ⟨kinds statement (by simp), fit statement (by simp)⟩
  | first :: second :: others =>
    refine ⟨rfl, fits_of.mpr ⟨rfl, ?_, fit⟩⟩
    simpa [Kind.places] using kinds

end Pseudocode
