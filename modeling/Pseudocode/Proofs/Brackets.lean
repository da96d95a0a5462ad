import Pseudocode.Proofs.Parser.Basic

set_option autoImplicit false

namespace Pseudocode

namespace Grammar

open Parse Mode

variable {ts after rest : List Token} {t : Token}

def Balanced (used : List Token) : Prop :=
  ∀ depth rest, afterClosing (depth + 1) (used ++ rest) = afterClosing (depth + 1) rest

def isBracket (t : Token) : Bool :=
  t.kind == .lbracket || t.kind == .rbracket

theorem afterClosing_token (other : isBracket t = false) (depth : Nat) :
    afterClosing (depth + 1) (t :: ts) = afterClosing (depth + 1) ts := by
  simp only [isBracket, Bool.or_eq_false_iff, beq_eq_false_iff_ne] at other
  rw [afterClosing]
  split
  · exact absurd ‹_› other.1
  · exact absurd ‹_› other.2
  · rfl

theorem afterClosing_open (isOpen : t.kind = .lbracket) (depth : Nat) :
    afterClosing (depth + 1) (t :: ts) = afterClosing (depth + 2) ts := by
  rw [afterClosing, isOpen]

theorem afterClosing_close (isClose : t.kind = .rbracket) (depth : Nat) :
    afterClosing (depth + 1) (t :: ts) = afterClosing depth ts := by
  rw [afterClosing, isClose]

def isPlain (t : Token) : Bool :=
  !isBracket t && t.kind != .none

theorem not_isBracket_of_isPlain (plain : isPlain t = true) : isBracket t = false := by
  simpa using (Bool.and_eq_true_iff.mp plain).1

theorem solid_of_isPlain (plain : isPlain t = true) : t.kind ≠ .none := by
  simpa using (Bool.and_eq_true_iff.mp plain).2

theorem isPlain_of_isSeparator (isSeparator : t.isSeparator = true) : isPlain t = true := by
  cases here : t.kind <;> simp_all [isPlain, isBracket, Token.isSeparator]

-- The tokens begin with some that are in balance, and none of these is a stop.
def Takes (ts rest : List Token) : Prop :=
  ∃ used, ts = used ++ rest ∧ Balanced used ∧ ∀ t ∈ used, t.kind ≠ .none

namespace Takes

theorem refl (ts : List Token) : Takes ts ts := ⟨[], rfl, fun _ _ => rfl, nofun⟩

theorem trans (first : Takes ts after) (second : Takes after rest) : Takes ts rest := by
  obtain ⟨used, rfl, balanced, solid⟩ := first
  obtain ⟨later, rfl, balancedLater, solidLater⟩ := second
  refine ⟨used ++ later, by simp, fun depth rest => ?_, List.forall_mem_append.mpr ⟨solid, solidLater⟩⟩
  rw [List.append_assoc, balanced, balancedLater]

theorem token (plain : isPlain t = true) (taken : Takes ts rest) : Takes (t :: ts) rest := by
  obtain ⟨used, rfl, balanced, solid⟩ := taken
  refine ⟨t :: used, rfl, fun depth rest => ?_, List.forall_mem_cons.mpr ⟨solid_of_isPlain plain, solid⟩⟩
  rw [List.cons_append, afterClosing_token (not_isBracket_of_isPlain plain), balanced]

theorem kind {kind : Token.Kind} (isKind : t.kind = kind) (plain : isPlain (.mark kind) = true)
    (taken : Takes ts rest) : Takes (t :: ts) rest :=
  token (by simpa only [isPlain, isBracket, Token.mark, isKind] using plain) taken

theorem word {name : String} (isWord : t.isKeyword name) (taken : Takes ts rest) :
    Takes (t :: ts) rest :=
  kind (kind_of_isKeyword isWord) rfl taken

theorem brackets {opening close : Token} (isOpen : opening.kind = .lbracket)
    (taken : Takes ts (close :: rest)) (isClose : close.kind = .rbracket) :
    Takes (opening :: ts) rest := by
  obtain ⟨used, rfl, balanced, solid⟩ := taken
  refine ⟨opening :: used ++ [close], by simp, fun depth rest => ?_, ?_⟩
  · simp only [List.cons_append, List.append_assoc, List.nil_append]
    rw [afterClosing_open isOpen, balanced, afterClosing_close isClose]
  · rw [List.cons_append, List.forall_mem_cons, List.forall_mem_append, List.forall_mem_singleton]
    exact ⟨by simp [isOpen], solid, by simp [isClose]⟩

theorem skip (taken : Takes ts after) : Takes ts (skip after) := by
  have separators (ts : List Token) : Takes ts (Grammar.skip ts) := by
    induction ts with
    | nil => exact refl _
    | cons t ts ih =>
      rw [Grammar.skip, List.dropWhile_cons]
      split
      · next isSeparator =>
        exact token (isPlain_of_isSeparator isSeparator) ih
      · exact refl _
  exact taken.trans (separators after)

theorem suffix (taken : Takes ts rest) : rest <:+ ts := by
  obtain ⟨used, rfl, _⟩ := taken
  exact List.suffix_append used rest

theorem afterClosing_one {close : Token} (taken : Takes ts (close :: rest))
    (isClose : close.kind = .rbracket) : afterClosing 1 ts = rest := by
  obtain ⟨used, rfl, balanced, _⟩ := taken
  rw [balanced, afterClosing_close isClose, afterClosing]

end Takes

section Signs

theorem isPlain_of_kind {kind : Token.Kind} (isKind : t.kind = kind)
    (plain : isPlain (.mark kind) = true) : isPlain t = true := by
  simpa only [isPlain, isBracket, Token.mark, isKind] using plain

theorem isPlain_of_any (words : List String) (isWord : words.any t.isKeyword) :
    isPlain t = true := by
  obtain ⟨word, _, isWord⟩ := List.any_eq_true.mp isWord
  exact isPlain_of_kind (kind_of_isKeyword isWord) rfl

theorem isPlain_of_comparison {op : Comparison} (isComparison : comparisonOf? t = some op) :
    isPlain t = true := by
  cases here : t.kind <;> simp_all [comparisonOf?, isPlain, isBracket]

theorem isPlain_of_connective {op : Connective} (isConnective : connectiveOf? t = some op) :
    isPlain t = true := by
  cases here : t.kind <;> simp_all [connectiveOf?, Token.isKeyword, isPlain, isBracket]

theorem isPlain_of_operator {level : Level} {op : Arithmetic} (isOperator : level.operator? t = some op) :
    isPlain t = true := by
  cases level <;> cases here : t.kind <;>
    simp_all [Level.operator?, additiveOf?, multiplicativeOf?, Token.isKeyword, isPlain, isBracket]

theorem isPlain_of_sign {op : Sign} (isSign : signOf? t = some op) : isPlain t = true := by
  cases here : t.kind <;> simp_all [signOf?, isPlain, isBracket]

end Signs

variable {part : Part} {p : Mode} {nodes : List Node}

theorem Reads.takes (read : Reads part p ts nodes rest) : Takes ts rest := by
  induction read with
  | assign _ isName isAssign _ value => exact (value.kind isAssign rfl).kind isName rfl
  | @elementAssign _ _ _ _ ts more _ _ _ _ isName isOpen ahead _ isClose _ indices value =>
    -- The token that is passed over is the sign that the look ahead has seen.
    rw [assignsElement, indices.afterClosing_one isClose] at ahead
    cases more with
    | nil => exact absurd ahead (by decide)
    | cons sign more =>
      have isSign : sign.kind = .assign := by simpa using ahead
      exact ((Takes.brackets isOpen indices isClose).trans (value.kind isSign rfl)).kind isName rfl
  | plain _ _ taken => exact taken
  | ifThen isWord _ isThen _ isClose test yes =>
    exact (test.trans ((yes.trans (.word isClose (.refl _))).word isThen)).word isWord
  | ifElse isWord _ isThen _ isElse _ isClose test yes no =>
    have closing := no.trans (.word isClose (.refl _))
    exact (test.trans ((yes.trans (closing.word isElse)).word isThen)).word isWord
  | forLoop isWord isName isSign _ isTo _ _ _ isNext closes _ start final step body =>
    have closing := body.trans (.word isNext (.kind closes rfl (.refl _)))
    have bounds := start.trans ((final.trans (step.trans closing)).word isTo)
    exact ((bounds.kind isSign rfl).kind isName rfl).word isWord
  | step isWord _ value => exact value.word isWord
  | noStep => exact .refl _
  | whileLoop isWord _ isDo _ isClose test body =>
    exact (test.trans ((body.trans (.word isClose (.refl _))).word isDo)).word isWord
  | repeatUntil isWord _ isUntil _ body test => exact (body.trans (test.word isUntil)).word isWord
  | define isWord isName isOpen _ isClose _ _ _ isEnd names head body result =>
    have closing := body.trans (result.trans (.word isEnd (.refl _)))
    have inner := names.trans ((head.trans closing).kind isClose rfl)
    exact .token (isPlain_of_any _ isWord) ((inner.kind isOpen rfl).kind isName rfl)
  | noParameters => exact .refl _
  | parameters isName _ names => exact names.kind isName rfl
  | noFurtherParameters => exact .refl _
  | furtherParameters isComma isName _ names => exact (names.kind isName rfl).kind isComma rfl
  | functionHead => exact .refl _
  | returnsHead isReturns => exact .word isReturns (.refl _)
  | returnsTypeHead isReturns isType => exact .word isReturns (.kind isType rfl (.refl _))
  | procedureHead => exact .refl _
  | doHead _ _ isDo => exact .word isDo (.refl _)
  | result isWord _ _ value => exact (value.word isWord).skip
  | noResult => exact .refl _
  | printLine isWord => exact .word isWord (.refl _)
  | print isWord _ _ arguments => exact arguments.word isWord
  | input isWord isName => exact .word isWord (.kind isName rfl (.refl _))
  | read isWord _ arguments => exact arguments.word isWord
  | includeFile isWord isName => exact .word isWord (.kind isName rfl (.refl _))
  | returnValue isWord _ value => exact value.word isWord
  | declare isWord isName isColon isType =>
    exact .word isWord (.kind isName rfl (.kind isColon rfl (.kind isType rfl (.refl _))))
  | declareArray isWord isName isColon isArray isOpen _ isClose isOf isType bounds =>
    have closing := (Takes.brackets isOpen bounds isClose).trans (.word isOf (.kind isType rfl (.refl _)))
    exact (((closing.word isArray).kind isColon rfl).kind isName rfl).word isWord
  | dimensions _ isColon _ _ low high bounds => exact low.trans ((high.trans bounds).kind isColon rfl)
  | noFurtherDimensions => exact .refl _
  | furtherDimensions isComma _ bounds => exact bounds.kind isComma rfl
  | case isWord isOf isName _ items => exact ((items.kind isName rfl).word isOf).word isWord
  | endCase isWord => exact .word isWord (.refl _)
  | otherwise isWord isColon _ _ body items => exact ((body.trans items).kind isColon rfl).word isWord
  | caseItem _ _ _ item items => exact item.trans items
  | single _ isColon _ value body => exact value.trans (body.kind isColon rfl)
  | range _ isTo _ isColon _ value upper body =>
    exact value.trans ((upper.trans (body.kind isColon rfl)).word isTo)
  | @block _ _ ts _ _ _ body => exact (Takes.refl ts).skip.trans body
  | bodyEnd => exact .refl _
  | bodyNext _ _ _ first others => exact first.skip.trans others
  | items _ _ first others => exact first.trans others
  | noFurtherItems => exact .refl _
  | furtherItems isComma _ items => exact items.kind isComma rfl
  | expression _ _ taken => exact taken
  | negation isWord _ operand => exact operand.word isWord
  | comparison _ _ _ first further => exact first.trans further
  | noRelation => exact .refl _
  | compare isComparison _ _ right further =>
    exact .token (isPlain_of_comparison isComparison) (right.trans further)
  | connect _ isConnective _ _ right further =>
    exact .token (isPlain_of_connective isConnective) (right.trans further)
  | chain _ _ first further => exact first.trans further
  | noOperator => exact .refl _
  | operator isOperator _ _ right further =>
    exact .token (isPlain_of_operator isOperator) (right.trans further)
  | signed isSign _ operand => exact .token (isPlain_of_sign isSign) operand
  | unsigned _ _ _ base => exact base
  | power _ _ isPower _ base exponent => exact base.trans (exponent.kind isPower rfl)
  | number isNumber => exact .kind isNumber rfl (.refl _)
  | string isString => exact .kind isString rfl (.refl _)
  | boolean isBoolean =>
    exact .token (isPlain_of_any ["TRUE", "FALSE"] (by simpa using isBoolean)) (.refl _)
  | emptyList isOpen isClose => exact .brackets isOpen (.refl _) isClose
  | list isOpen _ _ isClose items => exact .brackets isOpen items isClose
  | parentheses isOpen _ isClose inner =>
    exact (inner.trans (.kind isClose rfl (.refl _))).kind isOpen rfl
  | access isName => exact .kind isName rfl (.refl _)
  | emptyCall isName isOpen isClose =>
    exact .kind isName rfl (.kind isOpen rfl (.kind isClose rfl (.refl _)))
  | call isName isOpen _ _ isClose arguments =>
    exact ((arguments.trans (.kind isClose rfl (.refl _))).kind isOpen rfl).kind isName rfl
  | element isName isOpen _ isClose indices =>
    exact (Takes.brackets isOpen indices isClose).kind isName rfl

end Grammar

end Pseudocode
