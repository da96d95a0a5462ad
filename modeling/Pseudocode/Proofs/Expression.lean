import Pseudocode.Node
import Pseudocode.Token

/-!
Expressions as they are written. The grammar is

    comparison ::= NOT comparison | relation | relation (AND | OR) comparison
    relation   ::= sum | relation (== | != | < | > | <= | >=) sum
    sum        ::= term | sum (+ | -) term
    term       ::= factor | term (* | / | MOD | DIV) factor
    factor     ::= (+ | -) factor | power
    power      ::= atom | atom ^ factor
    atom       ::= number | string | TRUE | FALSE | name | name ( [items] ) | name [ items ]
                 | [ [items] ] | ( comparison )
    items      ::= comparison | comparison , items

and an expression is printed with parentheses around an operand that is of a looser form than its place
asks for. What is printed is written in this grammar, and is contained in whatever else is written in it
for the same expression.
-/

set_option autoImplicit false

namespace Pseudocode

namespace Expression

inductive Form where
  | items
  | comparison
  | relation
  | sum
  | term
  | factor
  | power
  | atom

namespace Form

def rank : Form → Nat
  | .items => 0
  | .comparison => 1
  | .relation => 2
  | .sum => 3
  | .term => 4
  | .factor => 5
  | .power => 6
  | .atom => 7

def tighter? : Form → Option Form
  | .items => some .comparison
  | .comparison => some .relation
  | .relation => some .sum
  | .sum => some .term
  | .term => some .factor
  | .factor => some .power
  | .power => some .atom
  | .atom => none

theorem rank_tighter {loose tight : Form} (next : loose.tighter? = some tight) :
    tight.rank = loose.rank + 1 := by
  cases loose <;> cases next <;> rfl

theorem rank_inj {form other : Form} (same : form.rank = other.rank) : form = other := by
  cases form <;> cases other <;> first | rfl | cases same

theorem rank_le_atom (form : Form) : form.rank ≤ atom.rank := by
  cases form <;> decide

theorem eq_atom_of_tighter {form : Form} (none : form.tighter? = none) : form = .atom := by
  cases form <;> first | rfl | cases none

def enclose (form own : Form) (ts : List Token) : List Token :=
  if form.rank ≤ own.rank then ts else .mark .lparen :: (ts ++ [.mark .rparen])

end Form

inductive Operator where
  | arithmetic (op : Arithmetic)
  | comparison (op : Comparison)
  | connective (op : Connective)

namespace Operator

def node : Operator → Node → Node → Node
  | .arithmetic op => Node.arithmetic op
  | .comparison op => Node.comparison op
  | .connective op => Node.connective op

def token : Operator → Token
  | .arithmetic .add => .mark .plus
  | .arithmetic .subtract => .mark .minus
  | .arithmetic .multiply => .mark .multiply
  | .arithmetic .divide => .mark .divide
  | .arithmetic .power => .mark .pow
  | .arithmetic .modulo => .keyword "MOD"
  | .arithmetic .wholeDivide => .keyword "DIV"
  | .comparison .equal => .mark .equal
  | .comparison .notEqual => .mark .notEqual
  | .comparison .less => .mark .less
  | .comparison .greater => .mark .greater
  | .comparison .lessEqual => .mark .lessEqual
  | .comparison .greaterEqual => .mark .greaterEqual
  | .connective .and => .keyword "AND"
  | .connective .or => .keyword "OR"

def forms : Operator → Form × Form × Form
  | .connective _ => (.comparison, .relation, .comparison)
  | .comparison _ => (.relation, .relation, .sum)
  | .arithmetic .add | .arithmetic .subtract => (.sum, .sum, .term)
  | .arithmetic .power => (.power, .atom, .factor)
  | .arithmetic _ => (.term, .term, .factor)

def form (op : Operator) : Form := op.forms.1

def left (op : Operator) : Form := op.forms.2.1

def right (op : Operator) : Form := op.forms.2.2

end Operator

def signToken : Sign → Token
  | .plus => .mark .plus
  | .minus => .mark .minus
  | .not => .keyword "NOT"

def signForm : Sign → Form
  | .not => .comparison
  | _ => .factor

def booleanWord (truth : Bool) : String := if truth then "TRUE" else "FALSE"

end Expression

open Expression in
inductive Expression where
  | number (value : Option Plain)
  | string (text : Option String)
  | boolean (truth : Bool)
  | access (name : Option String)
  | list (items : List Expression)
  | call (name : Option String) (arguments : List Expression)
  | element (name : Option String) (first : Expression) (others : List Expression)
  | sign (op : Sign) (operand : Expression)
  | join (op : Operator) (left right : Expression)

namespace Expression

def tree : Expression → Node
  | .number value => Node.number value
  | .string text => Node.named .string text []
  | .boolean truth => Node.named .boolean (some (booleanWord truth)) []
  | .access name => Node.named .access name []
  | .list items => Node.of .list (trees items)
  | .call name arguments => Node.named .call name (trees arguments)
  | .element name first others => Node.named .elementAccess name (tree first :: trees others)
  | .sign op operand => Node.sign op (tree operand)
  | .join op left right => op.node (tree left) (tree right)
where
  trees : List Expression → List Node
    | [] => []
    | e :: es => tree e :: trees es

def form : Expression → Form
  | .sign op _ => signForm op
  | .join op _ _ => op.form
  | _ => .atom

/-- The tokens with parentheses exactly around the operands that are too loose for their place. -/
def tokens : Expression → List Token
  | .number value => [{ kind := .number, value }]
  | .string text => [{ kind := .string, name := text }]
  | .boolean truth => [.keyword (booleanWord truth)]
  | .access name => [{ kind := .identifier, name }]
  | .list items => .mark .lbracket :: (row items ++ [.mark .rbracket])
  | .call name arguments =>
    { kind := .identifier, name } :: .mark .lparen :: (row arguments ++ [.mark .rparen])
  | .element name first others =>
    { kind := .identifier, name } :: .mark .lbracket ::
      (tokens first ++ further others ++ [.mark .rbracket])
  | .sign op operand => signToken op :: (signForm op).enclose operand.form (tokens operand)
  | .join op left right =>
    op.left.enclose left.form (tokens left) ++ op.token ::
      op.right.enclose right.form (tokens right)
where
  row : List Expression → List Token
    | [] => []
    | e :: es => tokens e ++ further es
  further : List Expression → List Token
    | [] => []
    | e :: es => .mark .comma :: (tokens e ++ further es)

/-- The tokens are written in the grammar above for the expressions: a row of them, or a single one. -/
inductive Writes : Form → List Expression → List Token → Prop
  | tighter {loose tight : Form} {e : Expression} {ts : List Token} :
    loose.tighter? = some tight → Writes tight [e] ts → Writes loose [e] ts
  | sign {op : Sign} {e : Expression} {ts : List Token} :
    Writes (signForm op) [e] ts → Writes (signForm op) [.sign op e] (signToken op :: ts)
  | join {op : Operator} {left right : Expression} {ts us : List Token} :
    Writes op.left [left] ts → Writes op.right [right] us →
    Writes op.form [.join op left right] (ts ++ op.token :: us)
  | number (value : Option Plain) : Writes .atom [.number value] [{ kind := .number, value }]
  | string (text : Option String) : Writes .atom [.string text] [{ kind := .string, name := text }]
  | boolean (truth : Bool) : Writes .atom [.boolean truth] [.keyword (booleanWord truth)]
  | access (name : Option String) : Writes .atom [.access name] [{ kind := .identifier, name }]
  | emptyList : Writes .atom [.list []] [.mark .lbracket, .mark .rbracket]
  | list {items : List Expression} {ts : List Token} : Writes .items items ts →
    Writes .atom [.list items] (.mark .lbracket :: (ts ++ [.mark .rbracket]))
  | emptyCall (name : Option String) :
    Writes .atom [.call name []] [{ kind := .identifier, name }, .mark .lparen, .mark .rparen]
  | call (name : Option String) {arguments : List Expression} {ts : List Token} :
    Writes .items arguments ts →
    Writes .atom [.call name arguments]
      ({ kind := .identifier, name } :: .mark .lparen :: (ts ++ [.mark .rparen]))
  | element (name : Option String) {first : Expression} {others : List Expression}
      {ts : List Token} : Writes .items (first :: others) ts →
    Writes .atom [.element name first others]
      ({ kind := .identifier, name } :: .mark .lbracket :: (ts ++ [.mark .rbracket]))
  | parentheses {e : Expression} {ts : List Token} : Writes .comparison [e] ts →
    Writes .atom [e] (.mark .lparen :: (ts ++ [.mark .rparen]))
  | items {e : Expression} {es : List Expression} {ts us : List Token} :
    Writes .comparison [e] ts → Writes .items es us →
    Writes .items (e :: es) (ts ++ .mark .comma :: us)

variable {form own : Form} {e : Expression} {es : List Expression} {ts : List Token}

theorem Writes.loosen (written : Writes own [e] ts) (loose : form.rank ≤ own.rank) :
    Writes form [e] ts := by
  -- One form at a time, from the tight one to the loose one.
  obtain ⟨n, steps⟩ : ∃ n, own.rank = form.rank + n := ⟨own.rank - form.rank, by omega⟩
  induction n generalizing form with
  | zero =>
    obtain rfl := Form.rank_inj steps
    exact written
  | succ n ih =>
    cases next : form.tighter? with
    | none =>
      obtain rfl := Form.eq_atom_of_tighter next
      have most := own.rank_le_atom
      omega
    | some tight =>
      have closer := Form.rank_tighter next
      exact .tighter next (ih (by omega) (by omega))

theorem comparison_le_form (e : Expression) : Form.comparison.rank ≤ e.form.rank := by
  cases e with
  | sign op => cases op <;> simp [form, signForm, Form.rank]
  | join op =>
    rcases op with op | op | op <;> cases op <;>
      simp [form, Operator.form, Operator.forms, Form.rank]
  | _ => simp [form, Form.rank]

theorem Writes.enclose (written : Writes e.form [e] ts) (form : Form) :
    Writes form [e] (form.enclose e.form ts) := by
  unfold Form.enclose
  split
  next loose => exact written.loosen loose
  next =>
    have inner : Writes .comparison [e] ts := written.loosen e.comparison_le_form
    exact (Writes.parentheses inner).loosen form.rank_le_atom

mutual

theorem writes_tokens : (e : Expression) → Writes e.form [e] e.tokens
  | .number value => .number value
  | .string text => .string text
  | .boolean truth => .boolean truth
  | .access name => .access name
  | .list [] => .emptyList
  | .list (e :: es) => .list (writes_further es ((writes_tokens e).loosen e.comparison_le_form))
  | .call name [] => .emptyCall name
  | .call name (e :: es) =>
    .call name (writes_further es ((writes_tokens e).loosen e.comparison_le_form))
  | .element name first others =>
    .element name (writes_further others ((writes_tokens first).loosen first.comparison_le_form))
  | .sign _ operand => .sign ((writes_tokens operand).enclose _)
  | .join _ left right => .join ((writes_tokens left).enclose _) ((writes_tokens right).enclose _)

theorem writes_further {e : Expression} {ts : List Token} : (es : List Expression) →
    Writes .comparison [e] ts → Writes .items (e :: es) (ts ++ tokens.further es)
  | [], first => by
    rw [tokens.further, List.append_nil]
    exact .tighter rfl first
  | next :: es, first =>
    .items first (writes_further es ((writes_tokens next).loosen next.comparison_le_form))

end

def printed (form : Form) : List Expression → List Token
  | [e] => form.enclose e.form e.tokens
  | es => tokens.row es

theorem enclose_sublist {tight : Form} (tighter : form.rank ≤ tight.rank) :
    (form.enclose own ts).Sublist (tight.enclose own ts) := by
  unfold Form.enclose
  by_cases fits : form.rank ≤ own.rank
  · rw [if_pos fits]
    split
    · exact .refl _
    · exact (List.sublist_append_left ts _).trans (List.sublist_cons_self _ _)
  · have looser : ¬ tight.rank ≤ own.rank := by omega
    simp [fits, looser]

theorem printed_comparison : printed .comparison [e] = e.tokens :=
  if_pos e.comparison_le_form

theorem printed_own (e : Expression) : printed e.form [e] = e.tokens :=
  if_pos (Nat.le_refl _)

theorem printed_items (es : List Expression) : printed .items es = tokens.row es := by
  match es with
  | [] => rfl
  | [e] => simp [printed, Form.enclose, Form.rank, tokens.row, tokens.further]
  | _ :: _ :: _ => rfl

theorem Writes.printed_sublist (written : Writes form es ts) : (printed form es).Sublist ts := by
  induction written with
  | @tighter loose tight e ts next _ ih =>
    have closer := Form.rank_tighter next
    exact (enclose_sublist (by omega)).trans ih
  | @sign op e ts _ ih =>
    rw [show signForm op = (Expression.sign op e).form from rfl, printed_own]
    exact ih.cons_cons _
  | @join op left right ts us _ _ leftIh rightIh =>
    rw [show op.form = (Expression.join op left right).form from rfl, printed_own]
    exact leftIh.append (rightIh.cons_cons _)
  | number value => exact .refl _
  | string text => exact .refl _
  | boolean truth => exact .refl _
  | access name => exact .refl _
  | emptyList => exact .refl _
  | @list items ts _ ih =>
    rw [printed_items] at ih
    exact (ih.append (.refl _)).cons_cons _
  | emptyCall name => exact .refl _
  | call name _ ih =>
    rw [printed_items] at ih
    exact ((ih.append (.refl _)).cons_cons _).cons_cons _
  | element name _ ih =>
    rw [printed_items] at ih
    exact ((ih.append (.refl _)).cons_cons _).cons_cons _
  | @parentheses e ts _ ih =>
    rw [printed_comparison] at ih
    change (Form.enclose .atom e.form e.tokens).Sublist _
    unfold Form.enclose
    split
    · exact (ih.trans (List.sublist_append_left ts _)).trans (List.sublist_cons_self _ _)
    · exact (ih.append (.refl _)).cons_cons _
  | @items e es ts us _ _ first others =>
    rw [printed_comparison] at first
    rw [printed_items] at others ⊢
    refine first.append ?_
    cases es with
    | nil => exact List.nil_sublist _
    | cons => exact others.cons_cons _

end Expression

end Pseudocode
