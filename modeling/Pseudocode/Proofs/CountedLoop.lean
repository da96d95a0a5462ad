import Pseudocode.Proofs.Element.Reach
import Pseudocode.Proofs.Sequence

set_option autoImplicit false

namespace Pseudocode

namespace Ending

/-- The same machine and the same fault, if any, and the same value if one has been returned: the values of
two loops may differ. -/
structure SameEffect (e e' : Ending) : Prop where
  machine : e.machine = e'.machine
  fault (cause : Fault) : e.result = .error cause ↔ e'.result = .error cause
  value : e.machine.returned ≠ none → e.result = e'.result

structure SameEffects (R R' : Ending → Prop) : Prop where
  left {e : Ending} : R e → ∃ e', R' e' ∧ e.SameEffect e'
  right {e' : Ending} : R' e' → ∃ e, R e ∧ e.SameEffect e'

theorem SameEffect.refl (e : Ending) : e.SameEffect e :=
  ⟨rfl, fun _ => Iff.rfl, fun _ => rfl⟩

theorem sameEffects_of_rel {found found' : Option Ending} (alike : Option.Rel SameEffect found found') :
    SameEffects (found = some ·) (found' = some ·) := by
  cases alike with
  | none => exact ⟨nofun, nofun⟩
  | some effect =>
    constructor
    · rintro _ ⟨⟩
      exact ⟨_, rfl, effect⟩
    · rintro _ ⟨⟩
      exact ⟨_, rfl, effect⟩

end Ending

def Machine.Counts (m : Machine) (name : Option String) (x : Float) : Prop :=
  ∃ v, m.scopes.find? name = some v ∧ v.toNumber = .ok x

namespace Node

def within (name : Option String) (increment final : Float) : Node :=
  comparison (if increment ≥ 0.0 then .lessEqual else .greaterEqual) (named .access name [])
    (number (some (.number final)))

def stepOn (name : Option String) (increment : Float) : Node :=
  named .assign name [arithmetic .add (named .access name []) (number (some (.number increment)))]

end Node

namespace Eval

open Exec Ending

variable {around : Surroundings} {rec : Node → Exec Value} {name : Option String} {m after : Machine}
  {v : Value} {x y z : Float} {n k : Nat}

section Parts

theorem eval_access (n : Nat) (found : m.scopes.find? name = some v) :
    eval around (n + 1) (Node.named .access name []) m = .ok (v, m) := by
  show lookup .variable name m = _
  rw [lookup, found]

theorem child_bind {α : Type} {node part : Node} {position : Nat} {f : Node → Exec α}
    (here : node.children[position]? = some part) : (child node position >>= f) m = f part m := by
  rw [child, here]
  rfl

theorem operands_ok {kind : Node.Kind} {left right : Node} {w : Value} (first : rec left m = .ok (v, m))
    (second : rec right m = .ok (w, m)) : operands rec (Node.of kind [left, right]) m = .ok ((v, w), m) := by
  change (rec left >>= fun v => rec right >>= fun w => pure (v, w)) m = _
  rw [bind_of_ok first, bind_of_ok second]
  rfl

theorem comparison_number {op : Comparison} {s : Store} (number : v.toNumber = .ok x) :
    Operator.comparison op s v (.number y) = .ok (.ofBool (Operator.compareNumbers op x y), s) := by
  cases v with
  | number _ | truth _ _ => cases number; rfl
  | empty | text _ | list _ | function _ | plain _ => cases number

theorem add_number {s : Store} (number : v.toNumber = .ok x) :
    Operator.arithmetic .add s v (.number z) = .ok (.number (x + z), s) := by
  cases v with
  | number _ | truth _ _ => cases number; rfl
  | empty | text _ | list _ | function _ | plain _ => cases number

theorem compareNumbers_within :
    Operator.compareNumbers (if z ≥ 0.0 then .lessEqual else .greaterEqual) x y = continues z x y := by
  unfold continues
  split <;> rfl

theorem eval_within (n : Nat) (counts : m.Counts name x) :
    eval around (n + 2) (Node.within name z y) m = .ok (.ofBool (continues z x y), m) := by
  obtain ⟨v, found, number⟩ := counts
  have ran : operands (eval around (n + 1)) (Node.within name z y) m = .ok ((v, .number y), m) :=
    operands_ok (eval_access n found) rfl
  refine (bind_of_ok ran).trans ?_
  simp only [onStore, comparison_number number, compareNumbers_within, Outcome.ofExcept]

theorem eval_stepOn (n : Nat) (counts : m.Counts name x) :
    eval around (n + 3) (Node.stepOn name z) m =
      .ok (.number (x + z), { m with scopes := m.scopes.set name (.number (x + z)) }) := by
  obtain ⟨v, found, number⟩ := counts
  let sum : Node := .arithmetic .add (.named .access name []) (.number (some (.number z)))
  have ran : operands (eval around (n + 1)) sum m = .ok ((v, .number z), m) :=
    operands_ok (eval_access n found) rfl
  have added : eval around (n + 2) sum m = .ok (.number (x + z), m) := by
    refine (bind_of_ok ran).trans ?_
    simp only [onStore, add_number number]
  exact bind_of_ok added

theorem ofExcept_ok {α : Type} {found : Except Fault α} {value : α} (ok : found = .ok value) :
    Exec.ofExcept found m = .ok (value, m) := by
  simp only [Exec.ofExcept, ok]

theorem counter_ok (counts : m.Counts name x) : counter name m = .ok (x, m) := by
  obtain ⟨v, found, number⟩ := counts
  have looked : lookup .variable name m = .ok (v, m) := by rw [lookup, found]
  rw [counter, bind_of_ok looked, ofExcept_ok number]

theorem holds_ofBool (cause : Fault) (b : Bool) : holds cause (.ofBool b) m = .ok (b, m) := by
  cases b <;> rfl

theorem read_returned {found : Option Value} (returned : m.returned = found) :
    Exec.read (·.returned) m = .ok (found, m) := by
  simp only [Exec.read, returned]

end Parts

section Rounds

variable {body round : Node} {high last last' : Value} {a b c : Nat}

def RoundRuns (around : Surroundings) (name : Option String) (z : Float) (body round : Node) (a b c : Nat)
    (m : Machine) : Prop :=
  eval around b round m = (eval around a body >>= goOn (eval around c) [Node.stepOn name z]) m

theorem goOn_stepOn (clear : m.returned = none) (counts : m.Counts name x) :
    goOn (eval around (n + 3)) [Node.stepOn name z] v m =
      .ok (.number (x + z), { m with scopes := m.scopes.set name (.number (x + z)) }) := by
  let stepped : Machine := { m with scopes := m.scopes.set name (.number (x + z)) }
  have clearAfter : stepped.returned = none := clear
  rw [goOn, bind_of_ok (read_returned clear)]
  exact (bind_of_ok (eval_stepOn n counts)).trans (bind_of_ok (read_returned clearAfter))

theorem rounds_sameEffect (bound : high.toNumber = .ok y)
    (keeps : ∀ {before after : Machine} {value : Value} {x : Float}, before.Counts name x →
      TreeEnds around body before ⟨.ok value, after⟩ → after.returned = none →
      ∃ x, after.Counts name x)
    (rounds : ∀ m : Machine, m.returned = none → RoundRuns around name z body round a (b + 2) (c + 3) m)
    (first : RoundRuns around name z body round a (b + 2) (c + 3) m) (counts : m.Counts name x)
    (same : m.returned ≠ none → last = last') :
    Option.Rel SameEffect (ending? (forRounds (eval around a) name high z body k last m))
      (ending? (whileRounds (eval around (b + 2)) (Node.within name z y) round k last' m)) := by
  -- On the rounds: both loops ask the same question and run the same body, on one machine.
  induction k generalizing m x last last' with
  | zero => exact .none
  | succ k ih =>
    rw [forRounds, bind_of_ok (counter_ok counts), bind_of_ok (ofExcept_ok bound), whileRounds,
      bind_of_ok (eval_within b counts), bind_of_ok (holds_ofBool _ _)]
    by_cases goes : continues z x y = true
    · rw [if_pos goes, if_pos goes]
      cases ran : eval around a body m with
      | ok found =>
        obtain ⟨value, after⟩ := found
        rw [bind_of_ok ran]
        cases returned : after.returned with
        | some result =>
          have roundRan : eval around (b + 2) round m = .ok (result, after) := by
            rw [first, bind_of_ok ran, goOn_apply, returned]
          rw [bind_of_ok roundRan, bind_of_ok (read_returned returned), bind_of_ok (read_returned returned)]
          exact .some (.refl _)
        | none =>
          -- The body has left a number, so the two ways to step agree.
          obtain ⟨x, counts⟩ := keeps counts ⟨a, ending?_eq_ok.mpr ran⟩ returned
          let stepped : Machine := { after with scopes := after.scopes.set name (.number (x + z)) }
          have roundRan : eval around (b + 2) round m = .ok (.number (x + z), stepped) := by
            rw [first, bind_of_ok ran, goOn_stepOn returned counts]
          have assigned : assign name (.number (x + z)) after = .ok ((), stepped) := rfl
          have clear : stepped.returned = none := returned
          have again : stepped.Counts name (x + z) :=
            ⟨.number (x + z), by rw [Scopes.find?_set, if_pos rfl], rfl⟩
          rw [bind_of_ok roundRan, bind_of_ok (read_returned returned), bind_of_ok (read_returned clear)]
          dsimp only
          rw [bind_of_ok (counter_ok counts), bind_of_ok assigned]
          exact ih (rounds stepped clear) again fun pending => absurd clear pending
      | error found =>
        have roundRan : eval around (b + 2) round m = .error found := by rw [first, bind_of_error ran]
        rw [bind_of_error ran, bind_of_error roundRan]
        exact .some (.refl _)
      | unfinished =>
        have roundRan : eval around (b + 2) round m = .unfinished := by rw [first, bind_apply, ran]
        rw [bind_apply, ran, bind_apply, roundRan]
        exact .none
    · -- A return can be pending here only before the first round, where both have no value yet.
      rw [if_neg goes, if_neg goes]
      exact .some ⟨rfl, fun _ => ⟨nofun, nofun⟩, fun pending => congrArg Outcome.ok (same pending)⟩

/-- The body with the step after it: in a block around both, or as one more statement of the body. An empty
body asks that no return is pending, since the counting loop would stop before the step and the other loop
after it. -/
inductive Stepped (name : Option String) (z : Float) (body : Node) (m : Machine) : Node → Prop
  | around : Stepped name z body m (Node.block [body, Node.stepOn name z])
  | inside {statements : List Node} : body = Node.block statements →
      statements ≠ [] ∨ m.returned = none →
      Stepped name z body m (Node.block (statements ++ [Node.stepOn name z]))

theorem Stepped.runs (around : Surroundings) (stepped : Stepped name z body m round) (n : Nat) :
    ∃ a, n ≤ a ∧ a ≤ n + 1 ∧ RoundRuns around name z body round a (n + 1) n m ∧
      ∀ m : Machine, m.returned = none → RoundRuns around name z body round a (n + 1) n m := by
  cases stepped with
  | around => exact ⟨n, Nat.le_refl n, Nat.le_succ n, rfl, fun _ _ => rfl⟩
  | inside own added =>
    subst own
    -- The statements of the body stand one level higher here, so they are run with the larger bound.
    exact ⟨n + 1, Nat.le_succ n, Nat.le_refl _, block_append added,
      fun _ clear => block_append (.inr clear)⟩

end Rounds

section Loops

variable {start final increment body round : Node} {low high amount : Value}
  {first second ready : Machine} {e : Ending}

theorem requireNumber_of_toNumber {cause : Fault} (number : v.toNumber = .ok x) :
    requireNumber cause v m = .ok ((), m) := by
  cases v with
  | number _ | truth _ _ => rfl
  | empty | text _ | list _ | function _ | plain _ => cases number

theorem forLoop_apply (startRan : rec start m = .ok (low, first))
    (finalRan : rec final first = .ok (high, second))
    (incrementRan : rec increment second = .ok (amount, ready)) (lowNumber : low.toNumber = .ok x)
    (highNumber : high.toNumber = .ok y) (amountNumber : amount.toNumber = .ok z) :
    forLoop rec n (Node.named .forLoop name [start, final, increment, body]) m =
      forRounds rec name high z body n .empty
        { ready with scopes := ready.scopes.set name low } := by
  let node : Node := Node.named .forLoop name [start, final, increment, body]
  have assigned : assign name low ready =
      .ok ((), { ready with scopes := ready.scopes.set name low }) := rfl
  calc forLoop rec n node m
    _ = _ := child_bind rfl
    _ = _ := bind_of_ok startRan
    _ = _ := child_bind rfl
    _ = _ := bind_of_ok finalRan
    _ = _ := child_bind rfl
    _ = _ := bind_of_ok incrementRan
    _ = _ := child_bind rfl
    _ = _ := bind_of_ok (requireNumber_of_toNumber lowNumber)
    _ = _ := bind_of_ok (requireNumber_of_toNumber highNumber)
    _ = _ := bind_of_ok (requireNumber_of_toNumber amountNumber)
    _ = _ := bind_of_ok assigned
    _ = _ := bind_of_ok (ofExcept_ok amountNumber)

theorem grows_forRounds :
    Grows fun n => forRounds (eval around n) name high z body n .empty :=
  grows_of_covers fun _ _ more => covers_forRounds (covers_larger more) _ _ _ _ more _

theorem grows_whileRounds {condition : Node} :
    Grows fun n => whileRounds (eval around n) condition round n .empty :=
  grows_of_covers fun _ _ more => covers_whileRounds (covers_larger more) _ _ more _

theorem treeEnds_forLoop (startEnds : TreeEnds around start m ⟨.ok low, first⟩)
    (finalEnds : TreeEnds around final first ⟨.ok high, second⟩)
    (incrementEnds : TreeEnds around increment second ⟨.ok amount, ready⟩)
    (lowNumber : low.toNumber = .ok x) (highNumber : high.toNumber = .ok y)
    (amountNumber : amount.toNumber = .ok z) :
    TreeEnds around (Node.named .forLoop name [start, final, increment, body]) m e ↔
      Ends (fun n => forRounds (eval around n) name high z body n .empty)
        { ready with scopes := ready.scopes.set name low } e := by
  obtain ⟨k₁, startRan⟩ := startEnds.eventually
  obtain ⟨k₂, finalRan⟩ := finalEnds.eventually
  obtain ⟨k₃, incrementRan⟩ := incrementEnds.eventually
  -- With a bound that suffices for all three the loop begins as it should.
  have begins (n : Nat) (more : max k₁ (max k₂ k₃) ≤ n) :
      eval around (n + 1) (Node.named .forLoop name [start, final, increment, body]) m =
        forRounds (eval around n) name high z body n .empty
          { ready with scopes := ready.scopes.set name low } :=
    forLoop_apply (startRan n (by omega)) (finalRan n (by omega)) (incrementRan n (by omega)) lowNumber
      highNumber amountNumber
  constructor
  · rintro ⟨n, ends⟩
    refine ⟨max n (max k₁ (max k₂ k₃)), ?_⟩
    dsimp only
    rw [← begins _ (Nat.le_max_right ..)]
    exact grows_eval (by omega) ends
  · rintro ⟨n, ends⟩
    refine ⟨max n (max k₁ (max k₂ k₃)) + 1, ?_⟩
    dsimp only
    rw [begins _ (Nat.le_max_right ..)]
    exact grows_forRounds (Nat.le_max_left ..) ends

theorem treeEnds_whileLoop {condition : Node} :
    TreeEnds around (Node.of .whileLoop [condition, round]) m e ↔
      Ends (fun n => whileRounds (eval around n) condition round n .empty) m e :=
  treeEnds_step

end Loops

end Eval

open Eval Ending Exec

/-- A counting loop ends as the conditional loop on the machine where the variable is set to the first value:
with the same machine, the same fault if any, and the same value if one has been returned; and so it does
not end if the other does not. The body must leave a number in the variable whenever it goes on. -/
theorem counting_loop_behaves_as_conditional {around : Surroundings} {start final increment body round : Node}
    {name : Option String} {m first second ready : Machine} {low high amount : Value} {x y z : Float}
    (startEnds : TreeEnds around start m ⟨.ok low, first⟩)
    (finalEnds : TreeEnds around final first ⟨.ok high, second⟩)
    (incrementEnds : TreeEnds around increment second ⟨.ok amount, ready⟩)
    (lowNumber : low.toNumber = .ok x) (highNumber : high.toNumber = .ok y)
    (amountNumber : amount.toNumber = .ok z)
    (keeps : ∀ {before after : Machine} {value : Value} {x : Float}, before.Counts name x →
      TreeEnds around body before ⟨.ok value, after⟩ → after.returned = none → ∃ x, after.Counts name x)
    (stepped : Stepped name z body ready round) :
    SameEffects (TreeEnds around (Node.named .forLoop name [start, final, increment, body]) m)
      (TreeEnds around (Node.of .whileLoop [Node.within name z y, round])
        { ready with scopes := ready.scopes.set name low }) := by
  let begun : Machine := { ready with scopes := ready.scopes.set name low }
  have counts : begun.Counts name x := ⟨low, by rw [Scopes.find?_set, if_pos rfl], lowNumber⟩
  have stepped : Stepped name z body begun round := by
    cases stepped with
    | around => exact .around
    | inside own added => exact .inside own added
  -- The rounds go together at every bound that suffices for the comparison and the step.
  have together (n : Nat) : ∃ a, n ≤ a ∧ a ≤ n + 4 ∧
      Option.Rel SameEffect (ending? (forRounds (eval around a) name high z body (n + 4) .empty begun))
        (ending? (whileRounds (eval around (n + 4)) (Node.within name z y) round (n + 4) .empty begun)) := by
    obtain ⟨a, above, below, here, rounds⟩ := stepped.runs around (n + 3)
    exact ⟨a, by omega, by omega, rounds_sameEffect highNumber keeps rounds here counts fun _ => rfl⟩
  constructor
  · intro e ends
    obtain ⟨n, ends⟩ :=
      (treeEnds_forLoop startEnds finalEnds incrementEnds lowNumber highNumber amountNumber).mp ends
    obtain ⟨a, above, _, alike⟩ := together n
    have ends := (covers_forRounds (covers_larger above) name high z body (Nat.le_add_right n 4)
      .empty).ending_eq ends
    obtain ⟨e', ends, effect⟩ := (sameEffects_of_rel alike).left ends
    exact ⟨e', treeEnds_whileLoop.mpr ⟨n + 4, ends⟩, effect⟩
  · intro e' ends
    obtain ⟨n, ends⟩ := treeEnds_whileLoop.mp ends
    obtain ⟨a, _, below, alike⟩ := together n
    have ends := grows_whileRounds (Nat.le_add_right n 4) ends
    obtain ⟨e, ends, effect⟩ := (sameEffects_of_rel alike).right ends
    have ends := (covers_forRounds (covers_larger below) name high z body (Nat.le_refl (n + 4))
      .empty).ending_eq ends
    refine ⟨e, ?_, effect⟩
    exact (treeEnds_forLoop startEnds finalEnds incrementEnds lowNumber highNumber amountNumber).mpr
      ⟨n + 4, ends⟩

theorem counting_body_behaves_as_conditional :
    let around : Surroundings := ⟨⟨[], []⟩, "", 1000⟩
    let name : Option String := some "i"
    let number (x : Float) : Node := Node.number (some (.number x))
    let body : Node := Node.block [Node.stepOn name 1.0]
    let begun : Machine := { Machine.initial with scopes := Machine.initial.scopes.set name (.number 1.0) }
    let passed : Machine := { Machine.initial with scopes := ⟨[(name, .number 3.0)], []⟩ }
    let round : Node := Node.block [Node.stepOn name 1.0, Node.stepOn name 1.0]
    (∀ {before after : Machine} {value : Value} {x : Float}, before.Counts name x →
      TreeEnds around body before ⟨.ok value, after⟩ → after.returned = none → ∃ x, after.Counts name x) ∧
    Stepped name 1.0 body .initial round ∧
    TreeEnds around (Node.of .whileLoop [Node.within name 1.0 2.0, round]) begun
      ⟨.ok (.number 3.0), passed⟩ ∧
    ∃ e, TreeEnds around (Node.named .forLoop name [number 1.0, number 2.0, number 1.0, body]) .initial e ∧
      e.machine = passed := by
  intro around name number body begun passed round
  have keeps {before after : Machine} {value : Value} {x : Float} (counts : before.Counts name x)
      (ends : TreeEnds around body before ⟨.ok value, after⟩) : ∃ x, after.Counts name x := by
    obtain ⟨e, alone, same⟩ := (ends_single around _ before).right (treeEnds_step.mp ends)
    have stepped : TreeEnds around (Node.stepOn name 1.0) before _ :=
      ⟨3, congrArg ending? (eval_stepOn 0 counts)⟩
    cases alone.unique grows_eval stepped
    cases same.machine
    exact ⟨x + 1.0, .number (x + 1.0), by rw [Scopes.find?_set, if_pos rfl], rfl⟩
  have literal (x : Float) : TreeEnds around (number x) .initial ⟨.ok (.number x), .initial⟩ := ⟨1, rfl⟩
  have stepped : Stepped name 1.0 body .initial round := .inside rfl (.inr rfl)
  have ends : TreeEnds around (Node.of .whileLoop [Node.within name 1.0 2.0, round]) begun
      ⟨.ok (.number 3.0), passed⟩ := ⟨6, rfl⟩
  obtain ⟨e, counting, effect⟩ := (counting_loop_behaves_as_conditional (literal 1.0)
    (literal 2.0) (literal 1.0) rfl rfl rfl (fun counts ends _ => keeps counts ends) stepped).right ends
  exact ⟨fun counts ends _ => keeps counts ends, stepped, ends, e, counting, effect.machine⟩

end Pseudocode
