import Pseudocode.Proofs.Invariant.Run

set_option autoImplicit false

namespace Pseudocode

structure Machine.Effect (m after : Machine) : Prop where
  outer : after.scopes.outer = m.scopes.outer
  calls : after.calls = m.calls
  lists : m.store.lists.size ≤ after.store.lists.size
  output : ∃ printed, after.output = m.output ++ printed
  prompts : ∃ asked, after.prompts = m.prompts ++ asked
  input : after.input.Follows m.input

theorem Input.Follows.refl (input : Input) : input.Follows input := by
  cases input with
  | console lines => exact List.suffix_refl lines
  | dialogs answers => exact List.suffix_refl answers

theorem Input.Follows.trans {a b c : Input} (first : b.Follows a) (second : c.Follows b) :
    c.Follows a := by
  cases a <;> cases b <;> cases c <;> first
    | exact List.IsSuffix.trans second first
    | exact first.elim
    | exact second.elim

namespace Machine.Effect

variable {m middle after : Machine} {table : Table}

theorem refl (m : Machine) : m.Effect m where
  outer := rfl
  calls := rfl
  lists := Nat.le_refl _
  output := ⟨"", String.append_empty.symm⟩
  prompts := ⟨"", String.append_empty.symm⟩
  input := .refl _

theorem trans (first : m.Effect middle) (second : middle.Effect after) : m.Effect after where
  outer := second.outer.trans first.outer
  calls := second.calls.trans first.calls
  lists := Nat.le_trans first.lists second.lists
  output := by
    obtain ⟨one, firstOutput⟩ := first.output
    obtain ⟨two, secondOutput⟩ := second.output
    exact ⟨one ++ two, by rw [secondOutput, firstOutput, String.append_assoc]⟩
  prompts := by
    obtain ⟨one, firstPrompts⟩ := first.prompts
    obtain ⟨two, secondPrompts⟩ := second.prompts
    exact ⟨one ++ two, by rw [secondPrompts, firstPrompts, String.append_assoc]⟩
  input := first.input.trans second.input

theorem store {store : Store} (grown : m.store.lists.size ≤ store.lists.size) :
    m.Effect { m with store } :=
  { refl m with lists := grown }

theorem set (name : Option String) (value : Value) :
    m.Effect { m with scopes := m.scopes.set name value } :=
  { refl m with }

theorem returned (value : Value) : m.Effect { m with returned := some value } :=
  { refl m with }

theorem print (printed : String) : m.Effect { m with output := m.output ++ printed } :=
  { refl m with output := ⟨printed, rfl⟩ }

theorem reply (asked : String) {input : Input} (follows : input.Follows m.input) :
    m.Effect { m with prompts := m.prompts ++ asked, input } :=
  { refl m with prompts := ⟨asked, rfl⟩, input := follows }

theorem closed_scopes (body : (m.opened m.store table).Effect after) :
    (m.closed after).scopes = m.scopes := by
  have outer := body.outer
  simp only [Machine.opened, Scopes.push] at outer
  simp [Machine.closed, Scopes.pop, outer]

theorem closed (body : (m.opened m.store table).Effect after) : m.Effect (m.closed after) where
  outer := congrArg Scopes.outer (closed_scopes body)
  calls := by
    have calls := body.calls
    simp only [Machine.opened] at calls
    simp [Machine.closed, calls]
  lists := body.lists
  output := body.output
  prompts := body.prompts
  input := body.input

end Machine.Effect

namespace Eval

open Exec

def effectsWith (around : Surroundings) (holds : Machine → Prop)
    (keep : ∀ {m after}, holds m → m.Effect after → holds after)
    (opened : ∀ {m} (table), holds m → (m.calls : Int) < around.limit →
      holds (m.opened m.store table)) : Invariant around where
  toDomain := .all
  holds := holds
  kept := Machine.Effect
  left _ _ := True
  refl := .refl
  trans := .trans
  keep := keep
  size := Machine.Effect.lists
  calls := Machine.Effect.calls
  stop _ := trivial
  later _ _ := trivial
  sound _ _ _ _ := trivial
  found _ _ := trivial
  pending _ _ := trivial
  store _ grown _ := .store grown
  set _ _ := .set _ _
  returned _ _ := .returned _
  output printed _ := .print printed
  reply asked _ follows := .reply asked follows
  opened held below _ := opened _ held below
  closed _ _ body := .closed body
  fault _ _ _ := trivial

def effects (around : Surroundings) : Invariant around :=
  effectsWith around (fun _ => True) (fun _ _ => trivial) fun _ _ _ => trivial

variable {around : Surroundings} {n : Nat} {node : Node} {m after : Machine} {value : Value}

theorem call_eq_ok {rec : Node → Exec Value} {limit : Int}
    (ran : call rec limit node m = .ok (value, after)) :
    ∃ f arguments middle, m.scopes.find? node.name = some (.function f) ∧
      values rec node.children m = .ok (arguments, middle) ∧
      inCall (apply rec node.name f arguments) middle = .ok (value, after) := by
  obtain ⟨calls, _, counted, ran⟩ := bind_eq_ok.mp ran
  cases counted
  split at ran
  · cases ran
  obtain ⟨callee, _, found, ran⟩ := bind_eq_ok.mp ran
  obtain ⟨kind, _, tagged, ran⟩ := bind_eq_ok.mp ran
  simp only [lookup] at found
  split at found
  next bound =>
    cases found
    cases callee with
    | function f =>
      cases tagged
      obtain ⟨arguments, middle, evaluated, ran⟩ := bind_eq_ok.mp ran
      exact ⟨f, arguments, middle, bound, evaluated, ran⟩
    | empty | number _ | truth _ _ | text _ | list _ | plain _ => cases ran
  next => cases found

theorem eval_effect (ran : eval around n node m = .ok (value, after)) : m.Effect after := by
  have agree : (effects around).Agree m (effects around).value (eval around n node)
      (eval around n node) := agree_eval n trivial trivial
  have ended := agree.2
  rw [ran] at ended
  exact ended.1

theorem bodyValue_effect {f : Function} (ran : bodyValue (eval around n) f m = .ok (value, after)) :
    m.Effect after := by
  obtain ⟨last, middle, body, ran⟩ := bind_eq_ok.mp ran
  obtain ⟨found, same, looked, ran⟩ := bind_eq_ok.mp ran
  obtain rfl : middle = same := by cases looked; rfl
  have first := eval_effect body
  cases found with
  | some result =>
    cases ran
    exact first
  | none => exact first.trans (eval_effect ran)

theorem bindArguments_effect (around : Surroundings) {parameters : List Node}
    {arguments : List Value} {table bound : Table}
    (ran : bindArguments parameters arguments table m = .ok (bound, after)) :
    ∃ store, m.store.lists.size ≤ store.lists.size ∧ after = { m with store } := by
  have admitted : ∀ v ∈ arguments, (effects around).value m.store v := fun _ _ => trivial
  have ended := (agree_bindArguments parameters table trivial admitted fun _ _ => trivial).2
  have changed := bindArguments_store parameters arguments table m
  rw [ran] at ended changed
  obtain ⟨store, rfl⟩ := changed
  exact ⟨store, ended.1.lists, rfl⟩

theorem apply_effect {name : Option String} {f : Function} {arguments : List Value}
    (ran : inCall (apply (eval around n) name f arguments) m = .ok (value, after)) :
    m.Effect after ∧ after.scopes = m.scopes ∧ after.returned = m.returned := by
  rw [inCall_apply] at ran
  split at ran
  · cases ran
  split at ran
  next table bound bindings =>
    obtain ⟨store, grown, rfl⟩ := bindArguments_effect around bindings
    split at ran
    next result last body =>
      cases ran
      have body : (Machine.opened { m with store } store table).Effect last := bodyValue_effect body
      have bound : m.Effect { m with store } := .store grown
      have scopes : (Machine.closed { m with store } last).scopes = m.scopes :=
        Machine.Effect.closed_scopes body
      exact ⟨bound.trans (.closed body), scopes, rfl⟩
    next => cases ran
    next => cases ran
  next => cases ran
  next => cases ran

end Eval

/-- A call that ends with a value leaves its caller, as it was once the arguments were evaluated, all its
tables, its returned value and its call count. It may have changed and made lists, printed after what was
printed, and taken input. -/
theorem call_leaves_caller {around : Surroundings} {n : Nat} {node : Node} {m after : Machine}
    {value : Value} (isCall : node.kind = .call)
    (ran : Eval.eval around (n + 1) node m = .ok (value, after)) :
    ∃ f arguments middle, m.scopes.find? node.name = some (.function f) ∧
      Eval.values (Eval.eval around n) node.children m = .ok (arguments, middle) ∧
      Eval.inCall (Eval.apply (Eval.eval around n) node.name f arguments) middle =
        .ok (value, after) ∧
      ∃ store printed asked input, middle.store.lists.size ≤ store.lists.size ∧
        Input.Follows input middle.input ∧
        after = { middle with
          store, output := middle.output ++ printed, prompts := middle.prompts ++ asked, input } := by
  have ran : Eval.call (Eval.eval around n) around.limit node m = .ok (value, after) := by
    rwa [Eval.eval, Eval.step, isCall] at ran
  obtain ⟨f, arguments, middle, found, evaluated, applied⟩ := Eval.call_eq_ok ran
  refine ⟨f, arguments, middle, found, evaluated, applied, ?_⟩
  obtain ⟨effect, scopes, returned⟩ := Eval.apply_effect applied
  obtain ⟨printed, output⟩ := effect.output
  obtain ⟨asked, prompts⟩ := effect.prompts
  refine ⟨after.store, printed, asked, after.input, effect.lists, effect.input, ?_⟩
  rw [← output, ← prompts, ← scopes, ← returned, ← effect.calls]

theorem busy_call_leaves_caller :
    let around : Surroundings := ⟨Library.disk ["home"], "", 1⟩
    let truth : Node := Node.named .boolean (some "TRUE") []
    let body : Node := Node.block [Node.named .assign (some "y") [truth],
      Node.of .print [Node.named .access (some "y") []], Node.named .input (some "z") []]
    let f : Function := ⟨0, some "f", Node.of .parameters [Node.named .parameter (some "x") []], body,
      Node.null⟩
    let m : Machine := { (Machine.initial.set "f" (.function f)).set "y" (.text "before") with
      input := .console ["one", "two"] }
    let node : Node := Node.named .call (some "f") [truth]
    let after : Machine := { m with
      output := "TRUE\n", prompts := "Enter value for z: ", input := .console ["two"] }
    node.kind = .call ∧ Eval.eval around 4 node m = .ok (.empty, after) ∧
    ∃ f arguments middle, m.scopes.find? node.name = some (.function f) ∧
      Eval.values (Eval.eval around 3) node.children m = .ok (arguments, middle) ∧
      Eval.inCall (Eval.apply (Eval.eval around 3) node.name f arguments) middle =
        .ok (.empty, after) ∧
      ∃ store printed asked input, middle.store.lists.size ≤ store.lists.size ∧
        Input.Follows input middle.input ∧
        after = { middle with
          store, output := middle.output ++ printed, prompts := middle.prompts ++ asked, input } := by
  intro around truth body f m node after
  have ran : Eval.eval around 4 node m = .ok (.empty, after) := rfl
  exact ⟨rfl, ran, call_leaves_caller rfl ran⟩

end Pseudocode
