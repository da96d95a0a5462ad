import Pseudocode.Eval

set_option autoImplicit false

namespace Pseudocode

namespace Machine

def opened (m : Machine) (store : Store) (table : Table) : Machine :=
  { m with store, scopes := m.scopes.push table, returned := none, calls := m.calls + 1 }

def closed (m after : Machine) : Machine :=
  { after with scopes := after.scopes.pop, returned := m.returned, calls := after.calls - 1 }

end Machine

namespace Exec

variable {α β : Type}

theorem bind_assoc {γ : Type} (x : Exec α) (f : α → Exec β) (g : β → Exec γ) :
    x >>= f >>= g = x >>= fun a => f a >>= g := by
  funext m
  simp only [bind_apply]
  cases x m <;> rfl

theorem bind_of_ok {x : Exec α} {f : α → Exec β} {a : α} {m after : Machine}
    (ran : x m = .ok (a, after)) : (x >>= f) m = f a after := by
  rw [bind_apply, ran]

theorem bind_of_error {x : Exec α} {f : α → Exec β} {fault : Fault × Machine}
    {m : Machine} (failed : x m = .error fault) : (x >>= f) m = .error fault := by
  rw [bind_apply, failed]

theorem pure_bind (value : α) (f : α → Exec β) : pure value >>= f = f value := rfl

theorem bind_eq_ok {x : Exec α} {f : α → Exec β} {m after : Machine} {b : β} :
    (x >>= f) m = .ok (b, after) ↔
      ∃ a middle, x m = .ok (a, middle) ∧ f a middle = .ok (b, after) := by
  rw [bind_apply]
  cases x m with
  | ok found =>
    constructor
    · exact fun ran => ⟨found.1, found.2, rfl, ran⟩
    · rintro ⟨a, middle, same, ran⟩
      cases same
      exact ran
  | error cause => simp
  | unfinished => simp

end Exec

namespace Eval

open Exec

variable {rec : Node → Exec Value}

def bodyValue (rec : Node → Exec Value) (f : Function) : Exec Value := do
  let _ ← rec f.body
  match ← read (·.returned) with
  | some value => pure value
  | none => rec f.result

theorem runBody_apply (f : Function) (table : Table) (m : Machine) :
    runBody rec f table m =
      match bodyValue rec f { m with scopes := m.scopes.push table, returned := none } with
      | .ok (value, after) =>
        .ok (value, { after with scopes := after.scopes.pop, returned := m.returned })
      | .error cause => .error cause
      | .unfinished => .unfinished := by
  simp only [runBody, bodyValue, bind_apply, Exec.read, Exec.modify]
  cases rec f.body { m with scopes := m.scopes.push table, returned := none } with
  | ok found =>
    obtain ⟨value, middle⟩ := found
    dsimp only
    cases middle.returned with
    | some result => rfl
    | none =>
      simp only [bind_apply]
      cases rec f.result middle <;> rfl
  | error cause => rfl
  | unfinished => rfl

theorem bindArguments_calls (parameters : List Node) (arguments : List Value) (table : Table)
    (m : Machine) (calls : Nat) :
    bindArguments parameters arguments table { m with calls } =
      match bindArguments parameters arguments table m with
      | .ok (bound, after) => .ok (bound, { m with store := after.store, calls })
      | .error (cause, after) => .error (cause, { m with store := after.store, calls })
      | .unfinished => .unfinished := by
  induction parameters generalizing arguments table m with
  | nil => rfl
  | cons parameter parameters ih =>
    cases arguments with
    | nil => rfl
    | cons value arguments =>
      simp only [bindArguments, bind_apply, onStore]
      cases m.store.copy value with
      | ok found => exact ih arguments (table.set parameter.name found.1) { m with store := found.2 }
      | error cause => rfl
      | unfinished => rfl

theorem bindArguments_store (parameters : List Node) (arguments : List Value) (table : Table)
    (m : Machine) :
    match bindArguments parameters arguments table m with
    | .ok (_, after) => ∃ store, after = { m with store }
    | .error (_, after) => ∃ store, after = { m with store }
    | .unfinished => True := by
  induction parameters generalizing arguments table m with
  | nil => exact ⟨m.store, rfl⟩
  | cons parameter parameters ih =>
    cases arguments with
    | nil => exact ⟨m.store, rfl⟩
    | cons value arguments =>
      simp only [bindArguments, bind_apply, onStore]
      cases m.store.copy value with
      | ok found =>
        have rest := ih arguments (table.set parameter.name found.1) { m with store := found.2 }
        exact rest
      | error cause => exact ⟨m.store, rfl⟩
      | unfinished => trivial

theorem inCall_apply (name : Option String) (f : Function) (arguments : List Value) (m : Machine) :
    inCall (apply rec name f arguments) m =
      if f.parameters.children.length ≠ arguments.length then
        .error (.arguments name f.parameters.children.length arguments.length, m)
      else
        match bindArguments f.parameters.children arguments [(name, .function f)] m with
        | .ok (table, bound) =>
          match bodyValue rec f (m.opened bound.store table) with
          | .ok (value, after) => .ok (value, m.closed after)
          | .error (cause, after) => .error (cause, { after with calls := after.calls - 1 })
          | .unfinished => .unfinished
        | .error (cause, bound) => .error (cause, { m with store := bound.store })
        | .unfinished => .unfinished := by
  unfold inCall apply
  by_cases fits : f.parameters.children.length = arguments.length
  · rw [if_neg (not_not_intro fits), if_neg (not_not_intro fits), bind_apply, bindArguments_calls]
    cases bindArguments f.parameters.children arguments [(name, .function f)] m with
    | ok found =>
      obtain ⟨table, bound⟩ := found
      simp only [runBody_apply, Machine.opened]
      cases bodyValue rec f _ with
      | ok found => rfl
      | error found => rfl
      | unfinished => rfl
    | error found => rfl
    | unfinished => rfl
  · rw [if_pos fits, if_pos fits]
    rfl

end Eval

end Pseudocode
