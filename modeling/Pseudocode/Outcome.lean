set_option autoImplicit false

namespace Pseudocode

inductive Outcome (ε α : Type) where
  | ok (value : α)
  | error (cause : ε)
  | unfinished
  deriving Repr

namespace Outcome

variable {ε δ α β : Type}

@[always_inline, inline]
def bind (x : Outcome ε α) (f : α → Outcome ε β) : Outcome ε β :=
  match x with
  | .ok value => f value
  | .error cause => .error cause
  | .unfinished => .unfinished

@[always_inline]
instance : Monad (Outcome ε) where
  pure := .ok
  bind := bind

def mapError (f : ε → δ) : Outcome ε α → Outcome δ α
  | .ok value => .ok value
  | .error cause => .error (f cause)
  | .unfinished => .unfinished

def ofExcept : Except ε α → Outcome ε α
  | .ok value => .ok value
  | .error cause => .error cause

@[simp] theorem pure_eq (value : α) : (pure value : Outcome ε α) = .ok value := rfl

@[simp] theorem ok_bind (value : α) (f : α → Outcome ε β) :
    (Outcome.ok value >>= f) = f value := rfl

@[simp] theorem error_bind (cause : ε) (f : α → Outcome ε β) :
    (Outcome.error cause >>= f) = .error cause := rfl

@[simp] theorem unfinished_bind (f : α → Outcome ε β) :
    ((Outcome.unfinished : Outcome ε α) >>= f) = .unfinished := rfl

theorem bind_eq_ok {x : Outcome ε α} {f : α → Outcome ε β} {b : β} :
    (x >>= f) = .ok b ↔ ∃ a, x = .ok a ∧ f a = .ok b := by
  cases x <;> simp

theorem bind_eq_error {x : Outcome ε α} {f : α → Outcome ε β} {e : ε} :
    (x >>= f) = .error e ↔ x = .error e ∨ ∃ a, x = .ok a ∧ f a = .error e := by
  cases x <;> simp

theorem bind_eq_unfinished {x : Outcome ε α} {f : α → Outcome ε β} :
    (x >>= f) = .unfinished ↔ x = .unfinished ∨ ∃ a, x = .ok a ∧ f a = .unfinished := by
  cases x <;> simp

end Outcome

theorem except_bind_eq_ok {ε α β : Type} {x : Except ε α} {f : α → Except ε β} {b : β} :
    (x >>= f) = .ok b ↔ ∃ a, x = .ok a ∧ f a = .ok b := by
  cases x <;> simp [bind, Except.bind]

end Pseudocode
