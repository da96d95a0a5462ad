import Pseudocode.Proofs.Shape.Fits

set_option autoImplicit false

namespace Pseudocode

namespace Exec

variable {α β : Type}

def Benign (x : Exec α) : Prop :=
  ∀ m cause after, x m = .error (cause, after) → cause.misfit = false

theorem benign_pure (a : α) : Benign (pure a) :=
  fun _ _ _ failed => nomatch failed

theorem benign_unfinished : Benign (unfinished : Exec α) :=
  fun _ _ _ failed => nomatch failed

theorem benign_fail {cause : Fault} (fits : cause.misfit = false) : Benign (fail cause : Exec α) := by
  rintro m _ _ ⟨⟩
  exact fits

theorem benign_read (f : Machine → α) : Benign (read f) :=
  fun _ _ _ failed => nomatch failed

theorem benign_modify (f : Machine → Machine) : Benign (modify f) :=
  fun _ _ _ failed => nomatch failed

theorem Benign.bind {x : Exec α} {f : α → Exec β} (first : Benign x) (next : ∀ a, Benign (f a)) :
    Benign (x >>= f) := by
  intro m cause after failed
  rw [bind_apply] at failed
  cases ran : x m with
  | ok found =>
    rw [ran] at failed
    exact next found.1 found.2 cause after failed
  | error found =>
    rw [ran] at failed
    cases failed
    exact first m cause after ran
  | unfinished =>
    rw [ran] at failed
    cases failed

theorem benign_ofOutcome {x : Outcome Fault α} (benign : x.Benign) : Benign (ofOutcome x) := by
  cases x with
  | ok a => exact benign_pure a
  | error cause => exact benign_fail (benign cause rfl)
  | unfinished => exact benign_unfinished

theorem benign_asked {x : Store → Outcome Fault α} (benign : ∀ s, (x s).Benign) :
    Benign fun m => ofOutcome (x m.store) m :=
  fun m => benign_ofOutcome (benign m.store) m

theorem benign_onStore {f : Store → Outcome Fault (α × Store)} (benign : ∀ s, (f s).Benign) :
    Benign (onStore f) := by
  intro m cause after failed
  have fits := benign m.store
  rw [onStore] at failed
  cases ran : f m.store with
  | ok found =>
    rw [ran] at failed
    cases failed
  | error found =>
    rw [ran] at failed
    cases failed
    exact fits cause ran
  | unfinished =>
    rw [ran] at failed
    cases failed

theorem benign_lookup (role : Role) (name : Option String) : Benign (lookup role name) := by
  intro m cause after failed
  rw [lookup] at failed
  split at failed
  · cases failed
  · cases failed
    rfl

end Exec

namespace Eval

open Exec

theorem benign_reply (name : Option String) : Benign (reply name) := by
  intro m cause after failed
  unfold reply at failed
  split at failed
  · dsimp only at failed
    split at failed
    · cases failed
    · cases failed
      rfl
  · cases failed
  · cases failed

theorem benign_inCall {α : Type} {x : Exec α} (benign : Benign x) : Benign (inCall x) := by
  intro m cause after failed
  have fits := benign { m with calls := m.calls + 1 }
  rw [inCall] at failed
  split at failed
  · cases failed
  · next ran =>
    cases failed
    exact fits _ _ ran
  · cases failed

end Eval

namespace Exec

def Leeway.tame : Leeway where
  misfits := False
  cuts _ := False
  visits x _ := Benign x

theorem Composed.benign {α : Type} {x y : Exec α} (composed : Composed .tame x y) : Benign x := by
  induction composed with
  | pure a => exact benign_pure a
  | fail fits => exact benign_fail (Bool.eq_false_iff.mpr fits)
  | cut _ cuts => exact cuts.elim
  | unfinished _ => exact benign_unfinished
  | visit benign => exact benign
  | bind _ _ first next => exact first.bind next
  | read _ => exact benign_read _
  | modify _ => exact benign_modify _
  | lookup role name => exact benign_lookup role name
  | reply name => exact Eval.benign_reply name
  | asked benign => exact benign_asked benign
  | onStore benign => exact benign_onStore benign
  | inCall _ benign => exact Eval.benign_inCall benign

end Exec

theorem Node.Fits.answers {node : Node} (fits : node.Fits) (visited : node.kind.visited = true) :
    node.Answers where
  visited := visited
  allows := fits.allows
  items := by
    intro kind item member other
    have isItem := fits.case_item kind member other
    simpa [isItem, Node.Kind.allows] using (fits.child member).allows

theorem Eval.benign_step {rec : Node → Exec Value} (benign : ∀ node, Exec.Benign (rec node))
    (around : Surroundings) (n : Nat) {node : Node} (fits : node.Fits)
    (visited : node.kind.visited = true) : Exec.Benign (step around rec n node) := by
  have alike (node : Node) : Exec.Composed .tame (rec node) (rec node) := .visit (benign node)
  have composed : Exec.Composed .tame (step around rec n node) (step around rec n node) :=
    composed_step alike (Nat.le_refl n) (.inl rfl) fun _ => fits.answers visited
  exact composed.benign

end Pseudocode
