import Pseudocode.Proofs.Composition

set_option autoImplicit false

namespace Pseudocode

namespace Exec

variable {α β : Type} {cut : Fault → Prop} {p q : String}

/-- On machines that differ only in the output that was there before: where the first computation ends,
and not with a fault that cuts it off, the second one ends in the same way, and the machines again differ
only so. -/
def Covers (cut : Fault → Prop) (p q : String) (x y : Exec α) : Prop :=
  ∀ m : Machine, match x (m.after p) with
    | .ok (a, final) => ∃ m' : Machine, final = m'.after p ∧ y (m.after q) = .ok (a, m'.after q)
    | .error (cause, final) =>
      cut cause ∨ ∃ m' : Machine, final = m'.after p ∧ y (m.after q) = .error (cause, m'.after q)
    | .unfinished => True

theorem covers_pure (a : α) : Covers cut p q (pure a) (pure a) :=
  fun m => ⟨m, rfl, rfl⟩

theorem covers_fail (cause : Fault) : Covers cut p q (fail cause : Exec α) (fail cause) :=
  fun m => .inr ⟨m, rfl, rfl⟩

theorem covers_cut {cause : Fault} (cuts : cut cause) (y : Exec α) : Covers cut p q (fail cause) y :=
  fun _ => .inl cuts

theorem covers_unfinished (y : Exec α) : Covers cut p q unfinished y :=
  fun _ => trivial

theorem Covers.bind {x y : Exec α} {f g : α → Exec β} (first : Covers cut p q x y)
    (next : ∀ a, Covers cut p q (f a) (g a)) : Covers cut p q (x >>= f) (y >>= g) := by
  intro m
  have begun := first m
  rw [bind_apply, bind_apply]
  cases ran : x (m.after p) with
  | ok found =>
    rw [ran] at begun
    obtain ⟨middle, same, begun⟩ := begun
    dsimp only
    rw [begun, same]
    exact next found.1 middle
  | error found =>
    rw [ran] at begun
    refine begun.imp_right ?_
    rintro ⟨final, same, failed⟩
    exact ⟨final, same, by rw [failed]⟩
  | unfinished => trivial

theorem covers_read {f : Machine → α} (same : ∀ (m : Machine) (p : String), f (m.after p) = f m) :
    Covers cut p q (read f) (read f) := by
  intro m
  simp only [read, same]
  exact ⟨m, rfl, rfl⟩

theorem covers_modify {f : Machine → Machine}
    (same : ∀ (m : Machine) (p : String), f (m.after p) = (f m).after p) :
    Covers cut p q (modify f) (modify f) := by
  intro m
  simp only [modify, same]
  exact ⟨f m, rfl, rfl⟩

theorem covers_ofOutcome (x : Outcome Fault α) : Covers cut p q (ofOutcome x) (ofOutcome x) := by
  cases x with
  | ok a => exact covers_pure a
  | error cause => exact covers_fail cause
  | unfinished => exact covers_unfinished _

theorem covers_asked (x : Store → Outcome Fault α) :
    Covers cut p q (fun m => ofOutcome (x m.store) m) (fun m => ofOutcome (x m.store) m) :=
  fun m => covers_ofOutcome (x m.store) m

theorem covers_onStore (f : Store → Outcome Fault (α × Store)) :
    Covers cut p q (onStore f) (onStore f) := by
  intro m
  simp only [onStore, Machine.after]
  cases f m.store with
  | ok found => exact ⟨{ m with store := found.2 }, rfl, rfl⟩
  | error cause => exact .inr ⟨m, rfl, rfl⟩
  | unfinished => trivial

theorem covers_lookup (role : Role) (name : Option String) :
    Covers cut p q (lookup role name) (lookup role name) := by
  intro m
  simp only [lookup, Machine.after]
  cases m.scopes.find? name with
  | some value => exact ⟨m, rfl, rfl⟩
  | none => exact .inr ⟨m, rfl, rfl⟩

end Exec

namespace Eval

open Exec

variable {cut : Fault → Prop} {p q : String}

theorem covers_returned {f g : Option Value → Exec Value}
    (next : ∀ found, Covers cut p q (f found) (g found)) :
    Covers cut p q (read (·.returned) >>= f) (read (·.returned) >>= g) :=
  (covers_read fun _ _ => rfl).bind next

theorem covers_reply (name : Option String) : Covers cut p q (reply name) (reply name) := by
  intro m
  obtain ⟨store, scopes, returned, output, prompts, input, calls⟩ := m
  let asked (input : Input) : Machine := ⟨store, scopes, returned, output,
    prompts ++ "Enter value for " ++ Fault.nameText name ++ ": ", input, calls⟩
  match input with
  | .console (line :: rest) => exact ⟨asked (.console rest), rfl, rfl⟩
  | .console [] => exact .inr ⟨asked (.console []), rfl, rfl⟩
  | .dialogs (answer :: rest) =>
    exact ⟨⟨store, scopes, returned, output, prompts, .dialogs rest, calls⟩, rfl, rfl⟩
  | .dialogs [] => exact ⟨⟨store, scopes, returned, output, prompts, .dialogs [], calls⟩, rfl, rfl⟩

theorem covers_inCall {α : Type} {x y : Exec α} (inner : Covers cut p q x y) :
    Covers cut p q (inCall x) (inCall y) := by
  intro m
  -- The count of open calls is changed on both sides alike, and back however the call ends.
  have ended := inner { m with calls := m.calls + 1 }
  have counted (r : String) : { m.after r with calls := (m.after r).calls + 1 } =
      ({ m with calls := m.calls + 1 } : Machine).after r := rfl
  simp only [inCall, counted]
  cases ran : x (({ m with calls := m.calls + 1 } : Machine).after p) with
  | ok found =>
    rw [ran] at ended
    obtain ⟨final, same, ended⟩ := ended
    rw [ended]
    dsimp only
    rw [same]
    exact ⟨{ final with calls := final.calls - 1 }, rfl, rfl⟩
  | error found =>
    rw [ran] at ended
    refine ended.imp_right ?_
    rintro ⟨final, same, failed⟩
    rw [failed, same]
    exact ⟨{ final with calls := final.calls - 1 }, rfl, rfl⟩
  | unfinished => trivial

end Eval

namespace Exec

def Leeway.room (cut : Fault → Prop) (p q : String) : Leeway where
  misfits := True
  cuts := cut
  visits := Covers cut p q

theorem Composed.covers {α : Type} {cut : Fault → Prop} {p q : String} {x y : Exec α}
    (composed : Composed (.room cut p q) x y) : Covers cut p q x y := by
  induction composed with
  | pure a => exact covers_pure a
  | fail _ => exact covers_fail _
  | cut y cuts => exact covers_cut cuts y
  | unfinished y => exact covers_unfinished y
  | visit covers => exact covers
  | bind _ _ first next => exact first.bind next
  | read same => exact covers_read same
  | modify same => exact covers_modify same
  | lookup role name => exact covers_lookup role name
  | reply name => exact Eval.covers_reply name
  | asked _ => exact covers_asked _
  | onStore _ => exact covers_onStore _
  | inCall _ inner => exact Eval.covers_inCall inner

end Exec

namespace Eval

open Exec

variable {cut : Fault → Prop} {p q : String} {rec rec' : Node → Exec Value} {n n' : Nat}

section Constructs

variable (covers : ∀ node, Covers cut p q (rec node) (rec' node))

include covers

theorem covers_block (nodes : List Node) (last : Value) :
    Covers cut p q (block rec nodes last) (block rec' nodes last) :=
  (composed_block (fun node => .visit (covers node)) nodes last).covers

theorem covers_whileRounds (condition body : Node) (more : n ≤ n') (last : Value) :
    Covers cut p q (whileRounds rec condition body n last)
      (whileRounds rec' condition body n' last) :=
  (composed_whileRounds (fun node => .visit (covers node)) condition body more last).covers

theorem covers_forRounds (name : Option String) (final : Value) (increment : Float) (body : Node)
    (more : n ≤ n') (last : Value) :
    Covers cut p q (forRounds rec name final increment body n last)
      (forRounds rec' name final increment body n' last) :=
  (composed_forRounds (fun node => .visit (covers node)) name final increment body more last).covers

end Constructs

theorem covers_eval {around : Surroundings} {limit : Int} (more : n ≤ n')
    (higher : around.limit = limit ∨ around.limit ≤ limit ∧ cut (.depth around.limit)) (node : Node) :
    Covers cut p q (eval around n node) (eval { around with limit } n' node) := by
  induction n generalizing n' node with
  | zero => exact covers_unfinished _
  | succ n ih =>
    obtain ⟨n', rfl⟩ : ∃ k, n' = k + 1 := ⟨n' - 1, by omega⟩
    have alike (node : Node) : Composed (.room cut p q) (eval around n node)
        (eval { around with limit } n' node) := .visit (ih (by omega) node)
    exact (composed_step alike (by omega) higher (absurd trivial)).covers

end Eval

end Pseudocode
