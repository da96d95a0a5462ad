import Pseudocode.Proofs.Lines.Separate
import Pseudocode.Proofs.Parser.Settled

set_option autoImplicit false

namespace Pseudocode

def Token.Separating (seps : List Token) : Prop :=
  seps ≠ [] ∧ ∀ t ∈ seps, t.isSeparator = true

instance (seps : List Token) : Decidable (Token.Separating seps) :=
  inferInstanceAs (Decidable (_ ∧ _))

namespace Node

/-- The tokens are parsed to their end as the statements. Tokens among which is one that stands for the end
are never parsed so, since the parser stops there. -/
def Parses (ts : List Token) (nodes : List Node) : Prop :=
  statements (bound ts) ts = .ok (nodes, [])

def listing (ts : List Token) : Outcome ParseError (List Node) :=
  Prod.fst <$> statements (bound ts) ts

theorem ofTokens_eq (ts : List Token) : ofTokens ts = program <$> listing ts := by
  rw [ofTokens, listing]
  cases statements (bound ts) ts <;> rfl

end Node

namespace Parse

open Grammar Mode Node

variable {ts us seps after : List Token} {t : Token} {first : Node} {nodes : List Node} {n k : Nat}

def toEnd (n k : Nat) : Parse (List Node) :=
  statementsUntil (run n) (·.kind == .none) k

theorem settled_toEnd {n' k' : Nat} (enough : ts.length < n) (enough' : ts.length < n')
    (rounds : ts.length < k) (rounds' : ts.length < k') :
    Settled 0 (toEnd n k) (toEnd n' k') ts :=
  settled_statementsUntil (settled_run (k := ts.length + 1) enough enough') _ (Nat.lt_succ_self _)
    rounds rounds'

theorem listing_eq (ts : List Token) (enough : ts.length < n) (rounds : ts.length < k) :
    listing ts = Prod.fst <$> toEnd n k (skip ts) := by
  have shorter := length_skip_le ts
  have least : ts.length < bound ts := by
    unfold bound
    omega
  have same : toEnd (bound ts) (bound ts) (skip ts) = toEnd n k (skip ts) :=
    (settled_toEnd (by omega) (by omega) (by omega) (by omega)).1
  exact congrArg (Prod.fst <$> ·) same

theorem listing_ne_unfinished : listing ts ≠ .unfinished := by
  have shorter := length_skip_le ts
  have settled : Settled 0 (toEnd (ts.length + 1) (ts.length + 1))
      (toEnd (ts.length + 1) (ts.length + 1)) (skip ts) :=
    settled_toEnd (by omega) (by omega) (by omega) (by omega)
  rw [listing_eq ts (Nat.lt_succ_self _) (Nat.lt_succ_self _)]
  cases ran : toEnd (ts.length + 1) (ts.length + 1) (skip ts) with
  | ok found => nofun
  | error cause => nofun
  | unfinished =>
    have ended := settled.2
    rw [ran] at ended
    exact ended.elim

theorem listing_skip : listing (skip ts) = listing ts := by
  have shorter := length_skip_le ts
  have twice : skip (skip ts ++ []) = skip (ts ++ []) := skip_skip_append
  rw [List.append_nil, List.append_nil] at twice
  rw [listing_eq (skip ts) (n := ts.length + 1) (k := ts.length + 1) (by omega) (by omega), twice,
    ← listing_eq ts (Nat.lt_succ_self _) (Nat.lt_succ_self _)]

theorem listing_append_separators (separators : ∀ t ∈ seps, t.isSeparator = true) :
    listing (seps ++ us) = listing us := by
  induction seps with
  | nil => rfl
  | cons t seps ih =>
    have here : t.isSeparator = true := separators t List.mem_cons_self
    rw [← ih fun t later => separators t (List.mem_cons_of_mem _ later), ← listing_skip,
      List.cons_append, skip_separator here, listing_skip]

theorem listing_cons (goesOn : ((next ts).kind == .none) = false)
    (read : Reads .statement usual ts [first] after) :
    listing ts = (first :: ·) <$> listing after := by
  have shorter := read.length_add_least_le
  have ran := (complete read rfl).statement rfl (n := ts.length + 2) (by omega)
  have skipped : skip ts = ts := by simpa using read.skip_statement []
  rw [listing_eq ts (n := ts.length + 2) (k := ts.length + 2) (by omega) (by omega), skipped,
    listing_eq after (n := ts.length + 2) (k := ts.length + 1) (by omega) (by omega), toEnd,
    statementsUntil, peek_bind, ite_apply, if_neg (by simp [goesOn]), bind_of_ok ran, skip_bind]
  change Prod.fst <$> (toEnd _ _ (skip after) >>= fun found => .ok (first :: found.1, found.2)) = _
  cases toEnd (ts.length + 2) (ts.length + 1) (skip after) <;> rfl

theorem runsOn_separator (isSeparator : t.isSeparator = true) : runsOn ts nodes t = false := by
  have alone (node : Node) (final : Token) : joins node final t = false := by
    unfold joins
    split <;> rcases Bool.or_eq_true_iff.mp isSeparator with isKind | isKind <;>
      simp [additiveOf?, opens, endsPrint, Token.isSeparator, beq_iff_eq.mp isKind]
  simp [runsOn, alone]

theorem continues_separator (isSeparator : t.isSeparator = true) : continues ts nodes (t :: us) = false := by
  simp [continues, runsOn_separator isSeparator]

theorem listing_apart (begins : binds t = false)
    (read : Reads (.body (·.kind == .none)) usual (skip ts) nodes [])
    (apart : continues ts nodes (t :: us) = false) :
    listing (ts ++ t :: us) = (nodes ++ ·) <$> listing (t :: us) := by
  rw [← listing_skip, ← skip_skip_append]
  rw [← continues_skip] at apart
  generalize skip ts = ts at read apart
  induction nodes generalizing ts with
  | nil =>
    -- Without statements there were only separators.
    obtain rfl := read.body_nil
    rw [List.nil_append, listing_skip]
    cases listing (t :: us) <;> rfl
  | cons first nodes ih =>
    cases read with
    | bodyNext goesOn firstRead othersRead =>
      -- The first statement leaves the token, at the end of what it left before.
      obtain ⟨alone, apart⟩ := (continues_statement firstRead othersRead).mp apart
      have longer := firstRead.append us begins fun ended => ⟨rfl, alone ended⟩
      have goesOn : ((next (ts ++ t :: us)).kind == .none) = false := by
        rwa [next_append (firstRead.ne_nil rfl)]
      rw [firstRead.skip_statement, listing_cons goesOn longer, ← listing_skip, ← skip_skip_append,
        ih _ othersRead apart]
      cases listing (t :: us) <;> rfl

theorem listing_separated (isSeparator : t.isSeparator = true)
    (read : Reads (.body (·.kind == .none)) usual (skip ts) nodes []) :
    listing (ts ++ t :: us) = (nodes ++ ·) <$> listing us := by
  rw [listing_apart (binds_separator isSeparator) read (continues_separator isSeparator), ← listing_skip,
    skip_separator isSeparator, listing_skip]

end Parse

namespace Node

open Grammar Parse

variable {ts us seps : List Token} {nodes : List Node}

theorem parses_of_listing (solid : ∀ t ∈ ts, t.kind ≠ .none) (parsed : listing ts = .ok nodes) :
    Parses ts nodes := by
  rw [Node.listing] at parsed
  cases ran : statements (bound ts) ts with
  | ok found =>
    obtain ⟨nodes, rest⟩ := found
    rw [ran] at parsed
    obtain rfl := Outcome.ok.inj parsed
    obtain rfl := (statements_iff.mp ran).to_end solid
    exact ran
  | error cause => rw [ran] at parsed; cases parsed
  | unfinished => rw [ran] at parsed; cases parsed

theorem Parses.separated (parses : Parses ts nodes) (separating : Token.Separating seps) :
    listing (ts ++ seps ++ us) = (nodes ++ ·) <$> listing us := by
  obtain ⟨some, separators⟩ := separating
  cases seps with
  | nil => exact absurd rfl some
  | cons t seps =>
    have here := separators t List.mem_cons_self
    rw [List.append_assoc, List.cons_append, listing_separated here (statements_iff.mp parses),
      listing_append_separators fun t later => separators t (List.mem_cons_of_mem _ later)]

theorem Parses.append {others : List Node} (parses : Parses ts nodes)
    (separating : Token.Separating seps) (parsedNext : listing us = .ok others) :
    listing (ts ++ seps ++ us) = .ok (nodes ++ others) := by
  rw [parses.separated separating, parsedNext]
  rfl

theorem ofTokens_of_listing (parsed : listing ts = .ok nodes) : ofTokens ts = .ok (program nodes) := by
  rw [ofTokens_eq, parsed]
  rfl

end Node

open Node in
/-- Tokens that are parsed on their own, followed by separators and further tokens, are parsed as their
own statements and then those of the further tokens. Where the further tokens are refused, the whole is
refused for the same cause. -/
theorem separators_concatenate {ts seps : List Token} {nodes : List Node} (us : List Token)
    (solid : ∀ t ∈ ts, t.kind ≠ .none) (parsed : listing ts = .ok nodes)
    (separating : Token.Separating seps) :
    match listing us with
    | .ok others => listing (ts ++ seps ++ us) = .ok (nodes ++ others)
    | .error cause => listing (ts ++ seps ++ us) = .error cause
    | .unfinished => False := by
  rw [(parses_of_listing solid parsed).separated separating]
  cases further : listing us with
  | ok others => rfl
  | error cause => rfl
  | unfinished => exact absurd further Parse.listing_ne_unfinished

theorem separators_part_sign :
    let name (text : String) := Node.named .access (some text) []
    let call := [Token.identifier "f", .mark .lparen, .identifier "x", .mark .rparen]
    let minus := [Token.mark .minus, .identifier "y"]
    let seps := [Token.mark .sep, .mark .sep]
    (∀ t ∈ call, t.kind ≠ .none) ∧ Token.Separating seps ∧
      Node.listing call = .ok [Node.named .call (some "f") [name "x"]] ∧
      Node.listing minus = .ok [Node.sign .minus (name "y")] ∧
      Node.listing (call ++ seps ++ minus) =
        .ok [Node.named .call (some "f") [name "x"], Node.sign .minus (name "y")] ∧
      ∃ cause, Node.listing [.keyword "THEN"] = .error cause ∧
        Node.listing (call ++ seps ++ [.keyword "THEN"]) = .error cause := by
  intro name call minus seps
  have solid : ∀ t ∈ call, t.kind ≠ .none := by decide
  have separating : Token.Separating seps := by decide
  have parsed : Node.listing call = .ok [Node.named .call (some "f") [name "x"]] := by rfl
  refine ⟨solid, separating, parsed, by rfl, ?_, _, by rfl, ?_⟩
  · exact separators_concatenate minus solid parsed separating
  · exact separators_concatenate [.keyword "THEN"] solid parsed separating

end Pseudocode
