import Pseudocode.Proofs.Parser.Basic

set_option autoImplicit false

namespace Pseudocode

namespace Parse

open Grammar

variable {α β : Type} {ts : List Token} {d e : Nat}

def Settled (least : Nat) (p q : Parse α) (ts : List Token) : Prop :=
  q ts = p ts ∧
    match p ts with
    | .ok (_, rest) => rest.length + least ≤ ts.length
    | .error _ => True
    | .unfinished => False

section Rules

variable {p q : Parse α} {f g : α → Parse β}

theorem settled_pure (a : α) : Settled 0 (pure a) (pure a) ts := ⟨rfl, Nat.le_refl _⟩

theorem settled_fail (cause : ParseError) : Settled d (fail cause : Parse α) (fail cause) ts :=
  ⟨rfl, trivial⟩

theorem Settled.bind (first : Settled d p q ts)
    (next : ∀ a rest, rest.length + d ≤ ts.length → Settled (e - d) (f a) (g a) rest) :
    Settled e (p >>= f) (q >>= g) ts := by
  obtain ⟨same, ended⟩ := first
  change (q ts >>= fun found => g found.1 found.2) = (p ts >>= fun found => f found.1 found.2) ∧
    match p ts >>= fun found => f found.1 found.2 with
    | .ok (_, rest) => rest.length + e ≤ ts.length
    | .error _ => True
    | .unfinished => False
  rw [same]
  cases ran : p ts with
  | ok found =>
    -- The second part is asked only for the tokens that are still wanting.
    rw [ran] at ended
    obtain ⟨sameNext, endedNext⟩ := next found.1 found.2 ended
    refine ⟨sameNext, ?_⟩
    rw [Outcome.ok_bind]
    cases ranNext : f found.1 found.2 with
    | ok later =>
      rw [ranNext] at endedNext
      dsimp only at ended endedNext ⊢
      omega
    | error cause => trivial
    | unfinished => rw [ranNext] at endedNext; exact endedNext
  | error cause => exact ⟨rfl, trivial⟩
  | unfinished => rw [ran] at ended; exact ended.elim

theorem Settled.of_eq {p' q' : Parse α} {us : List Token} (settled : Settled d p q ts)
    (same : p' us = p ts) (same' : q' us = q ts) (longer : ts.length + e ≤ us.length + d) :
    Settled e p' q' us := by
  obtain ⟨equal, ended⟩ := settled
  rw [Settled, same, same']
  refine ⟨equal, ?_⟩
  cases ran : p ts with
  | ok found =>
    rw [ran] at ended
    dsimp only at ended ⊢
    omega
  | error cause => trivial
  | unfinished => rw [ran] at ended; exact ended

theorem Settled.weaken (settled : Settled d p q ts) : Settled 0 p q ts :=
  settled.of_eq rfl rfl (Nat.le_add_right _ _)

theorem Settled.done (first : Settled d p q ts) (made : α → β) :
    Settled d (p >>= fun a => pure (made a)) (q >>= fun a => pure (made a)) ts :=
  first.bind fun a _ _ => by
    rw [Nat.sub_self]
    exact settled_pure (made a)

theorem settled_ite {condition : Prop} [Decidable condition] {p q p' q' : Parse α}
    (yes : condition → Settled d p q ts) (no : ¬ condition → Settled d p' q' ts) :
    Settled d (if condition then p else p') (if condition then q else q') ts := by
  split
  next here => exact yes here
  next here => exact no here

theorem settled_peek {f g : Token → Parse β} (next : Settled d (f (next ts)) (g (next ts)) ts) :
    Settled d (peek >>= f) (peek >>= g) ts :=
  next

theorem settled_pass : Settled 0 advance advance ts := by
  refine ⟨rfl, ?_⟩
  simp [advance]

theorem settled_advance (more : ts ≠ []) : Settled 1 advance advance ts := by
  cases ts with
  | nil => exact absurd rfl more
  | cons t ts => exact ⟨rfl, Nat.le_refl _⟩

theorem settled_skip : Settled 0 skipSeparators skipSeparators ts :=
  ⟨rfl, length_skip_le ts⟩

theorem ne_nil_of_kind {kind : Token.Kind} (here : (next ts).kind = kind) (real : kind ≠ .none) :
    ts ≠ [] := by
  rintro rfl
  exact real here.symm

theorem ne_nil_of_word {word : String} (here : (next ts).isKeyword word = true) : ts ≠ [] :=
  ne_nil_of_kind (kind_of_isKeyword here) nofun

theorem settled_expect (kind : Token.Kind) (real : kind ≠ .none) (cause : ParseError) :
    Settled 1 (expect kind cause) (expect kind cause) ts := by
  refine settled_peek (settled_ite (fun here => ?_) fun _ => settled_fail cause)
  exact (settled_advance (ne_nil_of_kind (beq_iff_eq.mp here) real)).bind fun _ _ _ => settled_pure _

theorem settled_expectWord (word : String) (cause : ParseError) :
    Settled 1 (expectWord word cause) (expectWord word cause) ts :=
  settled_peek (settled_ite (fun here => settled_advance (ne_nil_of_word here))
    fun _ => settled_fail cause)

theorem settled_takeWord {word : String} {f g : Bool → Parse β}
    (yes : ∀ rest, rest.length + 1 ≤ ts.length → Settled (d - 1) (f true) (g true) rest)
    (no : Settled d (f false) (g false) ts) :
    Settled d (takeWord word >>= f) (takeWord word >>= g) ts := by
  rw [Settled, takeWord_bind, takeWord_bind]
  split
  next here =>
    have taken := (settled_advance (ne_nil_of_word here)).bind (e := d) fun _ => yes
    exact taken
  next => exact no

theorem settled_choice {word : String} {p p' q q' : Parse α} {f f' : α → Parse β}
    (yes : ∀ rest, rest.length < ts.length → Settled 0 p p' rest) (no : Settled 0 q q' ts)
    (next : ∀ a rest, rest.length ≤ ts.length → Settled 0 (f a) (f' a) rest) :
    Settled 0 (takeWord word >>= fun taken => if taken then p >>= f else q >>= f)
      (takeWord word >>= fun taken => if taken then p' >>= f' else q' >>= f') ts := by
  refine settled_takeWord (fun rest shorter => ?_) (no.bind next)
  exact (yes rest shorter).bind fun a later _ => next a later (by omega)

end Rules

def Below (k : Nat) (rec rec' : Goal → Parse Node) : Prop :=
  ∀ goal ts, ts.length < k → Settled 1 (rec goal) (rec' goal) ts

section Repetitions

variable {k n n' : Nat}

theorem settled_commaTail {item item' : Parse α}
    (settled : ∀ ts : List Token, ts.length < k → Settled 1 item item' ts) (within : ts.length < k)
    (enough : ts.length < n) (enough' : ts.length < n') :
    Settled 0 (commaTail item n) (commaTail item' n') ts := by
  -- Each round takes a comma and an item, so there are always more rounds left than tokens.
  induction n generalizing n' ts with
  | zero => omega
  | succ n ih =>
    obtain ⟨n', rfl⟩ : ∃ m, n' = m + 1 := ⟨n' - 1, by omega⟩
    refine settled_peek (settled_ite (fun here => ?_) fun _ => settled_pure _)
    refine (settled_advance (ne_nil_of_kind (beq_iff_eq.mp here) nofun)).bind fun _ mid _ => ?_
    refine (settled mid (by omega)).bind fun first rest _ => ?_
    exact (ih (by omega) (by omega) (by omega)).done _

theorem settled_commaList {item item' : Parse α}
    (settled : ∀ ts : List Token, ts.length < k → Settled 1 item item' ts) (within : ts.length < k)
    (enough : k ≤ n) (enough' : k ≤ n') : Settled 1 (commaList item n) (commaList item' n') ts := by
  refine (settled ts within).bind fun first rest _ => ?_
  exact (settled_commaTail settled (by omega) (by omega) (by omega)).done _

theorem settled_operators {operator? : Token → Option Arithmetic} {operand operand' : Parse Node}
    (none : operator? Token.stop = none)
    (settled : ∀ ts : List Token, ts.length < k → Settled 1 operand operand' ts) (left : Node)
    (within : ts.length < k) (enough : ts.length < n) (enough' : ts.length < n') :
    Settled 0 (operators operator? operand n left) (operators operator? operand' n' left) ts := by
  induction n generalizing n' ts left with
  | zero => omega
  | succ n ih =>
    obtain ⟨n', rfl⟩ : ∃ m, n' = m + 1 := ⟨n' - 1, by omega⟩
    refine settled_peek ?_
    cases found : operator? (next ts) with
    | none => exact settled_pure left
    | some op =>
      have more : ts ≠ [] := by
        rintro rfl
        cases none.symm.trans found
      refine (settled_advance more).bind fun _ mid _ => ?_
      refine (settled mid (by omega)).bind fun right rest _ => ?_
      exact ih _ (by omega) (by omega) (by omega)

end Repetitions

section Grammar

variable {k n n' : Nat} {rec rec' : Goal → Parse Node} (below : Below k rec rec')
  (enough : k ≤ n) (enough' : k ≤ n')

section Bodies

include below

theorem settled_statementsUntil (stop : Token → Bool) (within : ts.length < k)
    (enough : ts.length < n) (enough' : ts.length < n') :
    Settled 0 (statementsUntil rec stop n) (statementsUntil rec' stop n') ts := by
  induction n generalizing n' ts with
  | zero => omega
  | succ n ih =>
    obtain ⟨n', rfl⟩ : ∃ m, n' = m + 1 := ⟨n' - 1, by omega⟩
    refine settled_peek (settled_ite (fun _ => settled_pure _) fun _ => ?_)
    refine (below .statement ts within).bind fun first mid _ => ?_
    refine settled_skip.bind fun _ rest _ => ?_
    exact (ih (by omega) (by omega) (by omega)).done _

theorem settled_finalResult (closing : Closing) (within : ts.length < k) :
    Settled 0 (finalResult rec closing) (finalResult rec' closing) ts := by
  refine settled_takeWord (fun rest _ => ?_) (settled_pure _)
  refine (below .statement rest (by omega)).bind fun result _ _ => ?_
  refine settled_skip.bind fun _ _ _ => settled_peek ?_
  exact settled_ite (fun _ => settled_pure _) fun _ => settled_fail _

theorem settled_returnStatement (within : ts.length < k) :
    Settled 0 (returnStatement rec) (returnStatement rec') ts :=
  (below .statement ts within).bind fun _ _ _ => settled_pure _

theorem settled_dimension (within : ts.length < k) : Settled 1 (dimension rec) (dimension rec') ts := by
  refine (below .statement ts within).bind fun low mid _ => ?_
  refine (settled_expect .colon nofun _).bind fun _ rest _ => ?_
  exact (below .statement rest (by omega)).bind fun _ _ _ => settled_pure _

end Bodies

include below enough enough'

theorem settled_items (within : ts.length < k) :
    Settled 1 (commaList (rec .statement) n) (commaList (rec' .statement) n') ts :=
  settled_commaList (below .statement) within enough enough'

theorem settled_body (stop : Token → Bool) (within : ts.length < k) :
    Settled 0 (statementsUntil rec stop n) (statementsUntil rec' stop n') ts :=
  settled_statementsUntil below stop within (by omega) (by omega)

theorem settled_block (terminators : List String) (within : ts.length < k) :
    Settled 0 (block rec n terminators) (block rec' n' terminators) ts :=
  settled_skip.bind fun _ _ _ => (settled_body below enough enough' _ (by omega)).done _

theorem settled_list (more : ts ≠ []) (within : ts.length ≤ k) :
    Settled 1 (list rec n) (list rec' n') ts := by
  refine (settled_advance more).bind fun _ mid _ => settled_peek (settled_ite (fun _ => ?_) fun _ => ?_)
  · exact settled_pass.bind fun _ _ _ => settled_pure _
  · refine (settled_items below enough enough' (by omega)).bind fun items _ _ => ?_
    exact (settled_expect .rbracket nofun _).bind fun _ _ _ => settled_pure _

theorem settled_call (name : Option String) (within : ts.length < k) :
    Settled 0 (call rec n name) (call rec' n' name) ts := by
  refine settled_pass.bind fun _ mid _ => settled_peek (settled_ite (fun _ => ?_) fun _ => ?_)
  · exact settled_pass.bind fun _ _ _ => settled_pure _
  · refine (settled_items below enough enough' (by omega)).bind fun items _ _ => ?_
    exact (settled_expect .rparen nofun _).bind fun _ _ _ => settled_pure _

theorem settled_element (name : Option String) (within : ts.length < k) :
    Settled 0 (element rec n name) (element rec' n' name) ts := by
  refine settled_pass.bind fun _ mid _ => ?_
  refine (settled_items below enough enough' (by omega)).bind fun indices _ _ => ?_
  exact (settled_expect .rbracket nofun _).bind fun _ _ _ => settled_pure _

theorem settled_identifier (name : Option String) (within : ts.length < k) :
    Settled 0 (identifier rec n name) (identifier rec' n' name) ts := by
  refine settled_peek ?_
  split
  next => exact settled_call below enough enough' name within
  next => exact settled_element below enough enough' name within
  next => exact settled_pure _

theorem settled_atom (within : ts.length ≤ k) : Settled 1 (atom rec n) (atom rec' n') ts := by
  refine settled_peek ?_
  split
  next here =>
    exact (settled_advance (ne_nil_of_kind here nofun)).bind fun _ _ _ => settled_pure _
  next here =>
    exact (settled_advance (ne_nil_of_kind here nofun)).bind fun _ _ _ => settled_pure _
  next here => exact settled_list below enough enough' (ne_nil_of_kind here nofun) within
  next here =>
    refine (settled_advance (ne_nil_of_kind here nofun)).bind fun _ mid _ => ?_
    refine (below .statement mid (by omega)).bind fun inner _ _ => ?_
    exact (settled_expect .rparen nofun _).bind fun _ _ _ => settled_pure _
  next here =>
    refine (settled_advance (ne_nil_of_kind here nofun)).bind fun _ mid _ => ?_
    exact settled_identifier below enough enough' _ (by omega)
  next =>
    refine settled_ite (fun here => ?_) fun _ => settled_fail _
    have more : ts ≠ [] := by
      rcases Bool.or_eq_true_iff.mp here with isWord | isWord <;> exact ne_nil_of_word isWord
    exact (settled_advance more).bind fun _ _ _ => settled_pure _

theorem settled_power (within : ts.length ≤ k) : Settled 1 (power rec n) (power rec' n') ts := by
  refine (settled_atom below enough enough' within).bind fun base mid _ => settled_peek ?_
  refine settled_ite (fun here => ?_) fun _ => settled_pure _
  refine (settled_advance (ne_nil_of_kind (beq_iff_eq.mp here) nofun)).bind fun _ rest _ => ?_
  exact (below .factor rest (by omega)).bind fun _ _ _ => settled_pure _

theorem settled_factor (within : ts.length ≤ k) : Settled 1 (factor rec n) (factor rec' n') ts := by
  refine settled_peek ?_
  split
  next here =>
    refine (settled_advance (ne_nil_of_kind here nofun)).bind fun _ mid _ => ?_
    exact (below .factor mid (by omega)).bind fun _ _ _ => settled_pure _
  next here =>
    refine (settled_advance (ne_nil_of_kind here nofun)).bind fun _ mid _ => ?_
    exact (below .factor mid (by omega)).bind fun _ _ _ => settled_pure _
  next => exact settled_power below enough enough' within

theorem settled_term (within : ts.length ≤ k) : Settled 1 (term rec n) (term rec' n') ts := by
  refine (settled_factor below enough enough' within).bind fun first mid _ => ?_
  exact settled_operators (k := k) rfl (fun ts short => settled_factor below enough enough' (by omega)) first
    (by omega) (by omega) (by omega)

theorem settled_sum (within : ts.length ≤ k) : Settled 1 (sum rec n) (sum rec' n') ts := by
  refine (settled_term below enough enough' within).bind fun first mid _ => ?_
  exact settled_operators (k := k) rfl (fun ts short => settled_term below enough enough' (by omega)) first
    (by omega) (by omega) (by omega)

theorem settled_relations {m m' : Nat} (left : Node) (within : ts.length < k) (rounds : ts.length < m)
    (rounds' : ts.length < m') : Settled 0 (relations rec n m left) (relations rec' n' m' left) ts := by
  induction m generalizing m' ts left with
  | zero => omega
  | succ m ih =>
    obtain ⟨m', rfl⟩ : ∃ m, m' = m + 1 := ⟨m' - 1, by omega⟩
    refine settled_peek ?_
    cases compares : comparisonOf? (next ts) with
    | some op =>
      have more : ts ≠ [] := by
        rintro rfl
        cases compares
      refine (settled_advance more).bind fun _ mid _ => ?_
      refine (settled_sum below enough enough' (by omega)).bind fun right rest _ => ?_
      exact ih _ (by omega) (by omega) (by omega)
    | none =>
      dsimp only
      cases connects : connectiveOf? (next ts) with
      | some op =>
        have more : ts ≠ [] := by
          rintro rfl
          cases connects
        refine (settled_advance more).bind fun _ mid _ => ?_
        refine (below .comparison mid (by omega)).bind fun right rest _ => ?_
        exact ih _ (by omega) (by omega) (by omega)
      | none => exact settled_pure left

theorem settled_comparison (within : ts.length ≤ k) :
    Settled 1 (comparison rec n) (comparison rec' n') ts := by
  refine settled_takeWord (fun rest _ => ?_) ?_
  · exact (below .comparison rest (by omega)).bind fun _ _ _ => settled_pure _
  · refine (settled_sum below enough enough' within).bind fun first rest _ => ?_
    exact settled_relations below enough enough' first (by omega) (by omega) (by omega)

theorem settled_ifStatement (within : ts.length < k) :
    Settled 0 (ifStatement rec n) (ifStatement rec' n') ts := by
  refine (below .condition ts within).bind fun condition _ _ => ?_
  refine (settled_expectWord _ _).bind fun _ _ _ => ?_
  refine (settled_block below enough enough' _ (by omega)).bind fun yes _ _ => ?_
  refine settled_takeWord (fun _ _ => ?_) ?_
  · refine (settled_block below enough enough' _ (by omega)).bind fun no _ _ => ?_
    exact (settled_expectWord _ _).bind fun _ _ _ => settled_pure _
  · exact (settled_expectWord _ _).bind fun _ _ _ => settled_pure _

theorem settled_forStatement (within : ts.length < k) :
    Settled 0 (forStatement rec n) (forStatement rec' n') ts := by
  refine (settled_expect .identifier nofun _).bind fun target _ _ => ?_
  refine (settled_expect .assign nofun _).bind fun _ mid _ => ?_
  refine (below .statement mid (by omega)).bind fun start _ _ => ?_
  refine (settled_expectWord _ _).bind fun _ mid _ => ?_
  refine (below .statement mid (by omega)).bind fun final mid _ => ?_
  refine settled_choice (fun rest _ => (below .statement rest (by omega)).weaken) (settled_pure _)
    fun increment _ _ => ?_
  refine (settled_block below enough enough' _ (by omega)).bind fun body _ _ => ?_
  refine (settled_expectWord _ _).bind fun _ _ _ => settled_peek ?_
  refine settled_ite (fun _ => ?_) fun _ => settled_fail _
  exact settled_pass.bind fun _ _ _ => settled_pure _

theorem settled_whileStatement (within : ts.length < k) :
    Settled 0 (whileStatement rec n) (whileStatement rec' n') ts := by
  refine (below .condition ts within).bind fun condition _ _ => ?_
  refine (settled_expectWord _ _).bind fun _ _ _ => ?_
  refine (settled_block below enough enough' _ (by omega)).bind fun body _ _ => ?_
  exact (settled_expectWord _ _).bind fun _ _ _ => settled_pure _

theorem settled_repeatStatement (within : ts.length < k) :
    Settled 0 (repeatStatement rec n) (repeatStatement rec' n') ts := by
  refine (settled_block below enough enough' _ within).bind fun body _ _ => ?_
  refine (settled_expectWord _ _).bind fun _ rest _ => ?_
  exact (below .statement rest (by omega)).bind fun _ _ _ => settled_pure _

omit below in
theorem settled_parameters (within : ts.length < k) :
    Settled 0 (parameters n) (parameters n') ts := by
  have item (ts : List Token) : Settled 1 parameter parameter ts :=
    (settled_expect .identifier nofun _).bind fun _ _ _ => settled_pure _
  refine settled_peek (settled_ite (fun _ => ?_) fun _ => settled_pure _)
  exact (settled_commaList (fun ts _ => item ts) within enough enough').weaken

omit below enough enough' in
theorem settled_definitionHead (opening : Option String) :
    Settled 0 (definitionHead opening) (definitionHead opening) ts := by
  refine settled_ite (fun _ => settled_takeWord (fun _ _ => settled_peek ?_) (settled_pure _)) fun _ => ?_
  · exact settled_ite (fun _ => settled_pass) fun _ => settled_pure _
  · refine settled_ite (fun _ => settled_pure _) fun _ => ?_
    exact (settled_expectWord _ _).weaken

theorem settled_definition (opening : Option String) (within : ts.length < k) :
    Settled 0 (definition rec n opening) (definition rec' n' opening) ts := by
  refine (settled_expect .identifier nofun _).bind fun function _ _ => ?_
  refine (settled_expect .lparen nofun _).bind fun _ _ _ => ?_
  refine (settled_parameters enough enough' (by omega)).bind fun names _ _ => ?_
  refine (settled_expect .rparen nofun _).bind fun _ _ _ => ?_
  refine (settled_definitionHead opening).bind fun _ _ _ => ?_
  refine (settled_block below enough enough' _ (by omega)).bind fun body _ _ => ?_
  refine (settled_finalResult below _ (by omega)).bind fun result _ _ => ?_
  exact (settled_expectWord _ _).bind fun _ _ _ => settled_pure _

theorem settled_printStatement (within : ts.length < k) :
    Settled 0 (printStatement rec n) (printStatement rec' n') ts := by
  refine settled_peek (settled_ite (fun _ => settled_pure _) fun _ => ?_)
  exact (settled_items below enough enough' within).bind fun _ _ _ => settled_pure _

theorem settled_readStatement (within : ts.length < k) :
    Settled 0 (readStatement rec n) (readStatement rec' n') ts :=
  (settled_items below enough enough' within).bind fun _ _ _ => settled_pure _

omit below enough enough' in
theorem settled_inputStatement : Settled 0 inputStatement inputStatement ts :=
  (settled_expect .identifier nofun _).bind fun _ _ _ => settled_pure _

omit below enough enough' in
theorem settled_includeStatement : Settled 0 includeStatement includeStatement ts :=
  (settled_expect .string nofun _).bind fun _ _ _ => settled_pure _

theorem settled_declareStatement (within : ts.length < k) :
    Settled 0 (declareStatement rec n) (declareStatement rec' n') ts := by
  refine (settled_expect .identifier nofun _).bind fun target _ _ => ?_
  refine (settled_expect .colon nofun _).bind fun _ _ _ => ?_
  refine settled_takeWord (fun rest _ => ?_) ?_
  · refine (settled_expect .lbracket nofun _).bind fun _ _ _ => ?_
    have dimensions {ts : List Token} (within : ts.length < k) :=
      settled_commaList (k := k) (fun _ => settled_dimension below) within enough enough'
    refine (dimensions (by omega)).bind fun found _ _ => ?_
    refine (settled_expect .rbracket nofun _).bind fun _ _ _ => ?_
    refine (settled_expectWord _ _).bind fun _ _ _ => ?_
    exact (settled_expect .keyword nofun _).bind fun _ _ _ => settled_pure _
  · exact (settled_expect .keyword nofun _).bind fun _ _ _ => settled_pure _

theorem settled_caseItem (within : ts.length < k) :
    Settled 1 (caseItem rec n) (caseItem rec' n') ts := by
  refine (below .statement ts within).bind fun value _ _ => ?_
  refine settled_choice (fun rest _ => ?_) (settled_pure none) fun upper _ _ => ?_
  · exact ((below .statement rest (by omega)).done some).weaken
  · refine (settled_expect .colon nofun _).bind fun _ _ _ => ?_
    exact (settled_body below enough enough' _ (by omega)).bind fun _ _ _ => settled_pure _

theorem settled_caseItems {m m' : Nat} (last : Option Node) (within : ts.length < k)
    (rounds : ts.length < m) (rounds' : ts.length < m') :
    Settled 0 (caseItems rec n m last) (caseItems rec' n' m' last) ts := by
  induction m generalizing m' ts last with
  | zero => omega
  | succ m ih =>
    obtain ⟨m', rfl⟩ : ∃ m, m' = m + 1 := ⟨m' - 1, by omega⟩
    refine settled_takeWord (fun _ _ => settled_pure _) ?_
    refine settled_takeWord (fun rest _ => ?_) ?_
    · have otherwise : Settled 0 (otherwise rec n) (otherwise rec' n') rest := by
        refine (settled_expect .colon nofun _).bind fun _ _ _ => ?_
        exact (settled_body below enough enough' _ (by omega)).bind fun _ _ _ => settled_pure _
      exact otherwise.bind fun body _ _ => ih _ (by omega) (by omega) (by omega)
    · refine (settled_caseItem below enough enough' within).bind fun item _ _ => ?_
      exact (ih last (by omega) (by omega) (by omega)).done _

theorem settled_caseStatement (within : ts.length < k) :
    Settled 0 (caseStatement rec n) (caseStatement rec' n') ts := by
  refine (settled_expectWord _ _).bind fun _ _ _ => ?_
  refine (settled_expect .identifier nofun _).bind fun subject _ _ => ?_
  exact (settled_caseItems below enough enough' none (by omega) (by omega) (by omega)).done _

theorem settled_keywordStatement {word : Token} (within : (word :: ts).length ≤ k) :
    Settled 1 (keywordStatement rec n word) (keywordStatement rec' n' word) (word :: ts) := by
  have short : ts.length < k := within
  have taken {p q : Parse Node} (settled : Settled 0 p q ts) :
      Settled 1 (advance >>= fun _ => p) (advance >>= fun _ => q) (word :: ts) :=
    settled.of_eq rfl rfl (Nat.le_refl _)
  unfold keywordStatement
  split
  · exact taken (settled_ifStatement below enough enough' short)
  · exact taken (settled_forStatement below enough enough' short)
  · exact taken (settled_whileStatement below enough enough' short)
  · exact taken (settled_definition below enough enough' _ short)
  · exact taken (settled_definition below enough enough' _ short)
  · exact taken (settled_definition below enough enough' _ short)
  · exact taken (settled_printStatement below enough enough' short)
  · exact taken settled_inputStatement
  · exact taken (settled_readStatement below enough enough' short)
  · exact taken settled_includeStatement
  · exact taken (settled_caseStatement below enough enough' short)
  · exact taken (settled_repeatStatement below enough enough' short)
  · exact taken (settled_declareStatement below enough enough' short)
  · exact taken (settled_returnStatement below short)
  · exact settled_fail _
  · exact settled_comparison below enough enough' within

theorem settled_plainStatement (within : ts.length ≤ k) :
    Settled 1 (plainStatement rec n) (plainStatement rec' n') ts := by
  refine settled_peek (settled_ite (fun here => ?_) fun _ => ?_)
  · obtain ⟨word, mid, rfl, _⟩ := next_kind (by decide) (beq_iff_eq.mp here)
    exact settled_keywordStatement below enough enough' within
  · exact settled_comparison below enough enough' within

theorem settled_elementAssign (name : Option String) (within : ts.length < k) :
    Settled 0 (elementAssign rec n name) (elementAssign rec' n' name) ts := by
  refine (settled_items below enough enough' within).bind fun indices _ _ => ?_
  refine (settled_expect .rbracket nofun _).bind fun _ _ _ => ?_
  refine settled_pass.bind fun _ rest _ => ?_
  exact (below .statement rest (by omega)).bind fun _ _ _ => settled_pure _

theorem settled_statement (within : ts.length ≤ k) :
    Settled 1 (statement rec n) (statement rec' n') ts := by
  by_cases assigns : startsAssignment ts = true
  -- An assignment has its name and sign taken before its value is asked for.
  · match ts with
    | first :: second :: ts =>
      simp only [startsAssignment, Bool.and_eq_true, Bool.or_eq_true, beq_iff_eq] at assigns
      simp only [List.length_cons] at within
      obtain ⟨isName, isAssign | ⟨isOpen, ahead⟩⟩ := assigns
      · have value := (below .statement ts (by omega)).done
          fun value => Node.named .assign first.name [value]
        exact value.of_eq (statement_assign isName isAssign) (statement_assign isName isAssign)
          (by simp)
      · have assignment : Settled 0 (elementAssign rec n first.name) (elementAssign rec' n' first.name) ts :=
          settled_elementAssign below enough enough' first.name (by omega)
        exact assignment.of_eq (statement_elementAssign isName isOpen ahead)
          (statement_elementAssign isName isOpen ahead) (by simp)
  · have plain := settled_plainStatement below enough enough' within
    have none := Bool.eq_false_iff.mpr assigns
    exact plain.of_eq (statement_eq_plain none) (statement_eq_plain none) (Nat.le_refl _)

theorem settled_step (goal : Goal) (within : ts.length ≤ k) :
    Settled 1 (step rec n goal) (step rec' n' goal) ts := by
  cases goal with
  | statement => exact settled_statement below enough enough' within
  | condition => exact settled_plainStatement below enough enough' within
  | comparison => exact settled_comparison below enough enough' within
  | factor => exact settled_factor below enough enough' within

end Grammar

theorem settled_run {k n n' : Nat} (enough : k ≤ n) (enough' : k ≤ n') :
    Below k (run n) (run n') := by
  -- On the number of tokens: what a goal asks for it asks on fewer.
  induction k generalizing n n' with
  | zero => nofun
  | succ k ih =>
    obtain ⟨n, rfl⟩ : ∃ m, n = m + 1 := ⟨n - 1, by omega⟩
    obtain ⟨n', rfl⟩ : ∃ m, n' = m + 1 := ⟨n' - 1, by omega⟩
    intro goal ts within
    exact settled_step (ih (by omega) (by omega)) (by omega) (by omega) goal (by omega)

end Parse

end Pseudocode
