import Pseudocode.Proofs.Lines.Semicolon

set_option autoImplicit false

namespace Pseudocode

namespace Grammar

open Parse Mode

variable {part : Part} {p : Mode} {ts us rest : List Token} {nodes : List Node}

section Stops

def fromStop (ts : List Token) : List Token :=
  ts.dropWhile (·.kind != .none)

theorem fromStop_append (solid : ∀ t ∈ ts, t.kind ≠ .none) : fromStop (ts ++ us) = fromStop us :=
  List.dropWhile_append_of_pos fun t member => by simpa using solid t member

theorem Takes.fromStop_eq (taken : Takes ts rest) : fromStop rest = fromStop ts := by
  obtain ⟨used, rfl, _, solid⟩ := taken
  rw [fromStop_append solid]

end Stops

-- The tokens are a part and the rest, and the part has at least so many tokens.
structure Consumes (least : Nat) (ts rest : List Token) : Prop where
  takes : Takes ts rest
  moves : rest.length + least ≤ ts.length

theorem Reads.consumes (read : Reads part p ts nodes rest) : Consumes part.least ts rest :=
  ⟨read.takes, read.length_add_least_le⟩

theorem consumes_skip (ts : List Token) : Consumes 0 ts (skip ts) :=
  ⟨(Takes.refl ts).skip, length_skip_le ts⟩

theorem Consumes.after_skip {least : Nat} (consumed : Consumes least (skip ts) rest) : Consumes 0 ts rest where
  takes := (consumes_skip ts).takes.trans consumed.takes
  moves := by
    have skipped := (consumes_skip ts).moves
    have moved := consumed.moves
    omega

end Grammar

namespace Parse

open Grammar Mode

variable {α : Type} {ts us rest tokens : List Token} {nodes : List Node} {n start final room d : Nat}

section Routines

inductive Routine where
  | program
  | separators
  | block (terminators : List String)
  | statement
  | condition
  -- The statement that a word begins.
  | worded
  | comparison
  | sum
  | term
  | factor
  | power
  | atom
  | list
  | call
  deriving DecidableEq

namespace Routine

variable {routine : Routine}

def single (p : Parse Node) : Parse (List Node) :=
  (fun node => [node]) <$> p

def parser (n : Nat) : Routine → Parse (List Node)
  | program => Node.statements n
  | separators => (fun _ => []) <$> skipSeparators
  | block terminators => single (Parse.block (run n) n terminators)
  | statement => single (Parse.statement (run n) n)
  | condition => single (plainStatement (run n) n)
  | worded => single (peek >>= keywordStatement (run n) n)
  | comparison => single (Parse.comparison (run n) n)
  | sum => single (Parse.sum (run n) n)
  | term => single (Parse.term (run n) n)
  | factor => single (Parse.factor (run n) n)
  | power => single (Parse.power (run n) n)
  | atom => single (Parse.atom (run n) n)
  | list => single (Parse.list (run n) n)
  | call => single (peek >>= fun function => advance >>= fun _ => Parse.call (run n) n function.name)

def begins : Routine → List Token → Prop
  | worded, ts => statementWords.any (next ts).isKeyword
  | list, ts => (next ts).kind = .lbracket
  | call, ts => (next ts).kind = .identifier ∧ (next ts.tail).kind = .lparen
  | _, _ => True

def least : Routine → Nat
  | program | separators | block _ => 0
  | _ => 1

theorem begins_append (begun : routine.begins ts) : routine.begins (ts ++ us) := by
  cases routine with
  | worded =>
    obtain ⟨word, _, isWord⟩ := List.any_eq_true.mp begun
    obtain ⟨t, rest, rfl, _⟩ := next_word isWord
    exact begun
  | list =>
    obtain ⟨t, rest, rfl, isOpen⟩ := next_kind (by decide) begun
    exact isOpen
  | call =>
    obtain ⟨t, rest, rfl, isName⟩ := next_kind (by decide) begun.1
    obtain ⟨opening, rest, rfl, isOpen⟩ := next_kind (by decide) begun.2
    exact ⟨isName, isOpen⟩
  | _ => trivial

theorem single_ok {p : Parse Node} (accepted : single p ts = .ok (nodes, rest)) :
    ∃ node, p ts = .ok (node, rest) := by
  obtain ⟨node, accepted, _⟩ := map_ok.mp accepted
  exact ⟨node, accepted⟩

theorem consumes_power {node : Node} (accepted : Parse.power (run n) n ts = .ok (node, rest)) :
    Consumes 1 ts rest := by
  -- An atom begins with no sign, so neither does a power.
  obtain ⟨base, mid, read, _⟩ := bind_ok.mp accepted
  have first := (reads_atom (c := false) (reads_run n) read).first_of_atom
  have noSign : signOf? (next ts) = none := by
    have noPlus : (next ts).kind ≠ .plus := first.kind_ne (by decide)
    have noMinus : (next ts).kind ≠ .minus := first.kind_ne (by decide)
    unfold signOf?
    split
    · exact absurd ‹_› noPlus
    · exact absurd ‹_› noMinus
    · rfl
  exact (reads_power (c := false) (reads_run n) noSign accepted).consumes

theorem consumes_worded {node : Node} (begun : statementWords.any (next ts).isKeyword)
    (accepted : (peek >>= keywordStatement (run n) n) ts = .ok (node, rest)) : Consumes 1 ts rest := by
  obtain ⟨word, _, isWord⟩ := List.any_eq_true.mp begun
  obtain ⟨t, rest, rfl, isWord⟩ := next_word isWord
  exact (reads_keywordStatement (c := false) (reads_run n) (kind_of_isKeyword isWord) accepted).consumes

theorem consumes (begun : routine.begins ts) (accepted : routine.parser n ts = .ok (nodes, rest)) :
    Consumes routine.least ts rest := by
  have faithful := reads_run n
  cases routine with
  | program =>
    have read := reads_statementsUntil (c := false) faithful (accepted : _ = Outcome.ok (nodes, rest))
    exact read.consumes.after_skip
  | separators =>
    obtain ⟨_, skipped, _⟩ := map_ok.mp accepted
    obtain rfl : skip ts = rest := congrArg Prod.snd (Outcome.ok.inj skipped)
    exact consumes_skip ts
  | block terminators =>
    obtain ⟨node, accepted⟩ := single_ok accepted
    exact (reads_block (c := false) faithful accepted).consumes
  | statement =>
    obtain ⟨node, accepted⟩ := single_ok accepted
    exact (reads_statement faithful accepted).consumes
  | condition =>
    obtain ⟨node, accepted⟩ := single_ok accepted
    exact (reads_plainStatement (c := true) faithful accepted).consumes
  | worded =>
    obtain ⟨node, accepted⟩ := single_ok accepted
    exact consumes_worded begun accepted
  | comparison =>
    obtain ⟨node, accepted⟩ := single_ok accepted
    exact (reads_comparison (c := false) faithful accepted).consumes
  | sum =>
    obtain ⟨node, accepted⟩ := single_ok accepted
    exact (reads_sum (c := false) faithful accepted).consumes
  | term =>
    obtain ⟨node, accepted⟩ := single_ok accepted
    exact (reads_term (c := false) faithful accepted).consumes
  | factor =>
    obtain ⟨node, accepted⟩ := single_ok accepted
    exact (reads_factor (c := false) faithful accepted).consumes
  | power =>
    obtain ⟨node, accepted⟩ := single_ok accepted
    exact consumes_power accepted
  | atom =>
    obtain ⟨node, accepted⟩ := single_ok accepted
    exact (reads_atom (c := false) faithful accepted).consumes
  | list =>
    obtain ⟨node, accepted⟩ := single_ok accepted
    obtain ⟨opening, ts, rfl, isOpen⟩ := next_kind (by decide) begun
    exact (reads_list (c := false) faithful isOpen accepted).consumes
  | call =>
    obtain ⟨node, accepted⟩ := single_ok accepted
    obtain ⟨name, ts, rfl, isName⟩ := next_kind (by decide) begun.1
    obtain ⟨opening, ts, rfl, isOpen⟩ := next_kind (by decide) begun.2
    exact (reads_call (c := false) faithful isName isOpen accepted).consumes

end Routine

end Routines

section Positions

def padded (tokens : List Token) (room : Nat) : List Token :=
  tokens ++ List.replicate room Token.stop

/-- Called with the cursor at `start`, the parser returns with the cursor at `final`, which may lie beyond
the last token. -/
def Returns (p : Parse α) (tokens : List Token) (start : Nat) (found : α) (final : Nat) : Prop :=
  ∃ room, final ≤ tokens.length + room ∧
    p ((padded tokens room).drop start) = .ok (found, (padded tokens room).drop final)

theorem drop_padded :
    (padded tokens room).drop start = padded (tokens.drop start) (room - (start - tokens.length)) := by
  rw [padded, List.drop_append, List.drop_replicate, padded]

theorem drop_padded_of_le (inside : start ≤ tokens.length) :
    (padded tokens room).drop start = padded (tokens.drop start) room := by
  rw [drop_padded, Nat.sub_eq_zero_of_le inside, Nat.sub_zero]

theorem length_padded : (padded tokens room).length = tokens.length + room := by
  simp [padded]

theorem fromStop_padded (solid : ∀ t ∈ tokens, t.kind ≠ .none) :
    fromStop (padded tokens room) = List.replicate room Token.stop := by
  rw [padded, fromStop_append solid]
  cases room <;> rfl

theorem cursor_within (solid : ∀ t ∈ tokens, t.kind ≠ .none) (begun : start ≤ tokens.length ∨ 0 < d)
    (reached : final ≤ tokens.length + room)
    (consumed : Consumes d ((padded tokens room).drop start) ((padded tokens room).drop final)) :
    start + d ≤ final ∧ final ≤ tokens.length := by
  have moved := consumed.moves
  rw [List.length_drop, List.length_drop, length_padded] at moved
  -- The stops ahead are all still there, so the cursor has not moved among them.
  have kept : room - (start - tokens.length) ≤ ((padded tokens room).drop final).length := by
    have solid : ∀ t ∈ tokens.drop start, t.kind ≠ .none :=
      fun t member => solid t (List.mem_of_mem_drop member)
    have same : fromStop ((padded tokens room).drop final) =
        List.replicate (room - (start - tokens.length)) Token.stop := by
      rw [consumed.takes.fromStop_eq, drop_padded, fromStop_padded solid]
    have fewer := (List.dropWhile_suffix (l := (padded tokens room).drop final) (·.kind != .none)).length_le
    rw [fromStop] at same
    rwa [same, List.length_replicate] at fewer
  rw [List.length_drop, length_padded] at kept
  omega

variable {routine : Routine}

theorem Routine.consumes_of_returns (begun : routine.begins (tokens.drop start))
    (accepted : routine.parser n ((padded tokens room).drop start) =
      .ok (nodes, (padded tokens room).drop final)) :
    Consumes routine.least ((padded tokens room).drop start) ((padded tokens room).drop final) := by
  refine Routine.consumes ?_ accepted
  rw [drop_padded]
  exact begins_append begun

theorem program_at_end (solid : ∀ t ∈ tokens, t.kind ≠ .none) (inside : final ≤ tokens.length)
    (accepted : Node.statements n ts = .ok (nodes, (padded tokens room).drop final)) :
    final = tokens.length := by
  have read := reads_statementsUntil (c := false) (reads_run n) (accepted : _ = Outcome.ok (nodes, _))
  have stopped : (next ((padded tokens room).drop final)).kind = .none := beq_iff_eq.mp read.body_stop
  rw [drop_padded, padded] at stopped
  cases left : tokens.drop final with
  | nil =>
    have ended := List.drop_eq_nil_iff.mp left
    omega
  | cons t rest =>
    rw [left] at stopped
    exact absurd stopped (solid t (List.mem_of_mem_drop (left ▸ List.mem_cons_self)))

end Positions

section Endings

theorem statements_eq (enough : tokens.length < n) :
    Node.statements n tokens = Node.statements (Node.bound tokens) tokens := by
  have shorter := length_skip_le tokens
  have least : tokens.length < Node.bound tokens := by
    unfold Node.bound
    omega
  exact (settled_toEnd (by omega) (by omega) (by omega) (by omega) :
    Settled 0 (toEnd (Node.bound tokens) (Node.bound tokens)) (toEnd n n) (skip tokens)).1

theorem ofTokens_ends (tokens : List Token) :
    (∃ tree, Node.ofTokens tokens = .ok tree) ∨ ∃ cause, Node.ofTokens tokens = .error cause := by
  rw [Node.ofTokens_eq]
  cases parsed : Node.listing tokens with
  | ok found => exact .inl ⟨_, rfl⟩
  | error cause => exact .inr ⟨cause, rfl⟩
  | unfinished => exact absurd parsed listing_ne_unfinished

theorem returns_of_ofTokens {tree : Node} (solid : ∀ t ∈ tokens, t.kind ≠ .none)
    (parsed : Node.ofTokens tokens = .ok tree) :
    ∃ nodes, tree = Node.program nodes ∧
      Returns (Routine.program.parser (Node.bound tokens)) tokens 0 nodes tokens.length := by
  obtain ⟨⟨nodes, rest⟩, accepted, made⟩ := Outcome.bind_eq_ok.mp parsed
  obtain rfl : Node.program nodes = tree := Outcome.ok.inj made
  obtain rfl : rest = [] := (statements_iff.mp accepted).to_end solid
  refine ⟨nodes, rfl, 0, Nat.le_refl _, ?_⟩
  have none : padded tokens 0 = tokens := List.append_nil tokens
  rw [none, List.drop_zero, List.drop_length]
  exact accepted

end Endings

end Parse

open Parse

/-- On tokens without a stop the parser ends, with a tree or with an error, and no bound on it is ever used
up. A tree is made of all the tokens. A routine that is called with the cursor in the list or at its end, and
returns, leaves it there and not before where it was. One that reads an expression or a statement has moved on
when it returns, wherever it is called. -/
theorem parser_progresses {tokens : List Token} (solid : ∀ t ∈ tokens, t.kind ≠ .none) :
    ((∃ tree, Node.ofTokens tokens = .ok tree) ∨ ∃ cause, Node.ofTokens tokens = .error cause) ∧
    (∀ n, tokens.length < n → Node.statements n tokens = Node.statements (Node.bound tokens) tokens) ∧
    (∀ tree, Node.ofTokens tokens = .ok tree → ∃ nodes, tree = Node.program nodes ∧
      Returns (Routine.program.parser (Node.bound tokens)) tokens 0 nodes tokens.length) ∧
    ∀ (routine : Routine) (n start final : Nat) (nodes : List Node),
      start ≤ tokens.length ∨ 0 < routine.least → routine.begins (tokens.drop start) →
      Returns (routine.parser n) tokens start nodes final →
        start + routine.least ≤ final ∧ final ≤ tokens.length ∧
          (routine = .program → final = tokens.length) := by
  refine ⟨ofTokens_ends tokens, fun n enough => statements_eq enough,
    fun tree parsed => returns_of_ofTokens solid parsed, ?_⟩
  intro routine n start final nodes called begun ⟨room, reached, accepted⟩
  have consumed := Routine.consumes_of_returns begun accepted
  obtain ⟨forward, within⟩ := cursor_within solid called reached consumed
  refine ⟨forward, within, ?_⟩
  rintro rfl
  exact program_at_end solid within accepted

theorem element_assignment_progresses :
    let tokens : List Token := [.identifier "a", .mark .lbracket, .identifier "b", .mark .lbracket,
      .number 1.0, .mark .rbracket, .mark .rbracket, .mark .assign, .number 2.0]
    let index : Node := .named .elementAccess (some "b") [.number (some (.number 1.0))]
    let tree : Node := .named .elementAssign (some "a") [index, .number (some (.number 2.0))]
    (∀ t ∈ tokens, t.kind ≠ .none) ∧ Node.ofTokens tokens = .ok tree ∧
    (∃ nodes, tree = Node.program nodes ∧
      Returns (Routine.program.parser (Node.bound tokens)) tokens 0 nodes 9) ∧
    Returns (Routine.statement.parser 9) tokens 2 [index] 6 ∧
    ∀ final nodes, Returns (Routine.statement.parser 9) tokens 2 nodes final → 3 ≤ final ∧ final ≤ 9 := by
  intro tokens index tree
  have solid : ∀ t ∈ tokens, t.kind ≠ .none := by decide
  have parsed : Node.ofTokens tokens = .ok tree := rfl
  obtain ⟨_, _, whole, routines⟩ := parser_progresses solid
  refine ⟨solid, parsed, whole tree parsed, ⟨1, by decide, rfl⟩, fun final nodes returned => ?_⟩
  obtain ⟨forward, within, _⟩ := routines .statement 9 2 final nodes (.inl (by decide)) trivial returned
  exact ⟨forward, within⟩

end Pseudocode
