import Pseudocode.Proofs.Invariant.Agree

set_option autoImplicit false

namespace Pseudocode

theorem Table.mem_set {table : Table} {name : Option String} {value : Value}
    {binding : Option String × Value} (member : binding ∈ table.set name value) :
    binding = (name, value) ∨ binding ∈ table := by
  induction table with
  | nil => exact .inl (List.mem_singleton.mp member)
  | cons first rest ih =>
    unfold Table.set at member
    split at member
    next here =>
      rcases List.mem_cons.mp member with rfl | member
      · exact .inl (by rw [here])
      · exact .inr (List.mem_cons_of_mem _ member)
    next =>
      rcases List.mem_cons.mp member with rfl | member
      · exact .inr (List.mem_cons_self ..)
      · exact (ih member).imp_right (List.mem_cons_of_mem _)

namespace Eval

open Exec Invariant

variable {around : Surroundings} {I : Invariant around} {m : Machine} {rec rec' : Node → Exec Value}
  {node : Node}

theorem agree_requireNumber (holds : I.holds m) (cause : Fault) (v : Value) :
    I.Agree m (fun _ _ => True) (requireNumber cause v) (requireNumber cause v) :=
  (agree_tag holds v).bind holds fun _ _ holds _ _ =>
    agree_ite (fun _ => agree_fail holds _) fun _ => agree_pure trivial

theorem agree_holds (holds : I.holds m) (cause : Fault) (v : Value) :
    I.Agree m (fun _ _ => True) (Eval.holds cause v) (Eval.holds cause v) :=
  agree_ofExcept holds fun _ _ => trivial

theorem agree_number (holds : I.holds m) (v : Value) :
    I.Agree m (fun _ _ => True) (ofExcept v.toNumber) (ofExcept v.toNumber) :=
  agree_ofExcept holds fun _ _ => trivial

theorem agree_whole (holds : I.holds m) (v : Value) :
    I.Agree m (fun _ _ => True) (whole v) (whole v) :=
  agree_ofExcept holds fun _ _ => trivial

theorem agree_counter (holds : I.holds m) (name : Option String) :
    I.Agree m (fun _ _ => True) (counter name) (counter name) :=
  (agree_lookup holds _ _).bind holds fun _ _ holds _ _ => agree_number holds _

theorem agree_inRange (holds : I.holds m) (subject low high : Value) :
    I.Agree m (fun _ _ => True) (inRange subject low high) (inRange subject low high) := by
  refine (agree_requireNumber holds _ low).bind holds fun _ _ holds _ _ => ?_
  refine (agree_requireNumber holds _ high).bind holds fun _ _ holds _ _ => ?_
  refine (agree_requireNumber holds _ subject).bind holds fun _ _ holds _ _ => ?_
  refine (agree_number holds subject).bind holds fun _ _ holds _ _ => ?_
  refine (agree_number holds low).bind holds fun _ _ holds _ _ => ?_
  refine agree_ite (fun _ => ?_) fun _ => agree_pure trivial
  exact (agree_number holds high).bind holds fun _ _ _ _ _ => agree_pure trivial

theorem agree_returned (holds : I.holds m) :
    I.Agree m (fun s found => ∀ v, found = some v → I.value s v)
      (read (·.returned)) (read (·.returned)) :=
  agree_read fun _ returned => I.pending holds returned

section Control

variable (same : ∀ node m, I.tree node → I.holds m → I.Agree m I.value (rec node) (rec' node))
include same

theorem agree_part (parts : ∀ part ∈ node.children, I.tree part) (holds : I.holds m) (position : Nat) :
    I.Agree m I.value (child node position >>= fun part => rec part)
      (child node position >>= fun part => rec' part) :=
  (agree_child holds node position).bind holds fun part _ holds _ member =>
    same part _ (parts _ member) holds

theorem agree_operands (parts : ∀ part ∈ node.children, I.tree part) (holds : I.holds m) :
    I.Agree m (fun s (found : Value × Value) => I.value s found.1 ∧ I.value s found.2)
      (operands rec node) (operands rec' node) := by
  refine (agree_child holds node 0).bind holds fun part m holds _ member => ?_
  refine (same part m (parts _ member) holds).bind holds fun left m holds _ leftOk => ?_
  refine (agree_child holds node 1).bind holds fun part m holds first member => ?_
  refine (same part m (parts _ member) holds).bind holds fun right m holds second rightOk => ?_
  exact agree_pure ⟨I.grow (I.size second) (I.grow (I.size first) leftOk), rightOk⟩

theorem agree_values {nodes : List Node} (trees : ∀ node ∈ nodes, I.tree node) (holds : I.holds m) :
    I.Agree m (fun s found => ∀ v ∈ found, I.value s v) (values rec nodes) (values rec' nodes) := by
  induction nodes generalizing m with
  | nil => exact agree_pure nofun
  | cons node rest ih =>
    refine (same node m (trees node (by simp)) holds).bind holds fun first m holds _ firstOk => ?_
    refine (ih (fun node member => trees node (by simp [member])) holds).bind holds
      fun others m holds kept othersOk => ?_
    refine agree_pure fun v member => ?_
    rcases List.mem_cons.mp member with rfl | member
    · exact I.grow (I.size kept) firstOk
    · exact othersOk v member

theorem agree_block {nodes : List Node} {last : Value} (trees : ∀ node ∈ nodes, I.tree node)
    (holds : I.holds m) (lastOk : I.value m.store last) :
    I.Agree m I.value (block rec nodes last) (block rec' nodes last) := by
  induction nodes generalizing m last with
  | nil => exact agree_pure lastOk
  | cons statement rest ih =>
    refine (same statement m (trees statement (by simp)) holds).bind holds
      fun value m holds _ valueOk => ?_
    refine (agree_returned holds).bind holds fun found m holds kept foundOk => ?_
    cases found with
    | some result => exact agree_pure (foundOk result rfl)
    | none =>
      exact ih (fun node member => trees node (by simp [member])) holds
        (I.grow (I.size kept) valueOk)

theorem agree_sequence {nodes : List Node} {last : Value} (trees : ∀ node ∈ nodes, I.tree node)
    (holds : I.holds m) (lastOk : I.value m.store last) :
    I.Agree m I.value (sequence rec nodes last) (sequence rec' nodes last) := by
  induction nodes generalizing m last with
  | nil => exact agree_pure lastOk
  | cons statement rest ih =>
    exact (same statement m (trees statement (by simp)) holds).bind holds
      fun value m holds _ valueOk => ih (fun node member => trees node (by simp [member])) holds valueOk

theorem agree_ifThen (parts : ∀ part ∈ node.children, I.tree part) (holds : I.holds m) :
    I.Agree m I.value (ifThen rec node) (ifThen rec' node) := by
  refine (agree_child holds node 0).bind holds fun part m holds _ member => ?_
  refine (same part m (parts _ member) holds).bind holds fun condition m holds _ _ => ?_
  refine (agree_holds holds _ condition).bind holds fun _ m holds _ _ => ?_
  exact agree_ite (fun _ => agree_part same parts holds 1) fun _ => agree_pure (I.empty _)

theorem agree_ifElse (parts : ∀ part ∈ node.children, I.tree part) (holds : I.holds m) :
    I.Agree m I.value (ifElse rec node) (ifElse rec' node) := by
  refine (agree_child holds node 0).bind holds fun part m holds _ member => ?_
  refine (same part m (parts _ member) holds).bind holds fun condition m holds _ _ => ?_
  refine (agree_holds holds _ condition).bind holds fun _ m holds _ _ => ?_
  exact agree_ite (fun _ => agree_part same parts holds 1) fun _ => agree_part same parts holds 2

theorem agree_whileRounds {condition body : Node} (conditionTree : I.tree condition)
    (bodyTree : I.tree body) (n : Nat) {last : Value} (holds : I.holds m)
    (lastOk : I.value m.store last) :
    I.Agree m I.value (whileRounds rec condition body n last) (whileRounds rec' condition body n last) := by
  induction n generalizing m last with
  | zero => exact agree_unfinished
  | succ n ih =>
    refine (same condition m conditionTree holds).bind holds fun value m holds first _ => ?_
    refine (agree_holds holds _ value).bind holds fun _ m holds second _ => ?_
    refine agree_ite (fun _ => ?_) fun _ =>
      agree_pure (I.grow (I.size second) (I.grow (I.size first) lastOk))
    refine (same body m bodyTree holds).bind holds fun value m holds _ valueOk => ?_
    refine (agree_returned holds).bind holds fun found m holds kept foundOk => ?_
    cases found with
    | some result => exact agree_pure (foundOk result rfl)
    | none => exact ih holds (I.grow (I.size kept) valueOk)

theorem agree_whileLoop (parts : ∀ part ∈ node.children, I.tree part) (holds : I.holds m) (n : Nat) :
    I.Agree m I.value (whileLoop rec n node) (whileLoop rec' n node) :=
  (agree_child holds node 0).bind holds fun _ _ holds _ condition =>
    (agree_child holds node 1).bind holds fun _ _ holds _ body =>
      agree_whileRounds same (parts _ condition) (parts _ body) n holds (I.empty _)

theorem agree_repeatRounds {body condition : Node} (bodyTree : I.tree body)
    (conditionTree : I.tree condition) (n : Nat) (holds : I.holds m) :
    I.Agree m I.value (repeatRounds rec body condition n) (repeatRounds rec' body condition n) := by
  induction n generalizing m with
  | zero => exact agree_unfinished
  | succ n ih =>
    refine (same body m bodyTree holds).bind holds fun value m holds _ valueOk => ?_
    refine (agree_returned holds).bind holds fun found m holds first foundOk => ?_
    cases found with
    | some result => exact agree_pure (foundOk result rfl)
    | none =>
      refine (same condition m conditionTree holds).bind holds fun found m holds second _ => ?_
      refine (agree_holds holds _ found).bind holds fun _ m holds third _ => ?_
      have size := Nat.le_trans (I.size first) (Nat.le_trans (I.size second) (I.size third))
      exact agree_ite (fun _ => agree_pure (I.grow size valueOk)) fun _ => ih holds

theorem agree_repeatUntil (parts : ∀ part ∈ node.children, I.tree part) (holds : I.holds m) (n : Nat) :
    I.Agree m I.value (repeatUntil rec n node) (repeatUntil rec' n node) :=
  (agree_child holds node 0).bind holds fun _ _ holds _ body =>
    (agree_child holds node 1).bind holds fun _ _ holds _ condition =>
      agree_repeatRounds same (parts _ body) (parts _ condition) n holds

theorem agree_forRounds {name : Option String} {final : Value} {increment : Float} {body : Node}
    (bodyTree : I.tree body) (n : Nat) {last : Value} (holds : I.holds m)
    (lastOk : I.value m.store last) :
    I.Agree m I.value (forRounds rec name final increment body n last)
      (forRounds rec' name final increment body n last) := by
  induction n generalizing m last with
  | zero => exact agree_unfinished
  | succ n ih =>
    refine (agree_counter holds name).bind holds fun x m holds first _ => ?_
    refine (agree_number holds final).bind holds fun bound m holds second _ => ?_
    refine agree_ite (fun _ => ?_) fun _ =>
      agree_pure (I.grow (I.size second) (I.grow (I.size first) lastOk))
    refine (same body m bodyTree holds).bind holds fun value m holds _ valueOk => ?_
    refine (agree_returned holds).bind holds fun found m holds third foundOk => ?_
    cases found with
    | some result => exact agree_pure (foundOk result rfl)
    | none =>
      refine (agree_counter holds name).bind holds fun x m holds fourth _ => ?_
      refine (agree_assign holds name (I.number _ _)).bind holds fun _ m holds fifth _ => ?_
      have size := Nat.le_trans (I.size third) (Nat.le_trans (I.size fourth) (I.size fifth))
      exact ih holds (I.grow size valueOk)

theorem agree_forLoop (parts : ∀ part ∈ node.children, I.tree part) (holds : I.holds m) (n : Nat) :
    I.Agree m I.value (forLoop rec n node) (forLoop rec' n node) := by
  refine (agree_child holds node 0).bind holds fun part m holds _ member => ?_
  refine (same part m (parts _ member) holds).bind holds fun start m holds _ startOk => ?_
  refine (agree_child holds node 1).bind holds fun part m holds first member => ?_
  refine (same part m (parts _ member) holds).bind holds fun final m holds second _ => ?_
  refine (agree_child holds node 2).bind holds fun part m holds third member => ?_
  refine (same part m (parts _ member) holds).bind holds fun increment m holds fourth _ => ?_
  refine (agree_child holds node 3).bind holds fun body m holds fifth bodyMember => ?_
  have startOk := I.grow (I.size (I.trans first (I.trans second (I.trans third
    (I.trans fourth fifth))))) startOk
  refine (agree_requireNumber holds _ start).bind holds fun _ m holds sixth _ => ?_
  refine (agree_requireNumber holds _ final).bind holds fun _ m holds seventh _ => ?_
  refine (agree_requireNumber holds _ increment).bind holds fun _ m holds eighth _ => ?_
  have startOk := I.grow (I.size (I.trans sixth (I.trans seventh eighth))) startOk
  refine (agree_assign holds node.name startOk).bind holds fun _ m holds _ _ => ?_
  refine (agree_number holds increment).bind holds fun _ m holds _ _ => ?_
  exact agree_forRounds same (parts _ bodyMember) n holds (I.empty _)

theorem agree_caseItems {subject : Value} {items : List Node}
    (visits : ∀ item ∈ items, (item.kind = .caseOtherwise → I.tree item) ∧
      (item.kind ≠ .caseOtherwise → ∀ part ∈ item.children, I.tree part)) (holds : I.holds m) :
    I.Agree m I.value (caseItems rec subject items) (caseItems rec' subject items) := by
  -- Over the items, with the machine general: an item that does not match has still run its bounds.
  induction items generalizing m with
  | nil => exact agree_pure (I.empty _)
  | cons item rest ih =>
    obtain ⟨whole, parts⟩ := visits item (by simp)
    have ih {m : Machine} (holds : I.holds m) := ih (m := m)
      (fun item member => visits item (by simp [member])) holds
    have equal {m : Machine} (holds : I.holds m) (v : Value) :
        I.Agree m (fun _ _ => True) (caseItems.ofOutcomeEqual subject v)
          (caseItems.ofOutcomeEqual subject v) :=
      agree_ofOutcome holds fun _ _ => trivial
    unfold caseItems
    refine agree_ite (fun last => same item m (whole last) holds) fun other => ?_
    have parts := parts other
    refine (agree_child holds item 0).bind holds fun part m holds _ member => ?_
    refine (same part m (parts _ member) holds).bind holds fun value m holds _ _ => ?_
    split
    next first upper body children =>
      have part {node : Node} (member : node ∈ upper :: body) : I.tree node :=
        parts _ (by rw [children]; exact List.mem_cons_of_mem _ member)
      refine agree_ite (fun _ => ?_) fun _ => ?_
      · refine (equal holds value).bind holds fun _ m holds _ _ => ?_
        exact agree_ite (fun _ => agree_sequence same (fun _ => part) holds (I.empty _))
          fun _ => ih holds
      · refine (same upper m (part (by simp)) holds).bind holds fun high m holds _ _ => ?_
        refine (agree_inRange holds subject value high).bind holds fun _ m holds _ _ => ?_
        exact agree_ite
          (fun _ => agree_sequence same (fun _ member => part (by simp [member])) holds (I.empty _))
          fun _ => ih holds
    next =>
      refine (equal holds value).bind holds fun _ m holds _ _ => ?_
      exact agree_ite (fun _ => agree_pure (I.empty _)) fun _ => ih holds

theorem agree_connective (parts : ∀ part ∈ node.children, I.tree part) (holds : I.holds m) (op : Connective) :
    I.Agree m I.value (connective rec op node) (connective rec' op node) := by
  refine (agree_child holds node 0).bind holds fun part m holds _ member => ?_
  refine (same part m (parts _ member) holds).bind holds fun left m holds _ _ => ?_
  have decided : I.Agree m (fun s found => ∀ v, found = some v → I.value s v)
      (ofExcept (Operator.decided? op left)) (ofExcept (Operator.decided? op left)) :=
    agree_ofExcept holds fun found ran v decided => Domain.decided_admitted (decided ▸ ran)
  refine decided.bind holds fun found m holds _ foundOk => ?_
  cases found with
  | some result => exact agree_pure (foundOk result rfl)
  | none =>
    refine (agree_child holds node 1).bind holds fun part m holds _ member => ?_
    refine (same part m (parts _ member) holds).bind holds fun right m holds _ _ => ?_
    exact agree_ofExcept holds fun _ ran => Domain.connective_admitted ran

end Control

section Call

theorem agree_define (tree : I.tree node) (kind : node.kind = .define) (holds : I.holds m) :
    I.Agree m I.value (define node) (define node) := by
  refine (agree_child holds node 0).bind holds fun parameters m holds _ _ => ?_
  refine (agree_position holds node 1).bind holds fun body m holds _ bodyFound => ?_
  refine (agree_position holds node 2).bind holds fun result m holds _ resultFound => ?_
  have made : I.Agree m (fun s f => I.value s (.function f))
      (onStore fun store => .ok (store.makeFunction node.name parameters body result))
      (onStore fun store => .ok (store.makeFunction node.name parameters body result)) := by
    refine agree_onStore holds fun f store ran => ?_
    cases ran
    refine ⟨Nat.le_refl _, (I.sound holds).of_lists rfl, ?_⟩
    exact I.function.mpr ⟨I.defined tree kind bodyFound, I.defined tree kind resultFound⟩
  refine made.bind holds fun f m holds _ admitted => ?_
  refine (agree_assign holds node.name admitted).bind holds fun _ m holds kept _ => ?_
  exact agree_pure (I.grow (I.size kept) admitted)

theorem agree_bindArguments (parameters : List Node) (table : Table) {arguments : List Value}
    (holds : I.holds m) (admitted : ∀ v ∈ arguments, I.value m.store v)
    (bound : ∀ binding ∈ table, I.value m.store binding.2) :
    I.Agree m (fun s table => ∀ binding ∈ table, I.value s binding.2)
      (bindArguments parameters arguments table) (bindArguments parameters arguments table) := by
  induction parameters generalizing arguments table m with
  | nil => exact agree_pure bound
  | cons parameter parameters ih =>
    cases arguments with
    | nil => exact agree_pure bound
    | cons value arguments =>
      have copied : I.Agree m I.value (onStore fun store => store.copy value)
          (onStore fun store => store.copy value) :=
        agree_makes holds fun found ran =>
          Domain.copy_makes (I.sound holds) (admitted value (by simp)) ran
      refine copied.bind holds fun copy m holds kept copyOk => ?_
      refine ih _ holds (fun v member => I.grow (I.size kept) (admitted v (by simp [member]))) ?_
      intro binding member
      rcases Table.mem_set member with rfl | member
      · exact copyOk
      · exact I.grow (I.size kept) (bound binding member)

variable (same : ∀ node m, I.tree node → I.holds m → I.Agree m I.value (rec node) (rec' node))
include same

theorem agree_bodyValue {f : Function} (body : I.tree f.body) (result : I.tree f.result)
    (holds : I.holds m) : I.Agree m I.value (bodyValue rec f) (bodyValue rec' f) := by
  refine (same f.body m body holds).bind holds fun _ m holds _ _ => ?_
  refine (agree_returned holds).bind holds fun found m holds _ foundOk => ?_
  cases found with
  | some value => exact agree_pure (foundOk value rfl)
  | none => exact same f.result m result holds

theorem agree_apply {name : Option String} {f : Function} {arguments : List Value}
    (holds : I.holds m) (within : (m.calls : Int) < around.limit)
    (admitted : I.value m.store (.function f)) (argumentsOk : ∀ v ∈ arguments, I.value m.store v) :
    I.Agree m I.value (inCall (apply rec name f arguments)) (inCall (apply rec' name f arguments)) := by
  have bound := agree_bindArguments f.parameters.children [(name, .function f)] holds argumentsOk
    (by simp [admitted])
  have changed := bindArguments_store f.parameters.children arguments [(name, .function f)] m
  unfold Agree
  rw [inCall_apply, inCall_apply]
  by_cases fits : f.parameters.children.length = arguments.length
  · rw [if_neg (not_not_intro fits), if_neg (not_not_intro fits)]
    replace bound := bound.2
    cases h : bindArguments f.parameters.children arguments [(name, .function f)] m with
    | unfinished => exact ⟨rfl, trivial⟩
    | error found =>
      rw [h] at bound changed
      obtain ⟨store, same⟩ := changed
      refine ⟨rfl, ?_⟩
      dsimp only at same bound ⊢
      rw [same] at bound ⊢
      exact bound
    | ok found =>
      obtain ⟨table, middle⟩ := found
      rw [h] at bound changed
      obtain ⟨store, rfl⟩ := changed
      obtain ⟨kept, bindingsOk⟩ := bound
      -- The body runs on the machine that the binding of the arguments has left, opened.
      have holdsBound := I.keep holds kept
      have opened : I.holds (m.opened store table) := I.opened holdsBound within bindingsOk
      obtain ⟨body, result⟩ := I.function.mp (I.grow (I.size kept) admitted)
      obtain ⟨sameBody, ended⟩ := agree_bodyValue same body result opened
      dsimp only
      rw [sameBody]
      refine ⟨rfl, ?_⟩
      cases h' : bodyValue rec f (m.opened store table) with
      | ok found =>
        rw [h'] at ended
        have closed := I.closed holdsBound opened ended.1
        exact ⟨I.trans kept closed, ended.2⟩
      | error found =>
        rw [h'] at ended
        exact I.later kept (I.fault holdsBound opened ended)
      | unfinished => trivial
  · rw [if_pos fits, if_pos fits]
    exact ⟨rfl, I.stop holds⟩

theorem agree_call (parts : ∀ part ∈ node.children, I.tree part) (holds : I.holds m) :
    I.Agree m I.value (call rec around.limit node) (call rec' around.limit node) := by
  have count : I.Agree m (fun _ calls => calls = m.calls) (read (·.calls)) (read (·.calls)) :=
    agree_read rfl
  refine count.bind holds fun calls m' holds kept equal => ?_
  have within : calls = m'.calls := equal.trans (I.calls kept).symm
  refine agree_ite (fun _ => agree_fail holds _) fun below => ?_
  refine (agree_lookup holds _ _).bind holds fun value looked holds first valueOk => ?_
  refine (agree_tag holds value).bind holds fun _ tagged holds second _ => ?_
  have valueOk := I.grow (I.size second) valueOk
  split
  next f _ =>
    refine (agree_values same parts holds).bind holds
      fun arguments last holds third argumentsOk => ?_
    -- The limit was checked before the arguments ran. They leave the call count as it was, so the
    -- check still speaks of the machine the body opens on.
    have calls : last.calls = m'.calls :=
      (I.calls third).trans ((I.calls second).trans (I.calls first))
    exact agree_apply same holds (by omega) (I.grow (I.size third) valueOk) argumentsOk
  next => exact agree_fail holds _

theorem agree_returnValue (parts : ∀ part ∈ node.children, I.tree part) (holds : I.holds m) :
    I.Agree m I.value (returnValue rec node) (returnValue rec' node) := by
  refine (agree_child holds node 0).bind holds fun part m holds _ member => ?_
  refine (same part m (parts _ member) holds).bind holds fun value m holds _ valueOk => ?_
  have settled : I.Agree m I.value (onStore fun store => .ok (store.settle value))
      (onStore fun store => .ok (store.settle value)) := by
    refine agree_makes holds fun found ran => ?_
    cases ran
    exact Domain.makes_settle (I.sound holds) valueOk
  refine settled.bind holds fun value m holds _ valueOk => ?_
  have returned : I.Agree m (fun s _ => I.value s value)
      (modify fun m => { m with returned := some value })
      (modify fun m => { m with returned := some value }) :=
    agree_modify (I.returned holds valueOk) valueOk
  exact returned.bind holds fun _ _ _ _ valueOk => agree_pure valueOk

end Call

section Element

theorem agree_listNamed (holds : I.holds m) (name : Option String) :
    I.Agree m (fun _ _ => True) (listNamed name) (listNamed name) := by
  refine (agree_lookup holds _ _).bind holds fun value m holds _ _ => ?_
  refine (agree_tag holds value).bind holds fun _ m holds _ _ => ?_
  split
  next => exact agree_pure trivial
  next => exact agree_fail holds _

theorem agree_itemsOf (holds : I.holds m) (reference : Nat) :
    I.Agree m (fun s items => ∀ item ∈ items, I.value s item) (itemsOf reference)
      (itemsOf reference) :=
  agree_read (I.sound holds reference)

theorem agree_elementAt (holds : I.holds m) (which : Axis) {items : Array Value} (index : Int)
    (admitted : ∀ item ∈ items, I.value m.store item) :
    I.Agree m I.value (elementAt which items index) (elementAt which items index) := by
  refine agree_ite (fun _ => agree_fail holds _) fun _ => ?_
  split
  next found => exact agree_pure (admitted _ (Array.mem_of_getElem? found))
  next => exact agree_fail holds _

theorem agree_indexPair (holds : I.holds m) (row column : Value) :
    I.Agree m (fun _ _ => True) (indexPair row column) (indexPair row column) := by
  refine (agree_requireNumber holds _ row).bind holds fun _ m holds _ _ => ?_
  refine (agree_requireNumber holds _ column).bind holds fun _ m holds _ _ => ?_
  refine (agree_whole holds row).bind holds fun _ m holds _ _ => ?_
  exact (agree_whole holds column).bind holds fun _ m holds _ _ => agree_pure trivial

theorem agree_modifyList (holds : I.holds m) {reference : Nat} {change : Array Value → Array Value}
    (admitted : ∀ item ∈ change (m.store.items reference), I.value m.store item) :
    I.Agree m (fun _ _ => True) (modifyList reference change) (modifyList reference change) :=
  agree_modify (I.store holds (by simp [Store.modify]) ((I.sound holds).modify admitted)) trivial

theorem agree_writeElement (holds : I.holds m) (which : Axis) (reference : Nat) (index : Int)
    {v : Value} (admitted : I.value m.store v) :
    I.Agree m (fun _ _ => True) (writeElement which reference index v)
      (writeElement which reference index v) := by
  refine agree_ite (fun _ => agree_fail holds _) fun _ => ?_
  refine agree_modifyList holds fun item member => ?_
  rcases Array.mem_or_eq_of_mem_setIfInBounds member with member | rfl
  · rcases Array.mem_append.mp member with member | member
    · exact I.sound holds reference item member
    · rw [(Array.mem_replicate.mp member).2]
      exact I.number _ _
  · exact admitted

theorem agree_padRows (holds : I.holds m) (reference missing : Nat) :
    I.Agree m (fun _ _ => True) (padRows reference missing) (padRows reference missing) := by
  induction missing generalizing m with
  | zero => exact agree_pure trivial
  | succ missing ih =>
    refine (agree_makeList holds (by simp)).bind holds fun row m holds _ rowOk => ?_
    have pushed : I.Agree m (fun _ _ => True) (modifyList reference (·.push row))
        (modifyList reference (·.push row)) := by
      refine agree_modifyList holds fun item member => ?_
      rcases Array.mem_push.mp member with member | rfl
      · exact I.sound holds reference item member
      · exact rowOk
    exact pushed.bind holds fun _ m holds _ _ => ih holds

theorem agree_rowOf (holds : I.holds m) (reference row : Nat) :
    I.Agree m (fun _ _ => True) (rowOf reference row) (rowOf reference row) := by
  refine (agree_itemsOf holds reference).bind holds fun items m holds _ _ => ?_
  refine (agree_tag holds _).bind holds fun _ m holds _ _ => ?_
  split
  next => exact agree_pure trivial
  next =>
    refine (agree_makeList holds (by simp)).bind holds fun fresh m holds _ freshOk => ?_
    have placed : I.Agree m (fun _ _ => True) (modifyList reference (·.setIfInBounds row fresh))
        (modifyList reference (·.setIfInBounds row fresh)) := by
      refine agree_modifyList holds fun item member => ?_
      rcases Array.mem_or_eq_of_mem_setIfInBounds member with member | rfl
      · exact I.sound holds reference item member
      · exact freshOk
    refine placed.bind holds fun _ m holds _ _ => ?_
    split
    next => exact agree_pure trivial
    next => exact agree_fail holds _

theorem agree_writeCell (holds : I.holds m) (reference : Nat) (row column : Int) {v : Value}
    (admitted : I.value m.store v) :
    I.Agree m (fun _ _ => True) (writeCell reference row column v)
      (writeCell reference row column v) := by
  refine agree_ite (fun _ => agree_fail holds _) fun _ => ?_
  refine (agree_itemsOf holds reference).bind holds fun items m holds first _ => ?_
  refine (agree_padRows holds reference _).bind holds fun _ m holds second _ => ?_
  refine (agree_rowOf holds reference _).bind holds fun inner m holds third _ => ?_
  exact agree_writeElement holds _ _ _
    (I.grow (I.size (I.trans first (I.trans second third))) admitted)

variable (same : ∀ node m, I.tree node → I.holds m → I.Agree m I.value (rec node) (rec' node))
include same

theorem agree_elementAccess (parts : ∀ part ∈ node.children, I.tree part) (holds : I.holds m) :
    I.Agree m I.value (elementAccess rec node) (elementAccess rec' node) := by
  refine (agree_listNamed holds node.name).bind holds fun reference m holds _ _ => ?_
  split
  next first children =>
    have tree : I.tree first := parts _ (by simp [children])
    refine (same first m tree holds).bind holds fun index m holds _ _ => ?_
    refine (agree_requireNumber holds _ index).bind holds fun _ m holds _ _ => ?_
    refine (agree_whole holds index).bind holds fun place m holds _ _ => ?_
    exact (agree_itemsOf holds reference).bind holds fun items m holds _ itemsOk =>
      agree_elementAt holds _ _ itemsOk
  next first second children =>
    have firstTree : I.tree first := parts _ (by simp [children])
    have secondTree : I.tree second := parts _ (by simp [children])
    refine (same first m firstTree holds).bind holds fun row m holds _ _ => ?_
    refine (same second m secondTree holds).bind holds fun column m holds _ _ => ?_
    refine (agree_indexPair holds row column).bind holds fun place m holds _ _ => ?_
    refine (agree_itemsOf holds reference).bind holds fun items m holds _ itemsOk => ?_
    refine (agree_elementAt holds .row _ itemsOk).bind holds fun found m holds _ _ => ?_
    split
    next inner _ =>
      exact (agree_itemsOf holds inner).bind holds fun items m holds _ itemsOk =>
        agree_elementAt holds _ _ itemsOk
    next => exact agree_fail holds _
  next => exact agree_fail holds _

theorem agree_elementAssign (parts : ∀ part ∈ node.children, I.tree part) (holds : I.holds m) :
    I.Agree m I.value (elementAssign rec node) (elementAssign rec' node) := by
  refine (agree_listNamed holds node.name).bind holds fun reference m holds _ _ => ?_
  split
  next => exact agree_fail holds _
  next last found =>
    have lastTree : I.tree last := parts _ (List.mem_of_getLast? found)
    refine (same last m lastTree holds).bind holds fun value m holds _ valueOk => ?_
    split
    next first _ children =>
      have firstTree : I.tree first := parts _ (by simp [children])
      refine (same first m firstTree holds).bind holds fun index m holds kept _ => ?_
      have valueOk := I.grow (I.size kept) valueOk
      refine (agree_requireNumber holds _ index).bind holds fun _ m holds kept _ => ?_
      have valueOk := I.grow (I.size kept) valueOk
      refine (agree_whole holds index).bind holds fun place m holds kept _ => ?_
      have valueOk := I.grow (I.size kept) valueOk
      refine (agree_writeElement holds _ _ _ valueOk).bind holds fun _ m holds kept _ => ?_
      exact agree_pure (I.grow (I.size kept) valueOk)
    next first second _ children =>
      have firstTree : I.tree first := parts _ (by simp [children])
      have secondTree : I.tree second := parts _ (by simp [children])
      refine (same first m firstTree holds).bind holds fun row m holds kept _ => ?_
      have valueOk := I.grow (I.size kept) valueOk
      refine (same second m secondTree holds).bind holds fun column m holds kept _ => ?_
      have valueOk := I.grow (I.size kept) valueOk
      refine (agree_indexPair holds row column).bind holds fun place m holds kept _ => ?_
      have valueOk := I.grow (I.size kept) valueOk
      refine (agree_writeCell holds _ _ _ valueOk).bind holds fun _ m holds kept _ => ?_
      exact agree_pure (I.grow (I.size kept) valueOk)
    next => exact agree_fail holds _

end Element

theorem agree_reply (holds : I.holds m) (name : Option String) :
    I.Agree m (fun _ _ => True) (reply name) (reply name) := by
  refine ⟨rfl, ?_⟩
  unfold reply
  have replied (asked : String) (rest : Input) (follows : rest.Follows m.input) :=
    I.reply asked holds follows
  cases origin : m.input with
  | console lines =>
    have asked := replied ("Enter value for " ++ Fault.nameText name ++ ": ")
    simp only [origin, String.append_assoc] at asked ⊢
    cases lines with
    | cons line rest => exact ⟨asked (.console rest) (List.suffix_cons _ _), trivial⟩
    | nil =>
      have kept := asked (.console []) (List.suffix_refl _)
      exact I.later kept (I.stop (I.keep holds kept))
  | dialogs answers =>
    cases answers with
    | cons answer rest =>
      have answered := replied "" (.dialogs rest) (by rw [origin]; exact List.suffix_cons _ _)
      rw [String.append_empty] at answered
      exact ⟨answered, trivial⟩
    | nil => exact ⟨I.refl m, trivial⟩

theorem agree_input (holds : I.holds m) : I.Agree m I.value (input node) (input node) := by
  refine (agree_reply holds node.name).bind holds fun line m holds _ _ => ?_
  have replyOk (s : Store) : I.value s (ofReply line) := by
    unfold ofReply
    split
    · exact I.number s _
    · exact I.text s _
  exact (agree_assign holds node.name (replyOk _)).bind holds fun _ _ _ _ _ => agree_pure (replyOk _)

theorem agree_declared (holds : I.holds m) (type : String) :
    I.Agree m I.value (declared type) (declared type) := by
  refine agree_ite (fun _ => agree_pure (I.number _ _)) fun _ => ?_
  refine agree_ite (fun _ => agree_pure (I.text _ _)) fun _ => ?_
  exact agree_ite (fun _ => agree_makeList holds (by simp)) fun _ => agree_pure (I.empty _)

theorem agree_declare (holds : I.holds m) : I.Agree m I.value (declare node) (declare node) := by
  refine (agree_child holds node 0).bind holds fun part m holds _ _ => ?_
  split
  next => exact agree_fail holds _
  next type _ =>
    refine (agree_declared holds type).bind holds fun value m holds _ valueOk => ?_
    exact (agree_assign holds node.name valueOk).bind holds fun _ _ _ _ _ => agree_pure (I.empty _)

theorem agree_literal (holds : I.holds m) (value : Option Plain) :
    I.Agree m I.value (number value) (number value) := by
  refine agree_makes holds fun found ran => ?_
  cases ran
  exact Domain.makes_ofPlain (I.sound holds) _

section Step

variable (same : ∀ node m, I.tree node → I.holds m → I.Agree m I.value (rec node) (rec' node))
include same

theorem agree_displays {nodes : List Node} (trees : ∀ node ∈ nodes, I.tree node)
    (holds : I.holds m) :
    I.Agree m (fun _ _ => True) (displays rec nodes) (displays rec' nodes) := by
  induction nodes generalizing m with
  | nil => exact agree_pure trivial
  | cons node rest ih =>
    refine (same node m (trees node (by simp)) holds).bind holds fun value m holds _ _ => ?_
    refine (agree_display holds value).bind holds fun _ m holds _ _ => ?_
    refine (ih (fun node member => trees node (by simp [member])) holds).bind holds fun _ _ _ _ _ => ?_
    exact agree_pure trivial

theorem agree_print (parts : ∀ part ∈ node.children, I.tree part) (holds : I.holds m) :
    I.Agree m I.value (print rec node) (print rec' node) := by
  refine (agree_displays same parts holds).bind holds fun texts m holds _ _ => ?_
  have printed : I.Agree m (fun _ _ => True)
      (modify fun m => { m with output := m.output ++ (" ".intercalate texts ++ "\n") })
      (modify fun m => { m with output := m.output ++ (" ".intercalate texts ++ "\n") }) :=
    agree_modify (I.output _ holds) trivial
  exact printed.bind holds fun _ _ _ _ _ => agree_pure (I.empty _)

theorem agree_readFile (parts : ∀ part ∈ node.children, I.tree part) (holds : I.holds m) :
    I.Agree m I.value (readFile around rec node) (readFile around rec' node) := by
  refine agree_ite (fun _ => agree_fail holds _) fun _ => ?_
  refine (agree_child holds node 0).bind holds fun part m holds _ member => ?_
  refine (same part m (parts _ member) holds).bind holds fun value m holds _ _ => ?_
  refine (agree_display holds value).bind holds fun name m holds _ _ => ?_
  dsimp only
  split
  next => exact agree_pure (I.text _ _)
  next => exact agree_fail holds _

theorem agree_includeFile (holds : I.holds m) :
    I.Agree m I.value (includeFile around rec node) (includeFile around rec' node) := by
  unfold includeFile
  split
  next => exact agree_fail holds _
  next name _ =>
    have found : I.Agree m (fun _ _ => True) (ofExcept (included around name))
        (ofExcept (included around name)) :=
      agree_ofExcept holds fun _ _ => trivial
    refine found.bind holds fun content m holds _ _ => ?_
    have parsed : I.Agree m (fun _ tree => I.tree tree) (ofOutcome (program content))
        (ofOutcome (program content)) :=
      agree_ofOutcome holds (x := fun _ => program content) fun _ ran => I.program ran
    exact parsed.bind holds fun tree m holds _ treeOk => same tree m treeOk holds

theorem agree_list (parts : ∀ part ∈ node.children, I.tree part) (holds : I.holds m) :
    I.Agree m I.value (list rec node) (list rec' node) := by
  refine (agree_values same parts holds).bind holds
    fun items m holds _ itemsOk => ?_
  refine agree_makeList holds fun item member => ?_
  obtain ⟨old, held, rfl⟩ := List.mem_map.mp (List.mem_toArray.mp member)
  exact Domain.toItem (itemsOk old held)

theorem agree_assignment (parts : ∀ part ∈ node.children, I.tree part) (holds : I.holds m) :
    I.Agree m I.value (assignment rec node) (assignment rec' node) := by
  refine (agree_child holds node 0).bind holds fun part m holds _ member => ?_
  refine (same part m (parts _ member) holds).bind holds fun value m holds _ valueOk => ?_
  refine (agree_assign holds node.name valueOk).bind holds fun _ m holds kept _ => ?_
  exact agree_pure (I.grow (I.size kept) valueOk)

theorem agree_sign (parts : ∀ part ∈ node.children, I.tree part) (holds : I.holds m) (op : Sign) :
    I.Agree m I.value (sign rec op node) (sign rec' op node) := by
  refine (agree_child holds node 0).bind holds fun part m holds _ member => ?_
  refine (same part m (parts _ member) holds).bind holds fun value m holds _ valueOk => ?_
  exact agree_ofExcept holds fun _ ran => Domain.sign_admitted valueOk ran

theorem agree_arithmetic (parts : ∀ part ∈ node.children, I.tree part) (holds : I.holds m) (op : Arithmetic) :
    I.Agree m I.value (arithmetic rec op node) (arithmetic rec' op node) := by
  refine (agree_operands same parts holds).bind holds fun found m holds _ admitted => ?_
  exact agree_makes holds fun _ ran =>
    Domain.arithmetic_makes (I.sound holds) admitted.1 admitted.2 ran

theorem agree_comparison (parts : ∀ part ∈ node.children, I.tree part) (holds : I.holds m) (op : Comparison) :
    I.Agree m I.value (comparison rec op node) (comparison rec' op node) := by
  refine (agree_operands same parts holds).bind holds fun found m holds _ admitted => ?_
  exact agree_makes holds fun _ ran =>
    Domain.comparison_makes (I.sound holds) admitted.1 admitted.2 (Domain.ofExcept_eq_ok.mp ran)

theorem agree_caseOf (tree : I.tree node) (kind : node.kind = .case) (holds : I.holds m) :
    I.Agree m I.value (caseOf rec node) (caseOf rec' node) :=
  (agree_lookup holds _ _).bind holds fun _ _ holds _ _ =>
    agree_caseItems same (fun _ member => ⟨I.otherwise tree kind member,
      fun other _ => I.item tree kind member other⟩) holds

theorem agree_step (n : Nat) (tree : I.tree node) (holds : I.holds m) :
    I.Agree m I.value (step around rec n node) (step around rec' n node) := by
  have parts (kind : node.kind ≠ .define ∧ node.kind ≠ .case) : ∀ part ∈ node.children, I.tree part :=
    fun _ => I.part tree kind.1 kind.2
  unfold step
  cases kind : node.kind with
  | null => exact agree_pure (I.empty _)
  | number => exact agree_literal holds _
  | string =>
    refine agree_pure ?_
    cases node.name with
    | some text => exact I.text _ _
    | none => exact I.empty _
  | boolean => exact agree_pure (I.boolean _ tree kind)
  | list => exact agree_list same (parts (by simp [kind])) holds
  | access => exact agree_lookup holds _ _
  | assign => exact agree_assignment same (parts (by simp [kind])) holds
  | sign op => exact agree_sign same (parts (by simp [kind])) holds op
  | arithmetic op => exact agree_arithmetic same (parts (by simp [kind])) holds op
  | comparison op => exact agree_comparison same (parts (by simp [kind])) holds op
  | connective op => exact agree_connective same (parts (by simp [kind])) holds op
  | ifThen => exact agree_ifThen same (parts (by simp [kind])) holds
  | ifElse => exact agree_ifElse same (parts (by simp [kind])) holds
  | forLoop => exact agree_forLoop same (parts (by simp [kind])) holds n
  | whileLoop => exact agree_whileLoop same (parts (by simp [kind])) holds n
  | repeatUntil => exact agree_repeatUntil same (parts (by simp [kind])) holds n
  | block => exact agree_block same (parts (by simp [kind])) holds (I.empty _)
  | print => exact agree_print same (parts (by simp [kind])) holds
  | read => exact agree_readFile same (parts (by simp [kind])) holds
  | input => exact agree_input holds
  | includeFile => exact agree_includeFile same holds
  | «return» => exact agree_returnValue same (parts (by simp [kind])) holds
  | define => exact agree_define tree kind holds
  | parameters | parameter | caseItem => exact agree_fail holds _
  | call => exact agree_call same (parts (by simp [kind])) holds
  | case => exact agree_caseOf same tree kind holds
  | caseOtherwise => exact agree_sequence same (parts (by simp [kind])) holds (I.empty _)
  | declare => exact agree_declare holds
  | elementAccess => exact agree_elementAccess same (parts (by simp [kind])) holds
  | elementAssign => exact agree_elementAssign same (parts (by simp [kind])) holds

end Step

theorem agree_eval (n : Nat) (tree : I.tree node) (holds : I.holds m) :
    I.Agree m I.value (eval around n node) (eval around n node) := by
  induction n generalizing node m with
  | zero => exact agree_unfinished
  | succ n ih => exact agree_step (fun _ _ tree holds => ih tree holds) n tree holds

end Eval

end Pseudocode
