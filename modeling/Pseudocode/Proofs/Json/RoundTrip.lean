import Mathlib
import Pseudocode.Proofs.Json.Leaves
import Pseudocode.Proofs.Settings.Members

set_option autoImplicit false

namespace Pseudocode

namespace Json

inductive Within : Json → Json → Prop where
  | self (json : Json) : Within json json
  | item {part item : Json} {items : List Json} : item ∈ items → Within part item → Within part (.list items)
  | member {part value : Json} {key : String} {members : Members} : (key, value) ∈ members →
      Within part value → Within part (.object members)

-- No object gives a key twice.
def Keyed (json : Json) : Prop :=
  ∀ members, Within (.object members) json → Members.Distinct members

-- No object gives a key twice, and no whole number is too long to be read.
structure Proper (json : Json) : Prop where
  distinct : ∀ members, Within (.object members) json → Members.Distinct members
  short : ∀ n, Within (.whole n) json → n.natAbs < 10 ^ digitLimit

section Parts

variable {json part : Json} {items : List Json} {members : Members}

theorem proper_list_iff : (Json.list items).Proper ↔ ∀ item ∈ items, item.Proper := by
  constructor
  · intro proper item member
    exact ⟨fun members inside => proper.distinct members (.item member inside),
      fun n inside => proper.short n (.item member inside)⟩
  · intro proper
    refine ⟨fun members inside => ?_, fun n inside => ?_⟩
    · cases inside with
      | item member inside => exact (proper _ member).distinct members inside
    · cases inside with
      | item member inside => exact (proper _ member).short n inside

theorem proper_object_iff :
    (Json.object members).Proper ↔ members.Distinct ∧ ∀ entry ∈ members, entry.2.Proper := by
  constructor
  · intro proper
    refine ⟨proper.distinct members (.self _), fun entry member => ?_⟩
    exact ⟨fun inner inside => proper.distinct inner (.member member inside),
      fun n inside => proper.short n (.member member inside)⟩
  · rintro ⟨distinct, proper⟩
    refine ⟨fun inner inside => ?_, fun n inside => ?_⟩
    · cases inside with
      | self => exact distinct
      | member member inside => exact (proper _ member).distinct inner inside
    · cases inside with
      | member member inside => exact (proper _ member).short n inside

theorem Proper.keyed (proper : json.Proper) : json.Keyed :=
  proper.distinct

theorem keyed_object_iff :
    (Json.object members).Keyed ↔ members.Distinct ∧ ∀ entry ∈ members, entry.2.Keyed := by
  constructor
  · intro keyed
    exact ⟨keyed members (.self _), fun entry member inner inside => keyed inner (.member member inside)⟩
  · rintro ⟨distinct, keyed⟩ inner inside
    cases inside with
    | self => exact distinct
    | member member inside => exact keyed _ member inner inside

theorem keyed_leaf (noObject : ∀ members, json ≠ .object members) (noList : ∀ items, json ≠ .list items) :
    json.Keyed := by
  intro members inside
  cases inside with
  | self => exact absurd rfl (noObject members)
  | item => exact absurd rfl (noList _)
  | member => exact absurd rfl (noObject _)

theorem proper_leaf (noObject : ∀ members, json ≠ .object members) (noList : ∀ items, json ≠ .list items)
    (noNumber : ∀ n, json ≠ .whole n) : json.Proper := by
  refine ⟨keyed_leaf noObject noList, fun n inside => ?_⟩
  · cases inside with
    | self => exact absurd rfl (noNumber n)
    | item => exact absurd rfl (noList _)
    | member => exact absurd rfl (noObject _)

end Parts

section Cut

end Cut

section Written

def written (level : Nat) (json : Json) : List Char :=
  (indentedAt level json).toList

def StartsValue (source : List Char) : Prop :=
  ∃ c more, source = c :: more ∧ isSpace c = false ∧ c ≠ ']' ∧ c ≠ '\x7d'

theorem StartsValue.append {source : List Char} (starts : StartsValue source) (rest : List Char) :
    StartsValue (source ++ rest) := by
  obtain ⟨c, more, rfl, marks⟩ := starts
  exact ⟨c, more ++ rest, rfl, marks⟩

end Written

section Loops

variable {rec : List Char → Outcome Failure (Json × List Char)} {level : Nat}

end Loops

section RoundTrip

variable {rec : List Char → Outcome Failure (Json × List Char)} {n : Nat} {source : List Char}

end RoundTrip

section Read

theorem decimalValue?_lt {c : Char} {d : Nat} (value : Text.decimalValue? c = some d) : d < 10 := by
  unfold Text.decimalValue? at value
  split at value
  · split at value
    next digit =>
      simp only [Char.isDigit, Bool.and_eq_true, decide_eq_true_eq, ge_iff_le] at digit
      have high : c.toNat ≤ 57 := digit.2
      have zero : '0'.toNat = 48 := rfl
      cases value
      omega
    next => cases value
  · obtain ⟨range, _, rfl⟩ := Option.map_eq_some_iff.mp value
    exact Nat.mod_lt _ (by decide)

theorem digitsValue?_lt {digits : List Char} {n : Nat} (value : Number.digitsValue? digits = some n) :
    n < 10 ^ digits.length := by
  induction digits using List.reverseRecOn generalizing n with
  | nil =>
    cases value
    decide
  | append_singleton digits d ih =>
    rw [digitsValue?_concat] at value
    obtain ⟨m, earlier, value⟩ := Option.bind_eq_some_iff.mp value
    obtain ⟨last, digit, rfl⟩ := Option.map_eq_some_iff.mp value
    have := ih earlier
    have := decimalValue?_lt digit
    rw [List.length_append, List.length_singleton, Nat.pow_succ]
    omega

theorem proper_whole {n : Int} (short : n.natAbs < 10 ^ digitLimit) : (Json.whole n).Proper := by
  refine ⟨nofun, fun m inside => ?_⟩
  cases inside
  exact short

variable {rec : List Char → Outcome Failure (Json × List Char)} {n : Nat} {source rest : List Char} {json : Json}

theorem proper_readFraction {sign units after : List Char}
    (read : readFraction sign units after = .ok (json, rest)) : json.Proper := by
  unfold readFraction at read
  dsimp only at read
  split at read
  · split at read
    · cases read
    next limit =>
      cases read
      apply proper_whole
      have value : (Number.digitsValue? units).getD 0 < 10 ^ digitLimit := by
        cases value : Number.digitsValue? units with
        | none => exact Nat.pow_pos (by decide)
        | some n => exact Nat.lt_of_lt_of_le (digitsValue?_lt value) (Nat.pow_le_pow_right (by decide) (by omega))
      split
      · exact value
      · rwa [Int.natAbs_neg]
  · cases read
    exact proper_leaf nofun nofun nofun

theorem proper_readNumber (read : readNumber source = .ok (json, rest)) : json.Proper := by
  cases source with
  | nil => cases read
  | cons c source =>
    by_cases minus : c = '-'
    · subst minus
      rw [readNumber_minus] at read
      split at read
      · cases read
      · exact proper_readFraction read
    · rw [readNumber_plain minus] at read
      split at read
      · cases read
      · exact proper_readFraction read

variable (parts : ∀ {source rest : List Char} {json : Json}, rec source = .ok (json, rest) → json.Proper)
include parts

theorem proper_readItems {done : List Json} (before : ∀ item ∈ done, item.Proper)
    (read : readItems rec n done source = .ok (json, rest)) : json.Proper := by
  induction n generalizing done source with
  | zero => cases read
  | succ n ih =>
    obtain ⟨⟨item, afterItem⟩, value, read⟩ := Outcome.bind_eq_ok.mp read
    have all : ∀ other ∈ item :: done, other.Proper := List.forall_mem_cons.mpr ⟨parts value, before⟩
    dsimp only at read
    split at read
    · cases read
      exact proper_list_iff.mpr fun other member => all other (List.mem_reverse.mp member)
    · exact ih all read
    · cases read

theorem proper_readMembers {done : Members} (before : (Json.object done).Proper)
    (read : readMembers rec n done source = .ok (json, rest)) : json.Proper := by
  induction n generalizing done source with
  | zero => cases read
  | succ n ih =>
    cases source with
    | nil => cases read
    | cons c source =>
      by_cases mark : c = '"'
      · subst mark
        obtain ⟨⟨key, afterKey⟩, _, read⟩ := Outcome.bind_eq_ok.mp read
        dsimp only at read
        split at read
        next =>
          obtain ⟨⟨value, afterValue⟩, given, read⟩ := Outcome.bind_eq_ok.mp read
          have all : (Json.object (Members.insert key value done)).Proper := by
            obtain ⟨distinct, proper⟩ := proper_object_iff.mp before
            refine proper_object_iff.mpr ⟨distinct.insert key value, fun entry member => ?_⟩
            rcases Members.mem_insert member with rfl | old
            · exact parts given
            · exact proper entry old
          dsimp only at read
          split at read
          · cases read
            exact all
          · exact ih all read
          · cases read
        next => cases read
      · rw [readMembers] at read
        · cases read
        · rintro more ⟨⟩
          exact mark rfl

theorem proper_readStep (read : readStep rec n source = .ok (json, rest)) : json.Proper := by
  unfold readStep at read
  split at read
  case h_1 =>
    obtain ⟨_, _, read⟩ := Outcome.bind_eq_ok.mp read
    cases read
    exact proper_leaf nofun nofun nofun
  case h_2 =>
    split at read
    · cases read
      exact proper_object_iff.mpr ⟨Members.distinct_nil, by simp⟩
    · exact proper_readMembers parts (proper_object_iff.mpr ⟨Members.distinct_nil, by simp⟩) read
  case h_3 =>
    split at read
    · cases read
      exact proper_list_iff.mpr (by simp)
    · exact proper_readItems parts (by simp) read
  case h_10 => exact proper_readNumber read
  all_goals
    cases read
    exact proper_leaf nofun nofun nofun

omit parts

theorem proper_readValue (read : readValue n source = .ok (json, rest)) : json.Proper := by
  induction n generalizing source rest json with
  | zero => cases read
  | succ n ih => exact proper_readStep ih read

theorem proper_of_read {text : String} (read : Json.read text = .ok json) : json.Proper := by
  unfold Json.read at read
  dsimp only at read
  split at read
  next all =>
    cases read
    unfold readAll at all
    split at all
    · cases all
    · obtain ⟨⟨value, left⟩, reads, all⟩ := Outcome.bind_eq_ok.mp all
      dsimp only at all
      split at all
      · cases all
        exact proper_readValue reads
      · cases all
  next => cases read
  next => cases read

end Read

end Json

end Pseudocode
