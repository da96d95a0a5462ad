import Mathlib.Data.List.Nodup
import Pseudocode.Settings

set_option autoImplicit false

namespace Pseudocode

namespace Json

namespace Members

variable {members changes : Members} {key other : String} {value : Json}

def Distinct (members : Members) : Prop :=
  (members.map Prod.fst).Nodup

instance (members : Members) : Decidable members.Distinct :=
  inferInstanceAs (Decidable (List.Nodup _))

theorem distinct_nil : Distinct [] := List.nodup_nil

theorem distinct_cons :
    Distinct ((key, value) :: members) ↔ (∀ entry ∈ members, entry.1 ≠ key) ∧ members.Distinct := by
  simp only [Distinct, List.map_cons, List.nodup_cons, List.mem_map, not_exists, not_and, ne_eq]

theorem get?_eq_none (absent : ∀ entry ∈ members, entry.1 ≠ key) : members.get? key = none := by
  induction members with
  | nil => rfl
  | cons entry rest ih =>
    have here : entry.1 ≠ key := absent entry (by simp)
    simp only [get?, if_neg here]
    exact ih fun later member => absent later (by simp [member])

theorem get?_of_mem (distinct : members.Distinct) (member : (key, value) ∈ members) :
    members.get? key = some value := by
  induction members with
  | nil => cases member
  | cons entry rest ih =>
    obtain ⟨k, v⟩ := entry
    obtain ⟨absent, distinct⟩ := distinct_cons.mp distinct
    rcases List.mem_cons.mp member with same | later
    · cases same
      simp [get?]
    · simp [get?, (absent _ later).symm, ih distinct later]

theorem mem_of_get? (has : members.get? key = some value) : (key, value) ∈ members := by
  induction members with
  | nil => cases has
  | cons entry rest ih =>
    obtain ⟨k, v⟩ := entry
    by_cases same : k = key
    · obtain rfl : v = value := by simpa [get?, same] using has
      exact same ▸ List.mem_cons_self
    · exact List.mem_cons_of_mem _ (ih (by simpa [get?, same] using has))

theorem mem_insert {entry : String × Json} (member : entry ∈ insert key value members) :
    entry = (key, value) ∨ entry ∈ members := by
  induction members with
  | nil => exact .inl (by simpa [insert] using member)
  | cons first rest ih =>
    unfold insert at member
    split at member
    next same =>
      rcases List.mem_cons.mp member with rfl | later
      · exact .inl (by rw [same])
      · exact .inr (List.mem_cons_of_mem _ later)
    next =>
      rcases List.mem_cons.mp member with rfl | later
      · exact .inr List.mem_cons_self
      · exact (ih later).imp_right (List.mem_cons_of_mem _)

theorem Distinct.insert (distinct : members.Distinct) (key : String) (value : Json) :
    (Members.insert key value members).Distinct := by
  induction members with
  | nil => simp [Members.insert, Distinct]
  | cons entry rest ih =>
    obtain ⟨k, v⟩ := entry
    obtain ⟨absent, distinct⟩ := distinct_cons.mp distinct
    unfold Members.insert
    split
    · exact distinct_cons.mpr ⟨absent, distinct⟩
    next other =>
      refine distinct_cons.mpr ⟨fun later member => ?_, ih distinct⟩
      rcases mem_insert member with rfl | old
      · exact Ne.symm other
      · exact absent later old

theorem insert_eq_self (has : members.get? key = some value) : insert key value members = members := by
  induction members with
  | nil => cases has
  | cons entry rest ih =>
    obtain ⟨k, v⟩ := entry
    by_cases same : k = key
    · obtain rfl : v = value := by simpa [get?, same] using has
      simp [insert, same]
    · have later : get? rest key = some value := by simpa [get?, same] using has
      simp [insert, same, ih later]

theorem get?_insertAll (distinct : changes.Distinct) :
    (insertAll members changes).get? key = (changes.get? key).or (members.get? key) := by
  induction changes generalizing members with
  | nil => rfl
  | cons change rest ih =>
    obtain ⟨k, v⟩ := change
    obtain ⟨absent, distinct⟩ := distinct_cons.mp distinct
    change (insertAll (insert k v members) rest).get? key = _
    rw [ih distinct, get?_insert]
    by_cases same : k = key
    · subst same
      simp [get?, get?_eq_none absent]
    · simp [get?, same]

theorem insertAll_eq_self_iff (distinct : changes.Distinct) :
    insertAll members changes = members ↔ ∀ entry ∈ changes, members.get? entry.1 = some entry.2 := by
  constructor
  · intro same entry member
    rw [← same, get?_insertAll distinct, get?_of_mem distinct member]
    rfl
  · intro has
    induction changes with
    | nil => rfl
    | cons change rest ih =>
      obtain ⟨k, v⟩ := change
      change insertAll (insert k v members) rest = members
      rw [insert_eq_self (has (k, v) (by simp))]
      exact ih (distinct_cons.mp distinct).2 fun entry member => has entry (by simp [member])

end Members

end Json

namespace Settings

variable {items : List (String × SettingsItem)} {members : Json.Members} {key : String}

theorem findItem_putItem (key other : String) (item : SettingsItem)
    (items : List (String × SettingsItem)) :
    findItem other (putItem key item items) =
      if key = other then some item else findItem other items := by
  induction items with
  | nil => rfl
  | cons first rest ih =>
    obtain ⟨k, i⟩ := first
    by_cases same : k = key
    · subst same
      by_cases here : k = other <;> simp [putItem, findItem, here]
    · by_cases here : k = other
      · subst here
        simp [putItem, findItem, same, Ne.symm same]
      · simp [putItem, findItem, same, here, ih]

theorem findItem_putAll (distinct : members.Distinct) :
    findItem key (members.foldl (fun all (key, value) => putItem key (.own value) all) items) =
      ((members.get? key).map SettingsItem.own).or (findItem key items) := by
  induction members generalizing items with
  | nil => rfl
  | cons member rest ih =>
    obtain ⟨k, v⟩ := member
    obtain ⟨absent, distinct⟩ := Json.Members.distinct_cons.mp distinct
    rw [List.foldl_cons, ih distinct, findItem_putItem]
    by_cases same : k = key
    · subst same
      simp [Json.Members.get?, Json.Members.get?_eq_none absent]
    · simp [Json.Members.get?, same]

theorem get?_values (s : Settings) (key : String) :
    s.values.get? key = (findItem key s.current).map s.itemValue := by
  unfold values
  induction s.current with
  | nil => rfl
  | cons item rest ih =>
    obtain ⟨k, i⟩ := item
    by_cases same : k = key
    · simp [Json.Members.get?, findItem, same]
    · simpa [Json.Members.get?, findItem, same] using ih

end Settings

end Pseudocode
