import Pseudocode.Proofs.Disk
import Pseudocode.Proofs.Settings.Defaults

set_option autoImplicit false

namespace Pseudocode

namespace Settings

inductive Change where
  | update (part : Section) (changes : Json.Members)
  | reset

def changed (s : Settings) : Change → Settings
  | .update part changes => s.updated part changes
  | .reset => s.reset

-- The sections stand first, and no key stands twice.
def Ordered (items : List (String × SettingsItem)) : Prop :=
  (items.map Prod.fst).Nodup ∧ ∃ others, items.map Prod.fst = Section.editor.key :: Section.output.key :: others

structure Storable (s : Settings) : Prop where
  sound : s.Sound
  opened : s.Open
  ordered : Ordered s.current
  own {key : String} {json : Json} : (key, .own json) ∈ s.current → json.Keyed
  defaults (part : Section) : (Json.object (s.defaultSection part)).Keyed

section Items

variable {items : List (String × SettingsItem)} {key : String} {item : SettingsItem} {members : Json.Members}

theorem mem_putItem {entry : String × SettingsItem} (member : entry ∈ putItem key item items) :
    entry = (key, item) ∨ entry ∈ items := by
  induction items with
  | nil => exact .inl (by simpa [putItem] using member)
  | cons first rest ih =>
    unfold putItem at member
    split at member
    next same =>
      rcases List.mem_cons.mp member with rfl | later
      · exact .inl (by rw [same])
      · exact .inr (List.mem_cons_of_mem _ later)
    next =>
      rcases List.mem_cons.mp member with rfl | later
      · exact .inr List.mem_cons_self
      · exact (ih later).imp_right (List.mem_cons_of_mem _)

theorem keys_putItem :
    (putItem key item items).map Prod.fst =
      if key ∈ items.map Prod.fst then items.map Prod.fst else items.map Prod.fst ++ [key] := by
  induction items with
  | nil => rfl
  | cons first rest ih =>
    obtain ⟨k, i⟩ := first
    by_cases same : k = key
    · simp [putItem, same]
    · have other : ¬ key = k := Ne.symm same
      simp only [putItem, if_neg same, List.map_cons, ih, List.mem_cons, other, false_or]
      split <;> rfl

theorem Ordered.putItem (ordered : Ordered items) (key : String) (item : SettingsItem) :
    Ordered (Settings.putItem key item items) := by
  obtain ⟨nodup, others, first⟩ := ordered
  rw [Ordered, keys_putItem]
  split
  · exact ⟨nodup, others, first⟩
  next new =>
    refine ⟨?_, others ++ [key], by rw [first]; rfl⟩
    rw [List.nodup_append]
    refine ⟨nodup, List.nodup_singleton key, fun a member b single => ?_⟩
    rintro rfl
    exact new (List.mem_singleton.mp single ▸ member)

theorem ordered_sharing : Ordered sharing :=
  ⟨by decide, [], rfl⟩

end Items

section Steps

variable {s : Settings} {part : Section} {changes : Json.Members}

theorem keyed_insertAll {members : Json.Members} (keyed : (Json.object members).Keyed)
    (added : (Json.object changes).Keyed) : (Json.object (members.insertAll changes)).Keyed := by
  rw [Json.keyed_object_iff] at added
  induction changes generalizing members with
  | nil => exact keyed
  | cons change rest ih =>
    obtain ⟨distinct, parts⟩ := added
    rw [List.forall_mem_cons] at parts
    obtain ⟨before, values⟩ := Json.keyed_object_iff.mp keyed
    refine ih (Json.keyed_object_iff.mpr ⟨before.insert change.1 change.2, fun entry member => ?_⟩)
      ⟨(Json.Members.distinct_cons.mp distinct).2, parts.2⟩
    rcases Json.Members.mem_insert member with rfl | old
    · exact parts.1
    · exact values entry old

theorem mem_of_findItem {items : List (String × SettingsItem)} {key : String} {item : SettingsItem}
    (found : findItem key items = some item) : (key, item) ∈ items := by
  induction items with
  | nil => cases found
  | cons first rest ih =>
    obtain ⟨k, i⟩ := first
    by_cases same : k = key
    · obtain rfl : i = item := by simpa [findItem, same] using found
      exact same ▸ List.mem_cons_self
    · exact List.mem_cons_of_mem _ (ih (by simpa [findItem, same] using found))

theorem Storable.updated (storable : s.Storable) (part : Section) (added : (Json.object changes).Keyed) :
    (s.updated part changes).Storable := by
  have sound := storable.sound.updated part (Json.keyed_object_iff.mp added).1
  have opened := storable.opened.updated storable.sound part changes
  rcases storable.opened.changes_cases storable.sound part changes with ⟨_, next⟩ | ⟨members, found, next⟩
  · rw [next] at sound opened ⊢
    refine ⟨sound, opened, ?_, fun member => ?_, fun other => ?_⟩
    · rw [current_changeDefault]
      exact storable.ordered
    · rw [current_changeDefault] at member
      exact storable.own member
    · rw [defaultSection_changeDefault]
      split
      next same =>
        subst same
        exact keyed_insertAll (storable.defaults part) added
      · exact storable.defaults other
  · rw [next] at sound opened ⊢
    refine ⟨sound, opened, storable.ordered.putItem _ _, fun member => ?_, fun other => ?_⟩
    · rcases mem_putItem member with same | old
      · cases same
        exact keyed_insertAll (storable.own (mem_of_findItem found)) added
      · exact storable.own old
    · cases other
      · exact storable.defaults .editor
      · exact storable.defaults .output

theorem Storable.reset (storable : s.Storable) : s.reset.Storable where
  sound := storable.sound.reset
  opened := open_reset
  ordered := ordered_sharing
  own member := by simp [Settings.reset, sharing] at member
  defaults part := by
    rw [default_reset]
    exact storable.defaults part

end Steps

section Start

variable {disk : Disk} {file : String}

end Start

section Restart

variable {s : Settings} {disk after : Disk} {printed : String}

end Restart

end Settings

end Pseudocode
