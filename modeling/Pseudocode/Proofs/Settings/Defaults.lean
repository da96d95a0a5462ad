import Pseudocode.Proofs.Settings.Merge
import Pseudocode.Settings.Dialog

set_option autoImplicit false

namespace Pseudocode

theorem Section.key_inj {part other : Section} : part.key = other.key ↔ part = other := by
  cases part <;> cases other <;> decide

def SettingsItem.IsObject : SettingsItem → Prop
  | .shared _ => True
  | .own json => ∃ members, json = .object members

namespace Settings

def Shares (s : Settings) (part : Section) : Prop :=
  findItem part.key s.current = some (.shared part)

def Open (s : Settings) : Prop :=
  ∀ part : Section, ∃ item, findItem part.key s.current = some item ∧ item.IsObject

structure Sound (s : Settings) : Prop where
  own {part owner : Section} : findItem part.key s.current = some (.shared owner) → owner = part
  whole (part : Section) {key : String} : key ∈ sectionKeys → ((s.defaultSection part).get? key).isSome

def updated (s : Settings) (part : Section) (changes : Json.Members) : Settings :=
  match s.update part changes with
  | .ok next => next
  | .error _ => s

section Update

variable {s : Settings} {part other : Section} {changes : Json.Members}

theorem defaultSection_changeDefault :
    (s.changeDefault part changes).defaultSection other =
      if part = other then (s.defaultSection part).insertAll changes else s.defaultSection other := by
  cases part <;> cases other <;> rfl

theorem current_changeDefault : (s.changeDefault part changes).current = s.current := by
  cases part <;> rfl

theorem updated_cases (sound : s.Sound) (part : Section) (changes : Json.Members) :
    (s.Shares part ∧ s.updated part changes = s.changeDefault part changes) ∨
    (¬ s.Shares part ∧ ∃ members, s.updated part changes =
      { s with current := putItem part.key (.own (.object members)) s.current }) ∨
    (¬ s.Shares part ∧ s.updated part changes = s) := by
  unfold updated update Shares
  cases found : findItem part.key s.current with
  | none => simp
  | some item =>
    cases item with
    | shared owner =>
      obtain rfl := sound.own found
      simp
    | own json =>
      cases json with
      | object members => exact .inr (.inl ⟨by simp, _, rfl⟩)
      | _ => simp

theorem update_ok (opened : s.Open) (part : Section) (changes : Json.Members) :
    s.update part changes = .ok (s.updated part changes) := by
  obtain ⟨item, found, object⟩ := opened part
  unfold updated update
  rw [found]
  cases item with
  | shared owner => rfl
  | own json =>
    obtain ⟨members, rfl⟩ := object
    rfl

theorem file_updated (s : Settings) (part : Section) (changes : Json.Members) :
    (s.updated part changes).file = s.file := by
  unfold updated update
  cases findItem part.key s.current with
  | none => rfl
  | some item =>
    cases item with
    | shared owner => cases owner <;> rfl
    | own json => cases json <;> rfl

theorem Open.changes_cases (opened : s.Open) (sound : s.Sound) (part : Section) (changes : Json.Members) :
    (s.Shares part ∧ s.updated part changes = s.changeDefault part changes) ∨
    ∃ members : Json.Members, findItem part.key s.current = some (.own (.object members)) ∧
      s.updated part changes =
        { s with current := putItem part.key (.own (.object (members.insertAll changes))) s.current } := by
  obtain ⟨item, found, object⟩ := opened part
  cases item with
  | shared owner =>
    obtain rfl := sound.own found
    exact .inl ⟨found, by simp [Settings.updated, update, found]⟩
  | own json =>
    obtain ⟨members, rfl⟩ := object
    exact .inr ⟨members, found, by simp [Settings.updated, update, found]⟩

theorem shares_updated (sound : s.Sound) (part : Section) (changes : Json.Members) :
    (s.updated part changes).Shares other ↔ s.Shares other := by
  rcases updated_cases sound part changes with ⟨_, next⟩ | ⟨own, members, next⟩ | ⟨_, next⟩
  · rw [next, Shares, current_changeDefault, Shares]
  · rw [next]
    by_cases same : part = other
    · subst same
      simpa [Shares, findItem_putItem] using own
    · simp [Shares, findItem_putItem, Section.key_inj, same]
  · rw [next]

theorem default_updated_shared (sound : s.Sound) (shares : s.Shares part) :
    (s.updated part changes).defaultSection part = (s.defaultSection part).insertAll changes := by
  rcases updated_cases sound part changes with ⟨_, next⟩ | own | own
  · rw [next, defaultSection_changeDefault, if_pos rfl]
  · exact absurd shares own.1
  · exact absurd shares own.1

theorem default_updated_own (sound : s.Sound) (own : ¬ s.Shares part) :
    (s.updated part changes).defaultSection other = s.defaultSection other := by
  rcases updated_cases sound part changes with ⟨shares, _⟩ | ⟨_, members, next⟩ | ⟨_, next⟩
  · exact absurd shares own
  · rw [next]
    cases other <;> rfl
  · rw [next]

theorem default_updated_other (sound : s.Sound) (differ : part ≠ other) :
    (s.updated part changes).defaultSection other = s.defaultSection other := by
  by_cases shares : s.Shares part
  · rcases updated_cases sound part changes with ⟨_, next⟩ | own | own
    · rw [next, defaultSection_changeDefault, if_neg differ]
    · exact absurd shares own.1
    · exact absurd shares own.1
  · exact default_updated_own sound shares

theorem Sound.updated (sound : s.Sound) (part : Section) (distinct : changes.Distinct) :
    (s.updated part changes).Sound where
  own {other owner} found := by
    rcases updated_cases sound part changes with ⟨_, next⟩ | ⟨_, members, next⟩ | ⟨_, next⟩
    · rw [next, current_changeDefault] at found
      exact sound.own found
    · rw [next, findItem_putItem] at found
      split at found
      · cases found
      · exact sound.own found
    · rw [next] at found
      exact sound.own found
  whole other key listed := by
    by_cases same : part = other
    · subst same
      -- Entries are added and replaced, never taken away.
      by_cases shares : s.Shares part
      · rw [default_updated_shared sound shares, Json.Members.get?_insertAll distinct]
        cases changes.get? key with
        | some value => rfl
        | none => exact sound.whole part listed
      · rw [default_updated_own sound shares]
        exact sound.whole part listed
    · rw [default_updated_other sound same]
      exact sound.whole other listed

theorem Open.updated (opened : s.Open) (sound : s.Sound) (part : Section) (changes : Json.Members) :
    (s.updated part changes).Open := by
  rcases updated_cases sound part changes with ⟨_, next⟩ | ⟨_, members, next⟩ | ⟨_, next⟩
  · intro other
    rw [next, current_changeDefault]
    exact opened other
  · intro other
    rw [next, findItem_putItem]
    split
    · exact ⟨_, rfl, members, rfl⟩
    · exact opened other
  · rw [next]
    exact opened

end Update

section Reset

variable {s : Settings}

theorem default_reset (part : Section) : s.reset.defaultSection part = s.defaultSection part := by
  cases part <;> rfl

theorem shares_reset (part : Section) : s.reset.Shares part :=
  findItem_sharing part

theorem open_reset : s.reset.Open := fun part => ⟨.shared part, shares_reset part, trivial⟩

theorem Sound.reset (sound : s.Sound) : s.reset.Sound where
  own {part owner} found := by
    have shared : some (SettingsItem.shared part) = some (.shared owner) :=
      (shares_reset part).symm.trans found
    cases shared
    rfl
  whole part key listed := by
    rw [default_reset]
    exact sound.whole part listed

theorem values_reset : s.reset.values =
    [("editor", .object (s.defaultSection .editor)), ("output", .object (s.defaultSection .output))] :=
  rfl

end Reset

section Start

variable {members : Json.Members} {items : List (String × SettingsItem)} {key : String} {owner : Section}

theorem findItem_shared_of_putAll
    (found : findItem key (members.foldl (fun all (key, value) => putItem key (.own value) all) items) =
      some (.shared owner)) : findItem key items = some (.shared owner) := by
  induction members generalizing items with
  | nil => exact found
  | cons member rest ih =>
    have before := ih found
    rw [findItem_putItem] at before
    split at before
    · cases before
    · exact before

theorem merged_shared {json : Json} (merges : merged json = .ok items)
    (found : findItem key items = some (.shared owner)) : findItem key sharing = some (.shared owner) := by
  obtain ⟨members, _, merges⟩ := except_bind_eq_ok.mp merges
  obtain ⟨_, _, merges⟩ := except_bind_eq_ok.mp merges
  obtain ⟨_, _, merges⟩ := except_bind_eq_ok.mp merges
  cases merges
  exact findItem_shared_of_putAll found

theorem default_start (disk : Disk) (file : String) (part : Section) :
    (start disk file).1.defaultSection part = factory part := by
  unfold start load
  split
  · split <;> cases part <;> rfl
  · cases part <;> rfl

theorem sound_start (disk : Disk) (file : String) : (start disk file).1.Sound where
  own {part owner} found := by
    have shared : findItem part.key sharing = some (.shared owner) := by
      unfold start load at found
      split at found
      · split at found
        next current loaded =>
          obtain ⟨json, _, merges⟩ := except_bind_eq_ok.mp loaded
          exact merged_shared merges found
        next => exact found
      · exact found
    rw [findItem_sharing] at shared
    cases shared
    rfl
  whole part key listed := by
    rw [default_start]
    exact factory_keys part listed

end Start

end Settings

namespace Dialog

def takenOver (d : Dialog) (s : Settings) : Settings :=
  (s.updated .editor (entries d.editor)).updated .output (entries d.output)

theorem distinct_entries (fields : Fields) : (entries fields).Distinct := by
  simp [entries, Json.Members.Distinct]

variable {st : State}

theorem settings_enter (part : Section) (set : Fields → Except SettingsFault Fields) :
    (enter st part set).1.settings = st.settings := by
  unfold enter
  split <;> rfl

theorem settings_accept (opened : st.settings.Open) (sound : st.settings.Sound) :
    (accept st).1.settings = st.dialog.takenOver st.settings := by
  have editor := Settings.update_ok opened .editor (entries st.dialog.editor)
  have output := Settings.update_ok (opened.updated sound .editor (entries st.dialog.editor)) .output
    (entries st.dialog.output)
  simp only [accept, editor, output, takenOver]

section Toolkit

variable [Toolkit] {s : Settings} {d next : Dialog}

theorem object_of_fill {json : Json} {fields filled : Fields}
    (fills : fill json controls fields = (filled, none)) : ∃ members, json = .object members := by
  cases json with
  | object members => exact ⟨members, rfl⟩
  | _ => cases fills

theorem load_cases (loads : d.load s = (next, none)) :
    ∃ editor output first second, s.get .editor = .ok editor ∧ s.get .output = .ok output ∧
      fill editor controls d.editor = (first, none) ∧ fill output controls d.output = (second, none) ∧
      next = (d.put .editor first).put .output second := by
  unfold load at loads
  split at loads
  next editor output hasEditor hasOutput =>
    split at loads
    · cases loads
    next first fillsEditor =>
      obtain ⟨rfl, fillsOutput⟩ := Prod.mk.inj loads
      exact ⟨editor, output, first, _, hasEditor, hasOutput, fillsEditor, Prod.ext rfl fillsOutput, rfl⟩
  · cases loads
  · cases loads

theorem load_of_start (started : start s = .ok d) :
    Dialog.load ⟨Toolkit.blank, Toolkit.blank, none, []⟩ s = (d, none) := by
  unfold start at started
  split at started
  next loads =>
    cases started
    exact loads
  · cases started

theorem open_of_start (started : start s = .ok d) : s.Open := by
  obtain ⟨editor, output, first, second, hasEditor, hasOutput, fillsEditor, fillsOutput, _⟩ :=
    load_cases (load_of_start started)
  have sections (part : Section) : ∃ members, s.get part = .ok (.object members) := by
    cases part with
    | editor =>
      obtain ⟨members, rfl⟩ := object_of_fill fillsEditor
      exact ⟨members, hasEditor⟩
    | output =>
      obtain ⟨members, rfl⟩ := object_of_fill fillsOutput
      exact ⟨members, hasOutput⟩
  intro part
  obtain ⟨members, has⟩ := sections part
  unfold Settings.get at has
  cases found : Settings.findItem part.key s.current with
  | none => simp [found] at has
  | some item =>
    refine ⟨item, rfl, ?_⟩
    cases item with
    | shared owner => trivial
    | own json =>
      exact ⟨members, by simpa [found, Settings.itemValue] using has⟩

-- Whether an action comes to a fault makes no difference to the settings.
theorem settings_step_cases (opened : st.settings.Open) (sound : st.settings.Sound) (action : DialogAction) :
    (action = .accept ∧ (step st action).1.settings = st.dialog.takenOver st.settings) ∨
    (action = .reset true ∧ (step st action).1.settings = st.settings.reset) ∨
    (action ≠ .accept ∧ action ≠ .reset true ∧ (step st action).1.settings = st.settings) := by
  cases action with
  | accept => exact .inl ⟨rfl, settings_accept opened sound⟩
  | reset confirmed =>
    cases confirmed with
    | true => exact .inr (.inl ⟨rfl, rfl⟩)
    | false => exact .inr (.inr ⟨nofun, nofun, rfl⟩)
  | font part value => exact .inr (.inr ⟨nofun, nofun, settings_enter part _⟩)
  | size part value => exact .inr (.inr ⟨nofun, nofun, settings_enter part _⟩)
  | background part chosen => exact .inr (.inr ⟨nofun, nofun, settings_enter part _⟩)
  | foreground part chosen => exact .inr (.inr ⟨nofun, nofun, settings_enter part _⟩)
  | cancel => exact .inr (.inr ⟨nofun, nofun, rfl⟩)

end Toolkit

end Dialog

namespace Settings

structure Usage where
  settings : Settings
  disk : Disk
  dialogs : List Dialog

inductive Operation where
  | update (part : Section) (changes : Json.Members) (distinct : changes.Distinct)
  | save
  | openDialog
  | act (index : Nat) (action : DialogAction)
  -- Other hands change the disk.
  | disturb (disk : Disk)

namespace Usage

def first (disk : Disk) (file : String) : Usage :=
  ⟨(start disk file).1, disk, []⟩

-- An action that comes to a fault leaves what it did before that.
def act [Toolkit] (u : Usage) (index : Nat) (action : DialogAction) (dialog : Dialog) : Usage :=
  let next := (Dialog.step ⟨dialog, u.settings, u.disk, ""⟩ action).1
  ⟨next.settings, next.disk, u.dialogs.set index next.dialog⟩

def after [Toolkit] (u : Usage) : Operation → Usage
  | .update part changes _ => { u with settings := u.settings.updated part changes }
  | .save => { u with disk := (u.settings.save u.disk).1 }
  | .openDialog =>
    match Dialog.start u.settings with
    | .ok dialog => { u with dialogs := u.dialogs ++ [dialog] }
    | .error _ => u
  | .act index action =>
    match u.dialogs[index]? with
    | some dialog => u.act index action dialog
    | none => u
  | .disturb disk => { u with disk }

def afterAll [Toolkit] (u : Usage) (operations : List Operation) : Usage :=
  operations.foldl after u

def written (u : Usage) (operation : Operation) (part : Section) : Json.Members :=
  match operation with
  | .update named changes _ => if named = part then changes else []
  | .act index .accept =>
    match u.dialogs[index]? with
    | some dialog => Dialog.entries (dialog.fields part)
    | none => []
  | _ => []

def Resets (u : Usage) (operation : Operation) : Prop :=
  ∃ index, operation = .act index (.reset true) ∧ index < u.dialogs.length

/-- The section has been taken from the defaults: at the start, or by a reset. -/
def TakenFromDefaults [Toolkit] (u : Usage) (operations : List Operation) (part : Section) : Prop :=
  u.settings.Shares part ∨
    ∃ before operation, before ++ [operation] <+: operations ∧ (u.afterAll before).Resets operation

/-- All along the operations the defaults are what they were, and every reset brings them back. -/
structure KeepsDefaults [Toolkit] (u : Usage) (operations : List Operation) : Prop where
  defaults : ∀ before, before <+: operations → ∀ part,
    (u.afterAll before).settings.defaultSection part = factory part
  resets : ∀ before operation, before ++ [operation] <+: operations →
    (u.afterAll before).Resets operation → (u.afterAll (before ++ [operation])).settings.values =
      [("editor", .object (factory .editor)), ("output", .object (factory .output))]

structure Sound (u : Usage) : Prop where
  settings : u.settings.Sound
  opened : u.dialogs ≠ [] → u.settings.Open

inductive Moves (u : Usage) : Operation → Settings → Prop where
  | update (part : Section) (changes : Json.Members) (distinct : changes.Distinct) :
    Moves u (.update part changes distinct) (u.settings.updated part changes)
  | accept {index : Nat} (dialog : Dialog) (there : u.dialogs[index]? = some dialog) :
    Moves u (.act index .accept)
      ((u.settings.updated .editor (Dialog.entries dialog.editor)).updated .output
        (Dialog.entries dialog.output))
  | reset {index : Nat} (there : index < u.dialogs.length) :
    Moves u (.act index (.reset true)) u.settings.reset
  | rest {operation : Operation} (silent : ∀ part, u.written operation part = [])
    (keeps : ¬ u.Resets operation) : Moves u operation u.settings

section Step

variable {u : Usage} {operation : Operation} {next : Settings} {part : Section}

theorem sound_first (disk : Disk) (file : String) : (first disk file).Sound where
  settings := sound_start disk file
  opened := fun some_dialog => absurd rfl some_dialog

theorem moves_act [Toolkit] (sound : u.Sound) {index : Nat} {dialog : Dialog}
    (there : u.dialogs[index]? = some dialog) (action : DialogAction) :
    u.Moves (.act index action) (u.act index action dialog).settings := by
  have some_dialog : u.dialogs ≠ [] := by
    intro none
    simp [none] at there
  have cases := @Dialog.settings_step_cases ⟨dialog, u.settings, u.disk, ""⟩ _ (sound.opened some_dialog)
    sound.settings action
  simp only [act]
  rcases cases with ⟨rfl, next⟩ | ⟨rfl, next⟩ | ⟨notAccept, notReset, next⟩
  · rw [next]
    exact .accept dialog there
  · rw [next]
    exact .reset (List.getElem?_eq_some_iff.mp there).1
  · rw [next]
    refine .rest (fun part => ?_) ?_
    · unfold written
      split
      next same => cases same
      next same =>
        cases same
        exact absurd rfl notAccept
      · rfl
    · rintro ⟨_, same, _⟩
      cases same
      exact absurd rfl notReset

theorem moves_after [Toolkit] (sound : u.Sound) (operation : Operation) :
    u.Moves operation (u.after operation).settings := by
  cases operation with
  | update part changes distinct => exact .update part changes distinct
  | save => exact .rest (fun _ => rfl) (by simp [Resets])
  | openDialog =>
    simp only [after]
    split <;> exact .rest (fun _ => rfl) (by simp [Resets])
  | act index action =>
    simp only [after]
    cases there : u.dialogs[index]? with
    | some dialog => exact moves_act sound there action
    | none =>
      have beyond : u.dialogs.length ≤ index := List.getElem?_eq_none_iff.mp there
      refine .rest (fun part => ?_) ?_
      · cases action <;> simp [written, there]
      · rintro ⟨_, same, within⟩
        cases same
        omega
  | disturb disk => exact .rest (fun _ => rfl) (by simp [Resets])

theorem distinct_written (operation : Operation) : (u.written operation part).Distinct := by
  unfold written
  split
  next distinct =>
    split
    · exact distinct
    · exact Json.Members.distinct_nil
  next =>
    split
    · exact Dialog.distinct_entries _
    · exact Json.Members.distinct_nil
  next => exact Json.Members.distinct_nil

theorem Moves.sound (moves : u.Moves operation next) (sound : u.settings.Sound) : next.Sound := by
  cases moves with
  | update part changes distinct => exact sound.updated part distinct
  | accept dialog =>
    have editor := sound.updated .editor (Dialog.distinct_entries dialog.editor)
    exact editor.updated .output (Dialog.distinct_entries _)
  | reset => exact sound.reset
  | rest => exact sound

theorem Moves.open (moves : u.Moves operation next) (sound : u.settings.Sound) (opened : u.settings.Open) :
    next.Open := by
  cases moves with
  | update part changes => exact opened.updated sound part changes
  | accept dialog =>
    have editor := sound.updated .editor (Dialog.distinct_entries dialog.editor)
    exact (opened.updated sound .editor _).updated editor .output _
  | reset => exact open_reset
  | rest => exact opened

theorem Moves.shares_iff (moves : u.Moves operation next) (sound : u.settings.Sound) :
    next.Shares part ↔ u.settings.Shares part ∨ u.Resets operation := by
  cases moves with
  | update part changes => simp [shares_updated sound, Resets]
  | accept dialog =>
    have editor := sound.updated .editor (Dialog.distinct_entries dialog.editor)
    simp [shares_updated editor, shares_updated sound, Resets]
  | @reset index there => exact iff_of_true (shares_reset part) (.inr ⟨index, rfl, there⟩)
  | rest _ keeps => simp [keeps]

theorem Moves.default_shared (moves : u.Moves operation next) (sound : u.settings.Sound)
    (shares : u.settings.Shares part) :
    next.defaultSection part = (u.settings.defaultSection part).insertAll (u.written operation part) := by
  cases moves with
  | update named changes =>
    by_cases same : named = part
    · subst same
      simp [written, default_updated_shared sound shares]
    · rw [default_updated_other sound same]
      simp [written, same, Json.Members.insertAll]
  | accept dialog there =>
    -- The sections are written one after the other, and neither write touches the other section.
    have editor := sound.updated .editor (Dialog.distinct_entries dialog.editor)
    cases part with
    | editor =>
      rw [default_updated_other editor (by decide), default_updated_shared sound shares]
      simp [written, there, Dialog.fields]
    | output =>
      rw [default_updated_shared editor ((shares_updated sound _ _).mpr shares),
        default_updated_other sound (by decide)]
      simp [written, there, Dialog.fields]
  | reset =>
    rw [default_reset]
    rfl
  | rest silent =>
    rw [silent]
    rfl

theorem Moves.default_own (moves : u.Moves operation next) (sound : u.settings.Sound)
    (own : ¬ u.settings.Shares part) : next.defaultSection part = u.settings.defaultSection part := by
  cases moves with
  | update named changes =>
    by_cases same : named = part
    · subst same
      exact default_updated_own sound own
    · exact default_updated_other sound same
  | accept dialog there =>
    have editor := sound.updated .editor (Dialog.distinct_entries dialog.editor)
    cases part with
    | editor => rw [default_updated_other editor (by decide), default_updated_own sound own]
    | output =>
      rw [default_updated_own editor (mt (shares_updated sound _ _).mp own),
        default_updated_other sound (by decide)]
  | reset => exact default_reset part
  | rest => rfl

end Step

section Run

variable [Toolkit] {u : Usage} {operations : List Operation} {part : Section}

theorem afterAll_concat (u : Usage) (operations : List Operation) (operation : Operation) :
    u.afterAll (operations ++ [operation]) = (u.afterAll operations).after operation := by
  simp [afterAll]

theorem dialogs_after (operation : Operation) (some_dialog : (u.after operation).dialogs ≠ []) :
    u.dialogs ≠ [] ∨ (u.after operation).settings.Open := by
  cases operation with
  | openDialog =>
    cases started : Dialog.start u.settings with
    | ok dialog =>
      right
      simp only [after, started]
      exact Dialog.open_of_start started
    | error cause =>
      left
      simpa [after, started] using some_dialog
  | act index action =>
    left
    rintro none
    simp [after, none] at some_dialog
  | _ => exact .inl some_dialog

theorem Sound.after (sound : u.Sound) (operation : Operation) : (u.after operation).Sound where
  settings := (moves_after sound operation).sound sound.settings
  opened some_dialog := by
    rcases dialogs_after operation some_dialog with before | opened
    · exact (moves_after sound operation).open sound.settings (sound.opened before)
    · exact opened

theorem Sound.afterAll (sound : u.Sound) (operations : List Operation) : (u.afterAll operations).Sound := by
  induction operations using List.reverseRecOn with
  | nil => exact sound
  | append_singleton before operation ih =>
    rw [afterAll_concat]
    exact ih.after operation

theorem takenFromDefaults_concat (operation : Operation) :
    u.TakenFromDefaults (operations ++ [operation]) part ↔
      u.TakenFromDefaults operations part ∨ (u.afterAll operations).Resets operation := by
  unfold TakenFromDefaults
  constructor
  · rintro (start | ⟨before, reset, cut, resets⟩)
    · exact .inl (.inl start)
    · rcases List.prefix_concat_iff.mp cut with last | earlier
      · obtain ⟨rfl, rfl⟩ : before = operations ∧ reset = operation := by simpa using last
        exact .inr resets
      · exact .inl (.inr ⟨before, reset, earlier, resets⟩)
  · rintro ((start | ⟨before, reset, cut, resets⟩) | resets)
    · exact .inl start
    · exact .inr ⟨before, reset, cut.trans (List.prefix_append _ _), resets⟩
    · exact .inr ⟨operations, operation, List.prefix_rfl, resets⟩

theorem shares_afterAll (sound : u.Sound) (operations : List Operation) :
    (u.afterAll operations).settings.Shares part ↔ u.TakenFromDefaults operations part := by
  induction operations using List.reverseRecOn with
  | nil => simp [afterAll, TakenFromDefaults]
  | append_singleton before operation ih =>
    have moves := moves_after (sound.afterAll before) operation
    -- Nothing but a reset takes a section from the defaults, and nothing takes it away from them.
    rw [takenFromDefaults_concat, ← ih, afterAll_concat]
    exact moves.shares_iff (sound.afterAll before).settings

theorem default_after_iff (sound : u.Sound) (operation : Operation)
    (same : u.settings.defaultSection part = factory part) :
    (u.after operation).settings.defaultSection part = factory part ↔
      (u.settings.Shares part →
        ∀ entry ∈ u.written operation part, (factory part).get? entry.1 = some entry.2) := by
  have moves := moves_after sound operation
  by_cases shares : u.settings.Shares part
  · rw [moves.default_shared sound.settings shares, same,
      Json.Members.insertAll_eq_self_iff (distinct_written operation)]
    simp [shares]
  · rw [moves.default_own sound.settings shares]
    simp [shares, same]

theorem default_afterAll (sound : u.Sound) (same : ∀ part, u.settings.defaultSection part = factory part)
    (writes : ∀ before operation, before ++ [operation] <+: operations → ∀ part,
      u.TakenFromDefaults before part →
        ∀ entry ∈ (u.afterAll before).written operation part, (factory part).get? entry.1 = some entry.2)
    (before : List Operation) (cut : before <+: operations) (part : Section) :
    (u.afterAll before).settings.defaultSection part = factory part := by
  induction before using List.reverseRecOn with
  | nil => exact same part
  | append_singleton before operation ih =>
    have earlier := ih ((List.prefix_append _ _).trans cut)
    rw [afterAll_concat, default_after_iff (sound.afterAll before) operation earlier,
      shares_afterAll sound]
    exact writes before operation cut part

theorem values_after_reset {operation : Operation} (sound : u.Sound) (resets : u.Resets operation) :
    (u.after operation).settings.values = [("editor", .object (u.settings.defaultSection .editor)),
      ("output", .object (u.settings.defaultSection .output))] := by
  obtain ⟨index, rfl, there⟩ := resets
  have moves := moves_after sound (.act index (.reset true))
  generalize (u.after (.act index (.reset true))).settings = next at moves
  cases moves with
  | reset => exact values_reset
  | rest _ keeps => exact absurd ⟨index, rfl, there⟩ keeps

end Run

/-- However settings are used, the defaults are kept exactly if an update or an accepted dialog writes
only default values to a section that was taken from the defaults: one that the file did not give, or
any after a reset. -/
theorem defaults_kept_iff [Toolkit] (disk : Disk) (file : String) (operations : List Operation) :
    (first disk file).KeepsDefaults operations ↔
      ∀ before operation, before ++ [operation] <+: operations → ∀ part,
        (first disk file).TakenFromDefaults before part →
          ∀ entry ∈ ((first disk file).afterAll before).written operation part,
            (factory part).get? entry.1 = some entry.2 := by
  have sound := sound_first disk file
  constructor
  · intro keeps before operation cut part taken
    have same := keeps.defaults before ((List.prefix_append _ _).trans cut) part
    have next := keeps.defaults (before ++ [operation]) cut part
    rw [afterAll_concat, default_after_iff (sound.afterAll before) operation same] at next
    exact next ((shares_afterAll sound before).mpr taken)
  · intro writes
    have defaults := default_afterAll sound (default_start disk file) writes
    refine ⟨defaults, fun before operation cut resets => ?_⟩
    have same := defaults before ((List.prefix_append _ _).trans cut)
    rw [afterAll_concat, values_after_reset (sound.afterAll before) resets, same, same]

/-- The size of the editor's font is changed where there is no file. A reset does not bring the old size
back. -/
theorem changed_size_survives_reset :
    let u := first ⟨[], []⟩ "s"
    let change := Operation.update .editor [("font_size", .whole 20)] (by decide)
    let reset := Operation.act 0 (.reset true)
    (u.afterAll [change, .openDialog]).Resets reset ∧
      given (u.afterAll [change, .openDialog, reset]).settings.values .editor "font_size" =
        some (.whole 20) ∧
      ¬ u.KeepsDefaults [change, .openDialog, reset] := by
  intro u change reset
  have started : u = ⟨⟨"s", factoryEditor, factoryOutput, sharing⟩, ⟨[], []⟩, []⟩ := by
    unfold u
    cbv
  have resets : (u.afterAll [change, .openDialog]).Resets reset := by
    rw [started]
    exact ⟨0, rfl, by decide⟩
  have size : given (u.afterAll [change, .openDialog, reset]).settings.values .editor "font_size" =
      some (.whole 20) := by
    rw [started]
    rfl
  refine ⟨resets, size, fun keeps => ?_⟩
  have values : (u.afterAll [change, .openDialog, reset]).settings.values = _ :=
    keeps.resets [change, .openDialog] reset List.prefix_rfl resets
  rw [values] at size
  have wrong : some (Json.whole 10) = some (.whole 20) := size
  simp at wrong

end Usage

end Settings

end Pseudocode
