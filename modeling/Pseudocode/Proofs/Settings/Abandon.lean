import Pseudocode.Proofs.Settings.Defaults

set_option autoImplicit false

namespace Pseudocode

inductive Amount where
  | exact (value : ℚ)
  | infinite (negative : Bool)
  | nan

def Number.amount (x : Float) : Amount :=
  match size x with
  | .finite b => .exact (Binary.signed b.negative b.mantissa * 2 ^ b.exponent)
  | .infinite negative => .infinite negative
  | .nan => .nan

namespace Json

inductive Face where
  | null
  | number (amount : Amount)
  | text (s : String)
  | list (length : Nat)
  | object

def face : Json → Face
  | .null => .null
  | .flag b => .number (.exact (if b then 1 else 0))
  | .whole n => .number (.exact n)
  | .fractional x => .number (Number.amount x)
  | .text s => .text s
  | .list items => .list items.length
  | .object _ => .object

inductive Step where
  | key (name : String)
  | index (n : Nat)

def inner : Json → Step → Option Json
  | .object members, .key name => Members.get? members name
  | .list items, .index n => items[n]?
  | _, _ => none

def follow : Json → List Step → Option Json
  | json, [] => some json
  | json, step :: path => (json.inner step).bind (·.follow path)

def faceAt (json : Option Json) (path : List Step) : Option Face :=
  (json.bind (·.follow path)).map face

/-- Equality of values as data, or that there are none: the order in which an object gives its members
and the way in which a number is written make no difference. -/
def Same (a b : Option Json) : Prop :=
  ∀ path, faceAt a path = faceAt b path

section Same

variable {a b c : Option Json} {members others : Members}

theorem Same.refl (a : Option Json) : Same a a := fun _ => rfl

theorem Same.symm (same : Same a b) : Same b a := fun path => (same path).symm

theorem Same.trans (first : Same a b) (second : Same b c) : Same a c :=
  fun path => (first path).trans (second path)

theorem same_object_iff :
    Same (some (.object members)) (some (.object others)) ↔
      ∀ key, Same (members.get? key) (others.get? key) := by
  constructor
  · intro same key path
    exact same (.key key :: path)
  · intro same path
    match path with
    | [] => rfl
    | .key key :: path => exact same key path
    | .index _ :: _ => rfl

end Same

end Json

namespace Settings

open Json (Same)

def SameAs (s t : Settings) : Prop :=
  Same (some (.object s.values)) (some (.object t.values))

def Tidy (s : Settings) : Prop :=
  ∀ (key : String) (owner : Section), findItem key s.current = some (.shared owner) → key = owner.key

structure Ready (s : Settings) : Prop where
  sound : s.Sound
  opened : s.Open
  tidy : s.Tidy

section Contents

variable {s t r : Settings} {part other : Section} {changes : Json.Members} {key : String}

theorem tidy_sharing {owner : Section} (found : findItem key sharing = some (.shared owner)) :
    key = owner.key := by
  by_cases listed : ∃ part : Section, key = part.key
  · obtain ⟨part, rfl⟩ := listed
    rw [findItem_sharing] at found
    cases found
    rfl
  · rw [findItem_sharing_other fun part same => listed ⟨part, same⟩] at found
    cases found

theorem tidy_start (disk : Disk) (file : String) : (start disk file).1.Tidy := by
  intro key owner found
  apply tidy_sharing
  unfold start load at found
  split at found
  · split at found
    next current loaded =>
      obtain ⟨json, _, merges⟩ := except_bind_eq_ok.mp loaded
      exact merged_shared merges found
    next => exact found
  · exact found

theorem Tidy.updated (tidy : s.Tidy) (sound : s.Sound) (part : Section) (changes : Json.Members) :
    (s.updated part changes).Tidy := by
  intro key owner found
  rcases updated_cases sound part changes with ⟨_, next⟩ | ⟨_, members, next⟩ | ⟨_, next⟩
  · rw [next, current_changeDefault] at found
    exact tidy key owner found
  · rw [next, findItem_putItem] at found
    split at found
    · cases found
    · exact tidy key owner found
  · rw [next] at found
    exact tidy key owner found

theorem Ready.updated (ready : s.Ready) (part : Section) (distinct : changes.Distinct) :
    (s.updated part changes).Ready where
  sound := ready.sound.updated part distinct
  opened := ready.opened.updated ready.sound part changes
  tidy := ready.tidy.updated ready.sound part changes

theorem Ready.reset (ready : s.Ready) : s.reset.Ready where
  sound := ready.sound.reset
  opened := open_reset
  tidy _ _ := tidy_sharing

theorem Open.section_eq (opened : s.Open) (part : Section) :
    ∃ members, s.values.get? part.key = some (.object members) := by
  obtain ⟨item, found, object⟩ := opened part
  rw [get?_values, found]
  cases item with
  | shared owner => exact ⟨_, rfl⟩
  | own json =>
    obtain ⟨members, rfl⟩ := object
    exact ⟨members, rfl⟩

theorem given_of_shares (shares : s.Shares part) :
    given s.values part key = (s.defaultSection part).get? key := by
  apply given_object
  rw [get?_values, shares]
  rfl

theorem sameAs_iff (left : s.Open) (right : t.Open) :
    s.SameAs t ↔ (∀ part key, Same (given s.values part key) (given t.values part key)) ∧
      ∀ key, (∀ part : Section, key ≠ part.key) → Same (s.values.get? key) (t.values.get? key) := by
  have sections (part : Section) : Same (s.values.get? part.key) (t.values.get? part.key) ↔
      ∀ key, Same (given s.values part key) (given t.values part key) := by
    obtain ⟨members, hasLeft⟩ := left.section_eq part
    obtain ⟨others, hasRight⟩ := right.section_eq part
    simp only [given_object hasLeft, given_object hasRight]
    rw [hasLeft, hasRight, Json.same_object_iff]
  rw [SameAs, Json.same_object_iff]
  constructor
  · intro same
    exact ⟨fun part => (sections part).mp (same part.key), fun key _ => same key⟩
  · rintro ⟨entries, further⟩ key
    by_cases listed : ∃ part : Section, key = part.key
    · obtain ⟨part, rfl⟩ := listed
      exact (sections part).mpr (entries part)
    · exact further key fun part same => listed ⟨part, same⟩

theorem get?_values_updated (ready : s.Ready) {members : Json.Members}
    (has : s.values.get? part.key = some (.object members)) :
    (s.updated part changes).values.get? key =
      if key = part.key then some (.object (members.insertAll changes)) else s.values.get? key := by
  rw [get?_values] at has ⊢
  rw [get?_values]
  rcases ready.opened.changes_cases ready.sound part changes with ⟨shares, next⟩ | ⟨inner, found, next⟩
  · rw [shares] at has
    cases has
    rw [next, current_changeDefault]
    split
    next same =>
      rw [same, shares]
      simp [itemValue, defaultSection_changeDefault]
    next differs =>
      cases held : findItem key s.current with
      | none => rfl
      | some item =>
        cases item with
        | own json => rfl
        | shared holder =>
          have apart : part ≠ holder := by
            rintro rfl
            exact differs (ready.tidy key part held)
          simp [itemValue, defaultSection_changeDefault, apart]
  · rw [found] at has
    cases has
    rw [next, findItem_putItem]
    by_cases same : key = part.key
    · simp [same, itemValue]
    · rw [if_neg same, if_neg (Ne.symm same)]
      cases findItem key s.current with
      | none => rfl
      | some item => cases item with
        | own json => rfl
        | shared holder => cases holder <;> rfl

theorem given_updated (ready : s.Ready) (distinct : changes.Distinct) :
    given (s.updated part changes).values other key =
      if other = part then (changes.get? key).or (given s.values part key) else given s.values other key := by
  obtain ⟨members, has⟩ := ready.opened.section_eq part
  by_cases same : other = part
  · subst same
    rw [if_pos rfl, given_object has]
    rw [← Json.Members.get?_insertAll distinct]
    apply given_object
    rw [get?_values_updated ready has, if_pos rfl]
  · rw [if_neg same, given, get?_values_updated ready has, if_neg (mt Section.key_inj.mp same), given]

theorem get?_values_updated_further (ready : s.Ready) (further : ∀ part : Section, key ≠ part.key) :
    (s.updated part changes).values.get? key = s.values.get? key := by
  obtain ⟨members, has⟩ := ready.opened.section_eq part
  rw [get?_values_updated ready has, if_neg (further part)]

theorem given_reset : given s.reset.values part key = (s.defaultSection part).get? key := by
  rw [given_of_shares (shares_reset part), default_reset]

end Contents

structure Kept (s t : Settings) : Prop where
  settings : s.SameAs t
  defaults : ∀ (part : Section) (key : String),
    Same ((s.defaultSection part).get? key) ((t.defaultSection part).get? key)

section Kept

variable {s t r : Settings} {part : Section}

theorem SameAs.trans (first : s.SameAs t) (second : t.SameAs r) : s.SameAs r :=
  Json.Same.trans first second

theorem SameAs.symm (same : s.SameAs t) : t.SameAs s :=
  Json.Same.symm same

theorem Kept.refl (s : Settings) : s.Kept s :=
  ⟨Same.refl _, fun _ _ => Same.refl _⟩

theorem Kept.symm (kept : s.Kept t) : t.Kept s :=
  ⟨kept.settings.symm, fun part key => (kept.defaults part key).symm⟩

theorem Kept.trans (first : s.Kept t) (second : t.Kept r) : s.Kept r :=
  ⟨first.settings.trans second.settings, fun part key => (first.defaults part key).trans (second.defaults part key)⟩

theorem kept_reset (same : s.reset.SameAs s) : s.reset.Kept s :=
  ⟨same, fun part key => by rw [default_reset]; exact Same.refl _⟩

theorem Kept.reset (kept : s.Kept t) : s.reset.SameAs t.reset := by
  refine (sameAs_iff open_reset open_reset).mpr ⟨fun part key => ?_, fun key further => ?_⟩
  · rw [given_reset, given_reset]
    exact kept.defaults part key
  · rw [get?_values, get?_values]
    have none : findItem key sharing = none := findItem_sharing_other further
    simp only [Settings.reset, none]
    exact Same.refl _

end Kept

end Settings

namespace Dialog

open Json (Same)

open Settings (given)

inductive Event where
  | act (action : DialogAction)
  | disturb (disk : Disk)

namespace State

def after [Toolkit] (st : State) : Event → State
  | .act action => (step st action).1
  | .disturb disk => { st with disk }

def afterAll [Toolkit] (st : State) (events : List Event) : State :=
  events.foldl after st

end State

def left (d : Dialog) (s : Settings) : Event → Settings
  | .act .accept => d.takenOver s
  | .act (.reset true) => s.reset
  | _ => s

/-- The event writes nothing that is new to the settings: a reset is to what they are already, and the
fields of an accepted dialog are the entries. -/
def Harmless (s : Settings) (d : Dialog) : Event → Prop
  | .act .accept => ∀ part, ∀ entry ∈ entries (d.fields part), Same (some entry.2) (given s.values part entry.1)
  | .act (.reset true) => s.reset.SameAs s
  | _ => True

section Step

variable {s t : Settings} {st : State} {d : Dialog} {part : Section} {key : String}

theorem settings_after [Toolkit] (ready : st.settings.Ready) (event : Event) :
    (st.after event).settings = st.dialog.left st.settings event := by
  cases event with
  | disturb disk => rfl
  | act action =>
    rcases settings_step_cases ready.opened ready.sound action with
      ⟨rfl, next⟩ | ⟨rfl, next⟩ | ⟨notAccept, notReset, next⟩
    · exact next
    · exact next
    · refine next.trans ?_
      unfold left
      split
      next same =>
        cases same
        exact absurd rfl notAccept
      next same =>
        cases same
        exact absurd rfl notReset
      · rfl

theorem ready_takenOver (ready : s.Ready) (d : Dialog) : (d.takenOver s).Ready :=
  (ready.updated .editor (distinct_entries _)).updated .output (distinct_entries _)

theorem ready_left (ready : s.Ready) (d : Dialog) (event : Event) : (d.left s event).Ready := by
  unfold left
  split
  · exact ready_takenOver ready d
  · exact ready.reset
  · exact ready

theorem given_takenOver (ready : s.Ready) :
    given (d.takenOver s).values part key = ((entries (d.fields part)).get? key).or (given s.values part key) := by
  have editor := ready.updated .editor (distinct_entries d.editor)
  rw [takenOver, Settings.given_updated editor (distinct_entries _),
    Settings.given_updated ready (distinct_entries _), Settings.given_updated ready (distinct_entries _)]
  cases part <;> simp [fields]

theorem moves_takenOver (d : Dialog) (s : Settings) :
    Settings.Usage.Moves ⟨s, ⟨[], []⟩, [d]⟩ (.act 0 .accept) (d.takenOver s) :=
  .accept d rfl

theorem default_takenOver_shared (ready : s.Ready) (shares : s.Shares part) :
    (d.takenOver s).defaultSection part = (s.defaultSection part).insertAll (entries (d.fields part)) :=
  (moves_takenOver d s).default_shared ready.sound shares

theorem default_takenOver_own (ready : s.Ready) (own : ¬ s.Shares part) :
    (d.takenOver s).defaultSection part = s.defaultSection part :=
  (moves_takenOver d s).default_own ready.sound own

theorem sameAs_takenOver_iff (ready : s.Ready) : (d.takenOver s).SameAs s ↔ Harmless s d (.act .accept) := by
  rw [Settings.sameAs_iff (ready_takenOver ready d).opened ready.opened]
  have further (key : String) (other : ∀ part : Section, key ≠ part.key) :
      Same ((d.takenOver s).values.get? key) (s.values.get? key) := by
    rw [takenOver, Settings.get?_values_updated_further (ready.updated .editor (distinct_entries _)) other,
      Settings.get?_values_updated_further ready other]
    exact Same.refl _
  simp only [given_takenOver ready]
  constructor
  · rintro ⟨same, _⟩ part entry member
    have here := same part entry.1
    rwa [Json.Members.get?_of_mem (distinct_entries _) member] at here
  · intro harmless
    refine ⟨fun part key => ?_, further⟩
    cases got : (entries (d.fields part)).get? key with
    | none => exact Same.refl _
    | some value => exact harmless part (key, value) (Json.Members.mem_of_get? got)

theorem kept_takenOver (ready : s.Ready) (harmless : Harmless s d (.act .accept)) : (d.takenOver s).Kept s := by
  refine ⟨(sameAs_takenOver_iff ready).mpr harmless, fun part key => ?_⟩
  by_cases shares : s.Shares part
  · rw [default_takenOver_shared ready shares, Json.Members.get?_insertAll (distinct_entries _)]
    cases got : (entries (d.fields part)).get? key with
    | none => exact Same.refl _
    | some value =>
      have same := harmless part (key, value) (Json.Members.mem_of_get? got)
      rwa [Settings.given_of_shares shares] at same
  · rw [default_takenOver_own ready shares]
    exact Same.refl _

theorem sameAs_left_iff (ready : s.Ready) (d : Dialog) (event : Event) :
    (d.left s event).SameAs s ↔ Harmless s d event := by
  unfold left
  split
  · exact sameAs_takenOver_iff ready
  · exact Iff.rfl
  next notAccept notReset =>
    refine iff_of_true (Same.refl _) ?_
    unfold Harmless
    split
    · exact absurd rfl notAccept
    · exact absurd rfl notReset
    · trivial

theorem kept_left (ready : s.Ready) (event : Event) (harmless : Harmless s d event) :
    (d.left s event).Kept s := by
  have same := (sameAs_left_iff ready d event).mpr harmless
  unfold left at same ⊢
  split at same
  · exact kept_takenOver ready harmless
  · exact Settings.kept_reset same
  · exact Settings.Kept.refl s

theorem Harmless.of_kept (kept : s.Kept t) (left : s.Open) (right : t.Open) {event : Event}
    (harmless : Harmless s d event) : Harmless t d event := by
  unfold Harmless at harmless ⊢
  split
  · intro part entry member
    have same := ((Settings.sameAs_iff left right).mp kept.settings).1 part entry.1
    exact (harmless part entry member).trans same
  · exact (kept.symm.reset.trans harmless).trans kept.settings
  · trivial

end Step

section Run

variable [Toolkit] {st : State} {events : List Event}

theorem afterAll_concat (st : State) (events : List Event) (event : Event) :
    st.afterAll (events ++ [event]) = (st.afterAll events).after event := by
  simp [State.afterAll]

theorem ready_afterAll (ready : st.settings.Ready) (events : List Event) :
    (st.afterAll events).settings.Ready := by
  induction events using List.reverseRecOn with
  | nil => exact ready
  | append_singleton before event ih =>
    rw [afterAll_concat, settings_after ih]
    exact ready_left ih _ event

theorem kept_afterAll (ready : st.settings.Ready)
    (harmless : ∀ before event, before ++ [event] <+: events →
      Harmless st.settings (st.afterAll before).dialog event) :
    (st.afterAll events).settings.Kept st.settings := by
  induction events using List.reverseRecOn with
  | nil => exact Settings.Kept.refl _
  | append_singleton before event ih =>
    have readyBefore := ready_afterAll ready before
    have kept := ih fun earlier other cut => harmless earlier other (cut.trans (List.prefix_append _ _))
    have here := (harmless before event List.prefix_rfl).of_kept kept.symm ready.opened readyBefore.opened
    rw [afterAll_concat, settings_after readyBefore]
    exact (kept_left readyBefore event here).trans kept

theorem harmless_of_same (ready : st.settings.Ready)
    (same : ∀ before, before <+: events → (st.afterAll before).settings.SameAs st.settings)
    (before : List Event) (event : Event) (cut : before ++ [event] <+: events) :
    Harmless st.settings (st.afterAll before).dialog event := by
  induction events using List.reverseRecOn generalizing before event with
  | nil => simp at cut
  | append_singleton earlier last ih =>
    have harmless := ih fun cut inside => same cut (inside.trans (List.prefix_append _ _))
    rcases List.prefix_concat_iff.mp cut with whole | inside
    · obtain ⟨rfl, rfl⟩ : before = earlier ∧ event = last := by simpa using whole
      have readyBefore := ready_afterAll ready before
      have kept := kept_afterAll ready harmless
      have after := same (before ++ [event]) List.prefix_rfl
      rw [afterAll_concat, settings_after readyBefore] at after
      have here := (sameAs_left_iff readyBefore _ event).mp (after.trans kept.settings.symm)
      exact here.of_kept kept readyBefore.opened ready.opened
    · exact harmless before event inside

end Run

section Refused

variable {st : State} {s : Settings} {events : List Event}

def Unaccepted [Toolkit] (st : State) (events : List Event) : Prop :=
  ∀ before, before <+: events → (st.afterAll before).dialog.closed ≠ some .accepted

theorem file_takenOver (d : Dialog) (s : Settings) : (d.takenOver s).file = s.file := by
  rw [takenOver, Settings.file_updated, Settings.file_updated]

-- No text can be written to the file.
def Barred (disk : Disk) (file : String) : Prop :=
  ∀ text, ∃ cause, disk.write file text = .error cause

theorem accept_refused (ready : st.settings.Ready) (barred : Barred st.disk st.settings.file) :
    ∃ printed, (accept st).1 =
      ⟨st.dialog.notify saveFailed, st.dialog.takenOver st.settings, st.disk, printed⟩ := by
  rw [← file_takenOver st.dialog] at barred
  obtain ⟨cause, refused⟩ := barred (((Json.object (st.dialog.takenOver st.settings).values).cutAt 0).getD
    (st.dialog.takenOver st.settings).text)
  have editor := Settings.update_ok ready.opened .editor (entries st.dialog.editor)
  have output := Settings.update_ok (ready.updated .editor (distinct_entries st.dialog.editor)).opened .output
    (entries st.dialog.output)
  unfold takenOver at refused ⊢
  simp [accept, editor, output, Settings.save, refused]

section Toolkit

variable [Toolkit]

theorem unaccepted_cons {event : Event} (first : st.dialog.closed ≠ some .accepted)
    (later : Unaccepted (st.after event) events) : Unaccepted st (event :: events) := by
  intro before inside
  rcases List.prefix_cons_iff.mp inside with rfl | ⟨rest, rfl, more⟩
  · exact first
  · exact later rest more

theorem unaccepted_nil (last : st.dialog.closed ≠ some .accepted) : Unaccepted st [] := by
  intro before inside
  rw [List.prefix_nil.mp inside]
  exact last

theorem closed_start {d : Dialog} (started : start s = .ok d) : d.closed = none := by
  obtain ⟨_, _, _, _, _, _, _, _, rfl⟩ := load_cases (load_of_start started)
  rfl

theorem after_size {value size : Json} (takes : Toolkit.spinBox 6 72 st.dialog.editor.size value = .ok size) :
    st.after (.act (.size .editor value)) =
      { st with dialog := st.dialog.put .editor { st.dialog.editor with size } } := by
  simp [State.after, step, enter, setSize, takes, fields, bind, Except.bind, pure, Except.pure]

theorem size_not_undone {value size : Json} (takes : Toolkit.spinBox 6 72 st.dialog.editor.size value = .ok size)
    (ready : st.settings.Ready) (unclosed : st.dialog.closed = none)
    (barred : Barred st.disk st.settings.file)
    (other : ¬ Same (some size) (given st.settings.values .editor "font_size")) :
    let events := [Event.act (.size .editor value), .act .accept, .act .cancel]
    Unaccepted st events ∧ (st.afterAll events).dialog.closed = some .rejected ∧
      ¬ (st.afterAll events).settings.SameAs st.settings := by
  intro events
  let edited : State := { st with dialog := st.dialog.put .editor { st.dialog.editor with size } }
  have entered : st.after (.act (.size .editor value)) = edited := after_size takes
  obtain ⟨printed, pressed⟩ : ∃ printed, edited.after (.act .accept) = _ := @accept_refused edited ready barred
  have last : st.afterAll events = (edited.after (.act .accept)).after (.act .cancel) := by
    rw [← entered]
    rfl
  rw [last]
  refine ⟨?_, rfl, fun same => ?_⟩
  · apply unaccepted_cons (by simp [unclosed])
    rw [entered]
    apply unaccepted_cons (by simp [edited, put, unclosed])
    rw [pressed]
    apply unaccepted_cons (by simp [edited, put, notify, unclosed])
    exact unaccepted_nil nofun
  · rw [pressed] at same
    have harmless := (sameAs_takenOver_iff ready).mp same
    exact other (harmless .editor ("font_size", size) (by simp [entries, fields, put, edited]))

end Toolkit

theorem exists_other_size (held : Option Json) :
    ∃ size : Int, 6 ≤ size ∧ size ≤ 72 ∧ ¬ Same (some (.whole size)) held := by
  by_cases least : Same (some (.whole 6)) held
  · refine ⟨7, by decide, by decide, fun next => ?_⟩
    have wrong := next.trans least.symm []
    simp [Json.faceAt, Json.follow, Json.face] at wrong
  · exact ⟨6, by decide, by decide, least⟩

end Refused

end Dialog

namespace Settings.Usage

variable [Toolkit]

theorem tidy_afterAll (disk : Disk) (file : String) (operations : List Operation) :
    ((first disk file).afterAll operations).settings.Tidy := by
  induction operations using List.reverseRecOn with
  | nil => exact tidy_start disk file
  | append_singleton before operation ih =>
    have sound := (sound_first disk file).afterAll before
    have moves := moves_after sound operation
    rw [afterAll_concat]
    generalize (((first disk file).afterAll before).after operation).settings = next at moves ⊢
    cases moves with
    | update part changes => exact ih.updated sound.settings part changes
    | accept dialog =>
      have editor := sound.settings.updated .editor (Dialog.distinct_entries dialog.editor)
      exact (ih.updated sound.settings .editor _).updated editor .output _
    | reset => exact fun _ _ => tidy_sharing
    | rest => exact ih

theorem ready_of_start {disk : Disk} {file : String} {operations : List Operation} {dialog : Dialog}
    (started : Dialog.start ((first disk file).afterAll operations).settings = .ok dialog) :
    ((first disk file).afterAll operations).settings.Ready where
  sound := ((sound_first disk file).afterAll operations).settings
  opened := Dialog.open_of_start started
  tidy := tidy_afterAll disk file operations

end Settings.Usage

-- The spin box for sizes takes each whole number of its range.
def Toolkit.TakesSizes [Toolkit] : Prop :=
  ∀ (held : Json) (size : Int), 6 ≤ size → size ≤ 72 → spinBox 6 72 held (.whole size) = .ok (.whole size)

namespace Dialog

open Json (Same)

open Settings (Usage Operation given)

/-- While a dialog is open the settings are those from before it exactly as long as each confirmed reset
finds them at the defaults, and each press of the button that accepts it finds every entry as its field
has it, whether or not the settings can be saved. All other actions leave them alone. So wherever the file
cannot be written, a dialog can change the settings without being accepted. The controls may be those of any
toolkit; for the last, its spin box must take the sizes of its range. -/
theorem settings_kept_iff [Toolkit] (disk : Disk) (file : String) (operations : List Operation) (dialog : Dialog)
    (started : start ((Usage.first disk file).afterAll operations).settings = .ok dialog) :
    let u := (Usage.first disk file).afterAll operations
    let st : State := ⟨dialog, u.settings, u.disk, ""⟩
    (∀ events,
      (∀ before, before <+: events → (st.afterAll before).settings.SameAs u.settings) ↔
        ∀ before event, before ++ [event] <+: events →
          Harmless u.settings (st.afterAll before).dialog event) ∧
    (Toolkit.TakesSizes → ∀ barred, Barred barred u.settings.file →
      ∃ events, Unaccepted st events ∧ (st.afterAll events).dialog.closed = some .rejected ∧
        ¬ (st.afterAll events).settings.SameAs u.settings) := by
  intro u st
  have ready : st.settings.Ready := Usage.ready_of_start started
  refine ⟨fun events => ⟨harmless_of_same ready, fun harmless before inside => ?_⟩, fun takes disk barred => ?_⟩
  · exact (kept_afterAll ready fun earlier event cut => harmless earlier event (cut.trans inside)).settings
  · let disturbed : State := st.after (.disturb disk)
    have unclosed : disturbed.dialog.closed = none := closed_start started
    obtain ⟨size, least, most, other⟩ := exists_other_size (given u.settings.values .editor "font_size")
    obtain ⟨unaccepted, rejected, changed⟩ :=
      @size_not_undone disturbed _ _ _ (takes _ size least most) ready unclosed barred other
    refine ⟨.disturb disk :: _, unaccepted_cons ?_ unaccepted, rejected, changed⟩
    rw [show st.dialog.closed = none from unclosed]
    nofun

def factoryDialog : Dialog :=
  ⟨⟨.text "Courier New", .whole 10, ⟨"#1e1e1e"⟩, ⟨"#ffffff"⟩⟩,
    ⟨.text "Courier New", .whole 10, ⟨"#1e1e1e"⟩, ⟨"#90ee90"⟩⟩, none, []⟩

def adrift : Usage :=
  ⟨⟨"m/s", Settings.factoryEditor, Settings.factoryOutput, Settings.sharing⟩, ⟨[], []⟩, []⟩

theorem first_adrift : Usage.first ⟨[], []⟩ "m/s" = adrift := by
  cbv

theorem barred_adrift : Barred ⟨[], []⟩ "m/s" := by
  intro text
  exact ⟨_, by cbv⟩

theorem start_adrift : start (Usage.first ⟨[], []⟩ "m/s").settings = .ok factoryDialog := by
  rw [first_adrift]
  rfl

theorem cancelled_dialog_keeps_settings :
    let u := Usage.first ⟨[], []⟩ "m/s"
    let st : State := ⟨factoryDialog, u.settings, u.disk, ""⟩
    let events := [Event.act (.size .editor (.whole 20)), .act (.reset false), .act (.reset true), .act .cancel]
    start u.settings = .ok factoryDialog ∧
      (∀ before, before <+: events → (st.afterAll before).settings.SameAs u.settings) ∧
      ∃ others, Unaccepted st others ∧ (st.afterAll others).dialog.closed = some .rejected ∧
        ¬ (st.afterAll others).settings.SameAs u.settings := by
  intro u st events
  obtain ⟨kept, lost⟩ := settings_kept_iff ⟨[], []⟩ "m/s" [] factoryDialog start_adrift
  have barred : Barred ⟨[], []⟩ u.settings.file := by
    unfold u
    rw [first_adrift]
    exact barred_adrift
  refine ⟨start_adrift, (kept events).mpr fun before event cut => ?_, lost (fun _ _ _ _ => rfl) _ barred⟩
  have member : event ∈ events := cut.subset (by simp)
  simp only [events, List.mem_cons, List.not_mem_nil, or_false] at member
  rcases member with rfl | rfl | rfl | rfl
  · trivial
  · trivial
  · change (Usage.first ⟨[], []⟩ "m/s").settings.reset.SameAs (Usage.first ⟨[], []⟩ "m/s").settings
    rw [first_adrift]
    exact Same.refl _
  · trivial

/-- The size of the editor's font is set to twenty, the settings cannot be saved, and the dialog is
cancelled: the size is not what it was. -/
theorem refused_size_stays :
    let u := Usage.first ⟨[], []⟩ "m/s"
    let st : State := ⟨factoryDialog, u.settings, u.disk, ""⟩
    let events := [Event.act (.size .editor (.whole 20)), .act .accept, .act .cancel]
    start u.settings = .ok factoryDialog ∧ Unaccepted st events ∧
      (st.afterAll events).dialog.closed = some .rejected ∧
      ¬ (st.afterAll events).settings.SameAs u.settings := by
  intro u st
  have ready : st.settings.Ready := @Usage.ready_of_start _ ⟨[], []⟩ "m/s" [] factoryDialog start_adrift
  refine ⟨start_adrift, size_not_undone rfl ready rfl ?_ fun same => ?_⟩
  · unfold st u
    rw [first_adrift]
    exact barred_adrift
  · unfold st u at same
    rw [first_adrift] at same
    have wrong : some (Json.face (.whole 20)) = some (Json.face (.whole 10)) := same []
    simp [Json.face] at wrong

end Dialog

end Pseudocode
