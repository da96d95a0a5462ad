import Mathlib
import Pseudocode.Proofs.Json.RoundTrip
import Pseudocode.Proofs.Settings.Members

set_option autoImplicit false

namespace Pseudocode

theorem Disk.exists?_of_readText {disk : Disk} {path text : String}
    (read : disk.readText path = .ok text) : disk.exists? path = true := by
  have found : ∃ bytes, disk.readBytes path = .ok bytes := by
    cases bytes : disk.readBytes path with
    | ok found => exact ⟨found, rfl⟩
    | error cause => simp [readText, readExact, bytes, Except.map, bind, Except.bind] at read
  obtain ⟨bytes, found⟩ := found
  unfold readBytes at found
  unfold exists?
  split at found
  · cases found
  · next plain =>
    split at found
    · cases found
    · next place located =>
      simp only [located, plain, Bool.not_false, Bool.true_and]
      cases entry : disk.find? place with
      | some entry => rfl
      | none => simp [entry] at found

namespace Settings

def sectionKeys : List String :=
  ["font_family", "font_size", "background_color", "text_color"]

def factory : Section → Json.Members
  | .editor => factoryEditor
  | .output => factoryOutput

def given (members : Json.Members) (part : Section) (key : String) : Option Json :=
  (members.get? part.key).bind (·.get? key)

theorem given_none {members : Json.Members} {part : Section} (absent : members.get? part.key = none)
    (key : String) : given members part key = none := by
  rw [given, absent]
  rfl

theorem given_object {members inner : Json.Members} {part : Section}
    (present : members.get? part.key = some (.object inner)) (key : String) :
    given members part key = inner.get? key := by
  rw [given, present]
  rfl

/-- The settings are the members of a file, completed with the defaults. -/
structure Completes (s : Settings) (members : Json.Members) : Prop where
  entries (part : Section) {key : String} : key ∈ sectionKeys →
    given s.values part key = (given members part key).or ((factory part).get? key)
  further (part : Section) {key : String} : key ∉ sectionKeys →
    given s.values part key = given members part key
  others {key : String} : (∀ part : Section, key ≠ part.key) → s.values.get? key = members.get? key

theorem factory_keys (part : Section) {key : String} (listed : key ∈ sectionKeys) :
    ((factory part).get? key).isSome = true := by
  have all : ∀ key ∈ sectionKeys, ((factory part).get? key).isSome = true := by
    cases part <;> decide
  exact all key listed

theorem factory_further (part : Section) {key : String} (unlisted : key ∉ sectionKeys) :
    (factory part).get? key = none := by
  apply Json.Members.get?_eq_none
  have all : ∀ entry ∈ factory part, entry.1 ∈ sectionKeys := by
    cases part <;> simp [factory, factoryEditor, factoryOutput, sectionKeys]
  rintro entry member rfl
  exact unlisted (all entry member)

section Load

variable {disk : Disk} {file key : String} {json : Json} {members : Json.Members}

theorem load_of_merged (s : Settings) {current : List (String × SettingsItem)} (read : readFile disk s.file = .ok json)
    (merges : merged json = .ok current) : load s disk = ({ s with current }, "") := by
  have there : disk.exists? s.file = true := by
    cases text : disk.readText s.file with
    | ok text => exact Disk.exists?_of_readText text
    | error cause => simp [readFile, text, throw, throwThe, MonadExceptOf.throw] at read
  have loaded : readFile disk s.file >>= merged = .ok current := by
    rw [read]
    exact merges
  rw [load, if_pos there, loaded]

theorem proper_of_readFile (read : readFile disk file = .ok json) : json.Proper := by
  unfold readFile at read
  split at read
  · cases read
  · split at read
    · cases read
    next parsed =>
      cases read
      exact Json.proper_of_read parsed

theorem distinct_of_readFile (read : readFile disk file = .ok (.object members)) : members.Distinct :=
  (Json.proper_object_iff.mp (proper_of_readFile read)).1

def Sectioned (members : Json.Members) : Prop :=
  ∀ (part : Section) (json : Json), members.get? part.key = some json → ∃ inner, json = .object inner

theorem merged_of_sectioned (sections : Sectioned members) :
    merged (.object members) =
      .ok (members.foldl (fun all (key, value) => putItem key (.own value) all) sharing) := by
  have checked (part : Section) : checkSection (.object members) part = .ok () := by
    cases got : members.get? part.key with
    | none => simp [checkSection, got]
    | some json =>
      obtain ⟨inner, rfl⟩ := sections part json got
      simp [checkSection, got]
  simp [merged, membersOf, checked, bind, Except.bind, pure, Except.pure]

theorem findItem_sharing (part : Section) : findItem part.key sharing = some (.shared part) := by
  cases part <;> rfl

theorem findItem_sharing_other (other : ∀ part : Section, key ≠ part.key) :
    findItem key sharing = none := by
  have editor : "editor" ≠ key := (other .editor).symm
  have output : "output" ≠ key := (other .output).symm
  simp [sharing, findItem, editor, output]

variable (read : readFile disk file = .ok (.object members)) (sections : Sectioned members)
include read sections

theorem start_of_sectioned :
    (start disk file).1 = ⟨file, factoryEditor, factoryOutput,
      members.foldl (fun all (key, value) => putItem key (.own value) all) sharing⟩ := by
  let fresh : Settings := ⟨file, factoryEditor, factoryOutput, sharing⟩
  rw [start, load_of_merged fresh read (merged_of_sectioned sections)]

theorem section_start (part : Section) :
    (start disk file).1.values.get? part.key =
      some ((members.get? part.key).getD (.object (factory part))) := by
  rw [get?_values, start_of_sectioned read sections, findItem_putAll (distinct_of_readFile read),
    findItem_sharing]
  cases members.get? part.key with
  | some json => rfl
  | none => cases part <;> rfl

theorem other_start (other : ∀ part : Section, key ≠ part.key) :
    (start disk file).1.values.get? key = members.get? key := by
  rw [get?_values, start_of_sectioned read sections, findItem_putAll (distinct_of_readFile read),
    findItem_sharing_other other]
  cases members.get? key <;> rfl

theorem given_start_absent {part : Section} (absent : members.get? part.key = none) (key : String) :
    given (start disk file).1.values part key = (factory part).get? key := by
  apply given_object
  rw [section_start read sections, absent]
  rfl

theorem given_start_present {part : Section} {inner : Json.Members}
    (present : members.get? part.key = some (.object inner)) (key : String) :
    given (start disk file).1.values part key = inner.get? key := by
  apply given_object
  rw [section_start read sections, present]
  rfl

theorem Completes.present (completes : (start disk file).1.Completes members) {part : Section}
    {inner : Json.Members} (present : members.get? part.key = some (.object inner))
    (listed : key ∈ sectionKeys) : (inner.get? key).isSome := by
  have entry := completes.entries part listed
  rw [given_start_present read sections present, given_object present] at entry
  cases got : inner.get? key with
  | some value => rfl
  | none =>
    have has := factory_keys part listed
    rw [got, Option.none_or] at entry
    rw [← entry] at has
    cases has

theorem completes_of_present
    (present : ∀ (part : Section) (inner : Json.Members), members.get? part.key = some (.object inner) →
      ∀ key ∈ sectionKeys, (inner.get? key).isSome) : (start disk file).1.Completes members where
  entries part key listed := by
    cases got : members.get? part.key with
    | none => rw [given_start_absent read sections got, given_none got, Option.none_or]
    | some json =>
      obtain ⟨inner, rfl⟩ := sections part json got
      obtain ⟨value, has⟩ := Option.isSome_iff_exists.mp (present part inner got key listed)
      rw [given_start_present read sections got, given_object got, has, Option.some_or]
  further part key unlisted := by
    cases got : members.get? part.key with
    | none =>
      rw [given_start_absent read sections got, given_none got, factory_further part unlisted]
    | some json =>
      obtain ⟨inner, rfl⟩ := sections part json got
      rw [given_start_present read sections got, given_object got]
  others other := other_start read sections other

end Load

/-- Settings loaded from a file have each section of the file as it stands there, the default section
where the file gives none, and all else that is in the file. So they are the file completed with the
defaults exactly if each section in the file has all of its entries. -/
theorem loaded_settings_complete_iff (disk : Disk) (file : String) (members : Json.Members)
    (read : readFile disk file = .ok (.object members)) (sections : Sectioned members) :
    (∀ part, (start disk file).1.values.get? part.key =
      some ((members.get? part.key).getD (.object (factory part)))) ∧
    (∀ key, (∀ part : Section, key ≠ part.key) →
      (start disk file).1.values.get? key = members.get? key) ∧
    ((start disk file).1.Completes members ↔
      ∀ (part : Section) (inner : Json.Members), members.get? part.key = some (.object inner) →
        ∀ key ∈ sectionKeys, (inner.get? key).isSome) := by
  refine ⟨section_start read sections, fun key => other_start read sections, ?_, ?_⟩
  · intro completes part inner present key listed
    exact completes.present read sections present listed
  · exact completes_of_present read sections

def diskWith (text : String) : Disk :=
  ⟨[], [(["s"], .file (Text.encode text))]⟩

theorem readFile_diskWith {text : String} {json : Json}
    (decoded : Text.decode (Text.encode text) = .ok text)
    (line : Text.unifyLines text.toList = text.toList) (parsed : Json.read text = .ok json) :
    readFile (diskWith text) "s" = .ok json := by
  have stored : (diskWith text).readBytes "s" = .ok (Text.encode text) := by
    unfold diskWith
    generalize Text.encode text = bytes
    cbv
  have read : (diskWith text).readText "s" = .ok text := by
    simp [Disk.readText, Disk.readExact, stored, decoded, bind, Except.bind, Except.map, line]
  simp [readFile, read, parsed, pure, Except.pure]

def wholeText : String :=
  "\x7b\"output\": \x7b\"font_family\": \"M\", \"font_size\": 9, \"background_color\": \"w\", " ++
    "\"text_color\": \"b\", \"wrap\": true\x7d, \"n\": [1]\x7d"

def wholeOutput : Json.Members :=
  [("font_family", .text "M"), ("font_size", .whole 9), ("background_color", .text "w"),
    ("text_color", .text "b"), ("wrap", .flag true)]

def wholeMembers : Json.Members :=
  [("output", .object wholeOutput), ("n", .list [.whole 1])]

set_option maxRecDepth 4000 in
theorem readFile_whole : readFile (diskWith wholeText) "s" = .ok (.object wholeMembers) :=
  readFile_diskWith (by decide +kernel) (by decide +kernel) rfl

theorem whole_section_completed :
    let loaded := (start (diskWith wholeText) "s").1
    readFile (diskWith wholeText) "s" = .ok (.object wholeMembers) ∧ Sectioned wholeMembers ∧
      loaded.values.get? "editor" = some (.object factoryEditor) ∧
      loaded.values.get? "output" = some (.object wholeOutput) ∧
      loaded.values.get? "n" = some (.list [.whole 1]) ∧ loaded.Completes wholeMembers := by
  intro loaded
  have sections : Sectioned wholeMembers := by
    rintro (_ | _) json got
    · cases got
    · exact ⟨wholeOutput, Option.some.inj got.symm⟩
  obtain ⟨parts, others, complete⟩ :=
    loaded_settings_complete_iff (diskWith wholeText) "s" wholeMembers readFile_whole sections
  have completes : loaded.Completes wholeMembers := by
    refine complete.mpr fun part inner got => ?_
    cases part with
    | editor => cases got
    | output =>
      cases got
      decide
  exact ⟨readFile_whole, sections, parts .editor, parts .output,
    others "n" (by rintro (_ | _) <;> decide), completes⟩

def gapsText : String :=
  "\x7b\"editor\": \x7b\"font_size\": 12\x7d\x7d"

/-- A file that gives the size of the editor's font alone: the settings have no font for the editor. -/
theorem section_with_gaps_not_completed :
    let members : Json.Members := [("editor", .object [("font_size", .whole 12)])]
    readFile (diskWith gapsText) "s" = .ok (.object members) ∧ Sectioned members ∧
      given (start (diskWith gapsText) "s").1.values .editor "font_family" = none ∧
      ¬ (start (diskWith gapsText) "s").1.Completes members := by
  intro members
  have read : readFile (diskWith gapsText) "s" = .ok (.object members) :=
    readFile_diskWith (by decide +kernel) (by decide +kernel) rfl
  have sections : Sectioned members := by
    rintro (_ | _) json got
    · exact ⟨_, Option.some.inj got.symm⟩
    · cases got
  have present : members.get? Section.editor.key = some (.object [("font_size", .whole 12)]) := rfl
  have listed : "font_family" ∈ sectionKeys := by decide
  refine ⟨read, sections, given_start_present read sections present _, fun completes => ?_⟩
  have has := completes.present read sections present listed
  cases has

end Settings

end Pseudocode
