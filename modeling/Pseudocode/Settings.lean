import Pseudocode.Disk
import Pseudocode.Json.Quoted
import Pseudocode.Json.Read
import Pseudocode.Json.Write

set_option autoImplicit false

namespace Pseudocode

inductive Section where
  | editor
  | output
  deriving Repr, DecidableEq

def Section.key : Section → String
  | .editor => "editor"
  | .output => "output"

/-- What stands under a key of the settings: a section of the defaults, or a value of its own. -/
inductive SettingsItem where
  | shared (part : Section)
  | own (json : Json)

structure Settings where
  file : String
  defaultEditor : Json.Members
  defaultOutput : Json.Members
  current : List (String × SettingsItem)

inductive SettingsFault where
  | missingKey (key : String)
  | noUpdate (json : String)
  | noKeys (message : String)
  deriving Repr, DecidableEq

def SettingsFault.message : SettingsFault → String
  | .missingKey key => Text.quoted key
  | .noUpdate kind => "'" ++ kind ++ "' object has no attribute 'update'"
  | .noKeys message => message

inductive LoadFault where
  | file (cause : FileError)
  | data (message : String)
  | notIterable (kind : String)
  | notSequence (position : Nat)
  | wrongLength (position length : Nat)
  | unhashable (kind : String)
  | part (cause : SettingsFault)
  deriving Repr, DecidableEq

def LoadFault.message : LoadFault → String
  | .file cause => cause.message
  | .data message => message
  | .notIterable kind => "'" ++ kind ++ "' object is not iterable"
  | .notSequence position =>
    "cannot convert dictionary update sequence element #" ++ toString position ++ " to a sequence"
  | .wrongLength position length =>
    "dictionary update sequence element #" ++ toString position ++ " has length " ++
      toString length ++ "; 2 is required"
  | .unhashable kind => "unhashable type: '" ++ kind ++ "'"
  | .part cause => cause.message

namespace Settings

def defaultFile : String := "pside_settings.json"

def factoryEditor : Json.Members :=
  [("font_family", .text "Courier New"), ("font_size", .whole 10),
   ("background_color", .text "#1E1E1E"), ("text_color", .text "#FFFFFF")]

def factoryOutput : Json.Members :=
  [("font_family", .text "Courier New"), ("font_size", .whole 10),
   ("background_color", .text "#1E1E1E"), ("text_color", .text "#90EE90")]

def defaultSection (s : Settings) : Section → Json.Members
  | .editor => s.defaultEditor
  | .output => s.defaultOutput

def sharing : List (String × SettingsItem) :=
  [("editor", .shared .editor), ("output", .shared .output)]

def itemValue (s : Settings) : SettingsItem → Json
  | .shared part => .object (s.defaultSection part)
  | .own json => json

def values (s : Settings) : Json.Members :=
  s.current.map fun (key, item) => (key, s.itemValue item)

def putItem (key : String) (item : SettingsItem) :
    List (String × SettingsItem) → List (String × SettingsItem)
  | [] => [(key, item)]
  | (k, i) :: rest => if k = key then (k, item) :: rest else (k, i) :: putItem key item rest

def findItem (key : String) : List (String × SettingsItem) → Option SettingsItem
  | [] => none
  | (k, i) :: rest => if k = key then some i else findItem key rest

def keyText (json : Json) : Except LoadFault String :=
  match json with
  | .text s => .ok s
  | .list _ | .object _ => .error (.unhashable json.kindLabel)
  | other => .ok other.compact

def entryOf (position : Nat) (parts : List Json) : Except LoadFault (String × Json) :=
  match parts with
  | [key, value] => do pure (← keyText key, value)
  | _ => .error (.wrongLength position parts.length)

def entryParts (position : Nat) : Json → Except LoadFault (List Json)
  | .list items => .ok items
  | .text s => .ok (s.toList.map fun c => .text c.toString)
  | .object members => .ok (members.map fun (key, _) => .text key)
  | _ => .error (.notSequence position)

def entries : Nat → List Json → Except LoadFault Json.Members
  | _, [] => .ok []
  | position, item :: rest => do
    let entry ← entryOf position (← entryParts position item)
    let others ← entries (position + 1) rest
    pure (entry :: others)

def membersOf (json : Json) : Except LoadFault Json.Members :=
  match json with
  | .object members => .ok members
  | .list items => entries 0 items
  | .text s => entries 0 (s.toList.map fun c => .text c.toString)
  | other => .error (.notIterable other.kindLabel)

def checkSection (json : Json) (part : Section) : Except LoadFault Unit :=
  match json with
  | .object members =>
    match Json.Members.get? members part.key with
    | none | some (.object _) => .ok ()
    | some other => .error (.part (.noUpdate other.kindLabel))
  | _ => .ok ()

def merged (json : Json) : Except LoadFault (List (String × SettingsItem)) := do
  let members ← membersOf json
  -- A section that is no object spoils the whole file.
  checkSection json .editor
  checkSection json .output
  pure (members.foldl (fun all (key, value) => putItem key (.own value) all) sharing)

def readFile (disk : Disk) (file : String) : Except LoadFault Json := do
  match disk.readText file with
  | .error cause => throw (.file cause)
  | .ok text =>
    match Json.read text with
    | .error message => throw (.data message)
    | .ok json => pure json

def load (s : Settings) (disk : Disk) : Settings × String :=
  if disk.exists? s.file then
    match readFile disk s.file >>= merged with
    | .ok current => ({ s with current }, "")
    | .error cause =>
      ({ s with current := sharing }, "Error loading settings: " ++ cause.message ++ "\n")
  else ({ s with current := sharing }, "")

def start (disk : Disk) (file : String) : Settings × String :=
  load ⟨file, factoryEditor, factoryOutput, sharing⟩ disk

def get (s : Settings) (part : Section) : Except SettingsFault Json :=
  match findItem part.key s.current with
  | some item => .ok (s.itemValue item)
  | none => .error (.missingKey part.key)

def changeDefault (s : Settings) (part : Section) (changes : Json.Members) : Settings :=
  match part with
  | .editor => { s with defaultEditor := s.defaultEditor.insertAll changes }
  | .output => { s with defaultOutput := s.defaultOutput.insertAll changes }

def update (s : Settings) (part : Section) (changes : Json.Members) :
    Except SettingsFault Settings :=
  match findItem part.key s.current with
  | some (.shared owner) => .ok (s.changeDefault owner changes)
  | some (.own (.object members)) =>
    .ok { s with
      current := putItem part.key (.own (.object (Json.Members.insertAll members changes)))
        s.current }
  | some (.own other) => .error (.noUpdate other.kindLabel)
  | none => .error (.missingKey part.key)

-- Goes back to the defaults as they are now.
def reset (s : Settings) : Settings :=
  { s with current := sharing }

def text (s : Settings) : String :=
  (Json.object s.values).indented

-- A number that cannot be written leaves the file with what stands before it.
def save (s : Settings) (disk : Disk) : Disk × Bool × String :=
  let cut := (Json.object s.values).cutAt 0
  match disk.write s.file (cut.getD s.text), cut with
  | .ok disk, none => (disk, true, "")
  | .ok disk, some _ => (disk, false, "Error saving settings: " ++ Json.longMessage ++ "\n")
  | .error cause, _ => (disk, false, "Error saving settings: " ++ cause.message ++ "\n")

def entry (json : Json) (key : String) : Except SettingsFault Json :=
  match json with
  | .object members =>
    match Json.Members.get? members key with
    | some value => .ok value
    | none => .error (.missingKey key)
  | .text _ => .error (.noKeys "string indices must be integers, not 'str'")
  | .list _ => .error (.noKeys "list indices must be integers or slices, not str")
  | other => .error (.noKeys ("'" ++ other.kindLabel ++ "' object is not subscriptable"))

end Settings

end Pseudocode
