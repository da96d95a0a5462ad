import Pseudocode.Settings

set_option autoImplicit false

namespace Pseudocode

structure Box where
  kind : String
  title : String
  text : String
  deriving Repr, DecidableEq

structure Colour where
  name : String
  deriving Repr, DecidableEq

structure Fields where
  font : Json
  size : Json
  background : Colour
  foreground : Colour

def Fields.buttonStyle (fields : Fields) : String :=
  "background-color: " ++ fields.background.name ++ "; border: 1px solid #666;"

-- The controls of a dialog are not part of the program. A toolkit says what they hold once they are given
-- a value, which may depend on what they held, or how they refuse it, and what they hold at first.
class Toolkit where
  fontBox (held value : Json) : Except SettingsFault Json
  spinBox (low high : Int) (held value : Json) : Except SettingsFault Json
  colour (value : Json) : Except SettingsFault Colour
  blank : Fields

inductive Closing where
  | accepted
  | rejected
  deriving Repr, DecidableEq

structure Dialog where
  editor : Fields
  output : Fields
  closed : Option Closing
  boxes : List Box

inductive DialogAction where
  | font (part : Section) (value : Json)
  | size (part : Section) (value : Json)
  | background (part : Section) (chosen : Option Colour)
  | foreground (part : Section) (chosen : Option Colour)
  | reset (confirmed : Bool)
  | accept
  | cancel

namespace Dialog

def fields (d : Dialog) : Section → Fields
  | .editor => d.editor
  | .output => d.output

def put (d : Dialog) (part : Section) (fields : Fields) : Dialog :=
  match part with
  | .editor => { d with editor := fields }
  | .output => { d with output := fields }

def notify (d : Dialog) (box : Box) : Dialog :=
  { d with boxes := d.boxes ++ [box] }

section Controls

variable [Toolkit]

def setFont (fields : Fields) (value : Json) : Except SettingsFault Fields := do
  pure { fields with font := ← Toolkit.fontBox fields.font value }

def setSize (fields : Fields) (value : Json) : Except SettingsFault Fields := do
  pure { fields with size := ← Toolkit.spinBox 6 72 fields.size value }

def setBackground (fields : Fields) (value : Json) : Except SettingsFault Fields := do
  pure { fields with background := ← Toolkit.colour value }

def setForeground (fields : Fields) (value : Json) : Except SettingsFault Fields := do
  pure { fields with foreground := ← Toolkit.colour value }

def controls : List (String × (Fields → Json → Except SettingsFault Fields)) :=
  [("font_family", setFont), ("font_size", setSize), ("background_color", setBackground),
   ("text_color", setForeground)]

-- The controls are filled one after the other, up to the first that has no entry or refuses it.
def fill (part : Json) :
    List (String × (Fields → Json → Except SettingsFault Fields)) → Fields → Fields × Option SettingsFault
  | [], fields => (fields, none)
  | (key, set) :: rest, fields =>
    match Settings.entry part key >>= set fields with
    | .ok next => fill part rest next
    | .error cause => (fields, some cause)

def load (d : Dialog) (s : Settings) : Dialog × Option SettingsFault :=
  match s.get .editor, s.get .output with
  | .ok editor, .ok output =>
    match fill editor controls d.editor with
    | (fields, some cause) => (d.put .editor fields, some cause)
    | (fields, none) =>
      let (others, fault) := fill output controls d.output
      ((d.put .editor fields).put .output others, fault)
  | .error cause, _ | .ok _, .error cause => (d, some cause)

def start (s : Settings) : Except SettingsFault Dialog :=
  match load ⟨Toolkit.blank, Toolkit.blank, none, []⟩ s with
  | (dialog, none) => .ok dialog
  | (_, some cause) => .error cause

end Controls

def entries (fields : Fields) : Json.Members :=
  [("font_family", fields.font), ("font_size", fields.size),
   ("background_color", .text fields.background.name), ("text_color", .text fields.foreground.name)]

def resetQuestion : Box :=
  ⟨"question", "Reset Settings", "Are you sure you want to reset all settings to their defaults?"⟩

def saveFailed : Box :=
  ⟨"critical", "Error", "Failed to save settings!"⟩

structure State where
  dialog : Dialog
  settings : Settings
  disk : Disk
  printed : String

-- The fields are taken over before the settings are saved; the dialog closes if that succeeds.
def accept (st : State) : State × Option SettingsFault :=
  match st.settings.update .editor (entries st.dialog.editor) with
  | .error cause => (st, some cause)
  | .ok settings =>
    match settings.update .output (entries st.dialog.output) with
    | .error cause => ({ st with settings }, some cause)
    | .ok settings =>
      let (disk, saved, printed) := settings.save st.disk
      let dialog :=
        if saved then { st.dialog with closed := some .accepted } else st.dialog.notify saveFailed
      (⟨dialog, settings, disk, st.printed ++ printed⟩, none)

def enter (st : State) (part : Section) (set : Fields → Except SettingsFault Fields) :
    State × Option SettingsFault :=
  match set (st.dialog.fields part) with
  | .ok fields => ({ st with dialog := st.dialog.put part fields }, none)
  | .error cause => (st, some cause)

section Actions

variable [Toolkit]

-- The settings are reset before the controls are filled again, which may come to a fault.
def resetTo (st : State) (confirmed : Bool) : State × Option SettingsFault :=
  let dialog := st.dialog.notify resetQuestion
  if confirmed then
    let settings := st.settings.reset
    let (dialog, fault) := dialog.load settings
    ({ st with dialog, settings }, fault)
  else ({ st with dialog }, none)

def step (st : State) : DialogAction → State × Option SettingsFault
  | .font part value => enter st part (setFont · value)
  | .size part value => enter st part (setSize · value)
  | .background part chosen =>
    enter st part fun f => .ok { f with background := chosen.getD f.background }
  | .foreground part chosen =>
    enter st part fun f => .ok { f with foreground := chosen.getD f.foreground }
  | .reset confirmed => resetTo st confirmed
  | .accept => accept st
  | .cancel => ({ st with dialog := { st.dialog with closed := some .rejected } }, none)

def perform (st : State) (action : DialogAction) : Except SettingsFault State :=
  match step st action with
  | (next, none) => .ok next
  | (_, some cause) => .error cause

end Actions

end Dialog

def Colour.of (given : String) : Colour :=
  ⟨String.ofList (given.toList.map Char.toLower)⟩

-- The controls of the executable, which has no windows: they hold whatever they are given, and the name
-- of a colour is written in small letters.
instance Toolkit.plain : Toolkit where
  fontBox _ value := .ok value
  spinBox _ _ _ value := .ok value
  colour value := .ok (.of value.shown)
  blank := ⟨.text "", .whole 0, .of "#FFFFFF", .of "#FFFFFF"⟩

end Pseudocode
