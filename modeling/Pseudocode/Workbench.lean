import Pseudocode.Session
import Pseudocode.Settings.Dialog

set_option autoImplicit false

namespace Pseudocode

structure Look where
  family : Json
  size : Json
  sheet : String

structure Workbench where
  settings : Settings
  disk : Disk
  machine : Machine
  folder : String
  title : String
  status : String
  console : String
  document : String
  modified : Bool
  currentFile : Option String
  editorLook : Look
  consoleLook : Look
  boxes : List Box

/-- How files answer: the disk once a text has been written to a path, and the text of the file at a path.
A refusal carries its message. -/
structure Storage where
  write : Disk → String → String → Except String Disk
  read : Disk → String → Except String String

def Storage.plain : Storage where
  write disk path text := (disk.write path text).mapError FileError.message
  read disk path := (disk.readText path).mapError FileError.message

inductive Reply where
  | save
  | discard
  | cancel
  deriving Repr, DecidableEq

namespace Workbench

def applicationTitle : String := "PSIDE - PSeudocode Interpreter Development Environment"

def documentTitle : String := "Pseudocode Interpreter"

def unsavedQuestion : Box :=
  ⟨"question", "Unsaved Changes", "Do you want to save changes to the current file?"⟩

def errorBox (text : String) : Box :=
  ⟨"critical", "Error", text⟩

def aboutBox : Box :=
  ⟨"about", "About PsIDE",
    "PsIDE - Psuedocode Interpreter Development Environment\n\n" ++
    "A simple IDE for writing and executing pseudocode." ++
    "This application allows you to write pseudocode with syntax highlighting, " ++
    "execute it, and see the output in real-time.\n\n" ++
    "(c) 2025 Chuck Finch - Fragillidae Software\n\n" ++
    "Version 1.0.1"⟩

def lookOf (part : Json) : Except SettingsFault Look := do
  let family ← Settings.entry part "font_family"
  let size ← Settings.entry part "font_size"
  let background ← Settings.entry part "background_color"
  let foreground ← Settings.entry part "text_color"
  pure ⟨family, size,
    "background-color: " ++ background.shown ++ "; color: " ++ foreground.shown ++ ";"⟩

def applySettings (w : Workbench) : Except SettingsFault Workbench := do
  let editor ← w.settings.get .editor
  let output ← w.settings.get .output
  pure { w with editorLook := ← lookOf editor, consoleLook := ← lookOf output }

def plainLook : Look := ⟨.text "Courier New", .whole 10, ""⟩

def start (disk : Disk) : Except SettingsFault Workbench :=
  let (settings, _) := Settings.start disk Settings.defaultFile
  applySettings
    { settings, disk
      machine := .start .linux []
      folder := disk.homePath
      title := applicationTitle
      status := "Ready"
      console := ""
      document := ""
      modified := false
      currentFile := none
      editorLook := plainLook
      consoleLook := plainLook
      boxes := [] }

def notify (w : Workbench) (box : Box) : Workbench :=
  { w with boxes := w.boxes ++ [box] }

def type (w : Workbench) (text : String) : Workbench :=
  { w with document := text, modified := true }

def adopt (w : Workbench) (path : String) : Workbench :=
  { w with
    currentFile := some path
    folder := Path.parent (w.disk.absolute path)
    title := documentTitle ++ " - " ++ Path.lastName path }

def writeTo (w : Workbench) (path : String) (storage : Storage) (done : Workbench → Workbench) :
    Workbench :=
  match storage.write w.disk path w.document with
  | .ok disk => done { w with disk, modified := false }
  | .error message => w.notify (errorBox ("Failed to save file: " ++ message))

def saveAs (w : Workbench) (path : String) (storage : Storage := .plain) : Workbench :=
  if path.isEmpty then w
  else w.writeTo path storage fun w => { w.adopt path with status := "Saved as " ++ path }

def save (w : Workbench) (path : String) (storage : Storage := .plain) : Workbench :=
  match w.currentFile with
  | some file => w.writeTo file storage fun w => { w with status := "Saved " ++ file }
  | none => w.saveAs path storage

def settleChanges (w : Workbench) (reply : Reply) (path : String) (storage : Storage := .plain) :
    Workbench × Bool :=
  if w.modified then
    let asked := w.notify unsavedQuestion
    match reply with
    -- A save that fails or is abandoned does not stop the action.
    | .save => (asked.save path storage, true)
    | .discard => (asked, true)
    | .cancel => (asked, false)
  else (w, true)

def newDocument (w : Workbench) (reply : Reply) (path : String) (storage : Storage := .plain) :
    Workbench :=
  let (w, goOn) := w.settleChanges reply path storage
  if goOn then
    { w with
      document := ""
      modified := false
      currentFile := none
      title := documentTitle
      status := "New file created" }
  else w

def openPath (w : Workbench) (path : String) (storage : Storage := .plain) : Workbench :=
  if path.isEmpty then w
  else match storage.read w.disk path with
    | .ok content =>
      { ({ w with document := content, modified := false }).adopt path with
        status := "Opened " ++ path }
    | .error message => w.notify (errorBox ("Failed to open file: " ++ message))

def openDocument (w : Workbench) (reply : Reply) (path saved : String) (storage : Storage := .plain) :
    Workbench :=
  let (w, goOn) := w.settleChanges reply saved storage
  if goOn then w.openPath path storage else w

def surroundings (w : Workbench) : Surroundings :=
  ⟨w.disk, w.folder, 1000⟩

def failRun (w : Workbench) (cause : Fault) : Workbench :=
  { w with
    console := w.console ++ "Error: " ++ cause.message ++ "\n"
    status := "Error executing code: " ++ cause.message }

/-- Shows how a run ended: its output and its result, or else the fault alone. A result that is not
present is not shown, nor one whose text is that of the number zero with a point. -/
def showEnding (w : Workbench) (ending : Ending) : Workbench :=
  match ending.result with
  | .ok value =>
    -- The output stays even if the result has no text.
    let w := { w with console := w.console ++ w.machine.output }
    match w.machine.textOf value with
    | .ok text =>
      let result := if value.isPresent && text != "0.0" then "\nResult: " ++ text ++ "\n" else ""
      { w with console := w.console ++ result, status := "Code executed successfully" }
    | .error cause => w.failRun cause
    | .unfinished => w
  | .error cause => w.failRun cause
  | .unfinished => w

def run (w : Workbench) (answers : List (Option String)) : Workbench :=
  if Text.isBlankText w.document then { w with status := "No code to run" }
  else
    let ending := Run.source w.surroundings w.document (w.machine.prepare (.dialogs answers))
    { w with machine := ending.machine, console := "" }.showEnding ending

def clearConsole (w : Workbench) : Workbench :=
  { w with console := "", status := "Output cleared" }

def showSettings [Toolkit] (w : Workbench) (accepted : Bool) : Except SettingsFault Workbench := do
  let _ ← Dialog.start w.settings
  if accepted then pure { ← w.applySettings with status := "Settings applied" } else pure w

def restyle (w : Workbench) (editor output : Json.Members) : Except SettingsFault Workbench := do
  let settings ← w.settings.update .editor editor
  let settings ← settings.update .output output
  { w with settings }.applySettings

def removeFolder (w : Workbench) (path : String) : Workbench :=
  match w.disk.locate path with
  | .ok place => { w with disk := w.disk.removeTree place }
  | .error _ => w

/-- What a user does at the workbench. `path` is what a file dialog would answer, and `saved` what the
dialog for saving changes would answer before a file is opened. -/
inductive Action where
  | type (text : String)
  | run (answers : List (Option String))
  | clear
  | new (reply : Reply) (path : String)
  | open (reply : Reply) (path : String) (saved : String := path)
  | save (path : String)
  | saveAs (path : String)
  | about
  | settings (accepted : Bool)
  | style (editor output : Json.Members)
  | removeFolder (path : String)

def perform [Toolkit] (w : Workbench) (action : Action) (storage : Storage := .plain) :
    Except SettingsFault Workbench :=
  let w := { w with boxes := [] }
  match action with
  | .type text => .ok (w.type text)
  | .run answers => .ok (w.run answers)
  | .clear => .ok w.clearConsole
  | .new reply path => .ok (w.newDocument reply path storage)
  | .open reply path saved => .ok (w.openDocument reply path saved storage)
  | .save path => .ok (w.save path storage)
  | .saveAs path => .ok (w.saveAs path storage)
  | .about => .ok (w.notify aboutBox)
  | .settings accepted => w.showSettings accepted
  | .style editor output => w.restyle editor output
  | .removeFolder path => .ok (w.removeFolder path)

def savedText? (w : Workbench) : Option (Option String) :=
  w.currentFile.map fun path => (w.disk.readExact path).toOption

end Workbench

end Pseudocode
