import Pseudocode.Cell
import Pseudocode.Highlight
import Pseudocode.Workbench
import Pseudocode.Workload.Programs

set_option autoImplicit false

namespace Pseudocode.Workload

def rounds (size : Nat) : List Nat :=
  List.range size

inductive Failure where
  | noResult
  | noHighlighter
  deriving Repr, DecidableEq

def Failure.message : Failure → String
  | .noResult => "list index out of range"
  | .noHighlighter => "'NoneType' object has no attribute 'highlightBlock'"

def shownResult {α : Type} : Option α → Except Failure α
  | some result => .ok result
  | none => .error .noResult

def scanning (size : Nat) : Except Failure (Nat × List String) := do
  let source := String.join (List.replicate size allTokens)
  let unscannable := ["!", "@"].filter fun text => (Token.scan text).toOption.isNone
  let tokens := (Token.scan source).toOption.getD []
  let shown ← [tokens[0]?, tokens[3]?, tokens.getLast?].mapM shownResult
  pure (tokens.length, shown.map Token.text ++ unscannable)

def treeText (source : String) : String :=
  match Eval.program source with
  | .ok node => node.text
  | _ => ""

def parsing (size : Nat) : List String :=
  (rounds size).map fun _ => treeText everything

def messageStart (source : String) : String :=
  match Eval.program source with
  | .error cause => String.ofList (cause.message.toList.take 10)
  | _ => ""

def unparsableStarts (size : Nat) : List (String × String) :=
  (rounds size).flatMap fun _ => unparsable.map fun source => (source, messageStart source)

def surroundings (disk : Disk) : Surroundings :=
  ⟨disk, "", 1000⟩

def fresh : Machine :=
  Machine.start .linux []

def runIn (disk : Disk) (source : String) : Ending :=
  Run.source (surroundings disk) source fresh

def output (disk : Disk) (source : String) : String :=
  (runIn disk source).machine.output

def faults (disk : Disk) (size : Nat) : List Fault :=
  (rounds size).flatMap fun _ => faulty.filterMap fun source =>
    match (runIn disk source).result with
    | .error cause => some cause
    | _ => none

def strings (disk : Disk) (size : Nat) : Except Failure (Nat × String) := do
  let outputs := (rounds size).map fun _ => output disk stringsAndLists
  pure (outputs.length, ← shownResult outputs.getLast?)

def displayed (heap : Cells) (reference : Nat) : Json :=
  match heap.display (some reference) with
  | .ok text => .text text
  | _ => .null

def same (heap : Cells) (a b : Nat) : Json :=
  match heap.equal (some a) (some b) with
  | .ok answer => .flag answer
  | _ => .null

def checkVariable (heap : Cells) (data : Plain) : Json :=
  let (made, heap) := heap.variableOfPlain data
  let (other, heap) := heap.variableOfPlain (.text "another")
  match heap.copy (some made) with
  | .ok (copied, heap) =>
    .list [displayed heap made, same heap made copied, same heap made other]
  | _ => .null

def checkItem (n : Nat) : List Json :=
  let x := Float.ofNat n
  [Plain.number x, .number (x + 0.5), .text ("s" ++ toString n)].map (checkVariable .initial)

def checkFunction : List Json :=
  let (f, heap) := Cells.initial.add (.function "f")
  let (wrapped, heap) := heap.wrap (some f)
  match heap.copy (some wrapped) with
  | .ok (copied, heap) => [displayed heap wrapped, same heap wrapped copied]
  | _ => []

def checkNumbers : Json :=
  let (one, heap) := Cells.initial.add (.number (.number 1.0))
  let (again, heap) := heap.add (.number (.number 1.0))
  let (half, heap) := heap.add (.number (.number 1.5))
  .list [displayed heap one, displayed heap half, same heap one again, same heap one half]

def checkText : Json :=
  let (a, heap) := Cells.initial.add (.text (.text "hi"))
  let (b, heap) := heap.add (.text (.text "hi"))
  let (c, heap) := heap.add (.text (.text "ho"))
  .list [displayed heap a, same heap a b, same heap a c]

def checkLists : Json :=
  let (one, heap) := Cells.initial.variableOfPlain (.number 1.0)
  let (two, heap) := heap.variableOfPlain (.number 2.0)
  let (a, heap) := heap.add (.list [some one, some two])
  let (b, heap) := heap.add (.list [some one, some two])
  let (c, heap) := heap.add (.list [some one])
  let (d, heap) := heap.add (.list [some two, some one])
  .list [displayed heap a, same heap a b, same heap a c, same heap a d, same heap a one]

def checkNames : List Json :=
  let table := Scopes.initial.set (some "there") (.number 1.0)
  let found (name : String) : Bool := (table.find? (some name)).isSome
  [.list [.flag (found "there"), .flag (found "absent")],
   .text (if found "missing" then "" else "missing")]

def values (size : Nat) : Json :=
  let mixed : Plain := .list [.number 1.0, .text "two", .number 3.0, .number 4.0, .null]
  let (g, heap) := Cells.initial.add (.function "g")
  .list ((rounds size).flatMap checkItem ++
    [checkVariable .initial mixed, checkVariable .initial .record] ++ checkFunction ++
    [checkNumbers, checkText, checkLists, displayed heap g] ++ checkNames)

def withFiles (disk : Disk) : Disk :=
  let put (d : Disk) (name text : String) : Disk := (d.write name text).toOption.getD d
  put (put disk "part.pseudo" "base <- 10\nDEF times(a, b) DO\nRETURN a * b\nENDEF\n7\n")
    "greeting.txt" "hello-from-disk"

def wholeResult (ending : Ending) : Int :=
  match ending.result with
  | .ok value => value.toWhole.toOption.getD 0
  | _ => 0

structure FileResult where
  included : Int
  printed : String
  text : String

def fileRound (disk : Disk) : FileResult :=
  let part := runIn disk "INCLUDE \"part.pseudo\""
  let printed := output disk "INCLUDE \"part.pseudo\"; PRINT times(base, 11)"
  let reading := Node.of .read [Node.named .string (some "greeting.txt") []]
  let text := match (Run.tree (surroundings disk) reading fresh).result with
    | .ok (.text s) => s
    | _ => ""
  ⟨wholeResult part, printed, text⟩

def files (disk : Disk) (size : Nat) : Except Failure (Int × String × String) := do
  let results := (rounds size).map fun _ => fileRound (withFiles disk)
  let last ← shownResult results.getLast?
  pure (results.foldl (· + ·.included) 0, last.printed, last.text)

def texts (size : Nat) : Nat × Nat × String :=
  let name := String.ofList (List.replicate 20 'n')
  let kinds := Token.Kind.all.map fun kind => (Token.text { kind, name := some name }).length
  let shown := [Token.number 1.5, Token.identifier "abc", Token.mark .plus].map Token.text
  ((treeText (assignments size)).length, kinds.foldl (· + ·) 0, String.join shown)

def colouring (size : Nat) : Except Failure Nat :=
  let made := (rounds size).map fun _ => Highlight.rules
  if made.isEmpty then .error .noHighlighter
  else .ok (made.flatten.foldl (· + ·.pattern.expression.length) 0)

def wholeOf : Except SettingsFault Json → Int
  | .ok (.whole n) => n
  | _ => 0

def lengthOf : Except SettingsFault Json → Nat
  | .ok (.text s) => s.length
  | _ => 0

def settings (disk : Disk) (size : Nat) : Int :=
  let round (state : Settings × Int) (i : Nat) : Settings × Int :=
    let (s, total) := state
    match s.update .editor [("font_size", .whole (10 + i % 5))] with
    | .ok s =>
      let changed := wholeOf (s.get .editor >>= (Settings.entry · "font_size"))
      let colour := lengthOf (s.get .output >>= (Settings.entry · "text_color"))
      (s, total + changed + colour)
    | .error _ => (s, total)
  ((rounds size).foldl round ((Settings.start disk "workload.json").1, 0)).2

def dialogActions : List DialogAction :=
  [.size .editor (.whole 42), .background .output (some ⟨"#123456"⟩), .accept]

def shownEntry (s : Settings) (key : String) : String :=
  match s.get .editor >>= (Settings.entry · key) with
  | .ok json => json.shown
  | .error _ => ""

def dialogRound (st : Settings × Disk × List String) (_ : Nat) : Settings × Disk × List String :=
  let (s, disk, noted) := st
  match Dialog.start s with
  | .error _ => st
  | .ok dialog =>
    match dialogActions.foldlM Dialog.perform ⟨dialog, s, disk, ""⟩ with
    | .ok after =>
      let entries := ["font_family", "background_color", "font_size"].map (shownEntry after.settings)
      (after.settings, after.disk, noted ++ entries)
    | .error _ => st

def dialogs (disk : Disk) (size : Nat) : Except Failure (Nat × String × String) := do
  let start := (Settings.start disk "workload.json").1
  let (_, _, noted) := (rounds size).foldl dialogRound (start, disk, [])
  pure (noted.length, ← shownResult noted.head?, ← shownResult noted.getLast?)

def workbench (disk : Disk) (size : Nat) : String :=
  match Workbench.start disk with
  | .ok w => ((w.type (sums size)).run []).console
  | .error _ => ""

end Pseudocode.Workload
