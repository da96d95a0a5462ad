import Pseudocode.Application

set_option autoImplicit false

open Pseudocode

def readIfPresent (path : String) : IO (Option String) := do
  try
    some <$> IO.FS.readFile path
  catch _ => pure none

def answers (text : String) : List (Option String) :=
  (text.splitOn "\n").map some

def main (arguments : List String) : IO UInt32 := do
  let typed ← (← IO.getStdin).readToEnd
  let (document, replies) ← match arguments with
    | path :: _ => do pure (← IO.FS.readFile path, answers typed)
    | [] => pure (typed, [])
  let settings ← readIfPresent Settings.defaultFile
  let home : Place := ["home"]
  let disk := (settings.map fun text =>
    (Library.disk home).install (home ++ [Settings.defaultFile]) (.file (Text.encode text))).getD
      (Library.disk home)
  match Workbench.start disk with
  | .error cause => do
    IO.eprintln cause.message
    pure 1
  | .ok w => do
    IO.print ((w.type document).run replies).console
    pure 0
