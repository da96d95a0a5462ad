import Pseudocode.Eval
import Pseudocode.Value.View

/-!
Runs of programs, one after another on the same machine. What a run leaves behind, by its end or by
a fault, is what the next one starts from.

Two things are left out. The host has a stack, and there is none here: only the limit on open calls ends
a run that goes too deep. And a run that shows, copies or compares a list that contains itself is
unfinished, and then the machine is the one it started on; the program would fail in the host and keep
what it had done until then.
-/

set_option autoImplicit false

namespace Pseudocode

structure Platform where
  name : String
  family : String

def Platform.code? (p : Platform) : Option Float :=
  if p.name.startsWith "win" then some 0.0
  else if p.name.startsWith "darwin" then some 1.0
  else if p.name.startsWith "linux" then some 2.0
  else if ["freebsd", "netbsd", "openbsd"].any (p.name.startsWith ·) then some 3.0
  else if p.family = "posix" then some 4.0
  else none

def Platform.linux : Platform := ⟨"linux", "posix"⟩

namespace Machine

def withConstants (m : Machine) (platform : Platform) : Machine :=
  let m := (m.set "TRUE" (.number 1.0)).set "FALSE" (.number 0.0)
  match platform.code? with
  | some code => m.set "OS" (.number code)
  | none => m

def start (platform : Platform) (given : List (String × Plain)) : Machine :=
  (given.foldl (fun m (name, value) => m.set name (.plain value)) initial).withConstants platform

def prepare (m : Machine) (input : Input) : Machine :=
  { m with input, prompts := "" }

def pending (m : Machine) : Option Value := m.returned

def view (m : Machine) (value : Value) : View :=
  m.store.view value

def textOf (m : Machine) (value : Value) : Outcome Fault String :=
  m.store.display value

end Machine

def Input.ofLines (lines : List String) : Input :=
  .console (lines.flatMap (·.splitOn "\n"))

structure Ending where
  result : Outcome Fault Value
  machine : Machine

namespace Run

-- A bound that no run reaches.
def bound : Nat := Nat.pow 10 18

def endingOf (m : Machine) : Outcome (Fault × Machine) (Value × Machine) → Ending
  | .ok (value, after) => ⟨.ok value, after⟩
  | .error (cause, after) => ⟨.error cause, after⟩
  | .unfinished => ⟨.unfinished, m⟩

def tree (around : Surroundings) (node : Node) (m : Machine) : Ending :=
  let m := { m with output := "" }
  endingOf m (Eval.eval around bound node m)

def source (around : Surroundings) (text : String) (m : Machine) : Ending :=
  match Eval.program text with
  | .ok node => tree around node m
  | .error cause => ⟨.error cause, m⟩
  | .unfinished => ⟨.unfinished, m⟩

end Run

end Pseudocode
