import Pseudocode.Workbench

set_option autoImplicit false

namespace Pseudocode

namespace Application

inductive Event where
  | shown (title : String)
  | loop
  deriving Repr, DecidableEq

structure Launch where
  events : List Event
  status : Int

def launch (disk : Disk) (status : Int) : Except SettingsFault Launch := do
  let w ← Workbench.start disk
  pure ⟨[.shown w.title, .loop], status⟩

end Application

end Pseudocode
