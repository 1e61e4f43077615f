import SeparationKernel.Session
import SeparationKernel.Text.Columns

/-! What is said of a configuration that was accepted. -/
namespace SeparationKernel

open Text

def App.summary (a : App) (nameWidth : Nat) (asid : Asid) : String :=
  "    " ++ padRight 4 (toString asid.index) ++ " " ++ padRight nameWidth a.name ++ " priority " ++
    padRight 2 (toString a.priority.level.toNat) ++ " quantum " ++
    padRight 3 (toString a.quantum.toNat) ++ " " ++ toString a.sharedBlocks.length ++ " shared, " ++
    toString a.extraBlocks.length ++ " extra, " ++ toString a.registers.length ++ " regs, " ++
    toString a.dmaStreams.length ++ " dma"

namespace Session

def nameWidth (s : Session) : Nat := s.options.appNameLengthMax.toNat

/-- The sizes of a session's tables, and its applications. -/
def summary (s : Session) (name : String) : List String :=
  let authorized := s.platform.registry.authorizedCount
  let reserved := s.platform.registry.blocks.length - authorized
  let registers := s.platform.registers
  [ name ++ ": configuration accepted",
    "  address blocks: " ++ toString authorized ++ " authorized, " ++ toString reserved ++
      " reserved",
    "  MCU registers:  " ++ toString registers.registerCount.toNat ++ " in " ++
      toString registers.ranges.size ++ " ranges",
    "  ukApps:         " ++ toString s.store.size ++ " of " ++
      toString s.options.appCountMax.toNat ++ ", " ++ toString s.options.processCountMax.toNat ++
      " ukProc slots" ] ++
    s.store.entries.map fun (asid, app) => app.summary s.nameWidth asid

end Session
end SeparationKernel
