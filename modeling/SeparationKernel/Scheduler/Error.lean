import SeparationKernel.Asid
import SeparationKernel.Process.State

/-! What the scheduler refuses, and what it gives up on. -/
namespace SeparationKernel

inductive SpawnError where
  | unknownApp (asid : Asid)
  | alreadyLive (asid : Asid)
  | noFreeSlot
deriving DecidableEq, Repr

def SpawnError.message : SpawnError → String
  | .unknownApp asid => "no ukApp descriptor with " ++ asid.text
  | .alreadyLive asid => "ukApp with " ++ asid.text ++ " already has a live ukProc"
  | .noFreeSlot => "every ukProc slot is in use"

inductive ProcessError where
  | stale (id : ProcessId)
  | notRunning (id : ProcessId)
  | notWaiting (id : ProcessId)
  | terminating (id : ProcessId)
  | notTerminating (id : ProcessId)
deriving DecidableEq, Repr

def ProcessError.message : ProcessError → String
  | .stale id => id.text ++ " does not name a live ukProc"
  | .notRunning id => id.text ++ " is not running"
  | .notWaiting id => id.text ++ " is not waiting for that event"
  | .terminating id => id.text ++ " is already terminating"
  | .notTerminating id => id.text ++ " has not been asked to terminate"

/-- A time limit that ran out. -/
inductive SchedulingTimeout where
  | idleWatchdog (ticks : UInt32)
  | cleanupOverrun (id : ProcessId)
deriving DecidableEq, Repr

namespace SchedulingTimeout

def message : SchedulingTimeout → String
  | .idleWatchdog ticks =>
    "no ukProc was schedulable for " ++ toString ticks.toNat ++ " systicks in a row"
  | .cleanupOverrun id => id.text ++ " overran its cleanup quantum and was terminated"

/-- An overrun concerns one process only. Without anything to run the session ends. -/
def isFatal : SchedulingTimeout → Bool
  | .idleWatchdog _ => true
  | .cleanupOverrun _ => false

end SchedulingTimeout
end SeparationKernel
