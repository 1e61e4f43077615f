/-! The life of a process: its identity and the states it goes through. -/
namespace SeparationKernel

/-- A process by its slot in the table and the generation of that slot, so that an identifier kept
after the process is gone does not name its successor. -/
structure ProcessId where
  slot : UInt8
  generation : UInt8
deriving DecidableEq, Repr

namespace ProcessId

def index (id : ProcessId) : Nat := id.slot.toNat

def text (id : ProcessId) : String :=
  "ukProc " ++ toString id.index ++ "." ++ toString id.generation.toNat

end ProcessId

inductive BlockReason where
  | yield
  | ipc
  | io
deriving DecidableEq, Repr

inductive ScheduleState where
  | ready
  | running
  | blocked (reason : BlockReason)
deriving DecidableEq, Repr

inductive CleanupOutcome where
  | completed
  | overrun
deriving DecidableEq, Repr

/-- A process is healthy until its termination is asked for; then it has some systicks left to give
back what it holds. -/
inductive ProcessState where
  | healthy (state : ScheduleState)
  | cleanup (remaining : UInt32)
  | terminated (outcome : CleanupOutcome)
deriving DecidableEq, Repr

namespace ProcessState

@[match_pattern] abbrev ready : ProcessState := .healthy .ready

@[match_pattern] abbrev running : ProcessState := .healthy .running

@[match_pattern] abbrev blocked (reason : BlockReason) : ProcessState := .healthy (.blocked reason)

def isTerminated : ProcessState → Bool
  | .terminated _ => true
  | _ => false

def isCleanup : ProcessState → Bool
  | .cleanup _ => true
  | _ => false

def isSchedulable : ProcessState → Bool
  | .healthy .ready => true
  | .healthy .running => true
  | .cleanup _ => true
  | _ => false

theorem isTerminated_eq_false_of_isSchedulable {s : ProcessState} (h : s.isSchedulable = true) :
    s.isTerminated = false := by
  cases s <;> simp_all [isSchedulable, isTerminated]

end ProcessState
end SeparationKernel
