import SeparationKernel.App
import SeparationKernel.Counter
import SeparationKernel.Process.State
import SeparationKernel.Time

/-! Processes, the running instances of applications. Every change of state keeps the deadline, the
quantum and the place in the queue in step with it. -/
namespace SeparationKernel

structure Process where
  id : ProcessId
  asid : Asid
  app : App
  state : ProcessState := .ready
  /-- Systicks left before the process goes behind its peers. -/
  quantumLeft : UInt32 := app.quantum
  /-- When a blocked process becomes ready by itself. -/
  deadline : Option Timestamp := none
  /-- The place in the queue. Of two processes of one priority the one with the smaller place has
  waited longer. -/
  queuedAt : Nat
deriving DecidableEq, Repr

/-- What a systick of processor time does to the process that is charged with it: it goes on with
less left, or it has used up its quantum or its cleanup quantum. -/
inductive Charge where
  | goesOn (left : Process)
  | quantumExpired
  | cleanupOverrun
deriving DecidableEq, Repr

namespace Process

def priority (p : Process) : Priority := p.app.priority

def isSchedulable (p : Process) : Bool := p.state.isSchedulable

def isTerminated (p : Process) : Bool := p.state.isTerminated

/-- Ready behind its peers, with a whole quantum. -/
def makeReady (p : Process) (place : Nat) : Process :=
  { p with state := .ready, quantumLeft := p.app.quantum, deadline := none, queuedAt := place }

/-- Loses the processor, but neither its place nor the rest of its quantum. -/
def preempt (p : Process) : Process :=
  match p.state with
  | .running => { p with state := .ready }
  | _ => p

/-- Gets the processor. A process in cleanup stays there. -/
def dispatch (p : Process) : Process :=
  match p.state with
  | .ready => { p with state := .running }
  | _ => p

def block (p : Process) (reason : BlockReason) (deadline : Option Timestamp) : Process :=
  { p with state := .blocked reason, deadline }

/-- A process that holds the processor keeps its place in the queue; any other one gets a new one.
-/
def beginCleanup (p : Process) (remaining : UInt32) (place : Option Nat) : Process :=
  { p with state := .cleanup remaining, deadline := none, queuedAt := place.getD p.queuedAt }

def terminate (p : Process) (outcome : CleanupOutcome) : Process :=
  { p with state := .terminated outcome, deadline := none }

def charge (p : Process) : Charge :=
  match p.state with
  | .running =>
    if Counter.down p.quantumLeft = 0 then .quantumExpired
    else .goesOn { p with quantumLeft := Counter.down p.quantumLeft }
  | .cleanup remaining =>
    if Counter.down remaining = 0 then .cleanupOverrun
    else .goesOn { p with state := .cleanup (Counter.down remaining) }
  | _ => .goesOn p

def isDue (p : Process) (now : Timestamp) : Bool := p.deadline.any (·.hasCome now)

def isBlocked (p : Process) : Bool :=
  match p.state with
  | .blocked _ => true
  | _ => false

def expire (p : Process) (place : Nat) : Process :=
  if p.isBlocked then p.makeReady place else { p with deadline := none }

def precedes (p q : Process) : Bool :=
  p.priority.isMoreImportantThan q.priority ||
    (p.priority == q.priority && decide (p.queuedAt < q.queuedAt))

theorem precedes_iff {p q : Process} :
    p.precedes q = true ↔
      p.priority.level.toNat < q.priority.level.toNat ∨
        p.priority = q.priority ∧ p.queuedAt < q.queuedAt := by
  simp [precedes]

end Process
end SeparationKernel
