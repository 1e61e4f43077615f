import SeparationKernel.Attempt
import SeparationKernel.Process.Table
import SeparationKernel.Scheduler.Error
import SeparationKernel.SharedBuffer.Table

/-! The scheduler and the process table that it rules over. Time goes on only with `tick`, so a run
is determined by the requests made. A request that is refused leaves everything as it was. -/
namespace SeparationKernel

structure SchedulingPolicy where
  priorityMax : Priority
  /-- Systicks of processor time a terminating process gets. -/
  cleanupQuantum : UInt32
  /-- Longest run of idle systicks that is no failure; zero allows any. -/
  idleDurationMax : UInt32
deriving DecidableEq, Repr

namespace SchedulingPolicy

def ofOptions (o : Options) : SchedulingPolicy where
  priorityMax := ⟨o.priorityMax⟩
  cleanupQuantum := o.cleanupQuantum
  idleDurationMax := o.idleDurationMax

/-- The limit on idle systicks, if there is one. -/
def watchdog? (p : SchedulingPolicy) : Option UInt32 :=
  if p.idleDurationMax = 0 then none else some p.idleDurationMax

end SchedulingPolicy

structure Scheduler where
  store : Store
  policy : SchedulingPolicy
  processes : ProcessTable
  /-- The slot of the process that holds the processor. -/
  current : Option Nat := none
  now : Timestamp := .zero
  /-- Systicks in a row with nothing to run. -/
  idleRun : UInt32 := 0
  /-- The place that the next process to queue up gets. -/
  nextPlace : Nat := 0
  buffers : BufferTable
deriving DecidableEq, Repr

namespace Scheduler

def ofStore (store : Store) (o : Options) : Scheduler where
  store
  policy := .ofOptions o
  processes := .ofSize o.processCountMax.toNat
  buffers := .ofStore store o

def currentProcess? (s : Scheduler) : Option Process := s.current.bind s.processes.get?

def currentId? (s : Scheduler) : Option ProcessId := s.currentProcess?.map (·.id)

def state? (s : Scheduler) (id : ProcessId) : Option ProcessState :=
  (s.processes.find? id).map (·.state)

def ofApp? (s : Scheduler) (asid : Asid) : Option ProcessId := (s.processes.ofApp? asid).map (·.id)

def isCurrent (s : Scheduler) (id : ProcessId) : Bool := s.current == some id.index

def takePlace {ε : Type} : Attempt Scheduler ε Nat := do
  let s ← get
  set { s with nextPlace := s.nextPlace + 1 }
  return s.nextPlace

theorem on_takePlace {ε : Type} (s : Scheduler) :
    (takePlace (ε := ε)).on s = (.ok s.nextPlace, { s with nextPlace := s.nextPlace + 1 }) := rfl

/-- Makes a process of an application that has no live one. -/
def instantiate (s : Scheduler) (asid : Asid) : Except SpawnError ProcessId × Scheduler :=
  Attempt.on (do
    match (← get).store.get? asid with
    | none => throw (.unknownApp asid)
    | some app =>
      Attempt.check fun s => .require (s.ofApp? asid).isNone (.alreadyLive asid)
      match (← get).processes.freeSlot? with
      | none => throw .noFreeSlot
      | some i =>
        modify fun s => { s with processes := s.processes.renew i }
        let id := (← get).processes.idAt i
        let place ← takePlace
        modify fun s =>
          { s with processes := s.processes.occupy i { id, asid, app, queuedAt := place } }
        return id) s

theorem instantiate_eq (s : Scheduler) (asid : Asid) :
    s.instantiate asid =
      match s.store.get? asid with
      | none => (.error (.unknownApp asid), s)
      | some app =>
        if (s.ofApp? asid).isSome then (.error (.alreadyLive asid), s)
        else
          match s.processes.freeSlot? with
          | none => (.error .noFreeSlot, s)
          | some i =>
            let id := s.processes.nextId i
            (.ok id,
              { s with
                processes := s.processes.install i { id, asid, app, queuedAt := s.nextPlace }
                nextPlace := s.nextPlace + 1 }) := by
  rw [instantiate, Attempt.on_get_bind]
  cases s.store.get? asid with
  | none => rfl
  | some app =>
    simp only
    rw [Attempt.on_bind, Attempt.on_check]
    cases s.ofApp? asid with
    | some id => rfl
    | none =>
      change Attempt.on (get >>= _) s = _
      rw [Attempt.on_get_bind]
      cases s.processes.freeSlot? with
      | none => rfl
      | some i =>
        have named := s.processes.idAt_renew i
        have placed := s.processes.occupy_renew
          (p := { id := s.processes.nextId i, asid, app, queuedAt := s.nextPlace }) rfl
        simp only [Attempt.on_bind, Attempt.on_modify, Attempt.on_get, on_takePlace,
          Attempt.on_pure, named, placed]
        rfl

/-- The process that holds the processor, if it can go on using it. -/
def holder? (s : Scheduler) : Option Process := s.currentProcess?.filter (·.isSchedulable)

/-- The process that goes first among those waiting for the processor. -/
def challenger? (s : Scheduler) : Option (Nat × Process) :=
  s.processes.elect fun i p => p.isSchedulable && s.current != some i

def giveTo (s : Scheduler) (i : Nat) : Scheduler :=
  { s with processes := s.processes.modify i (·.dispatch), current := some i }

def withdraw (s : Scheduler) : Scheduler :=
  match s.current with
  | none => s
  | some i => { s with processes := s.processes.modify i (·.preempt), current := none }

/-- Decides who has the processor from now on. The holder keeps it unless a strictly more important
process waits for it. -/
def schedule (s : Scheduler) : Scheduler :=
  match s.holder?, s.challenger? with
  | some p, some (i, q) =>
    if q.priority.isMoreImportantThan p.priority then s.withdraw.giveTo i else s
  | some _, none => s
  | none, some (i, _) => s.giveTo i
  | none, none => { s with current := none }

def checkLive (s : Scheduler) (id : ProcessId) : Verdict ProcessError :=
  .require (s.processes.live? id).isSome (.stale id)

def checkState (s : Scheduler) (id : ProcessId) (p : ProcessState → Bool)
    (fault : ProcessError) : Verdict ProcessError :=
  .all [s.checkLive id, .require ((s.processes.live? id).any fun q => p q.state) fault]

def checkRunning (s : Scheduler) (id : ProcessId) : Verdict ProcessError :=
  .all [
    s.checkState id (· == .running) (.notRunning id),
    .require (s.isCurrent id) (.notRunning id)]

def update (s : Scheduler) (i : Nat) (f : Process → Process) : Scheduler :=
  { s with processes := s.processes.modify i f }

/-- The process in a slot is changed, and given the next place in the queue. -/
def enqueue (s : Scheduler) (i : Nat) (f : Nat → Process → Process) : Scheduler :=
  { s.update i (f s.nextPlace) with nextPlace := s.nextPlace + 1 }

def requeue (s : Scheduler) (i : Nat) : Scheduler := s.enqueue i fun place p => p.makeReady place

def vacate (s : Scheduler) : Scheduler := { s with current := none }

def deadlineAfter (s : Scheduler) (n : UInt32) : Timestamp := s.now.after n

/-- A live process is looked up and changed. -/
def changeLive (id : ProcessId) (f : Process → Process) : Attempt Scheduler ProcessError Unit := do
  Attempt.check (·.checkLive id)
  modify (·.update id.index f)

/-- The running process gives the processor up: for good, or until a delay is over. -/
def yield (s : Scheduler) (id : ProcessId) (delay : Option UInt32) :
    Verdict ProcessError × Scheduler :=
  Attempt.on (do
    Attempt.check (·.checkRunning id)
    let now := (← get).now
    let place ← takePlace
    changeLive id fun p =>
      match delay.filter (· != 0) with
      | none => p.makeReady place
      | some d => p.block .yield (some (now.after d))
    modify vacate) s

/-- The running process waits for an event, for a limited time if one is given. -/
def wait (s : Scheduler) (id : ProcessId) (reason : BlockReason) (timeout : Option UInt32) :
    Verdict ProcessError × Scheduler :=
  Attempt.on (do
    let deadline := timeout.map (← get).deadlineAfter
    Attempt.check (·.checkRunning id)
    modify (·.update id.index (·.block reason deadline))
    modify vacate) s

def wake (s : Scheduler) (id : ProcessId) (reason : BlockReason) :
    Verdict ProcessError × Scheduler :=
  Attempt.on (do
    Attempt.check (·.checkState id (· == .blocked reason) (.notWaiting id))
    let place ← takePlace
    changeLive id (·.makeReady place)) s

def waitIpc (s : Scheduler) (id : ProcessId) (timeout : Option UInt32) :
    Verdict ProcessError × Scheduler :=
  s.wait id .ipc timeout

def waitIo (s : Scheduler) (id : ProcessId) (timeout : Option UInt32) :
    Verdict ProcessError × Scheduler :=
  s.wait id .io timeout

def deliverIpc (s : Scheduler) (id : ProcessId) : Verdict ProcessError × Scheduler :=
  s.wake id .ipc

def completeIo (s : Scheduler) (id : ProcessId) : Verdict ProcessError × Scheduler :=
  s.wake id .io

/-- Whatever its state, the process has the cleanup quantum left from now on. If it does not hold
the processor it queues up for it. -/
def requestTermination (s : Scheduler) (id : ProcessId) : Verdict ProcessError × Scheduler :=
  Attempt.on (do
    Attempt.check (·.checkState id (!·.isCleanup) (.terminating id))
    let place ← if (← get).isCurrent id then pure none else some <$> takePlace
    let quantum := (← get).policy.cleanupQuantum
    changeLive id (·.beginCleanup quantum place)) s

def releaseBuffers (s : Scheduler) (asid : Asid) : Scheduler :=
  { s with buffers := s.buffers.release asid }

/-- The process in a slot ends, and its buffers are released. -/
def retire (s : Scheduler) (i : Nat) (p : Process) (outcome : CleanupOutcome) : Scheduler :=
  let s' := (s.update i (·.terminate outcome)).releaseBuffers p.asid
  if s.current = some i then s'.vacate else s'

def cleanupDone (s : Scheduler) (id : ProcessId) : Verdict ProcessError × Scheduler :=
  Attempt.on (do
    let found := (← get).processes.live? id
    Attempt.check (·.checkState id (·.isCleanup) (.notTerminating id))
    modify fun s => found.elim s (s.retire id.index · .completed)) s

theorem checkLive_of_checkState {s : Scheduler} {id : ProcessId} {p : ProcessState → Bool}
    {fault : ProcessError} (found : s.checkState id p fault = .ok ()) :
    s.checkLive id = .ok () :=
  (Verdict.all_cons_eq_ok.1 found).1

theorem checkLive_of_checkRunning {s : Scheduler} {id : ProcessId}
    (found : s.checkRunning id = .ok ()) : s.checkLive id = .ok () :=
  checkLive_of_checkState (Verdict.all_cons_eq_ok.1 found).1

/-- Looking a process up a second time cannot fail when all that has happened since is that a place
was taken. -/
theorem on_changeLive {s : Scheduler} {id : ProcessId} (live : s.checkLive id = .ok ()) (n : Nat)
    (f : Process → Process) :
    (changeLive id f).on { s with nextPlace := n } =
      (.ok (), { s.update id.index f with nextPlace := n }) := by
  have again : ({ s with nextPlace := n } : Scheduler).checkLive id = .ok () := live
  rw [changeLive, Attempt.on_check_modify, again, Verdict.commit_ok]
  rfl

theorem yield_eq (s : Scheduler) (id : ProcessId) (delay : Option UInt32) :
    s.yield id delay =
      Verdict.commit (s.checkRunning id) s
        (match delay.filter (· != 0) with
        | none => s.requeue id.index
        | some d =>
          s.enqueue id.index fun _ p => p.block .yield (some (s.deadlineAfter d))).vacate := by
  rw [yield, Attempt.on_bind, Attempt.on_check]
  cases checked : s.checkRunning id with
  | error e => rfl
  | ok =>
    have live := checkLive_of_checkRunning checked
    simp only [Attempt.on_bind, Attempt.on_get, on_takePlace, on_changeLive live,
      Attempt.on_modify]
    cases delay.filter (· != 0) <;> rfl

theorem wait_eq (s : Scheduler) (id : ProcessId) (reason : BlockReason) (timeout : Option UInt32) :
    s.wait id reason timeout =
      Verdict.commit (s.checkRunning id) s
        (s.update id.index (·.block reason (timeout.map s.deadlineAfter))).vacate := by
  rw [wait, Attempt.on_get_bind, Attempt.on_bind, Attempt.on_check]
  cases s.checkRunning id <;> rfl

theorem wake_eq (s : Scheduler) (id : ProcessId) (reason : BlockReason) :
    s.wake id reason =
      Verdict.commit (s.checkState id (· == .blocked reason) (.notWaiting id)) s
        (s.requeue id.index) := by
  rw [wake, Attempt.on_bind, Attempt.on_check]
  cases checked : s.checkState id (· == .blocked reason) (.notWaiting id) with
  | error e => rfl
  | ok =>
    simp only [Attempt.on_bind, on_takePlace, on_changeLive (checkLive_of_checkState checked)]
    rfl

theorem requestTermination_eq (s : Scheduler) (id : ProcessId) :
    s.requestTermination id =
      Verdict.commit (s.checkState id (!·.isCleanup) (.terminating id)) s
        (if s.isCurrent id then s.update id.index (·.beginCleanup s.policy.cleanupQuantum none)
        else s.enqueue id.index fun place p =>
          p.beginCleanup s.policy.cleanupQuantum (some place)) := by
  rw [requestTermination, Attempt.on_bind, Attempt.on_check]
  cases checked : s.checkState id (!·.isCleanup) (.terminating id) with
  | error e => rfl
  | ok =>
    have live := checkLive_of_checkState checked
    simp only
    rw [Attempt.on_get_bind]
    cases s.isCurrent id with
    | true => exact on_changeLive live s.nextPlace _
    | false => exact on_changeLive live (s.nextPlace + 1) _

theorem cleanupDone_eq (s : Scheduler) (id : ProcessId) :
    s.cleanupDone id =
      Verdict.commit (s.checkState id (·.isCleanup) (.notTerminating id)) s
        (match s.processes.live? id with
        | none => s
        | some p => s.retire id.index p .completed) := by
  rw [cleanupDone, Attempt.on_get_bind, Attempt.on_check_modify]
  cases s.processes.live? id <;> rfl

/-- Charges a systick to the process that holds the processor. The answer lists the time limits that
it ran out of. -/
def chargeCurrent (s : Scheduler) : List SchedulingTimeout × Scheduler :=
  match s.current, s.currentProcess? with
  | some i, some p =>
    match p.charge with
    | .goesOn left => ([], s.update i fun _ => left)
    | .quantumExpired => ([], (s.requeue i).vacate)
    | .cleanupOverrun => ([.cleanupOverrun p.id], s.retire i p .overrun)
  | _, _ => ([], s)

def wakeExpired (s : Scheduler) : Scheduler :=
  let woken := s.processes.wakeExpired s.now s.nextPlace
  { s with processes := woken.1, nextPlace := woken.2 }

def countIdle (s : Scheduler) : Scheduler :=
  { s with idleRun := if s.currentId?.isSome then 0 else Counter.up s.idleRun }

/-- There was nothing to run for longer than allowed. -/
def checkIdle (s : Scheduler) : Verdict SchedulingTimeout :=
  .require (s.policy.watchdog?.all fun max => decide (s.idleRun.toNat ≤ max.toNat))
    (.idleWatchdog s.idleRun)

def advance (s : Scheduler) : Scheduler := { s with now := s.now.next }

/-- One systick: it is charged, time limits that have run out are acted upon, and the processor is
given away anew. The answer lists the processes terminated for overrunning their cleanup. -/
def tick (s : Scheduler) : Except SchedulingTimeout (List SchedulingTimeout) × Scheduler :=
  let charged := s.advance.chargeCurrent
  let s' := charged.2.wakeExpired.schedule.countIdle
  (s'.checkIdle.map fun _ => charged.1, s')

end Scheduler
end SeparationKernel
