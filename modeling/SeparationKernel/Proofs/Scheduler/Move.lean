import Mathlib
import SeparationKernel.Proofs.Process.Table
import SeparationKernel.Proofs.Process.Transition
import SeparationKernel.Scheduler.Request

/-! The moves that all requests to a scheduler are made of. A fact that every move keeps is kept by
every request, and so holds in every run. -/
namespace SeparationKernel
namespace Scheduler

def newProcess (s : Scheduler) (i : Nat) (asid : Asid) (app : App) : Process :=
  { id := s.processes.nextId i, asid, app, queuedAt := s.nextPlace }

def install (s : Scheduler) (i : Nat) (p : Process) : Scheduler :=
  { s with processes := s.processes.install i p, nextPlace := s.nextPlace + 1 }

/-- One thing that happens in a scheduler, with what has to be the case before it. -/
inductive Move (s : Scheduler) : Scheduler → Prop where
  | clock (now : Timestamp) (idleRun : UInt32) : Move s { s with now, idleRun }
  | lend (buffers : BufferTable) : Move s { s with buffers }
  | install {i : Nat} {asid : Asid} {app : App} (described : s.store.get? asid = some app)
      (fresh : s.processes.ofApp? asid = none) (free : s.processes.freeSlot? = some i) :
      Move s (s.install i (s.newProcess i asid app))
  | wake {i : Nat} {p : Process} (held : s.processes.get? i = some p)
      (blocked : p.isBlocked = true) : Move s (s.requeue i)
  | rotate {i : Nat} {p : Process} (holder : s.current = some i)
      (held : s.processes.get? i = some p) (running : p.state = .running) :
      Move s (s.requeue i).vacate
  | block {i : Nat} {p : Process} (holder : s.current = some i)
      (held : s.processes.get? i = some p) (running : p.state = .running) (reason : BlockReason)
      (deadline : Option Timestamp) {next : Nat} (places : s.nextPlace ≤ next) :
      Move s { (s.update i (·.block reason deadline)).vacate with nextPlace := next }
  | charge {i : Nat} {p q : Process} (holder : s.current = some i)
      (held : s.processes.get? i = some p) (left : p.charge = .goesOn q) :
      Move s (s.update i fun _ => q)
  | condemnHolder {i : Nat} {p : Process} (holder : s.current = some i)
      (held : s.processes.get? i = some p) (running : p.state = .running) :
      Move s (s.update i (·.beginCleanup s.policy.cleanupQuantum none))
  | condemn {i : Nat} {p : Process} (waits : s.current ≠ some i)
      (held : s.processes.get? i = some p) (alive : p.isTerminated = false)
      (healthy : p.state.isCleanup = false) :
      Move s (s.enqueue i fun place p => p.beginCleanup s.policy.cleanupQuantum (some place))
  | retire {i : Nat} {p : Process} (held : s.processes.get? i = some p)
      (cleanup : p.state.isCleanup = true) (outcome : CleanupOutcome) :
      Move s (s.retire i p outcome)
  | preempt {i : Nat} (holder : s.current = some i) : Move s s.withdraw
  | dispatch {i : Nat} {p : Process} (vacant : s.current = none)
      (held : s.processes.get? i = some p) (schedulable : p.isSchedulable = true)
      (first : ∀ j q, s.processes.get? j = some q → q.isSchedulable = true →
        q.precedes p = false) :
      Move s (s.giveTo i)

abbrev Moves : Scheduler → Scheduler → Prop := Relation.ReflTransGen Move

/-- Two schedulers that differ in one slot only, and in whether that slot holds the processor. -/
structure AgreeExcept (s t : Scheduler) (i : Nat) : Prop where
  get? : ∀ j, j ≠ i → t.processes.get? j = s.processes.get? j
  holder : ∀ j, j ≠ i → (t.current = some j ↔ s.current = some j)

theorem AgreeExcept.symm {s t : Scheduler} {i : Nat} (a : AgreeExcept s t i) : AgreeExcept t s i where
  get? j other := (a.get? j other).symm
  holder j other := (a.holder j other).symm

/-- The process in slot `i` becomes `q`, and nothing else of the process table or of who holds the
processor changes. A process either keeps its place or takes one behind all others. -/
structure Change (s t : Scheduler) (i : Nat) (p q : Process) : Prop where
  held : s.processes.get? i = some p
  table : t.processes = s.processes.modify i fun _ => q
  holder : ∀ j, j ≠ i → (t.current = some j ↔ s.current = some j) := by exact fun _ _ => Iff.rfl
  store : t.store = s.store := by rfl
  policy : t.policy = s.policy := by rfl
  id : q.id = p.id := by rfl
  asid : q.asid = p.asid := by rfl
  app : q.app = p.app := by rfl
  alive : q.isTerminated = false → p.isTerminated = false
  places : s.nextPlace ≤ t.nextPlace := by exact Nat.le_refl _
  place : q.queuedAt = p.queuedAt ∧ (q.isSchedulable = true → p.isSchedulable = true) ∨
    s.nextPlace ≤ q.queuedAt ∧ q.queuedAt < t.nextPlace

namespace Change

variable {s t : Scheduler} {i : Nat} {p q : Process}

theorem get?_self (c : Change s t i p q) : t.processes.get? i = some q := by
  simp [c.table, c.held]

theorem get?_of_ne (c : Change s t i p q) {j : Nat} (h : j ≠ i) :
    t.processes.get? j = s.processes.get? j := by
  rw [c.table, ProcessTable.get?_modify_of_ne _ _ h]

theorem agreeExcept (c : Change s t i p q) : AgreeExcept s t i where
  get? _ other := c.get?_of_ne other
  holder := c.holder

theorem generation?_eq (c : Change s t i p q) (j : Nat) :
    t.processes.generation? j = s.processes.generation? j := by
  simp [c.table]

theorem size (c : Change s t i p q) :
    t.processes.slots.length = s.processes.slots.length := by
  simp [c.table]

theorem vacated (c : Change s t i p q) (holder : s.current = some i) : Change s t.vacate i p q :=
  { c with
    holder := fun j other => by simp [vacate, holder, other.symm] }

end Change

section Changes

variable {s : Scheduler} {i : Nat} {p : Process}

theorem change_requeue (held : s.processes.get? i = some p) (alive : p.isTerminated = false) :
    Change s (s.requeue i) i p (p.makeReady s.nextPlace) where
  held := held
  table := ProcessTable.modify_eq_of_get? _ held
  alive _ := alive
  places := Nat.le_succ _
  place := Or.inr ⟨Nat.le_refl _, Nat.lt_succ_self _⟩

theorem change_block (holder : s.current = some i) (held : s.processes.get? i = some p)
    (alive : p.isTerminated = false) (reason : BlockReason) (deadline : Option Timestamp)
    {next : Nat} (places : s.nextPlace ≤ next) :
    Change s { (s.update i (·.block reason deadline)).vacate with nextPlace := next } i p
      (p.block reason deadline) where
  held := held
  table := ProcessTable.modify_eq_of_get? _ held
  holder j other := by simp [vacate, holder, other.symm]
  alive _ := alive
  places := places
  place := Or.inl ⟨rfl, fun h => by cases h⟩

theorem change_charge {q : Process} (held : s.processes.get? i = some p)
    (left : p.charge = .goesOn q) : Change s (s.update i fun _ => q) i p q := by
  have same : q.id = p.id ∧ q.asid = p.asid ∧ q.app = p.app ∧ q.queuedAt = p.queuedAt ∧
      q.isSchedulable = p.isSchedulable ∧ q.isTerminated = p.isTerminated := by
    rcases Process.charge_goesOn left with ⟨_, _, rfl⟩ | ⟨n, cleanup, _, rfl⟩ | ⟨_, _, rfl⟩
    · exact ⟨rfl, rfl, rfl, rfl, rfl, rfl⟩
    · simp [Process.isSchedulable, Process.isTerminated, ProcessState.isSchedulable,
        ProcessState.isTerminated, cleanup]
    · exact ⟨rfl, rfl, rfl, rfl, rfl, rfl⟩
  obtain ⟨id, asid, app, place, schedulable, terminated⟩ := same
  exact {
    held := held
    table := rfl
    id := id
    asid := asid
    app := app
    alive := fun h => terminated ▸ h
    place := Or.inl ⟨place, fun h => schedulable ▸ h⟩ }

theorem change_condemnHolder (held : s.processes.get? i = some p)
    (running : p.state = .running) (remaining : UInt32) :
    Change s (s.update i (·.beginCleanup remaining none)) i p (p.beginCleanup remaining none) where
  held := held
  table := ProcessTable.modify_eq_of_get? _ held
  alive _ := Process.not_isTerminated_of_running running
  place := Or.inl ⟨rfl, fun _ => Process.isSchedulable_of_running running⟩

theorem change_condemn (held : s.processes.get? i = some p) (alive : p.isTerminated = false)
    (remaining : UInt32) :
    Change s (s.enqueue i fun place p => p.beginCleanup remaining (some place)) i p
      (p.beginCleanup remaining (some s.nextPlace)) where
  held := held
  table := ProcessTable.modify_eq_of_get? _ held
  alive _ := alive
  places := Nat.le_succ _
  place := Or.inr ⟨Nat.le_refl _, Nat.lt_succ_self _⟩

theorem change_retire (held : s.processes.get? i = some p) (alive : p.isTerminated = false)
    (outcome : CleanupOutcome) :
    Change s (s.retire i p outcome) i p (p.terminate outcome) := by
  have changed : Change s ((s.update i (·.terminate outcome)).releaseBuffers p.asid) i p
      (p.terminate outcome) :=
    { held := held
      table := ProcessTable.modify_eq_of_get? _ held
      alive := fun _ => alive
      place := Or.inl ⟨rfl, fun h => by cases h⟩ }
  by_cases holder : s.current = some i
  · simpa [retire, holder] using changed.vacated holder
  · simpa [retire, holder] using changed

theorem withdraw_eq (holder : s.current = some i) : s.withdraw = (s.update i (·.preempt)).vacate := by
  simp [withdraw, holder, update, vacate]

theorem change_withdraw (holder : s.current = some i) (held : s.processes.get? i = some p)
    (alive : p.isTerminated = false) : Change s s.withdraw i p p.preempt := by
  rw [withdraw_eq holder]
  exact {
    held := held
    table := ProcessTable.modify_eq_of_get? _ held
    holder := fun j other => by simp [vacate, holder, other.symm]
    id := by rw [Process.preempt_eq]
    asid := by rw [Process.preempt_eq]
    app := by rw [Process.preempt_eq]
    alive := fun _ => alive
    place := Or.inl ⟨by rw [Process.preempt_eq], fun h => by simpa using h⟩ }

theorem change_giveTo (vacant : s.current = none) (held : s.processes.get? i = some p)
    (schedulable : p.isSchedulable = true) : Change s (s.giveTo i) i p p.dispatch where
  held := held
  table := ProcessTable.modify_eq_of_get? _ held
  holder j other := by simp [giveTo, vacant, other.symm]
  id := by rw [Process.dispatch_eq]
  asid := by rw [Process.dispatch_eq]
  app := by rw [Process.dispatch_eq]
  alive _ := Process.not_isTerminated_of_isSchedulable schedulable
  place := Or.inl ⟨by rw [Process.dispatch_eq], fun _ => schedulable⟩

end Changes
end Scheduler
end SeparationKernel
