import Mathlib
import SeparationKernel.Proofs.Process.Transition

/-! What becomes of a process when a systick passes and when it is decided who gets the processor.
It stays the same process throughout. -/
namespace SeparationKernel
namespace Process

/-- The process gets the processor, or it goes to another one or to nobody. -/
def settle (p : Process) (chosen : Bool) : Process := if chosen then p.dispatch else p.preempt

/-- A systick was charged to the process. If its quantum is used up it queues up at `place`. -/
def charged (p : Process) (place : Nat) : Process :=
  match p.charge with
  | .goesOn left => left
  | .quantumExpired => p.makeReady place
  | .cleanupOverrun => p.terminate .overrun

/-- A systick has passed by `now`, and nothing is decided yet. -/
def elapse (p : Process) (holds : Bool) (now : Timestamp) (place : Nat) : Process :=
  if holds then p.charged place else if p.isDue now then p.makeReady place else p

structure SameAs (p q : Process) : Prop where
  id : q.id = p.id := by rfl
  asid : q.asid = p.asid := by rfl
  app : q.app = p.app := by rfl

variable {p q r : Process} {n : UInt32}

theorem SameAs.refl (p : Process) : SameAs p p := {}

theorem SameAs.trans (first : SameAs p q) (second : SameAs q r) : SameAs p r where
  id := second.id.trans first.id
  asid := second.asid.trans first.asid
  app := second.app.trans first.app

theorem SameAs.priority (same : SameAs p q) : q.priority = p.priority :=
  congrArg App.priority same.app

theorem preempt_eq_self (h : p.state ≠ .running) : p.preempt = p := by
  rw [preempt_eq, if_neg h]

theorem dispatch_eq_self (h : p.state ≠ .ready) : p.dispatch = p := by
  rw [dispatch_eq, if_neg h]

theorem sameAs_settle (p : Process) (chosen : Bool) : SameAs p (p.settle chosen) := by
  cases chosen with
  | false =>
    rw [settle, if_neg Bool.false_ne_true, preempt_eq]
    exact {}
  | true =>
    rw [settle, if_pos rfl, dispatch_eq]
    exact {}

theorem sameAs_charged (p : Process) (place : Nat) : SameAs p (p.charged place) := by
  rw [charged]
  split
  · rename_i left goesOn
    rcases charge_goesOn goesOn with ⟨_, _, rfl⟩ | ⟨_, _, _, rfl⟩ | ⟨_, _, rfl⟩ <;> exact {}
  · exact {}
  · exact {}

theorem sameAs_elapse (p : Process) (holds : Bool) (now : Timestamp) (place : Nat) :
    SameAs p (p.elapse holds now place) := by
  rw [elapse]
  split
  · exact p.sameAs_charged place
  · split <;> exact {}

@[simp] theorem deadline_settle (p : Process) (chosen : Bool) :
    (p.settle chosen).deadline = p.deadline := by
  cases chosen with
  | false => simp only [settle, Bool.false_eq_true, if_false, preempt_eq]
  | true => simp only [settle, if_true, dispatch_eq]

@[simp] theorem quantumLeft_settle (p : Process) (chosen : Bool) :
    (p.settle chosen).quantumLeft = p.quantumLeft := by
  cases chosen with
  | false => simp only [settle, Bool.false_eq_true, if_false, preempt_eq]
  | true => simp only [settle, if_true, dispatch_eq]

theorem settle_eq_self (unready : p.state ≠ .ready) (idle : p.state ≠ .running) (chosen : Bool) :
    p.settle chosen = p := by
  cases chosen with
  | false => exact preempt_eq_self idle
  | true => exact dispatch_eq_self unready

theorem settle_of_isCleanup (h : p.state.isCleanup = true) (chosen : Bool) :
    p.settle chosen = p := by
  apply settle_eq_self <;> intro state <;> simp [state, ProcessState.isCleanup] at h

theorem settle_of_isTerminated (h : p.isTerminated = true) (chosen : Bool) :
    p.settle chosen = p := by
  apply settle_eq_self <;> intro state <;>
    simp [isTerminated, state, ProcessState.isTerminated] at h

theorem state_settle_eq_cleanup_iff {chosen : Bool} :
    (p.settle chosen).state = .cleanup n ↔ p.state = .cleanup n := by
  rcases p with ⟨_, _, _, (_ | _ | _) | _ | _, _, _, _⟩ <;>
    cases chosen <;> simp [settle, preempt, dispatch]

theorem isTerminated_preempt (p : Process) : p.preempt.isTerminated = p.isTerminated := by
  rcases p with ⟨_, _, _, (_ | _ | _) | _ | _, _, _, _⟩ <;> rfl

theorem isTerminated_dispatch (p : Process) : p.dispatch.isTerminated = p.isTerminated := by
  rcases p with ⟨_, _, _, (_ | _ | _) | _ | _, _, _, _⟩ <;> rfl

@[simp] theorem isTerminated_settle (p : Process) (chosen : Bool) :
    (p.settle chosen).isTerminated = p.isTerminated := by
  cases chosen with
  | false => exact isTerminated_preempt p
  | true => exact isTerminated_dispatch p

theorem isSchedulable_of_cleanup (h : p.state = .cleanup n) : p.isSchedulable = true :=
  isSchedulable_of_isCleanup (by simp [h, ProcessState.isCleanup])

theorem charge_of_cleanup (h : p.state = .cleanup n) :
    p.charge = if n.toNat ≤ 1 then .cleanupOverrun
      else .goesOn { p with state := .cleanup (Counter.down n) } := by
  simp only [charge, h, down_eq_zero_iff]

theorem charged_of_cleanup (h : p.state = .cleanup n) (place : Nat) :
    p.charged place = if n.toNat ≤ 1 then p.terminate .overrun
      else { p with state := .cleanup (Counter.down n) } := by
  rw [charged, charge_of_cleanup h]
  by_cases last : n.toNat ≤ 1
  · simp [last]
  · simp [last]

theorem charge_of_running (h : p.state = .running) :
    p.charge = if p.quantumLeft.toNat ≤ 1 then .quantumExpired
      else .goesOn { p with quantumLeft := Counter.down p.quantumLeft } := by
  simp only [charge, h, down_eq_zero_iff]

theorem charged_of_running (h : p.state = .running) (place : Nat) :
    p.charged place = if p.quantumLeft.toNat ≤ 1 then p.makeReady place
      else { p with quantumLeft := Counter.down p.quantumLeft } := by
  rw [charged, charge_of_running h]
  by_cases last : p.quantumLeft.toNat ≤ 1
  · simp [last]
  · simp [last]

theorem isTerminated_elapse (alive : p.isTerminated = false) (holds : Bool) (now : Timestamp)
    (place : Nat) :
    (p.elapse holds now place).isTerminated = true ↔ holds = true ∧ p.charge = .cleanupOverrun := by
  cases holds with
  | false =>
    rw [elapse, if_neg Bool.false_ne_true]
    split
    · simp [makeReady, isTerminated, ProcessState.isTerminated]
    · simp [alive]
  | true =>
    rw [elapse, if_pos rfl, charged]
    cases charge : p.charge with
    | goesOn left =>
      have live : left.isTerminated = p.isTerminated := by
        rcases charge_goesOn charge with ⟨_, _, rfl⟩ | ⟨n, cleanup, _, rfl⟩ | ⟨_, _, rfl⟩
        · rfl
        · rw [alive]
          rfl
        · rfl
      simp [live, alive]
    | quantumExpired => simp [makeReady, isTerminated, ProcessState.isTerminated]
    | cleanupOverrun => simp [terminate, isTerminated, ProcessState.isTerminated]

theorem elapse_of_overrun (overrun : p.charge = .cleanupOverrun) (now : Timestamp) (place : Nat) :
    p.elapse true now place = p.terminate .overrun := by
  simp [elapse, charged, overrun]

def CanRun (p : Process) : Prop := p.state = .ready ∨ p.state = .running

theorem canRun_iff : p.CanRun ↔ p.isSchedulable = true ∧ p.state.isCleanup = false := by
  rw [isSchedulable_iff, CanRun]
  rcases p.state with (_ | _ | _) | _ | _ <;> simp [ProcessState.isCleanup]

theorem CanRun.settle (able : p.CanRun) (chosen : Bool) : (p.settle chosen).CanRun := by
  cases chosen with
  | true =>
    rw [Process.settle, if_pos rfl, dispatch_eq]
    rcases able with state | state <;> simp [CanRun, state]
  | false =>
    rw [Process.settle, if_neg Bool.false_ne_true, preempt_eq]
    rcases able with state | state <;> simp [CanRun, state]

theorem CanRun.elapse (able : p.CanRun) (holds : Bool) (now : Timestamp) (place : Nat) :
    (p.elapse holds now place).CanRun := by
  rw [Process.elapse]
  split
  · rcases able with ready | running
    · have charge : p.charge = .goesOn p := by simp [Process.charge, ready]
      rw [charged, charge]
      exact Or.inl ready
    · rw [charged_of_running running]
      split
      · exact Or.inl rfl
      · exact Or.inr running
  · split
    · exact Or.inl rfl
    · exact able

end Process
end SeparationKernel
