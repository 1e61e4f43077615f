import Mathlib
import SeparationKernel.Process

/-! What the changes of a process leave as it was. -/
namespace SeparationKernel
namespace Process

theorem isSchedulable_iff {p : Process} :
    p.isSchedulable = true ↔
      p.state = .ready ∨ p.state = .running ∨ p.state.isCleanup = true := by
  rcases h : p.state with (_ | _ | _) | _ | _ <;>
    simp [isSchedulable, ProcessState.isSchedulable, ProcessState.isCleanup, h]

theorem isBlocked_iff {p : Process} : p.isBlocked = true ↔ ∃ r, p.state = .blocked r := by
  rcases h : p.state with (_ | _ | _) | _ | _ <;> simp [isBlocked, h]

theorem isTerminated_iff {p : Process} :
    p.isTerminated = true ↔ ∃ outcome, p.state = .terminated outcome := by
  rcases h : p.state with (_ | _ | _) | _ | _ <;>
    simp [isTerminated, ProcessState.isTerminated, h]

theorem not_isTerminated_of_isSchedulable {p : Process} (h : p.isSchedulable = true) :
    p.isTerminated = false :=
  ProcessState.isTerminated_eq_false_of_isSchedulable h

theorem not_isSchedulable_of_isBlocked {p : Process} (h : p.isBlocked = true) :
    p.isSchedulable = false := by
  obtain ⟨r, blocked⟩ := isBlocked_iff.1 h
  simp [isSchedulable, ProcessState.isSchedulable, blocked]

theorem isSchedulable_of_running {p : Process} (h : p.state = .running) :
    p.isSchedulable = true :=
  isSchedulable_iff.2 (Or.inr (Or.inl h))

theorem isSchedulable_of_isCleanup {p : Process} (h : p.state.isCleanup = true) :
    p.isSchedulable = true :=
  isSchedulable_iff.2 (Or.inr (Or.inr h))

theorem not_isTerminated_of_running {p : Process} (h : p.state = .running) :
    p.isTerminated = false :=
  not_isTerminated_of_isSchedulable (isSchedulable_of_running h)

theorem not_isTerminated_of_isBlocked {p : Process} (h : p.isBlocked = true) :
    p.isTerminated = false := by
  obtain ⟨r, blocked⟩ := isBlocked_iff.1 h
  simp [isTerminated, ProcessState.isTerminated, blocked]

theorem preempt_eq (p : Process) :
    p.preempt = { p with state := if p.state = .running then .ready else p.state } := by
  rcases p with ⟨_, _, _, (_ | _ | _) | _ | _, _, _, _⟩ <;> simp [preempt]

theorem dispatch_eq (p : Process) :
    p.dispatch = { p with state := if p.state = .ready then .running else p.state } := by
  rcases p with ⟨_, _, _, (_ | _ | _) | _ | _, _, _, _⟩ <;> simp [dispatch]

@[simp] theorem isSchedulable_preempt (p : Process) : p.preempt.isSchedulable = p.isSchedulable := by
  rcases p with ⟨_, _, _, (_ | _ | _) | _ | _, _, _, _⟩ <;> rfl

@[simp] theorem isSchedulable_dispatch (p : Process) :
    p.dispatch.isSchedulable = p.isSchedulable := by
  rcases p with ⟨_, _, _, (_ | _ | _) | _ | _, _, _, _⟩ <;> rfl

@[simp] theorem priority_preempt (p : Process) : p.preempt.priority = p.priority := by
  rw [preempt_eq]
  rfl

@[simp] theorem priority_dispatch (p : Process) : p.dispatch.priority = p.priority := by
  rw [dispatch_eq]
  rfl

theorem two_le_of_down_ne_zero {n : UInt32} (h : Counter.down n ≠ 0) : 2 ≤ n.toNat := by
  by_contra small
  apply h
  apply UInt32.toNat_inj.1
  rw [Counter.toNat_down]
  have zero : (0 : UInt32).toNat = 0 := rfl
  omega

theorem le_one_of_down_eq_zero {n : UInt32} (h : Counter.down n = 0) : n.toNat ≤ 1 := by
  have down := congrArg UInt32.toNat h
  have zero : (0 : UInt32).toNat = 0 := rfl
  rw [Counter.toNat_down, zero] at down
  omega

theorem down_eq_zero_iff {n : UInt32} : Counter.down n = 0 ↔ n.toNat ≤ 1 := by
  refine ⟨le_one_of_down_eq_zero, fun small => ?_⟩
  by_contra left
  have more := two_le_of_down_ne_zero left
  omega

theorem charge_goesOn {p q : Process} (h : p.charge = .goesOn q) :
    (p.state = .running ∧ 2 ≤ p.quantumLeft.toNat ∧
        q = { p with quantumLeft := Counter.down p.quantumLeft }) ∨
      (∃ n, p.state = .cleanup n ∧ 2 ≤ n.toNat ∧
        q = { p with state := .cleanup (Counter.down n) }) ∨
      (p.state ≠ .running ∧ p.state.isCleanup = false ∧ q = p) := by
  rw [charge] at h
  split at h
  · rename_i running
    split at h
    · simp at h
    · rename_i left
      exact Or.inl ⟨running, two_le_of_down_ne_zero left, (Charge.goesOn.inj h).symm⟩
  · rename_i n cleanup
    split at h
    · simp at h
    · rename_i left
      exact Or.inr (Or.inl ⟨n, cleanup, two_le_of_down_ne_zero left, (Charge.goesOn.inj h).symm⟩)
  · rename_i running cleanup
    refine Or.inr (Or.inr ⟨running, ?_, (Charge.goesOn.inj h).symm⟩)
    rcases state : p.state with _ | n | _
    · rfl
    · exact absurd state (cleanup n)
    · rfl

theorem charge_quantumExpired {p : Process} (h : p.charge = .quantumExpired) :
    p.state = .running ∧ p.quantumLeft.toNat ≤ 1 := by
  rw [charge] at h
  split at h
  · rename_i running
    split at h
    · rename_i spent
      exact ⟨running, le_one_of_down_eq_zero spent⟩
    · simp at h
  · split at h <;> simp at h
  · simp at h

theorem charge_cleanupOverrun {p : Process} (h : p.charge = .cleanupOverrun) :
    ∃ n, p.state = .cleanup n ∧ n.toNat ≤ 1 := by
  rw [charge] at h
  split at h
  · split at h <;> simp at h
  · rename_i n cleanup
    split at h
    · rename_i spent
      exact ⟨n, cleanup, le_one_of_down_eq_zero spent⟩
    · simp at h
  · simp at h

end Process
end SeparationKernel
