import Mathlib
import SeparationKernel.Proofs.Scheduler.Request
import SeparationKernel.Proofs.Store.Loaded

/-! The states that a scheduler gets into. All of them are consistent. -/
namespace SeparationKernel
namespace Scheduler

/-- Comes about by requests to a new scheduler, whose options are supported and whose descriptors
were accepted under them. -/
structure Reachable (o : Options) (store : Store) (s : Scheduler) : Prop where
  supported : o.check = .ok ()
  loaded : store.IsLoaded o
  run : ∃ requests, (ofStore store o).run requests = s

theorem get?_ofStore (store : Store) (o : Options) (i : Nat) :
    (ofStore store o).processes.get? i = none :=
  ProcessTable.get?_ofSize _ i

/-- The descriptors may have been accepted under other options: quanta are checked the same way. -/
theorem consistent_ofStore {store : Store} {o o' : Options} (supported : o.check = .ok ())
    (loaded : store.IsLoaded o') : (ofStore store o).Consistent where
  holder _ current := by cases current
  running i p held := by simp [get?_ofStore] at held
  named i p held := by simp [get?_ofStore] at held
  described i p held := by simp [get?_ofStore] at held
  single i j p q held := by simp [get?_ofStore] at held
  deadline i p held := by simp [get?_ofStore] at held
  quantum i p held := by simp [get?_ofStore] at held
  cleanup i p n held := by simp [get?_ofStore] at held
  place_lt i p held := by simp [get?_ofStore] at held
  place_inj i j p q held := by simp [get?_ofStore] at held
  longest i j p q current := by cases current
  allotted _ app described := loaded.quantum_pos (List.mem_of_getElem? described)
  cleanup_pos := by
    have bounds := Options.bounds_of_check supported (k := .cleanupQuantum) rfl
    exact Nat.le_trans (by decide) bounds.1
  size_le := by
    have bounds := Options.bounds_of_check supported (k := .processCountMax) rfl
    have size : (ofStore store o).processes.slots.length = o.processCountMax.toNat := by
      simp [ofStore, ProcessTable.ofSize]
    rw [size]
    exact Nat.le_trans bounds.2 (by decide)

theorem Move.store_policy {s t : Scheduler} (m : Move s t) :
    t.store = s.store ∧ t.policy = s.policy := by
  cases m with
  | @retire i p held cleanup outcome =>
    rw [Scheduler.retire]
    split <;> exact ⟨rfl, rfl⟩
  | preempt holder =>
    rw [withdraw_eq holder]
    exact ⟨rfl, rfl⟩
  | _ => exact ⟨rfl, rfl⟩

theorem Moves.store_policy {s t : Scheduler} (m : Moves s t) :
    t.store = s.store ∧ t.policy = s.policy := by
  induction m with
  | refl => exact ⟨rfl, rfl⟩
  | tail _ last ih =>
    obtain ⟨store, policy⟩ := last.store_policy
    exact ⟨store.trans ih.1, policy.trans ih.2⟩

theorem store_policy_run {s : Scheduler} (h : s.Consistent) (rs : List Request) :
    (s.run rs).store = s.store ∧ (s.run rs).policy = s.policy := by
  induction rs generalizing s with
  | nil => exact ⟨rfl, rfl⟩
  | cons r rs ih =>
    obtain ⟨store, policy⟩ := (moves_after h r).store_policy
    obtain ⟨store', policy'⟩ := ih (consistent_after h r)
    exact ⟨store'.trans store, policy'.trans policy⟩

variable {s : Scheduler}

theorem wakeSlots_snd_le (now : Timestamp) (place : Nat) (ss : List Slot) :
    (ProcessTable.wakeSlots now place ss).2 ≤ place + ss.length := by
  induction ss generalizing place with
  | nil => exact Nat.le_refl place
  | cons slot ss ih =>
    have later := ih (place + 1)
    have here := ih place
    rw [ProcessTable.wakeSlots, List.length_cons]
    split
    · split <;> simp only <;> omega
    · simp only
      omega

theorem nextPlace_chargeCurrent_le (s : Scheduler) :
    s.chargeCurrent.2.nextPlace ≤ s.nextPlace + 1 ∧
      s.chargeCurrent.2.processes.slots.length = s.processes.slots.length := by
  rw [chargeCurrent]
  split
  · split
    · exact ⟨Nat.le_succ _, ProcessTable.length_slots_modify _ _ _⟩
    · exact ⟨Nat.le_refl _, ProcessTable.length_slots_modify _ _ _⟩
    · rw [retire]
      split <;> exact ⟨Nat.le_succ _, ProcessTable.length_slots_modify _ _ _⟩
  · exact ⟨Nat.le_succ _, rfl⟩

theorem nextPlace_accept_le (s : Scheduler) (r : Request) :
    (s.accept r).nextPlace ≤ s.nextPlace + 1 := by
  cases r with
  | yield id delay =>
    rw [accept]
    split <;> exact Nat.le_refl _
  | deliverIpc | completeIo => exact Nat.le_refl _
  | requestTermination id =>
    rw [accept]
    split
    · exact Nat.le_succ _
    · exact Nat.le_refl _
  | cleanupDone id =>
    rw [accept]
    split
    · exact Nat.le_succ _
    · rw [retire]
      split <;> exact Nat.le_succ _
  | _ => exact Nat.le_succ _

/-- A systick takes a place for each process that it wakes, and one for its holder. -/
theorem nextPlace_tick_le (s : Scheduler) :
    s.tick.2.nextPlace ≤ s.nextPlace + s.processes.slots.length + 1 := by
  obtain ⟨charged, size⟩ := nextPlace_chargeCurrent_le s.advance
  have woken := wakeSlots_snd_le s.advance.chargeCurrent.2.now
    s.advance.chargeCurrent.2.nextPlace s.advance.chargeCurrent.2.processes.slots
  obtain ⟨processes, current, decided⟩ := schedule_eq s.beforeDecision
  have kept : s.tick.2.nextPlace = s.beforeDecision.nextPlace := by
    have ends : s.tick.2.nextPlace = s.beforeDecision.schedule.nextPlace := rfl
    rw [ends, decided]
  have start : s.advance.nextPlace = s.nextPlace := rfl
  have same : s.advance.processes = s.processes := rfl
  have before : s.beforeDecision.nextPlace = (ProcessTable.wakeSlots s.advance.chargeCurrent.2.now
    s.advance.chargeCurrent.2.nextPlace s.advance.chargeCurrent.2.processes.slots).2 := rfl
  rw [size, same] at woken
  omega

theorem nextPlace_instantiate_le (s : Scheduler) (asid : Asid) :
    (s.instantiate asid).2.nextPlace ≤ s.nextPlace + 1 := by
  rw [instantiate_eq]
  split
  · exact Nat.le_succ _
  · split
    · exact Nat.le_succ _
    · split
      · exact Nat.le_succ _
      · exact Nat.le_refl _

theorem nextPlace_after_le (h : s.Consistent) (r : Request) :
    (s.after r).nextPlace ≤ s.nextPlace + 257 := by
  have size := h.size_le
  cases about : r.addressee? with
  | some id =>
    rw [after_eq_commit about]
    have one := nextPlace_accept_le s r
    cases s.findings r with
    | error e => exact Nat.le_add_right _ _
    | ok =>
      show (s.accept r).nextPlace ≤ s.nextPlace + 257
      omega
  | none =>
    cases r with
    | instantiate asid => exact (nextPlace_instantiate_le s asid).trans (by omega)
    | schedule =>
      obtain ⟨processes, current, decided⟩ := schedule_eq s
      rw [after, decided]
      exact Nat.le_add_right _ _
    | tick =>
      have ticks := nextPlace_tick_le s
      rw [after]
      omega
    | buffer => exact Nat.le_add_right _ _
    | _ => cases about

theorem nextPlace_run_le (h : s.Consistent) (rs : List Request) :
    (s.run rs).nextPlace ≤ s.nextPlace + 257 * rs.length := by
  induction rs generalizing s with
  | nil => exact Nat.le_refl _
  | cons r rs ih =>
    have first := nextPlace_after_le h r
    have rest := ih (consistent_after h r)
    rw [run_cons, List.length_cons]
    omega

/-- Places need no more than 64 bits, unless a scheduler is asked for more than 2 ^ 55 things. -/
theorem queuedAt_lt_of_length_le {o o' : Options} {store : Store} (supported : o.check = .ok ())
    (loaded : store.IsLoaded o') {rs : List Request} (short : rs.length ≤ 2 ^ 55) {i : Nat}
    {p : Process} (held : ((ofStore store o).run rs).processes.get? i = some p) :
    p.queuedAt < 2 ^ 64 := by
  have first := consistent_ofStore supported loaded
  have place := (consistent_run first rs).place_lt i p held
  have taken := nextPlace_run_le first rs
  have none_yet : (ofStore store o).nextPlace = 0 := rfl
  omega

theorem Consistent.holder?_isSome {s : Scheduler} (h : s.Consistent)
    (busy : s.current.isSome = true) : s.holder?.isSome = true := by
  by_contra stuck
  have nobody : s.holder? = none := by simpa using stuck
  simp [current_eq_none_of_holder? h nobody] at busy

namespace Reachable

variable {o : Options} {store : Store} {s : Scheduler}

theorem consistent (h : Reachable o store s) : s.Consistent := by
  obtain ⟨supported, loaded, requests, rfl⟩ := h
  exact consistent_run (consistent_ofStore supported loaded) requests

theorem store_policy (h : Reachable o store s) : s.store = store ∧ s.policy = .ofOptions o := by
  obtain ⟨supported, loaded, requests, rfl⟩ := h
  exact store_policy_run (consistent_ofStore supported loaded) requests

/-- Whatever was asked of the scheduler, it is consistent, with the descriptors and the limits that
it began with. One process runs at most, and decisions never find the processor with a process that
cannot use it. -/
theorem representation_invariant (h : Reachable o store s) :
    s.Consistent ∧ s.store = store ∧ s.policy = .ofOptions o ∧
      (∀ i j p q, s.processes.get? i = some p → s.processes.get? j = some q →
        p.state = .running → q.state = .running → i = j) ∧
      (s.current.isSome = true → s.holder?.isSome = true) ∧
      (s.beforeDecision.current.isSome = true → s.beforeDecision.holder?.isSome = true) := by
  have consistent := h.consistent
  have before := (moves_beforeDecision consistent).consistent consistent
  refine ⟨consistent, h.store_policy.1, h.store_policy.2, ?_, consistent.holder?_isSome,
    before.holder?_isSome⟩
  intro i j p q held held' runs runs'
  have holder := consistent.running i p held runs
  exact Option.some.inj (holder.symm.trans (consistent.running j q held' runs'))

end Reachable

def duo : Store :=
  ⟨[{ name := "a", priority := ⟨1⟩, quantum := 2 }, { name := "b", priority := ⟨3⟩, quantum := 2 }]⟩

theorem reachable_duo (requests : List Request) :
    Reachable {} duo ((ofStore duo {}).run requests) :=
  ⟨by decide, ⟨{}, {}, duo.apps, by decide +kernel⟩, requests, rfl⟩

/-- The first application is terminating, and holds the processor. -/
theorem representation_invariant_duo :
    let s := (ofStore duo {}).run
      [.instantiate ⟨0⟩, .instantiate ⟨1⟩, .schedule, .requestTermination ⟨0, 0⟩, .tick]
    s.Consistent ∧ s.current = some 0 ∧ s.holder?.isSome = true := by
  intro s
  have invariant := Reachable.representation_invariant (reachable_duo
    [.instantiate ⟨0⟩, .instantiate ⟨1⟩, .schedule, .requestTermination ⟨0, 0⟩, .tick])
  have holder : s.current = some 0 := by decide +kernel
  exact ⟨invariant.1, holder, invariant.2.2.2.2.1 (by rw [holder]; rfl)⟩

end Scheduler
end SeparationKernel
