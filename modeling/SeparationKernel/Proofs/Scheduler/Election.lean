import Mathlib
import SeparationKernel.Proofs.Priority
import SeparationKernel.Proofs.Process.Table
import SeparationKernel.Proofs.Process.Transition
import SeparationKernel.Scheduler

/-! Who gets the processor. After every decision it is with a process that none is more important
than, or nobody could use it. -/
namespace SeparationKernel
namespace Scheduler

variable {s : Scheduler}

theorem currentProcess?_eq_some_iff {p : Process} :
    s.currentProcess? = some p ↔ ∃ i, s.current = some i ∧ s.processes.get? i = some p := by
  simp [currentProcess?, Option.bind_eq_some_iff]

theorem holder?_eq_some_iff {p : Process} :
    s.holder? = some p ↔
      (∃ i, s.current = some i ∧ s.processes.get? i = some p) ∧ p.isSchedulable = true := by
  rw [holder?, Option.filter_eq_some_iff, currentProcess?_eq_some_iff]

/-- Whoever could use the processor but does not hold it. -/
def IsWaiting (s : Scheduler) (i : Nat) (p : Process) : Prop :=
  s.processes.get? i = some p ∧ p.isSchedulable = true ∧ s.current ≠ some i

theorem challenger?_eq_some {i : Nat} {p : Process} (h : s.challenger? = some (i, p)) :
    s.IsWaiting i p ∧ ∀ j q, s.IsWaiting j q → q.precedes p = false := by
  obtain ⟨held, eligible, first⟩ := ProcessTable.elect_eq_some h
  have waits : p.isSchedulable = true ∧ s.current ≠ some i := by simpa using eligible
  refine ⟨⟨held, waits⟩, ?_⟩
  rintro j q ⟨held', schedulable, other⟩
  exact first j q held' (by simp [schedulable, other])

theorem challenger?_eq_none_iff : s.challenger? = none ↔ ∀ i p, ¬ s.IsWaiting i p := by
  rw [challenger?, ProcessTable.elect_eq_none_iff]
  constructor
  · rintro h i p ⟨held, schedulable, other⟩
    have barred := h i p held
    simp [schedulable, other] at barred
  · intro h i p held
    by_contra eligible
    have waits : p.isSchedulable = true ∧ s.current ≠ some i := by simpa using eligible
    exact h i p ⟨held, waits⟩

/-- What giving the processor away anew may come to. -/
inductive Decision (s : Scheduler) : Scheduler → Prop where
  /-- The holder keeps the processor. -/
  | keep {i : Nat} {p : Process} (holder : s.current = some i)
      (held : s.processes.get? i = some p) (schedulable : p.isSchedulable = true)
      (best : ∀ j q, s.IsWaiting j q → q.priority.isMoreImportantThan p.priority = false) :
      Decision s s
  /-- The holder loses it to a more important process. -/
  | preempt {i j : Nat} {p q : Process} (holder : s.current = some i)
      (held : s.processes.get? i = some p) (schedulable : p.isSchedulable = true)
      (waits : s.IsWaiting j q) (more : q.priority.isMoreImportantThan p.priority = true)
      (first : ∀ k r, s.IsWaiting k r → r.precedes q = false) :
      Decision s (s.withdraw.giveTo j)
  /-- Nobody could go on, and the first that waits gets it. -/
  | dispatch {j : Nat} {q : Process} (nobody : s.holder? = none) (waits : s.IsWaiting j q)
      (first : ∀ k r, s.IsWaiting k r → r.precedes q = false) : Decision s (s.giveTo j)
  /-- Nobody wants it. -/
  | idle (nobody : s.holder? = none) (empty : ∀ k r, ¬ s.IsWaiting k r) : Decision s s.vacate

theorem decision_schedule (s : Scheduler) : s.Decision s.schedule := by
  rw [schedule]
  split
  · rename_i p j q holder challenger
    obtain ⟨⟨i, current, held⟩, schedulable⟩ := holder?_eq_some_iff.1 holder
    obtain ⟨waits, first⟩ := challenger?_eq_some challenger
    split
    · rename_i more
      exact .preempt current held schedulable waits more first
    · rename_i less
      refine .keep current held schedulable fun k r waits' => ?_
      have behind := Process.not_moreImportant_of_not_precedes (first k r waits')
      rw [← Bool.not_eq_true, Priority.isMoreImportantThan_iff] at *
      omega
  · rename_i p holder challenger
    obtain ⟨⟨i, current, held⟩, schedulable⟩ := holder?_eq_some_iff.1 holder
    exact .keep current held schedulable fun k r waits =>
      absurd waits (challenger?_eq_none_iff.1 challenger k r)
  · rename_i j q holder challenger
    obtain ⟨waits, first⟩ := challenger?_eq_some challenger
    exact .dispatch holder waits first
  · rename_i holder challenger
    exact .idle holder (challenger?_eq_none_iff.1 challenger)

/-- The processor is where it belongs: unused only if nobody could use it, and otherwise with a
process that could, and that none who could is more important than. -/
structure Settled (s : Scheduler) : Prop where
  idle : s.current = none → ∀ i p, s.processes.get? i = some p → p.isSchedulable = false
  best : ∀ i, s.current = some i → ∃ p, s.processes.get? i = some p ∧ p.isSchedulable = true ∧
    ∀ j q, s.processes.get? j = some q → q.isSchedulable = true →
      q.priority.isMoreImportantThan p.priority = false

theorem get?_withdraw (s : Scheduler) (j : Nat) :
    s.withdraw.processes.get? j =
      if s.current = some j then (s.processes.get? j).map (·.preempt) else s.processes.get? j := by
  cases current : s.current with
  | none => simp [withdraw, current]
  | some i => simp [withdraw, current, ProcessTable.get?_modify]

theorem get?_giveTo (s : Scheduler) (i j : Nat) :
    (s.giveTo i).processes.get? j =
      if i = j then (s.processes.get? j).map (·.dispatch) else s.processes.get? j :=
  ProcessTable.get?_modify _ _ _ _

theorem exists_of_get?_giveTo {i j : Nat} {q : Process}
    (h : (s.giveTo i).processes.get? j = some q) :
    ∃ p, s.processes.get? j = some p ∧ q.priority = p.priority ∧
      q.isSchedulable = p.isSchedulable := by
  rw [get?_giveTo] at h
  split at h
  · obtain ⟨p, held, rfl⟩ := Option.map_eq_some_iff.1 h
    exact ⟨p, held, Process.priority_dispatch p, Process.isSchedulable_dispatch p⟩
  · exact ⟨q, h, rfl, rfl⟩

theorem holds_of_not_isWaiting {i : Nat} {p : Process} (held : s.processes.get? i = some p)
    (schedulable : p.isSchedulable = true) (h : ¬ s.IsWaiting i p) : s.current = some i := by
  by_contra other
  exact h ⟨held, schedulable, other⟩

theorem first_after_withdraw {i : Nat} {p q : Process} (holder : s.current = some i)
    (held : s.processes.get? i = some p)
    (more : q.priority.isMoreImportantThan p.priority = true)
    (first : ∀ k r, s.IsWaiting k r → r.precedes q = false) :
    ∀ k r, s.withdraw.processes.get? k = some r → r.isSchedulable = true →
      r.precedes q = false := by
  intro k r heldk schedulable
  by_cases same : i = k
  · subst k
    obtain rfl : p.preempt = r := by simpa [get?_withdraw, holder, held] using heldk
    have lt := Priority.isMoreImportantThan_iff.1 more
    rw [← Bool.not_eq_true, Process.precedes_iff_level, Process.priority_preempt]
    omega
  · have other : s.current ≠ some k := fun e => same (Option.some.inj (holder.symm.trans e))
    rw [get?_withdraw, if_neg other] at heldk
    exact first k r ⟨heldk, schedulable, other⟩

/-- The processor is well placed with a process that none who could use it is more important than.
-/
theorem settled_giveTo {i : Nat} {p : Process} (held : s.processes.get? i = some p)
    (schedulable : p.isSchedulable = true)
    (best : ∀ j q, s.processes.get? j = some q → q.isSchedulable = true →
      q.priority.isMoreImportantThan p.priority = false) : (s.giveTo i).Settled where
  idle vacant := by cases vacant
  best j current := by
    obtain rfl : i = j := Option.some.inj current
    refine ⟨p.dispatch, by simp [get?_giveTo, held], by simpa using schedulable, ?_⟩
    intro k r held' schedulable'
    obtain ⟨q, old, priority, same⟩ := exists_of_get?_giveTo held'
    rw [priority, Process.priority_dispatch]
    exact best k q old (same ▸ schedulable')

theorem settled_schedule (s : Scheduler) : s.schedule.Settled := by
  have decision := decision_schedule s
  generalize s.schedule = t at decision ⊢
  cases decision with
  | @keep i p holder held schedulable best =>
    refine ⟨fun vacant => by simp [holder] at vacant, fun j current => ?_⟩
    obtain rfl : i = j := Option.some.inj (holder.symm.trans current)
    refine ⟨p, held, schedulable, fun k r held' schedulable' => ?_⟩
    by_cases waits : s.IsWaiting k r
    · exact best k r waits
    · have same := holder.symm.trans (holds_of_not_isWaiting held' schedulable' waits)
      obtain rfl : i = k := Option.some.inj same
      obtain rfl : p = r := Option.some.inj (held.symm.trans held')
      exact Priority.not_isMoreImportantThan_self p.priority
  | @preempt i j p q holder held schedulable waits more first =>
    obtain ⟨held', schedulable', other⟩ := waits
    have kept : s.withdraw.processes.get? j = some q := by
      rw [get?_withdraw, if_neg other, held']
    exact settled_giveTo kept schedulable' fun k r heldk schedulablek =>
      Process.not_moreImportant_of_not_precedes
        (first_after_withdraw holder held more first k r heldk schedulablek)
  | @dispatch j q nobody waits first =>
    obtain ⟨held, schedulable, other⟩ := waits
    refine settled_giveTo held schedulable fun k r heldk schedulablek => ?_
    by_cases waitsk : s.IsWaiting k r
    · exact Process.not_moreImportant_of_not_precedes (first k r waitsk)
    · have holds : s.holder? = some r := holder?_eq_some_iff.2
        ⟨⟨k, holds_of_not_isWaiting heldk schedulablek waitsk, heldk⟩, schedulablek⟩
      simp [nobody] at holds
  | idle nobody empty =>
    refine ⟨fun _ k r heldk => ?_, fun j current => by cases current⟩
    by_contra schedulable
    have able : r.isSchedulable = true := by simpa using schedulable
    have holds : s.holder? = some r := holder?_eq_some_iff.2
      ⟨⟨k, holds_of_not_isWaiting heldk able (empty k r), heldk⟩, able⟩
    simp [nobody] at holds

namespace Settled

theorem currentId?_eq_none_iff (h : s.Settled) :
    s.currentId? = none ↔ ∀ p ∈ s.processes.live, p.isSchedulable = false := by
  constructor
  · intro nobody p mem
    obtain ⟨i, held, _⟩ := ProcessTable.mem_live.1 mem
    cases current : s.current with
    | none => exact h.idle current i p held
    | some j =>
      obtain ⟨q, held', _⟩ := h.best j current
      simp [currentId?, currentProcess?, current, held'] at nobody
  · intro unable
    cases current : s.current with
    | none => simp [currentId?, currentProcess?, current]
    | some i =>
      obtain ⟨p, held, schedulable, _⟩ := h.best i current
      have alive := Process.not_isTerminated_of_isSchedulable schedulable
      rw [unable p (ProcessTable.mem_live.2 ⟨i, held, alive⟩)] at schedulable
      cases schedulable

theorem not_moreImportant (h : s.Settled) {p : Process} (holder : s.currentProcess? = some p) :
    p.isSchedulable = true ∧ ∀ q ∈ s.processes.live, q.isSchedulable = true →
      q.priority.isMoreImportantThan p.priority = false := by
  obtain ⟨i, current, held⟩ := currentProcess?_eq_some_iff.1 holder
  obtain ⟨r, held', schedulable, best⟩ := h.best i current
  obtain rfl : p = r := Option.some.inj (held.symm.trans held')
  refine ⟨schedulable, fun q mem able => ?_⟩
  obtain ⟨j, heldj, _⟩ := ProcessTable.mem_live.1 mem
  exact best j q heldj able

theorem schedule_eq_self (h : s.Settled) : s.schedule = s := by
  have decision := decision_schedule s
  generalize s.schedule = t at decision ⊢
  cases decision with
  | keep => rfl
  | @preempt i j p q holder held schedulable waits more first =>
    obtain ⟨r, held', _, best⟩ := h.best i holder
    obtain rfl : p = r := Option.some.inj (held.symm.trans held')
    rw [best j q waits.1 waits.2.1] at more
    cases more
  | @dispatch j q nobody waits first =>
    cases current : s.current with
    | none =>
      have unable := h.idle current j q waits.1
      rw [waits.2.1] at unable
      cases unable
    | some i =>
      obtain ⟨p, held, schedulable, _⟩ := h.best i current
      have holds := holder?_eq_some_iff.2 ⟨⟨i, current, held⟩, schedulable⟩
      simp [nobody] at holds
  | idle nobody empty =>
    cases current : s.current with
    | none =>
      rw [vacate, ← current]
    | some i =>
      obtain ⟨p, held, schedulable, _⟩ := h.best i current
      have holds := holder?_eq_some_iff.2 ⟨⟨i, current, held⟩, schedulable⟩
      simp [nobody] at holds

end Settled

/-- Who could go on loses the processor to the more important only. -/
theorem schedule_current_ne_iff {p : Process} (holder : s.holder? = some p) :
    s.schedule.current ≠ s.current ↔
      ∃ q ∈ s.processes.live, q.isSchedulable = true ∧
        q.priority.isMoreImportantThan p.priority = true := by
  obtain ⟨⟨i, current, held⟩, schedulable⟩ := holder?_eq_some_iff.1 holder
  have decision := decision_schedule s
  generalize s.schedule = t at decision ⊢
  cases decision with
  | @keep i' p' holder' held' _ best =>
    obtain rfl : i = i' := Option.some.inj (current.symm.trans holder')
    obtain rfl : p = p' := Option.some.inj (held.symm.trans held')
    refine ⟨fun changed => absurd rfl changed, ?_⟩
    rintro ⟨q, mem, able, more⟩
    obtain ⟨k, heldk, _⟩ := ProcessTable.mem_live.1 mem
    by_cases waits : s.IsWaiting k q
    · rw [best k q waits] at more
      cases more
    · have at_k := current.symm.trans (holds_of_not_isWaiting heldk able waits)
      obtain rfl : i = k := Option.some.inj at_k
      obtain rfl : p = q := Option.some.inj (held.symm.trans heldk)
      rw [Priority.not_isMoreImportantThan_self] at more
      cases more
  | @preempt i' j p' q holder' held' _ waits more first =>
    obtain rfl : i = i' := Option.some.inj (current.symm.trans holder')
    obtain rfl : p = p' := Option.some.inj (held.symm.trans held')
    have alive := Process.not_isTerminated_of_isSchedulable waits.2.1
    exact ⟨fun _ => ⟨q, ProcessTable.mem_live.2 ⟨j, waits.1, alive⟩, waits.2.1, more⟩,
      fun _ => waits.2.2.symm⟩
  | dispatch nobody => simp [nobody] at holder
  | idle nobody => simp [nobody] at holder

/-- The state in which a systick decides who gets the processor. -/
def beforeDecision (s : Scheduler) : Scheduler := s.advance.chargeCurrent.2.wakeExpired

theorem settled_tick (s : Scheduler) : s.tick.2.Settled := by
  obtain ⟨idle, best⟩ := settled_schedule s.beforeDecision
  exact ⟨idle, best⟩

/-- The processor was given away well by a decision made in `before`. -/
structure WellDecided (before after : Scheduler) : Prop where
  /-- Nobody has it exactly when no live process could use it. -/
  idle_iff : after.currentId? = none ↔ ∀ p ∈ after.processes.live, p.isSchedulable = false
  /-- Who has it can use it, and nobody who could is more important. -/
  best : ∀ p, after.currentProcess? = some p → p.isSchedulable = true ∧
    ∀ q ∈ after.processes.live, q.isSchedulable = true →
      q.priority.isMoreImportantThan p.priority = false
  /-- Who could have gone on has lost it exactly if a more important process could use it. -/
  handed_over_iff : ∀ p, before.holder? = some p → (after.current ≠ before.current ↔
    ∃ q ∈ before.processes.live, q.isSchedulable = true ∧
      q.priority.isMoreImportantThan p.priority = true)
  /-- To decide again makes no difference. -/
  stable : after.schedule = after

theorem Settled.wellDecided {before after : Scheduler} (settled : after.Settled)
    (decided : after.current = before.schedule.current) : WellDecided before after where
  idle_iff := settled.currentId?_eq_none_iff
  best _ holder := settled.not_moreImportant holder
  handed_over_iff _ holder := decided ▸ schedule_current_ne_iff holder
  stable := settled.schedule_eq_self

/-- No priority inversion and no wasted processor time, at any time a decision is asked for and
after every systick, whether it goes well or fails. -/
theorem no_priority_inversion (s : Scheduler) :
    WellDecided s s.schedule ∧ WellDecided s.beforeDecision s.tick.2 :=
  ⟨(settled_schedule s).wellDecided rfl, (settled_tick s).wellDecided rfl⟩

end Scheduler
end SeparationKernel
