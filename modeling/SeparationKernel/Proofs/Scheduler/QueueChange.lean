import Mathlib
import SeparationKernel.Proofs.Scheduler.Queue

/-! What a change of one process does to the queues. -/
namespace SeparationKernel
namespace Scheduler

variable {s t : Scheduler} {i : Nat} {p q : Process}

theorem not_isWaiting_of_holder (holder : s.current = some i) : ¬ s.IsWaiting i p :=
  fun waits => waits.2.2 holder

theorem not_isWaiting_of_not_isSchedulable (held : s.processes.get? i = some p)
    (unable : p.isSchedulable = false) : ¬ s.IsWaiting i q := by
  rintro ⟨held', able, _⟩
  obtain rfl : p = q := Option.some.inj (held.symm.trans held')
  rw [unable] at able
  cases able

theorem eq_of_isWaiting (held : s.processes.get? i = some p) (waits : s.IsWaiting i q) : q = p :=
  Option.some.inj (waits.1.symm.trans held)

theorem holding_of_holder (holder : s.current = some i) (held : s.processes.get? i = some p) :
    s.holding = some (p.priority, p.id) := by
  simp [holding, currentProcess?, holder, held]

theorem holding_of_vacant (vacant : s.current = none) : s.holding = none := by
  simp [holding, currentProcess?, vacant]

namespace AgreeExcept

theorem holding_eq (a : AgreeExcept s t i) (other : s.current ≠ some i)
    (same : t.current = s.current) : t.holding = s.holding := by
  cases current : s.current with
  | none => rw [holding_of_vacant current, holding_of_vacant (same.trans current)]
  | some j =>
    have away : j ≠ i := by
      rintro rfl
      exact other current
    simp [holding, currentProcess?, same, current, a.get? j away]

theorem queue_eq (a : AgreeExcept s t i) (h : s.Consistent) (h' : t.Consistent)
    (before : ∀ p, ¬ s.IsWaiting i p) (after : ∀ p, ¬ t.IsWaiting i p) (r : Priority) :
    t.queue r = s.queue r := by
  rw [queue_eq_others h' fun p waits => absurd waits (after p), a.others_eq h h',
    ← queue_eq_others h fun p waits => absurd waits (before p)]

/-- A process that has a new place is at the tail of its queue, and nowhere else. -/
theorem queue_join (a : AgreeExcept s t i) (h : s.Consistent) (h' : t.Consistent)
    (waits : t.IsWaiting i q) (new : s.nextPlace ≤ q.queuedAt)
    (before : ∀ p, s.IsWaiting i p → p.id = q.id ∧ p.priority = q.priority) :
    t.queue = Function.update s.queue q.priority ((s.queue q.priority).erase q.id ++ [q.id]) := by
  funext r
  by_cases same : r = q.priority
  · subst r
    have last : ∀ j u, j ≠ i → t.processes.get? j = some u → u.queuedAt < q.queuedAt := by
      intro j u other held
      rw [a.get? j other] at held
      exact Nat.lt_of_lt_of_le (h.place_lt j u held) new
    rw [Function.update_self, queue_eq_append h' waits last, a.others_eq h h',
      others_eq_erase h (h'.named i q waits.1).1 fun p waits' => (before p waits').1]
  · have absent : ∀ p, t.IsWaiting i p → p.priority ≠ r := by
      intro p waits'
      rw [eq_of_isWaiting waits.1 waits']
      exact fun e => same e.symm
    have absent' : ∀ p, s.IsWaiting i p → p.priority ≠ r := by
      intro p waits'
      rw [(before p waits').2]
      exact fun e => same e.symm
    rw [Function.update_of_ne same, queue_eq_others h' absent, a.others_eq h h',
      ← queue_eq_others h absent']

theorem queue_leave (a : AgreeExcept s t i) (h : s.Consistent) (h' : t.Consistent)
    (waits : s.IsWaiting i p) (after : ∀ q, ¬ t.IsWaiting i q) :
    t.queue = Function.update s.queue p.priority ((s.queue p.priority).erase p.id) := by
  funext r
  rw [queue_eq_others h' fun q waits' => absurd waits' (after q), a.others_eq h h']
  by_cases same : r = p.priority
  · subst r
    rw [Function.update_self, others_eq_erase h (h.named i p waits.1).1]
    intro q waits'
    rw [eq_of_isWaiting waits.1 waits']
  · have absent : ∀ q, s.IsWaiting i q → q.priority ≠ r := by
      intro q waits'
      rw [eq_of_isWaiting waits.1 waits']
      exact fun e => same e.symm
    rw [Function.update_of_ne same, ← queue_eq_others h absent]

theorem queue_pop (a : AgreeExcept s t i) (h : s.Consistent) (h' : t.Consistent)
    (waits : s.IsWaiting i p) (after : ∀ q, ¬ t.IsWaiting i q)
    (first : ∀ j u, s.IsWaiting j u → u.priority = p.priority → p.queuedAt ≤ u.queuedAt) :
    s.queue p.priority = p.id :: t.queue p.priority ∧
      ∀ r, r ≠ p.priority → t.queue r = s.queue r := by
  refine ⟨?_, fun r other => ?_⟩
  · rw [queue_eq_cons h waits first, queue_eq_others h' fun q waits' => absurd waits' (after q),
      a.others_eq h h']
  · rw [a.queue_leave h h' waits after, Function.update_of_ne other]

end AgreeExcept

namespace Change

theorem isWaiting (c : Change s t i p q) (able : q.isSchedulable = true)
    (other : t.current ≠ some i) : t.IsWaiting i q :=
  ⟨c.get?_self, able, other⟩

theorem queue_join (c : Change s t i p q) (h : s.Consistent) (h' : t.Consistent)
    (waits : t.IsWaiting i q) (new : s.nextPlace ≤ q.queuedAt) :
    t.queue = Function.update s.queue p.priority ((s.queue p.priority).erase p.id ++ [p.id]) := by
  rw [← c.priority, ← c.id]
  refine c.agreeExcept.queue_join h h' waits new fun u waits' => ?_
  rw [eq_of_isWaiting c.held waits', c.id, c.priority]
  exact ⟨rfl, rfl⟩

theorem queues_join (c : Change s t i p q) (h : s.Consistent) (h' : t.Consistent)
    (other : s.current ≠ some i) (same : t.current = s.current) (able : q.isSchedulable = true)
    (new : s.nextPlace ≤ q.queuedAt) : t.queues = s.queues.join p.priority p.id := by
  apply ReadyQueues.ext
  · exact c.queue_join h h' (c.isWaiting able (same ▸ other)) new
  · exact c.agreeExcept.holding_eq other same

theorem queues_rotate (c : Change s t i p q) (h : s.Consistent) (h' : t.Consistent)
    (holder : s.current = some i) (vacant : t.current = none) (able : q.isSchedulable = true)
    (new : s.nextPlace ≤ q.queuedAt) : t.queues = s.queues.rotate := by
  have holding := holding_of_holder holder c.held
  rw [ReadyQueues.rotate, holder_queues, holding]
  apply ReadyQueues.ext
  · exact c.queue_join h h' (c.isWaiting able (by simp [vacant])) new
  · exact holding_of_vacant vacant

theorem queues_leave (c : Change s t i p q) (h : s.Consistent) (h' : t.Consistent)
    (waits : s.IsWaiting i p) (same : t.current = s.current) (unable : q.isSchedulable = false) :
    t.queues = s.queues.leave p.priority p.id := by
  apply ReadyQueues.ext
  · exact c.agreeExcept.queue_leave h h' waits fun u =>
      not_isWaiting_of_not_isSchedulable c.get?_self unable
  · exact c.agreeExcept.holding_eq waits.2.2 same

theorem queues_release (c : Change s t i p q) (h : s.Consistent) (h' : t.Consistent)
    (holder : s.current = some i) (vacant : t.current = none) (unable : q.isSchedulable = false) :
    t.queues = s.queues.release := by
  apply ReadyQueues.ext
  · funext r
    exact c.agreeExcept.queue_eq h h' (fun u => not_isWaiting_of_holder holder)
      (fun u => not_isWaiting_of_not_isSchedulable c.get?_self unable) r
  · exact holding_of_vacant vacant

/-- What happens to who has the processor and keeps it concerns no queue. -/
theorem queues_eq (c : Change s t i p q) (h : s.Consistent) (h' : t.Consistent)
    (holder : s.current = some i) (same : t.current = s.current) : t.queues = s.queues := by
  have holder' : t.current = some i := same.trans holder
  apply ReadyQueues.ext
  · funext r
    exact c.agreeExcept.queue_eq h h' (fun u => not_isWaiting_of_holder holder)
      (fun u => not_isWaiting_of_holder holder') r
  · show t.holding = s.holding
    rw [holding_of_holder holder c.held, holding_of_holder holder' c.get?_self, c.priority, c.id]

/-- A process that keeps its place, which is the smallest at its priority, goes back to the head. -/
theorem queues_putBack (c : Change s t i p q) (h : s.Consistent) (h' : t.Consistent)
    (holder : s.current = some i) (vacant : t.current = none) (able : q.isSchedulable = true)
    (first : ∀ j u, t.IsWaiting j u → u.priority = q.priority → q.queuedAt ≤ u.queuedAt) :
    t.queues = s.queues.putBack := by
  have holding := holding_of_holder holder c.held
  obtain ⟨head, others⟩ := c.agreeExcept.symm.queue_pop h' h
    (c.isWaiting able (by simp [vacant])) (fun u => not_isWaiting_of_holder holder) first
  rw [c.priority, c.id] at head
  rw [ReadyQueues.putBack, holder_queues, holding]
  apply ReadyQueues.ext
  · funext r
    by_cases same : r = p.priority
    · subst r
      simpa using head
    · have kept : s.queue r = t.queue r := others r (c.priority ▸ same)
      simpa [Function.update_of_ne same] using kept.symm
  · exact holding_of_vacant vacant

theorem queues_give (c : Change s t i p q) (h : s.Consistent) (h' : t.Consistent)
    (waits : s.IsWaiting i p) (holder : t.current = some i)
    (first : ∀ j u, s.IsWaiting j u → u.priority = p.priority → p.queuedAt ≤ u.queuedAt)
    (front : s.queues.front? = some (p.priority, p.id)) : t.queues = s.queues.give := by
  obtain ⟨head, others⟩ := c.agreeExcept.queue_pop h h' waits
    (fun u => not_isWaiting_of_holder holder) first
  rw [ReadyQueues.give, front]
  apply ReadyQueues.ext
  · funext r
    by_cases same : r = p.priority
    · subst r
      simp [head]
    · simpa [Function.update_of_ne same] using others r same
  · show t.holding = some (p.priority, p.id)
    rw [holding_of_holder holder c.get?_self, c.priority, c.id]

end Change
end Scheduler
end SeparationKernel
