import Mathlib
import SeparationKernel.Proofs.Scheduler.Course
import SeparationKernel.Proofs.Scheduler.QueueRefinement

/-! Bands: the processes of one priority that can use the processor, in the order in which it comes
to them. Who has the processor is counted in, so a decision changes no band. -/
namespace SeparationKernel
namespace ReadyQueues

variable {q : ReadyQueues} {p r : Priority} {id : ProcessId}

/-- Who has the processor, if it is of the priority, and then the queue. -/
def band (q : ReadyQueues) (r : Priority) : List ProcessId :=
  (q.holder.toList.filter (·.1 == r)).map (·.2) ++ q.waiting r

theorem band_of_vacant (vacant : q.holder = none) (r : Priority) : q.band r = q.waiting r := by
  simp [band, vacant]

theorem band_of_holder (holder : q.holder = some (p, id)) : q.band p = id :: q.waiting p := by
  simp [band, holder]

theorem band_of_holder_ne (holder : q.holder = some (p, id)) (other : p ≠ r) :
    q.band r = q.waiting r := by
  simp [band, holder, other]

theorem band_putBack (q : ReadyQueues) (r : Priority) : q.putBack.band r = q.band r := by
  rw [putBack]
  split
  · rfl
  · rename_i p id holder
    by_cases same : p = r
    · subst r
      rw [band_of_holder holder, band_of_vacant rfl]
      exact Function.update_self _ _ _
    · rw [band_of_holder_ne holder same, band_of_vacant rfl]
      exact Function.update_of_ne (Ne.symm same) _ _

theorem band_give (vacant : q.holder = none) (r : Priority) : q.give.band r = q.band r := by
  rw [give]
  split
  · rfl
  · rename_i p id front
    have head := (front?_eq_some front).1
    rw [band_of_vacant vacant]
    by_cases same : p = r
    · subst r
      rw [band_of_holder rfl]
      simp only [Function.update_self]
      exact List.cons_head?_tail head
    · rw [band_of_holder_ne rfl same]
      exact Function.update_of_ne (Ne.symm same) _ _

/-- Who loses the processor stays ahead of its queue, and who gets it was at its head. -/
theorem band_elect (q : ReadyQueues) (r : Priority) : q.elect.band r = q.band r := by
  have vacated : q.putBack.holder = none := by
    rw [putBack]
    split
    · assumption
    · rfl
  rw [elect]
  split
  · rename_i vacant
    exact band_give vacant r
  · split
    · rw [band_give vacated, band_putBack]
    · rfl

theorem band_join (absent : id ∉ q.waiting p) (r : Priority) :
    (q.join p id).band r = q.band r ++ if p = r then [id] else [] := by
  by_cases same : p = r
  · subst r
    simp [band, join, List.erase_of_not_mem absent]
  · simp [band, join, same, Function.update_of_ne (Ne.symm same)]

theorem band_rotate (holder : q.holder = some (p, id)) (absent : id ∉ q.waiting p) (r : Priority) :
    q.rotate.band r = if p = r then q.waiting p ++ [id] else q.band r := by
  have rotated : q.rotate = q.release.join p id := by
    rw [rotate, holder]
  have released : id ∉ q.release.waiting p := absent
  rw [rotated, band_join released, band_of_vacant rfl]
  by_cases same : p = r
  · subst r
    simp [release]
  · simp [same, band_of_holder_ne holder same, release]

theorem band_joins {xs : List Process} (nodup : (xs.map (·.id)).Nodup)
    (absent : ∀ x ∈ xs, ∀ r, x.id ∉ q.waiting r) (r : Priority) :
    ((xs.map fun x => Event.join x.priority x.id).foldl step q).band r =
      q.band r ++ (xs.filter (·.priority == r)).map (·.id) := by
  induction xs generalizing q with
  | nil => simp
  | cons x xs ih =>
    rw [List.map_cons, List.nodup_cons] at nodup
    have first : x.id ∉ q.waiting x.priority := absent x (by simp) _
    have later : ∀ y ∈ xs, ∀ u, y.id ∉ (q.join x.priority x.id).waiting u := by
      intro y mem u joined
      have other : y.id ≠ x.id := fun same => nodup.1 (same ▸ List.mem_map_of_mem mem)
      have new := absent y (List.mem_cons_of_mem _ mem)
      by_cases same : u = x.priority
      · subst u
        simp [join, List.erase_of_not_mem first, other, new] at joined
      · simp [join, Function.update_of_ne same, new] at joined
    rw [List.map_cons, List.foldl_cons, step, ih nodup.2 later, band_join first, List.append_assoc]
    by_cases same : x.priority = r <;> simp [same]

end ReadyQueues

namespace Scheduler

variable {s : Scheduler} {i : Nat} {p : Process} {r : Priority}

/-- Those of a priority that can use the processor, in the order in which it comes to them. -/
def band (s : Scheduler) (r : Priority) : List ProcessId := s.queues.band r

/-- Those of a priority whose time limits run out with the next systick, in slot order. -/
def woken (s : Scheduler) (r : Priority) : List ProcessId :=
  (((s.processes.due s.now.next).map (·.2)).filter (·.priority == r)).map (·.id)

theorem band_of_holder (holder : s.current = some i) (held : s.processes.get? i = some p) :
    s.band p.priority = p.id :: s.queue p.priority :=
  ReadyQueues.band_of_holder (holding_of_holder holder held)

theorem queue_subset_band (s : Scheduler) (r : Priority) : s.queue r ⊆ s.band r :=
  List.subset_append_right _ _

theorem mem_band (h : s.Consistent) {id : ProcessId} :
    id ∈ s.band r ↔
      ∃ i p, s.processes.get? i = some p ∧ p.isSchedulable = true ∧ p.priority = r ∧ p.id = id := by
  constructor
  · intro mem
    rcases List.mem_append.1 mem with first | waits
    · obtain ⟨⟨u, id'⟩, holds, rfl⟩ := List.mem_map.1 first
      obtain ⟨holds, same⟩ := List.mem_filter.1 holds
      obtain ⟨p, current, pair⟩ := Option.map_eq_some_iff.1 (Option.mem_toList.1 holds)
      obtain ⟨rfl, rfl⟩ := Prod.mk.inj pair
      obtain ⟨i, holder, held⟩ := currentProcess?_eq_some_iff.1 current
      exact ⟨i, p, held, h.alive_of_holder holder held, beq_iff_eq.1 same, rfl⟩
    · obtain ⟨i, p, ⟨held, able, _⟩, same, named⟩ := mem_queue.1 waits
      exact ⟨i, p, held, able, same, named⟩
  · rintro ⟨i, p, held, able, rfl, rfl⟩
    by_cases holder : s.current = some i
    · rw [band_of_holder holder held]
      exact List.mem_cons_self
    · exact queue_subset_band s _ (mem_queue.2 ⟨i, p, ⟨held, able, holder⟩, rfl, rfl⟩)

theorem currentId?_of_band (h : s.Consistent) (settled : s.Settled) {id : ProcessId}
    {ids : List ProcessId} (band : s.band r = id :: ids)
    (foremost : ∀ u, u.isMoreImportantThan r = true → s.band u = []) : s.currentId? = some id := by
  have first : id ∈ s.band r := band ▸ List.mem_cons_self
  obtain ⟨j, q, held, able, same, _⟩ := (mem_band h).1 first
  have live : q ∈ s.processes.live :=
    ProcessTable.mem_live.2 ⟨j, held, Process.not_isTerminated_of_isSchedulable able⟩
  cases current : s.currentProcess? with
  | none =>
    have nobody : s.currentId? = none := by rw [currentId?, current, Option.map_none]
    rw [settled.currentId?_eq_none_iff.1 nobody q live] at able
    cases able
  | some p =>
    obtain ⟨i, holder, held'⟩ := currentProcess?_eq_some_iff.1 current
    have members := band_of_holder holder held'
    have less : p.priority.isMoreImportantThan r = false := by
      by_contra more
      rw [foremost _ (by simpa using more)] at members
      cases members
    have less' := (settled.not_moreImportant current).2 q live able
    rw [same] at less'
    obtain rfl := Priority.eq_of_not_isMoreImportantThan less' less
    rw [currentId?, current, Option.map_some, (List.cons.inj (members.symm.trans band)).1]

theorem nodup_map_id_due (h : s.Consistent) (now : Timestamp) :
    (((s.processes.due now).map (·.2)).map (·.id)).Nodup := by
  have slots : (((s.processes.due now).map (·.2)).map (·.id)).map (·.index) =
      (s.processes.due now).map (·.1) := by
    rw [List.map_map, List.map_map]
    refine List.map_congr_left fun ⟨i, p⟩ mem => ?_
    exact (h.named i p (ProcessTable.mem_due.1 mem).1).1
  exact List.Nodup.of_map (·.index) (slots ▸ s.processes.nodup_due now)

theorem band_tick (h : s.Consistent) (r : Priority) :
    s.tick.2.band r =
      (s.chargeEvents.foldl ReadyQueues.step s.queues).band r ++ s.woken r := by
  have charged : s.advance.chargeCurrent.2.queues =
      s.chargeEvents.foldl ReadyQueues.step s.queues :=
    queues_chargeCurrent (consistent_advance h)
  have asleep : ∀ x ∈ (s.processes.due s.now.next).map (·.2), ∀ u,
      x.id ∉ (s.chargeEvents.foldl ReadyQueues.step s.queues).waiting u := by
    intro x mem u waits
    obtain ⟨⟨i, p⟩, due, rfl⟩ := List.mem_map.1 mem
    obtain ⟨held, come⟩ := ProcessTable.mem_due.1 due
    have blocked := isBlocked_of_isDue (consistent_advance h) held come
    have idle : s.advance.current ≠ some i := h.not_current_of_isBlocked held blocked
    have kept : s.advance.chargeCurrent.2.processes.get? i = some p :=
      (get?_chargeCurrent_of_ne idle).trans held
    rw [← charged, waiting_queues] at waits
    have waiting := (eq_of_mem_queue (consistent_charged h) kept waits (h.named i p held).1).2.1
    simpa [Process.not_isSchedulable_of_isBlocked blocked] using waiting.2.1
  have events : s.wakeEvents s.now.next =
      ((s.processes.due s.now.next).map (·.2)).map fun x => .join x.priority x.id := by
    rw [wakeEvents, List.map_map]
    rfl
  rw [band, queues_tick h, List.foldl_append, List.foldl_append, List.foldl_cons, List.foldl_nil,
    ReadyQueues.step, ReadyQueues.band_elect, events,
    ReadyQueues.band_joins (nodup_map_id_due h _) asleep]
  rfl

theorem not_mem_queue_of_holder (h : s.Consistent) (holder : s.current = some i)
    (held : s.processes.get? i = some p) (r : Priority) : p.id ∉ s.queue r := by
  intro mem
  exact (eq_of_mem_queue h held mem (h.named i p held).1).2.1.2.2 holder

theorem nodup_band (h : s.Consistent) (r : Priority) : (s.band r).Nodup := by
  cases current : s.currentProcess? with
  | none =>
    have vacant : s.queues.holder = none := by rw [holder_queues, holding, current, Option.map_none]
    rw [band, ReadyQueues.band_of_vacant vacant]
    exact nodup_queue h r
  | some p =>
    obtain ⟨i, holder, held⟩ := currentProcess?_eq_some_iff.1 current
    by_cases same : p.priority = r
    · rw [← same, band_of_holder holder held]
      exact List.nodup_cons.2 ⟨not_mem_queue_of_holder h holder held _, nodup_queue h _⟩
    · rw [band, ReadyQueues.band_of_holder_ne (holding_of_holder holder held) same]
      exact nodup_queue h r

theorem chargeEvents_eq (holder : s.current = some i) (held : s.processes.get? i = some p) :
    s.chargeEvents = match p.charge with
      | .goesOn _ => []
      | .quantumExpired => [.rotate]
      | .cleanupOverrun => [.release] := by
  rw [chargeEvents, currentProcess?_eq_some_iff.2 ⟨i, holder, held⟩, Option.map_some]
  cases p.charge <;> rfl

/-- A systick that is not the last of its quantum leaves the holder ahead of its band. -/
theorem band_tick_of_goesOn (h : s.Consistent) (holder : s.current = some i)
    (held : s.processes.get? i = some p) {q : Process} (goesOn : p.charge = .goesOn q)
    (r : Priority) : s.tick.2.band r = s.band r ++ s.woken r := by
  rw [band_tick h, chargeEvents_eq holder held, goesOn]
  rfl

/-- The last systick of its quantum puts the holder at the back of its band. Whoever wakes up at the
same time comes after it. -/
theorem band_tick_of_quantumExpired (h : s.Consistent) (holder : s.current = some i)
    (held : s.processes.get? i = some p) (expired : p.charge = .quantumExpired) (r : Priority) :
    s.tick.2.band r =
      (if p.priority = r then s.queue p.priority ++ [p.id] else s.band r) ++ s.woken r := by
  have rotated := ReadyQueues.band_rotate (q := s.queues) (holding_of_holder holder held)
    (not_mem_queue_of_holder h holder held p.priority) r
  rw [band_tick h, chargeEvents_eq holder held, expired]
  exact congrArg (· ++ s.woken r) rotated

end Scheduler
end SeparationKernel
