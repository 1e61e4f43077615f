import Mathlib
import SeparationKernel.Proofs.Scheduler.Consistency
import SeparationKernel.Proofs.Scheduler.Election
import SeparationKernel.Proofs.Scheduler.ReadyQueues

/-! The queues that the places of processes stand for. A place is a number only: how the queues
change is read off from where in its queue the one process that changes ends up. -/
namespace SeparationKernel
namespace Scheduler

def waitingAt (s : Scheduler) (p : Priority) : List (Nat × Process) :=
  s.processes.occupied.filter fun (i, q) =>
    q.isSchedulable && s.current != some i && q.priority == p

def isPlacedBefore (x y : Nat × Process) : Bool := decide (x.2.queuedAt ≤ y.2.queuedAt)

/-- Those who wait for the processor at a priority, by their places. -/
def queue (s : Scheduler) (p : Priority) : List ProcessId :=
  ((s.waitingAt p).mergeSort isPlacedBefore).map (·.2.id)

def holding (s : Scheduler) : Option (Priority × ProcessId) :=
  s.currentProcess?.map fun p => (p.priority, p.id)

def queues (s : Scheduler) : ReadyQueues where
  waiting := s.queue
  holder := s.holding

@[simp] theorem waiting_queues (s : Scheduler) : s.queues.waiting = s.queue := rfl

@[simp] theorem holder_queues (s : Scheduler) : s.queues.holder = s.holding := rfl

def placeOf (s : Scheduler) (id : ProcessId) : Nat :=
  ((s.processes.find? id).map (·.queuedAt)).getD 0

variable {s t : Scheduler} {i : Nat} {p : Process} {r : Priority} {id : ProcessId}

theorem mem_waitingAt : (i, p) ∈ s.waitingAt r ↔ s.IsWaiting i p ∧ p.priority = r := by
  simp [waitingAt, IsWaiting, List.mem_filter, ProcessTable.mem_occupied, and_assoc]

theorem mem_queue : id ∈ s.queue r ↔ ∃ i p, s.IsWaiting i p ∧ p.priority = r ∧ p.id = id := by
  simp only [queue, List.mem_map, List.mem_mergeSort, Prod.exists, mem_waitingAt, and_assoc]

theorem placeOf_eq (h : s.Consistent) (held : s.processes.get? i = some p) :
    s.placeOf p.id = p.queuedAt := by
  have named := (h.named i p held).1
  simp [placeOf, ProcessTable.find?, named, held, Option.filter]

theorem eq_of_mem_queue (h : s.Consistent) (held : s.processes.get? i = some p)
    (mem : id ∈ s.queue r) (index : id.index = i) :
    p.id = id ∧ s.IsWaiting i p ∧ p.priority = r := by
  obtain ⟨j, q, waits, priority, rfl⟩ := mem_queue.1 mem
  have named := (h.named j q waits.1).1
  obtain rfl : j = i := named.symm.trans index
  obtain rfl : q = p := Option.some.inj (waits.1.symm.trans held)
  exact ⟨rfl, waits, priority⟩

theorem pairwise_queue (h : s.Consistent) (r : Priority) :
    (s.queue r).Pairwise fun a b => s.placeOf a < s.placeOf b := by
  have slots : (s.waitingAt r).Pairwise fun x y => x.1 ≠ y.1 :=
    (s.processes.pairwise_occupied.filter _).imp fun lt => Nat.ne_of_lt lt
  have sorted : ((s.waitingAt r).mergeSort isPlacedBefore).Pairwise fun x y =>
      isPlacedBefore x y = true := by
    apply List.pairwise_mergeSort
    · intro a b c
      simpa [isPlacedBefore] using Nat.le_trans
    · intro a b
      simpa [isPlacedBefore] using Nat.le_total _ _
  have apart := (List.mergeSort_perm (s.waitingAt r) isPlacedBefore).symm.pairwise slots
    fun ne => ne.symm
  rw [queue, List.pairwise_map]
  refine (sorted.and apart).imp_of_mem ?_
  rintro ⟨j, u⟩ ⟨k, v⟩ mem mem' ⟨le, ne⟩
  have held := (mem_waitingAt.1 (List.mem_mergeSort.1 mem)).1.1
  have held' := (mem_waitingAt.1 (List.mem_mergeSort.1 mem')).1.1
  simp only [isPlacedBefore, decide_eq_true_eq] at le
  rw [placeOf_eq h held, placeOf_eq h held']
  refine Nat.lt_of_le_of_ne le fun same => ne ?_
  exact h.place_inj j k u v held held' same

theorem nodup_queue (h : s.Consistent) (r : Priority) : (s.queue r).Nodup :=
  (pairwise_queue h r).imp fun lt => by
    rintro rfl
    exact Nat.lt_irrefl _ lt

def others (s : Scheduler) (i : Nat) (r : Priority) : List ProcessId :=
  (s.queue r).filter (·.index ≠ i)

theorem mem_others : id ∈ s.others i r ↔ id ∈ s.queue r ∧ id.index ≠ i := by
  simp [others]

theorem pairwise_others (h : s.Consistent) (i : Nat) (r : Priority) :
    (s.others i r).Pairwise fun a b => s.placeOf a < s.placeOf b :=
  (pairwise_queue h r).filter _

theorem queue_eq_others (h : s.Consistent) (absent : ∀ p, s.IsWaiting i p → p.priority ≠ r) :
    s.queue r = s.others i r := by
  symm
  rw [others, List.filter_eq_self]
  intro id mem
  obtain ⟨j, q, waits, priority, rfl⟩ := mem_queue.1 mem
  have named := (h.named j q waits.1).1
  have other : j ≠ i := by
    rintro rfl
    exact absent q waits priority
  simpa [named] using other

theorem mem_queue_iff_of_isWaiting (h : s.Consistent) (waits : s.IsWaiting i p) :
    id ∈ s.queue p.priority ↔ id = p.id ∨ id ∈ s.others i p.priority := by
  have index := (h.named i p waits.1).1
  rw [mem_others]
  constructor
  · intro mem
    by_cases same : id.index = i
    · exact Or.inl (eq_of_mem_queue h waits.1 mem same).1.symm
    · exact Or.inr ⟨mem, same⟩
  · rintro (rfl | ⟨mem, _⟩)
    · exact mem_queue.2 ⟨i, p, waits, rfl, rfl⟩
    · exact mem

theorem exists_of_mem_others (h : s.Consistent) (mem : id ∈ s.others i r) :
    ∃ j q, j ≠ i ∧ s.IsWaiting j q ∧ q.priority = r ∧ s.placeOf id = q.queuedAt := by
  obtain ⟨mem, other⟩ := mem_others.1 mem
  obtain ⟨j, q, waits, priority, rfl⟩ := mem_queue.1 mem
  rw [(h.named j q waits.1).1] at other
  exact ⟨j, q, other, waits, priority, placeOf_eq h waits.1⟩

/-- Who has the largest place is at the tail. -/
theorem queue_eq_append (h : s.Consistent) (waits : s.IsWaiting i p)
    (last : ∀ j q, j ≠ i → s.processes.get? j = some q → q.queuedAt < p.queuedAt) :
    s.queue p.priority = s.others i p.priority ++ [p.id] := by
  refine eq_of_pairwise_lt (pairwise_queue h _) ?_ fun id => ?_
  · rw [List.pairwise_append]
    refine ⟨pairwise_others h i _, List.pairwise_singleton _ _, fun a mem b tail => ?_⟩
    obtain rfl := List.mem_singleton.1 tail
    obtain ⟨j, q, other, waits', _, place⟩ := exists_of_mem_others h mem
    rw [place, placeOf_eq h waits.1]
    exact last j q other waits'.1
  · rw [mem_queue_iff_of_isWaiting h waits, List.mem_append, List.mem_singleton, or_comm]

/-- Who has the smallest place is at the head. -/
theorem queue_eq_cons (h : s.Consistent) (waits : s.IsWaiting i p)
    (first : ∀ j q, s.IsWaiting j q → q.priority = p.priority → p.queuedAt ≤ q.queuedAt) :
    s.queue p.priority = p.id :: s.others i p.priority := by
  refine eq_of_pairwise_lt (pairwise_queue h _) ?_ fun id => ?_
  · rw [List.pairwise_cons]
    refine ⟨fun b mem => ?_, pairwise_others h i _⟩
    obtain ⟨j, q, other, waits', priority, place⟩ := exists_of_mem_others h mem
    rw [place, placeOf_eq h waits.1]
    refine Nat.lt_of_le_of_ne (first j q waits' priority) fun same => other ?_
    exact h.place_inj j i q p waits'.1 waits.1 same.symm
  · rw [mem_queue_iff_of_isWaiting h waits, List.mem_cons]

theorem others_eq_erase (h : s.Consistent) (index : id.index = i)
    (same : ∀ p, s.IsWaiting i p → p.id = id) : s.others i r = (s.queue r).erase id := by
  rw [(nodup_queue h r).erase_eq_filter, others]
  refine List.filter_congr fun a mem => ?_
  obtain ⟨j, q, waits, _, rfl⟩ := mem_queue.1 mem
  have named := (h.named j q waits.1).1
  by_cases at_i : j = i
  · rw [at_i] at named waits
    simp [index, same q waits]
  · have other : q.id ≠ id := by
      rintro rfl
      exact at_i (named.symm.trans index)
    simp [named, at_i, other]

namespace AgreeExcept

theorem isWaiting (a : AgreeExcept s t i) {j : Nat} (other : j ≠ i) :
    t.IsWaiting j p ↔ s.IsWaiting j p := by
  rw [IsWaiting, IsWaiting, a.get? j other, Ne, Ne, a.holder j other]

theorem placeOf (a : AgreeExcept s t i) (other : id.index ≠ i) : t.placeOf id = s.placeOf id := by
  simp [Scheduler.placeOf, ProcessTable.find?, a.get? _ other]

theorem others_eq (a : AgreeExcept s t i) (h : s.Consistent) (h' : t.Consistent) (r : Priority) :
    t.others i r = s.others i r := by
  have sorted : (t.others i r).Pairwise fun x y => s.placeOf x < s.placeOf y := by
    refine (pairwise_others h' i r).imp_of_mem fun {x y} mem mem' lt => ?_
    rwa [a.placeOf (mem_others.1 mem).2, a.placeOf (mem_others.1 mem').2] at lt
  refine eq_of_pairwise_lt sorted (pairwise_others h i r) fun id => ?_
  rw [mem_others, mem_others, mem_queue, mem_queue]
  constructor
  · rintro ⟨⟨j, q, waits, priority, rfl⟩, other⟩
    rw [(h'.named j q waits.1).1] at other
    have named := (h'.named j q waits.1).1
    exact ⟨⟨j, q, (a.isWaiting other).1 waits, priority, rfl⟩, named ▸ other⟩
  · rintro ⟨⟨j, q, waits, priority, rfl⟩, other⟩
    rw [(h.named j q waits.1).1] at other
    have named := (h.named j q waits.1).1
    exact ⟨⟨j, q, (a.isWaiting other).2 waits, priority, rfl⟩, named ▸ other⟩

end AgreeExcept
end Scheduler
end SeparationKernel
