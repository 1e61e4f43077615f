import Mathlib
import SeparationKernel.Proofs.Priority
import SeparationKernel.Process.State

/-! Queues for the processor, one for each priority. A scheduler has none, but it has to act as if it
had. -/
namespace SeparationKernel
/-- First-in-first-out queues, and the process that has been taken from its queue to run. -/
@[ext] structure ReadyQueues where
  waiting : Priority → List ProcessId := fun _ => []
  holder : Option (Priority × ProcessId) := none

namespace ReadyQueues

variable {q : ReadyQueues} {p : Priority} {id : ProcessId}

/-- Queues up at the tail, and leaves its old place if it has one. -/
def join (q : ReadyQueues) (p : Priority) (id : ProcessId) : ReadyQueues :=
  { q with waiting := Function.update q.waiting p ((q.waiting p).erase id ++ [id]) }

def leave (q : ReadyQueues) (p : Priority) (id : ProcessId) : ReadyQueues :=
  { q with waiting := Function.update q.waiting p ((q.waiting p).erase id) }

/-- The holder gives the processor up and does not queue for it. -/
def release (q : ReadyQueues) : ReadyQueues := { q with holder := none }

def rotate (q : ReadyQueues) : ReadyQueues :=
  match q.holder with
  | none => q
  | some (p, id) => q.release.join p id

/-- The holder loses the processor and goes back to the head of its queue. -/
def putBack (q : ReadyQueues) : ReadyQueues :=
  match q.holder with
  | none => q
  | some (p, id) =>
    { waiting := Function.update q.waiting p (id :: q.waiting p), holder := none }

def front? (q : ReadyQueues) : Option (Priority × ProcessId) :=
  Priority.all.findSome? fun p => (q.waiting p).head?.map (p, ·)

def give (q : ReadyQueues) : ReadyQueues :=
  match q.front? with
  | none => q
  | some (p, id) =>
    { waiting := Function.update q.waiting p (q.waiting p).tail, holder := some (p, id) }

/-- Who has the processor from now on. The holder keeps it unless a more important queue is not
empty. -/
def elect (q : ReadyQueues) : ReadyQueues :=
  match q.holder with
  | none => q.give
  | some (p, _) => if q.front?.any (·.1.isMoreImportantThan p) then q.putBack.give else q

inductive Event where
  | join (p : Priority) (id : ProcessId)
  | leave (p : Priority) (id : ProcessId)
  | release
  | rotate
  | elect
deriving DecidableEq, Repr

def step (q : ReadyQueues) : Event → ReadyQueues
  | .join p id => q.join p id
  | .leave p id => q.leave p id
  | .release => q.release
  | .rotate => q.rotate
  | .elect => q.elect

theorem front?_eq_none_iff : q.front? = none ↔ ∀ p, q.waiting p = [] := by
  simp [front?, Priority.mem_all]

theorem front?_eq_some (h : q.front? = some (p, id)) :
    (q.waiting p).head? = some id ∧ ∀ r, r.isMoreImportantThan p = true → q.waiting r = [] := by
  obtain ⟨before, r, after, split, found, empty⟩ := List.findSome?_eq_some_iff.1 h
  obtain ⟨id', head, same⟩ := Option.map_eq_some_iff.1 found
  obtain ⟨rfl, rfl⟩ := Prod.mk.inj same
  refine ⟨head, fun u more => ?_⟩
  have sorted := Priority.pairwise_all
  rw [split, List.pairwise_append, List.pairwise_cons] at sorted
  have mem := Priority.mem_all u
  rw [split, List.mem_append, List.mem_cons] at mem
  rcases mem with earlier | rfl | later
  · simpa using empty u earlier
  · simp [Priority.not_isMoreImportantThan_self] at more
  · have less := Priority.not_isMoreImportantThan_of_isMoreImportantThan (sorted.2.1.1 u later)
    simp [less] at more

theorem front?_eq_some_iff :
    q.front? = some (p, id) ↔ (q.waiting p).head? = some id ∧
      ∀ r, r.isMoreImportantThan p = true → q.waiting r = [] := by
  refine ⟨front?_eq_some, ?_⟩
  rintro ⟨head, empty⟩
  cases front : q.front? with
  | none => simp [front?_eq_none_iff.1 front p] at head
  | some c =>
    obtain ⟨r, id'⟩ := c
    obtain ⟨head', empty'⟩ := front?_eq_some front
    have less : p.isMoreImportantThan r = false := by
      by_contra more
      simp [empty' p (by simpa using more)] at head
    have less' : r.isMoreImportantThan p = false := by
      by_contra more
      simp [empty r (by simpa using more)] at head'
    obtain rfl := Priority.eq_of_not_isMoreImportantThan less less'
    rw [Option.some.inj (head.symm.trans head')]

end ReadyQueues
end SeparationKernel
