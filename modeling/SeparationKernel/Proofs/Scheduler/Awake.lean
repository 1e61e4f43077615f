import Mathlib
import SeparationKernel.Proofs.Scheduler.Ticks

/-! Systicks with no request between them when nobody is blocked at their beginning. Nobody will be,
so that the processor is in use until all processes have terminated. -/
namespace SeparationKernel
namespace Process

/-- The process of the same application later on, when nothing has blocked it or asked it to
terminate since. -/
structure StaysAwake (p q : Process) : Prop where
  asid : q.asid = p.asid
  awake : p.isBlocked = false → q.isBlocked = false
  able : p.CanRun → q.CanRun

variable {p q r : Process}

theorem StaysAwake.trans (first : StaysAwake p q) (second : StaysAwake q r) : StaysAwake p r where
  asid := second.asid.trans first.asid
  awake := second.awake ∘ first.awake
  able := second.able ∘ first.able

theorem isBlocked_settle (p : Process) (chosen : Bool) :
    (p.settle chosen).isBlocked = p.isBlocked := by
  rcases p with ⟨_, _, _, (_ | _ | _) | _ | _, _, _, _⟩ <;> cases chosen <;> rfl

theorem staysAwake_settle (p : Process) (chosen : Bool) : p.StaysAwake (p.settle chosen) where
  asid := (p.sameAs_settle chosen).asid
  awake := (p.isBlocked_settle chosen).trans
  able able := able.settle chosen

theorem isBlocked_elapse (awake : p.isBlocked = false) (holds : Bool) (now : Timestamp)
    (place : Nat) : (p.elapse holds now place).isBlocked = false := by
  rw [elapse]
  split
  · rw [charged]
    split
    · rename_i left goesOn
      rcases charge_goesOn goesOn with ⟨_, _, rfl⟩ | ⟨_, _, _, rfl⟩ | ⟨_, _, rfl⟩
      · exact awake
      · rfl
      · exact awake
    · rfl
    · rfl
  · split
    · rfl
    · exact awake

theorem staysAwake_elapse (p : Process) (holds : Bool) (now : Timestamp) (place : Nat) :
    p.StaysAwake (p.elapse holds now place) where
  asid := (p.sameAs_elapse holds now place).asid
  awake awake := isBlocked_elapse awake holds now place
  able able := able.elapse holds now place

theorem isSchedulable_of_awake (awake : p.isBlocked = false) (alive : p.isTerminated = false) :
    p.isSchedulable = true := by
  rcases p with ⟨_, _, _, (_ | _ | _) | _ | _, _, _, _⟩ <;>
    simp_all [isBlocked, isTerminated, ProcessState.isTerminated, isSchedulable,
      ProcessState.isSchedulable]

end Process

namespace Scheduler

variable {s t : Scheduler} {started condemned : List Asid} {n : Nat}

/-- Nobody holds the processor after a systick only if nobody could use it. -/
theorem currentProcess?_tick_eq_none_iff (s : Scheduler) :
    s.tick.2.currentProcess? = none ↔ s.tick.2.isIdle = true := by
  have used := currentId?_tick s
  rw [currentId?, Option.isSome_map] at used
  cases holder : s.tick.2.currentProcess? <;> simpa [holder] using used

/-- The application has had a process, and none of its processes lives on. -/
def HasEnded (s : Scheduler) (a : Asid) : Prop :=
  (∃ i p, s.processes.get? i = some p ∧ p.asid = a) ∧
    ∀ i p, s.processes.get? i = some p → p.asid = a → p.isTerminated = true

/-- The processes, which are those of the applications `started`, are not blocked, and whoever is
not of `condemned` can run. -/
structure Awake (s : Scheduler) (started condemned : List Asid) : Prop where
  consistent : s.Consistent
  asid : ∀ i, (s.processes.get? i).map (·.asid) = started[i]?
  awake : ∀ i p, s.processes.get? i = some p → p.isBlocked = false
  healthy : ∀ i p, s.processes.get? i = some p → p.asid ∉ condemned → p.CanRun

namespace Awake

theorem of_map (h : s.Awake started condemned) (consistent : t.Consistent)
    (kept : ∀ i, ∃ f : Process → Process,
      t.processes.get? i = (s.processes.get? i).map f ∧ ∀ p, Process.StaysAwake p (f p)) :
    t.Awake started condemned := by
  refine ⟨consistent, fun i => ?_, fun i p held => ?_, fun i p held spared => ?_⟩
  · obtain ⟨f, map, stays⟩ := kept i
    rw [map, ← h.asid i, Option.map_map]
    exact Option.map_congr fun p _ => (stays p).asid
  · obtain ⟨f, map, stays⟩ := kept i
    rw [map, Option.map_eq_some_iff] at held
    obtain ⟨q, held, rfl⟩ := held
    exact (stays q).awake (h.awake i q held)
  · obtain ⟨f, map, stays⟩ := kept i
    rw [map, Option.map_eq_some_iff] at held
    obtain ⟨q, held, rfl⟩ := held
    rw [(stays q).asid] at spared
    exact (stays q).able (h.healthy i q held spared)

theorem schedule (h : s.Awake started condemned) : s.schedule.Awake started condemned :=
  h.of_map (consistent_after h.consistent .schedule) fun i =>
    ⟨_, get?_schedule h.consistent i, fun p => p.staysAwake_settle _⟩

theorem tick (h : s.Awake started condemned) : s.tick.2.Awake started condemned :=
  h.of_map (consistent_after h.consistent .tick) fun i =>
    have ⟨place, map⟩ := get?_tick h.consistent i
    ⟨_, map, fun p => (p.staysAwake_elapse _ _ place).trans (Process.staysAwake_settle _ _)⟩

theorem ticked (h : s.Awake started condemned) (n : Nat) :
    (s.ticked n).Awake started condemned := by
  induction n with
  | zero => exact h
  | succ n ih =>
    rw [ticked_concat]
    exact ih.tick

variable {a : Asid}

theorem hasEnded (h : s.Awake started condemned) (idle : s.isIdle = true) (mem : a ∈ started) :
    s.HasEnded a := by
  refine ⟨ProcessTable.exists_get?_of_mem h.asid mem, fun i p held _ => ?_⟩
  by_contra alive
  have alive : p.isTerminated = false := by simpa using alive
  have able := Process.isSchedulable_of_awake (h.awake i p held) alive
  simp [Scheduler.not_isIdle held able] at idle

theorem not_isIdle (h : s.Awake started condemned) (mem : a ∈ started) (spared : a ∉ condemned) :
    s.isIdle = false := by
  obtain ⟨i, p, held, rfl⟩ := ProcessTable.exists_get?_of_mem h.asid mem
  exact Scheduler.not_isIdle held (Process.canRun_iff.1 (h.healthy i p held spared)).1

/-- All systicks go well then. -/
theorem goesWell (h : s.Awake started condemned) (mem : a ∈ started) (spared : a ∉ condemned)
    (n : Nat) : s.GoesWell n := by
  induction n generalizing s with
  | zero => trivial
  | succ n ih => exact ⟨exists_tick_eq_ok (h.tick.not_isIdle mem spared), ih h.tick⟩

end Awake
end Scheduler
end SeparationKernel
