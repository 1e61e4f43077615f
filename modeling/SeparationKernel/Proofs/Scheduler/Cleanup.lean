import Mathlib
import SeparationKernel.Proofs.Scheduler.Course
import SeparationKernel.Proofs.Scheduler.Idle

/-! Cleanup, from the request that begins it. It takes as much processor time as it was given, over
however many requests, and ends in one of two ways. -/
namespace SeparationKernel
namespace Scheduler

def stateOf? (s : Scheduler) (id : ProcessId) : Option ProcessState :=
  (s.processes.find? id).map (·.state)

/-- How many systicks of a run begin with the process holding the processor. -/
def heldTicks (s : Scheduler) (id : ProcessId) : List Request → Nat
  | [] => 0
  | r :: rs =>
    (if r = .tick ∧ s.currentId? = some id then 1 else 0) + (s.after r).heldTicks id rs

variable {s : Scheduler} {i : Nat} {p : Process} {n : UInt32} {id : ProcessId}

theorem heldTicks_append (s : Scheduler) (id : ProcessId) (rs ss : List Request) :
    s.heldTicks id (rs ++ ss) = s.heldTicks id rs + (s.run rs).heldTicks id ss := by
  induction rs generalizing s with
  | nil => simp [heldTicks]
  | cons r rs ih => simp [heldTicks, ih, Nat.add_assoc]

theorem heldTicks_concat (s : Scheduler) (id : ProcessId) (rs : List Request) (r : Request) :
    s.heldTicks id (rs ++ [r]) =
      s.heldTicks id rs + if r = .tick ∧ (s.run rs).currentId? = some id then 1 else 0 := by
  simp [heldTicks_append, heldTicks]

theorem stateOf?_eq_some_iff {state : ProcessState} :
    s.stateOf? id = some state ↔
      ∃ p, s.processes.get? id.index = some p ∧ p.id = id ∧ p.state = state := by
  simp only [stateOf?, Option.map_eq_some_iff, ProcessTable.find?_eq_some_iff, and_assoc]

theorem currentId?_eq_some_iff (h : s.Consistent) (held : s.processes.get? i = some p) :
    s.currentId? = some p.id ↔ s.current = some i := by
  simp only [currentId?, Option.map_eq_some_iff, currentProcess?_eq_some_iff]
  constructor
  · rintro ⟨q, ⟨j, holder, held'⟩, named⟩
    rw [holder, ← (h.named j q held').1, named, (h.named i p held).1]
  · intro holder
    exact ⟨p, ⟨i, holder, held⟩, rfl⟩

def cleanupAfter (s : Scheduler) (id : ProcessId) (n : UInt32) (r : Request) : ProcessState :=
  if r = .cleanupDone id then .terminated .completed
  else if r = .tick ∧ s.currentId? = some id then
    if n.toNat ≤ 1 then .terminated .overrun else .cleanup (Counter.down n)
  else .cleanup n

theorem cleanupAfter_ne_healthy (state : ScheduleState) (r : Request) :
    s.cleanupAfter id n r ≠ .healthy state := by
  rw [cleanupAfter]
  split
  · simp
  · split
    · split <;> simp
    · simp

theorem isGrantedTo_of_cleanup (cleanup : p.state = .cleanup n) (r : Request) :
    r.isGrantedTo p = true ↔ r = .cleanupDone p.id := by
  cases r <;>
    simp [Request.isGrantedTo, Request.addressee?, Request.suits, cleanup,
      ProcessState.isTerminated, ProcessState.isCleanup]

theorem elapse_of_cleanup (h : s.Consistent) (held : s.processes.get? i = some p)
    (cleanup : p.state = .cleanup n) (place : Nat) :
    p.elapse (s.current == some i) s.now.next place =
      { p with state := s.cleanupAfter p.id n .tick } := by
  have unlimited := h.deadline_eq_none held (Process.isSchedulable_of_cleanup cleanup)
  have holds := currentId?_eq_some_iff h held
  by_cases holder : s.current = some i
  · rw [Process.elapse, holder, beq_self_eq_true, if_pos rfl, Process.charged_of_cleanup cleanup]
    by_cases last : n.toNat ≤ 1
    · simp [cleanupAfter, holds.2 holder, last, Process.terminate, unlimited]
    · simp [cleanupAfter, holds.2 holder, last]
  · have others : s.currentId? ≠ some p.id := fun same => holder (holds.1 same)
    have kept : s.cleanupAfter p.id n .tick = p.state := by simp [cleanupAfter, others, cleanup]
    have early : p.isDue s.now.next = false := by simp [Process.isDue, unlimited]
    rw [kept]
    simp [Process.elapse, holder, early]

theorem get?_tick_of_cleanup (h : s.Consistent) (held : s.processes.get? i = some p)
    (cleanup : p.state = .cleanup n) :
    s.tick.2.processes.get? i = some { p with state := s.cleanupAfter p.id n .tick } := by
  obtain ⟨place, after⟩ := get?_tick h i
  have unsettled : ∀ state, s.cleanupAfter p.id n .tick ≠ .healthy state :=
    fun state => cleanupAfter_ne_healthy state .tick
  rw [after, held, Option.map_some, elapse_of_cleanup h held cleanup,
    Process.settle_eq_self (unsettled .ready) (unsettled .running)]

/-- A process in cleanup keeps what it has left, until a systick is charged to it or it is done. -/
theorem Becomes.state_of_cleanup {r : Request} {q : Process} (becomes : s.Becomes i p r q)
    (h : s.Consistent) (held : s.processes.get? i = some p) (cleanup : p.state = .cleanup n) :
    q.state = s.cleanupAfter p.id n r := by
  have cleans : p.state.isCleanup = true := by simp [cleanup, ProcessState.isCleanup]
  cases becomes with
  | stays refused still =>
    have undone : r ≠ .cleanupDone p.id := by
      intro done
      simp [(isGrantedTo_of_cleanup cleanup r).2 done] at refused
    simp [cleanupAfter, undone, still.2, cleanup]
  | obeys granted =>
    obtain rfl := (isGrantedTo_of_cleanup cleanup r).1 granted
    simp [obey, Process.terminate, cleanupAfter]
  | settles =>
    rw [Process.settle_of_isCleanup cleans]
    simp [cleanupAfter, cleanup]
  | elapses place =>
    have unsettled : ∀ state, s.cleanupAfter p.id n .tick ≠ .healthy state :=
      fun state => cleanupAfter_ne_healthy state .tick
    rw [elapse_of_cleanup h held cleanup,
      Process.settle_eq_self (unsettled .ready) (unsettled .running)]

theorem stateOf?_after_of_cleanup (h : s.Consistent) (cleanup : s.stateOf? id = some (.cleanup n))
    (r : Request) : (s.after r).stateOf? id = some (s.cleanupAfter id n r) := by
  obtain ⟨p, held, rfl, state⟩ := stateOf?_eq_some_iff.1 cleanup
  have alive := Process.not_isTerminated_of_isSchedulable (Process.isSchedulable_of_cleanup state)
  obtain ⟨q, held', becomes⟩ := exists_after h (not_fills h held alive r) held
  exact stateOf?_eq_some_iff.2
    ⟨q, held', becomes.sameAs.id, becomes.state_of_cleanup h held state⟩

theorem cleanupDone_eq_ok (cleanup : s.stateOf? id = some (.cleanup n)) :
    (s.cleanupDone id).1 = .ok () := by
  obtain ⟨p, held, rfl, state⟩ := stateOf?_eq_some_iff.1 cleanup
  have cleans : p.state.isCleanup = true := by simp [state, ProcessState.isCleanup]
  have alive := Process.not_isTerminated_of_isSchedulable (Process.isSchedulable_of_cleanup state)
  rw [cleanupDone_eq, Verdict.commit_fst, checkState_eq_ok]
  exact ⟨p, ProcessTable.live?_eq_some_iff.2 ⟨held, rfl, alive⟩, cleans⟩

theorem stateOf?_requestTermination (h : s.Consistent)
    (granted : (s.requestTermination id).1 = .ok ()) :
    (s.requestTermination id).2.stateOf? id = some (.cleanup s.policy.cleanupQuantum) := by
  rw [requestTermination_eq, Verdict.commit_fst] at granted
  obtain ⟨p, live, healthy⟩ := checkState_eq_ok.1 granted
  obtain ⟨held, rfl, alive⟩ := ProcessTable.live?_eq_some_iff.1 live
  have alive' : p.state.isTerminated = false := alive
  have suited : (Request.requestTermination p.id).isGrantedTo p = true :=
    (isGrantedTo_iff rfl).2 ⟨rfl, by simpa [Request.suits, alive'] using healthy⟩
  have after := get?_after_of_addressee? h (r := .requestTermination p.id) rfl p.id.index
  rw [held, Option.map_some, if_pos suited] at after
  exact stateOf?_eq_some_iff.2 ⟨_, after, (sameAs_obey s p _).id, rfl⟩

/-- All through the requests the process cleans up. It is never said to be done, and of its budget
it has left what was not charged to it. -/
structure CleansUp (s : Scheduler) (id : ProcessId) (budget : Nat) (rs : List Request) : Prop where
  undone : .cleanupDone id ∉ rs
  left : ∀ first, first <+: rs → ∃ n : UInt32, (s.run first).stateOf? id = some (.cleanup n) ∧
    1 ≤ n.toNat ∧ n.toNat + s.heldTicks id first = budget

inductive Cleanup (s : Scheduler) (id : ProcessId) (budget : Nat) : List Request → Prop where
  | goesOn {rs : List Request} (cleans : s.CleansUp id budget rs) : Cleanup s id budget rs
  /-- The process says in time that it is done. -/
  | completed {rs : List Request} (cleans : s.CleansUp id budget rs)
      (accepted : ((s.run rs).cleanupDone id).1 = .ok ())
      (ended : (s.run (rs ++ [.cleanupDone id])).stateOf? id = some (.terminated .completed))
      (later : List Request) : Cleanup s id budget (rs ++ .cleanupDone id :: later)
  /-- The last systick of its budget is charged to it. -/
  | overrun {rs : List Request} (cleans : s.CleansUp id budget rs)
      (spent : s.heldTicks id (rs ++ [.tick]) = budget)
      (ended : (s.run (rs ++ [.tick])).stateOf? id = some (.terminated .overrun))
      (later : List Request) : Cleanup s id budget (rs ++ .tick :: later)

theorem CleansUp.concat {budget : Nat} {rs : List Request} {r : Request}
    (cleans : s.CleansUp id budget rs) (other : r ≠ .cleanupDone id)
    (cleanup : (s.run (rs ++ [r])).stateOf? id = some (.cleanup n)) (some_left : 1 ≤ n.toNat)
    (rest : n.toNat + s.heldTicks id (rs ++ [r]) = budget) : s.CleansUp id budget (rs ++ [r]) where
  undone := by simp [cleans.undone, other.symm]
  left first before := by
    rcases List.prefix_concat_iff.1 before with rfl | earlier
    · exact ⟨n, cleanup, some_left, rest⟩
    · exact cleans.left first earlier

/-- One more request, and the cleanup goes on or ends. -/
theorem CleansUp.cleanup_concat {budget : Nat} {rs : List Request}
    (cleans : s.CleansUp id budget rs) (h : (s.run rs).Consistent) (r : Request) :
    s.Cleanup id budget (rs ++ [r]) := by
  obtain ⟨n, cleanup, some_left, rest⟩ := cleans.left rs (List.prefix_refl rs)
  have after := stateOf?_after_of_cleanup h cleanup r
  have held := heldTicks_concat s id rs r
  rw [← run_concat] at after
  -- Either it says that it is done, or it is charged with a systick, or nothing happens to it.
  by_cases done : r = .cleanupDone id
  · subst r
    have ended : (s.run (rs ++ [.cleanupDone id])).stateOf? id = some (.terminated .completed) := by
      simpa [cleanupAfter] using after
    exact .completed cleans (cleanupDone_eq_ok cleanup) ended []
  · by_cases charged : r = .tick ∧ (s.run rs).currentId? = some id
    · rw [if_pos charged] at held
      simp only [cleanupAfter, if_neg done, if_pos charged] at after
      by_cases last : n.toNat ≤ 1
      · rw [if_pos last] at after
        obtain ⟨rfl, _⟩ := charged
        exact .overrun cleans (by omega) after []
      · rw [if_neg last] at after
        exact .goesOn (cleans.concat done after (by rw [Counter.toNat_down]; omega)
          (by rw [Counter.toNat_down]; omega))
    · rw [if_neg charged] at held
      simp only [cleanupAfter, if_neg done, if_neg charged] at after
      exact .goesOn (cleans.concat done after some_left (by omega))

theorem Cleanup.concat {budget : Nat} {rs : List Request} (cleanup : s.Cleanup id budget rs)
    (h : s.Consistent) (r : Request) : s.Cleanup id budget (rs ++ [r]) := by
  cases cleanup with
  | goesOn cleans => exact cleans.cleanup_concat (consistent_run h rs) r
  | completed cleans accepted ended later =>
    rw [List.append_assoc, List.cons_append]
    exact .completed cleans accepted ended (later ++ [r])
  | overrun cleans spent ended later =>
    rw [List.append_assoc, List.cons_append]
    exact .overrun cleans spent ended (later ++ [r])

/-- Termination is asked for at any time. Whatever is asked after that, the process has as much
processor time as it was given, cleans up until then unless it is done before, and ends accordingly.
-/
theorem cleanup_budget_exact {o o' : Options} {store : Store} (supported : o.check = .ok ())
    (loaded : store.IsLoaded o') (before : List Request) (id : ProcessId)
    (granted : (((ofStore store o).run before).requestTermination id).1 = .ok ())
    (rs : List Request) :
    (((ofStore store o).run before).requestTermination id).2.Cleanup id o.cleanupQuantum.toNat
      rs := by
  have consistent := consistent_run (consistent_ofStore supported loaded) before
  have begins := stateOf?_requestTermination consistent granted
  have policy : ((ofStore store o).run before).policy = .ofOptions o := policy_run _ before
  have kept := consistent_after consistent (.requestTermination id)
  generalize (ofStore store o).run before = s at *
  induction rs using List.reverseRecOn with
  | nil =>
    refine .goesOn ⟨List.not_mem_nil, fun first none => ?_⟩
    obtain rfl := List.prefix_nil.1 none
    refine ⟨_, begins, consistent.cleanup_pos, ?_⟩
    rw [policy]
    rfl
  | append_singleton rs r ih => exact ih.concat kept r

/-- Asked to terminate while it runs, a process with two systicks to clean up has used them up by
the second. -/
theorem cleanup_budget_exact_two :
    (((ofStore duo { cleanupQuantum := 2 }).run [.instantiate ⟨0⟩, .schedule]).requestTermination
        ⟨0, 0⟩).1 = .ok () ∧
      (((ofStore duo { cleanupQuantum := 2 }).run [.instantiate ⟨0⟩, .schedule]).requestTermination
        ⟨0, 0⟩).2.Cleanup ⟨0, 0⟩ 2 [.tick, .tick] := by
  have loaded : duo.IsLoaded {} := ⟨{}, {}, duo.apps, by decide +kernel⟩
  exact ⟨by decide +kernel, cleanup_budget_exact (by decide) loaded _ _ (by decide +kernel) _⟩

end Scheduler
end SeparationKernel
