import Mathlib
import SeparationKernel.Proofs.Scheduler.Consistency
import SeparationKernel.Proofs.Scheduler.Election

/-! Every request to a consistent scheduler is made of moves, so that it stays consistent. -/
namespace SeparationKernel
namespace Scheduler

def dueFrom (now : Timestamp) (k : Nat) (slots : List Slot) : List (Nat × Process) :=
  ((slots.zipIdx k).filterMap fun (s, i) => s.occupant.map (i, ·)).filter fun (_, p) => p.isDue now

theorem modify_append_length {α : Type} (front : List α) (x : α) (back : List α) (f : α → α) :
    (front ++ x :: back).modify front.length f = front ++ f x :: back := by
  induction front with
  | nil => rfl
  | cons y front ih => simp [ih]

theorem dueFrom_cons_of_isDue {now : Timestamp} {k : Nat} {slot : Slot} {slots : List Slot}
    {p : Process} (held : slot.occupant = some p) (come : p.isDue now = true) :
    dueFrom now k (slot :: slots) = (k, p) :: dueFrom now (k + 1) slots := by
  simp [dueFrom, held, come]

theorem dueFrom_cons_of_not_isDue {now : Timestamp} {k : Nat} {slot : Slot} {slots : List Slot}
    (early : slot.isDue now = false) :
    dueFrom now k (slot :: slots) = dueFrom now (k + 1) slots := by
  cases held : slot.occupant with
  | none => simp [dueFrom, held]
  | some p =>
    have early' : p.isDue now = false := by simpa [Slot.isDue, held] using early
    simp [dueFrom, held, early']

theorem slots_requeue {s : Scheduler} {front slots : List Slot} {slot : Slot}
    (all : s.processes.slots = front ++ slot :: slots) (blocked : slot.isBlocked = true) :
    (s.requeue front.length).processes.slots =
      (front ++ [slot.expire s.nextPlace]) ++ slots := by
  have expired : slot.expire s.nextPlace =
      { slot with occupant := slot.occupant.map (·.makeReady s.nextPlace) } := by
    cases held : slot.occupant with
    | none => simp [Slot.expire, held]
    | some p =>
      have stuck : p.isBlocked = true := by simpa [Slot.isBlocked, held] using blocked
      simp [Slot.expire, held, Process.expire, stuck]
  simp only [requeue, enqueue, update, ProcessTable.modify, all, modify_append_length, expired,
    List.append_assoc, List.singleton_append]

theorem foldl_requeue_dueFrom (now : Timestamp) (slots : List Slot) :
    ∀ (front : List Slot) (s : Scheduler), s.processes.slots = front ++ slots →
      (∀ slot ∈ slots, slot.isDue now = true → slot.isBlocked = true) →
      (dueFrom now front.length slots).foldl (fun t x => t.requeue x.1) s =
        { s with
          processes := ⟨front ++ (ProcessTable.wakeSlots now s.nextPlace slots).1⟩
          nextPlace := (ProcessTable.wakeSlots now s.nextPlace slots).2 } := by
  induction slots with
  | nil =>
    intro front s all _
    obtain ⟨store, policy, ⟨slots⟩, current, clock, idleRun, nextPlace, buffers⟩ := s
    obtain rfl : slots = front := by simpa using all
    simp [dueFrom, ProcessTable.wakeSlots]
  | cons slot slots ih =>
    intro front s all blocked
    have blocked_tail : ∀ x ∈ slots, x.isDue now = true → x.isBlocked = true :=
      fun x mem => blocked x (List.mem_cons_of_mem _ mem)
    by_cases isDue : slot.isDue now = true
    · obtain ⟨p, held, come⟩ : ∃ p, slot.occupant = some p ∧ p.isDue now = true := by
        simpa [Slot.isDue, Option.any_eq_true] using isDue
      have slot_blocked := blocked slot (by simp) isDue
      have rest := ih _ _ (slots_requeue all slot_blocked) blocked_tail
      rw [List.length_append, List.length_singleton] at rest
      rw [dueFrom_cons_of_isDue held come, List.foldl_cons, rest]
      simp [ProcessTable.wakeSlots, isDue, slot_blocked, requeue, enqueue, update]
    · have rest := ih (front ++ [slot]) s (by simp [all]) blocked_tail
      rw [List.length_append, List.length_singleton] at rest
      rw [dueFrom_cons_of_not_isDue (by simpa using isDue), rest]
      simp [ProcessTable.wakeSlots, isDue]

theorem isBlocked_of_isDue {s : Scheduler} (h : s.Consistent) {i : Nat} {p : Process}
    (held : s.processes.get? i = some p) (come : p.isDue s.now = true) : p.isBlocked = true := by
  apply h.deadline i p held
  cases deadline : p.deadline with
  | none => simp [Process.isDue, deadline] at come
  | some _ => rfl

/-- Processes wake one after the other, those in lower slots first. -/
theorem wakeExpired_eq {s : Scheduler} (h : s.Consistent) :
    s.wakeExpired = (s.processes.due s.now).foldl (fun t x => t.requeue x.1) s := by
  have blocked : ∀ slot ∈ s.processes.slots, slot.isDue s.now = true → slot.isBlocked = true := by
    intro slot mem isDue
    obtain ⟨i, at_i⟩ := List.mem_iff_getElem?.1 mem
    obtain ⟨p, held, come⟩ : ∃ p, slot.occupant = some p ∧ p.isDue s.now = true := by
      simpa [Slot.isDue, Option.any_eq_true] using isDue
    have stuck := isBlocked_of_isDue h (i := i) (by simp [ProcessTable.get?, at_i, held]) come
    simpa [Slot.isBlocked, held] using stuck
  have fold := foldl_requeue_dueFrom s.now s.processes.slots [] s rfl blocked
  exact fold.symm

theorem forall_mem_requeue {s : Scheduler} {x : Nat × Process} {xs : List (Nat × Process)}
    (nodup : ((x :: xs).map (·.1)).Nodup)
    (asleep : ∀ y ∈ xs, s.processes.get? y.1 = some y.2 ∧ y.2.isBlocked = true) :
    ∀ y ∈ xs, (s.requeue x.1).processes.get? y.1 = some y.2 ∧ y.2.isBlocked = true := by
  intro y mem
  have other : y.1 ≠ x.1 := by
    rw [List.map_cons, List.nodup_cons] at nodup
    exact fun same => nodup.1 (List.mem_map.2 ⟨y, mem, same⟩)
  refine ⟨?_, (asleep y mem).2⟩
  rw [← (asleep y mem).1]
  exact ProcessTable.get?_modify_of_ne _ _ other

theorem moves_requeue {xs : List (Nat × Process)} :
    ∀ {s : Scheduler}, (xs.map (·.1)).Nodup →
      (∀ x ∈ xs, s.processes.get? x.1 = some x.2 ∧ x.2.isBlocked = true) →
      Moves s (xs.foldl (fun t x => t.requeue x.1) s) := by
  induction xs with
  | nil => exact fun _ _ => .refl
  | cons x xs ih =>
    intro s nodup asleep
    obtain ⟨held, blocked⟩ := asleep x (by simp)
    have rest := forall_mem_requeue nodup fun y mem => asleep y (List.mem_cons_of_mem _ mem)
    exact .head (.wake held blocked) (ih (List.nodup_cons.1 nodup).2 rest)

theorem moves_wakeExpired {s : Scheduler} (h : s.Consistent) : Moves s s.wakeExpired := by
  rw [wakeExpired_eq h]
  refine moves_requeue (s.processes.nodup_due s.now) ?_
  rintro ⟨i, p⟩ mem
  obtain ⟨held, come⟩ := ProcessTable.mem_due.1 mem
  exact ⟨held, isBlocked_of_isDue h held come⟩

theorem moves_chargeCurrent (s : Scheduler) : Moves s s.chargeCurrent.2 := by
  rw [chargeCurrent]
  split
  · rename_i i p holder current
    have held : s.processes.get? i = some p := by simpa [currentProcess?, holder] using current
    split
    · rename_i left goesOn
      exact .single (.charge holder held goesOn)
    · rename_i expired
      exact .single (.rotate holder held (Process.charge_quantumExpired expired).1)
    · rename_i overrun
      obtain ⟨n, cleanup, _⟩ := Process.charge_cleanupOverrun overrun
      exact .single (.retire held (by simp [cleanup, ProcessState.isCleanup]) .overrun)
  · exact .refl

theorem current_eq_none_of_holder? {s : Scheduler} (h : s.Consistent) (nobody : s.holder? = none) :
    s.current = none := by
  cases current : s.current with
  | none => rfl
  | some i =>
    obtain ⟨p, held, _⟩ := h.holder i current
    have holds := holder?_eq_some_iff.2 ⟨⟨i, current, held⟩, h.alive_of_holder current held⟩
    simp [nobody] at holds

theorem moves_schedule {s : Scheduler} (h : s.Consistent) : Moves s s.schedule := by
  have decision := decision_schedule s
  generalize s.schedule = t at decision ⊢
  cases decision with
  | keep => exact .refl
  | @preempt i j p q holder held schedulable waits more first =>
    have vacant : s.withdraw.current = none := by simp [withdraw, holder]
    have kept : s.withdraw.processes.get? j = some q := by
      rw [get?_withdraw, if_neg waits.2.2, waits.1]
    exact .tail (.single (.preempt holder)) (.dispatch vacant kept waits.2.1
      (first_after_withdraw holder held more first))
  | @dispatch j q nobody waits first =>
    refine .single (.dispatch (current_eq_none_of_holder? h nobody) waits.1 waits.2.1 ?_)
    intro k r held schedulable
    exact first k r ⟨held, schedulable, by simp [current_eq_none_of_holder? h nobody]⟩
  | idle nobody empty =>
    have vacant := current_eq_none_of_holder? h nobody
    have same : s.vacate = s := by rw [vacate, ← vacant]
    rw [same]

theorem checkState_eq_ok {s : Scheduler} {id : ProcessId} {f : ProcessState → Bool}
    {fault : ProcessError} :
    s.checkState id f fault = .ok () ↔ ∃ p, s.processes.live? id = some p ∧ f p.state = true := by
  cases live : s.processes.live? id <;> simp [checkState, checkLive, live]

theorem checkRunning_eq_ok {s : Scheduler} {id : ProcessId} :
    s.checkRunning id = .ok () ↔ ∃ p, s.processes.get? id.index = some p ∧
      p.state = .running ∧ s.current = some id.index ∧ p.id = id := by
  have running : s.checkRunning id = .ok () ↔
      (∃ p, s.processes.live? id = some p ∧ p.state = .running) ∧ s.current = some id.index := by
    simp [checkRunning, checkState_eq_ok, isCurrent]
  rw [running]
  constructor
  · intro ⟨⟨p, live, runs⟩, holder⟩
    obtain ⟨held, named, _⟩ := ProcessTable.live?_eq_some_iff.1 live
    exact ⟨p, held, runs, holder, named⟩
  · intro ⟨p, held, runs, holder, named⟩
    have alive := Process.not_isTerminated_of_running runs
    exact ⟨⟨p, ProcessTable.live?_eq_some_iff.2 ⟨held, named, alive⟩, runs⟩, holder⟩

theorem moves_commit {ε : Type} {s t : Scheduler} {v : Verdict ε} (h : v = .ok () → Moves s t) :
    Moves s (Verdict.commit v s t).2 := by
  rcases v with e | ⟨⟩
  · exact .refl
  · exact h rfl

variable {s : Scheduler}

theorem moves_yield (s : Scheduler) (id : ProcessId) (delay : Option UInt32) :
    Moves s (s.yield id delay).2 := by
  rw [yield_eq]
  refine moves_commit fun granted => ?_
  obtain ⟨p, held, running, holder, _⟩ := checkRunning_eq_ok.1 granted
  split
  · exact .single (.rotate holder held running)
  · exact .single (.block holder held running .yield _ (Nat.le_succ _))

theorem moves_wait (s : Scheduler) (id : ProcessId) (reason : BlockReason)
    (timeout : Option UInt32) : Moves s (s.wait id reason timeout).2 := by
  rw [wait_eq]
  refine moves_commit fun granted => ?_
  obtain ⟨p, held, running, holder, _⟩ := checkRunning_eq_ok.1 granted
  exact .single (.block holder held running reason _ (Nat.le_refl _))

theorem moves_wake (s : Scheduler) (id : ProcessId) (reason : BlockReason) :
    Moves s (s.wake id reason).2 := by
  rw [wake_eq]
  refine moves_commit fun granted => ?_
  obtain ⟨p, live, blocked⟩ := checkState_eq_ok.1 granted
  have held := (ProcessTable.live?_eq_some_iff.1 live).1
  exact .single (.wake held (Process.isBlocked_iff.2 ⟨reason, by simpa using blocked⟩))

theorem moves_requestTermination (h : s.Consistent) (id : ProcessId) :
    Moves s (s.requestTermination id).2 := by
  rw [requestTermination_eq]
  refine moves_commit fun granted => ?_
  obtain ⟨p, live, healthy⟩ := checkState_eq_ok.1 granted
  obtain ⟨held, _, alive⟩ := ProcessTable.live?_eq_some_iff.1 live
  have healthy' : p.state.isCleanup = false := by simpa using healthy
  by_cases holder : s.current = some id.index
  · have running := h.running_of_holder holder held healthy'
    simp only [isCurrent, holder, beq_self_eq_true, if_true]
    exact .single (.condemnHolder holder held running)
  · simp only [isCurrent, beq_eq_false_iff_ne.2 holder, Bool.false_eq_true, if_false]
    exact .single (.condemn holder held alive healthy')

theorem moves_cleanupDone (s : Scheduler) (id : ProcessId) : Moves s (s.cleanupDone id).2 := by
  rw [cleanupDone_eq]
  refine moves_commit fun granted => ?_
  obtain ⟨p, live, cleanup⟩ := checkState_eq_ok.1 granted
  have held := (ProcessTable.live?_eq_some_iff.1 live).1
  rw [live]
  exact .single (.retire held cleanup .completed)

theorem moves_instantiate (s : Scheduler) (asid : Asid) : Moves s (s.instantiate asid).2 := by
  rw [instantiate_eq]
  split
  · exact .refl
  · rename_i app described
    split
    · exact .refl
    · rename_i fresh
      split
      · exact .refl
      · rename_i i free
        have alone : s.processes.ofApp? asid = none := by simpa [ofApp?] using fresh
        exact .single (.install described alone free)

theorem moves_beforeDecision (h : s.Consistent) : Moves s s.beforeDecision := by
  have advanced : Moves s s.advance := .single (.clock _ _)
  have charged : Moves s s.advance.chargeCurrent.2 := advanced.trans (moves_chargeCurrent _)
  exact charged.trans (moves_wakeExpired (charged.consistent h))

theorem moves_tick (h : s.Consistent) : Moves s s.tick.2 := by
  have before := moves_beforeDecision h
  have decided : Moves s s.beforeDecision.schedule :=
    before.trans (moves_schedule (before.consistent h))
  exact decided.tail (.clock _ _)

theorem moves_after (h : s.Consistent) (r : Request) : Moves s (s.after r) := by
  cases r with
  | instantiate asid => exact moves_instantiate s asid
  | schedule => exact moves_schedule h
  | yield id delay => exact moves_yield s id delay
  | waitIpc id timeout => exact moves_wait s id .ipc timeout
  | waitIo id timeout => exact moves_wait s id .io timeout
  | deliverIpc id => exact moves_wake s id .ipc
  | completeIo id => exact moves_wake s id .io
  | requestTermination id => exact moves_requestTermination h id
  | cleanupDone id => exact moves_cleanupDone s id
  | tick => exact moves_tick h
  | buffer r => exact .single (.lend _)

/-- Time stands still from one scheduler to the other, and so do its descriptors and limits. -/
structure Still (s t : Scheduler) : Prop where
  store : t.store = s.store := by rfl
  policy : t.policy = s.policy := by rfl
  now : t.now = s.now := by rfl
  idleRun : t.idleRun = s.idleRun := by rfl

theorem still_retire (s : Scheduler) (i : Nat) (p : Process) (outcome : CleanupOutcome) :
    Still s (s.retire i p outcome) := by
  rw [retire]
  split <;> exact {}

theorem still_chargeCurrent (s : Scheduler) : Still s s.chargeCurrent.2 := by
  rw [chargeCurrent]
  split
  · split
    · exact {}
    · exact {}
    · exact still_retire s _ _ _
  · exact {}

theorem schedule_eq (s : Scheduler) :
    ∃ processes current, s.schedule = { s with processes, current } := by
  have decision := decision_schedule s
  generalize s.schedule = t at decision ⊢
  cases decision with
  | preempt holder =>
    rw [withdraw_eq holder]
    exact ⟨_, _, rfl⟩
  | _ => exact ⟨_, _, rfl⟩

theorem still_schedule (s : Scheduler) : Still s s.schedule := by
  obtain ⟨processes, current, decided⟩ := schedule_eq s
  rw [decided]
  exact {}

theorem still_commit {ε : Type} {v : Verdict ε} {t : Scheduler} (h : Still s t) :
    Still s (Verdict.commit v s t).2 := by
  cases v with
  | error e => exact {}
  | ok => exact h

def Request.addressee? : Request → Option ProcessId
  | .yield id _ | .waitIpc id _ | .waitIo id _ | .deliverIpc id | .completeIo id
  | .requestTermination id | .cleanupDone id => some id
  | .instantiate _ | .schedule | .tick | .buffer _ => none

/-- What speaks against a request about one process when it is checked. -/
def findings (s : Scheduler) : Request → Verdict ProcessError
  | .yield id _ | .waitIpc id _ | .waitIo id _ => s.checkRunning id
  | .deliverIpc id => s.checkState id (· == .blocked .ipc) (.notWaiting id)
  | .completeIo id => s.checkState id (· == .blocked .io) (.notWaiting id)
  | .requestTermination id => s.checkState id (!·.isCleanup) (.terminating id)
  | .cleanupDone id => s.checkState id (·.isCleanup) (.notTerminating id)
  | _ => .ok ()

def accept (s : Scheduler) : Request → Scheduler
  | .yield id delay =>
    (match delay.filter (· != 0) with
    | none => s.requeue id.index
    | some d => s.enqueue id.index fun _ p => p.block .yield (some (s.deadlineAfter d))).vacate
  | .waitIpc id timeout =>
    (s.update id.index (·.block .ipc (timeout.map s.deadlineAfter))).vacate
  | .waitIo id timeout =>
    (s.update id.index (·.block .io (timeout.map s.deadlineAfter))).vacate
  | .deliverIpc id | .completeIo id => s.requeue id.index
  | .requestTermination id =>
    if s.isCurrent id then s.update id.index (·.beginCleanup s.policy.cleanupQuantum none)
    else s.enqueue id.index fun place p => p.beginCleanup s.policy.cleanupQuantum (some place)
  | .cleanupDone id =>
    match s.processes.live? id with
    | none => s
    | some p => s.retire id.index p .completed
  | _ => s

/-- What is found is found before anything is done, and nothing that is done then can fail. -/
theorem after_eq_commit {r : Request} {id : ProcessId} (about : r.addressee? = some id) :
    s.after r = (Verdict.commit (s.findings r) s (s.accept r)).2 := by
  cases r with
  | yield => exact congrArg Prod.snd (yield_eq s _ _)
  | waitIpc | waitIo => exact congrArg Prod.snd (wait_eq s _ _ _)
  | deliverIpc | completeIo => exact congrArg Prod.snd (wake_eq s _ _)
  | requestTermination => exact congrArg Prod.snd (requestTermination_eq s _)
  | cleanupDone => exact congrArg Prod.snd (cleanupDone_eq s _)
  | instantiate | schedule | tick | buffer => cases about

/-- It is systicks that time goes on with. -/
theorem still_after (s : Scheduler) {r : Request} (other : r ≠ .tick) : Still s (s.after r) := by
  cases r with
  | instantiate asid =>
    rw [after, instantiate_eq]
    split
    · exact {}
    · split
      · exact {}
      · split <;> exact {}
  | schedule => exact still_schedule s
  | yield id delay =>
    rw [after_eq_commit rfl]
    refine still_commit ?_
    rw [accept]
    split <;> exact {}
  | waitIpc | waitIo | deliverIpc | completeIo =>
    rw [after_eq_commit rfl]
    exact still_commit {}
  | requestTermination id =>
    rw [after_eq_commit rfl]
    refine still_commit ?_
    rw [accept]
    split <;> exact {}
  | cleanupDone id =>
    rw [after_eq_commit rfl]
    refine still_commit ?_
    rw [accept]
    split
    · exact {}
    · exact still_retire s _ _ _
  | tick => exact absurd rfl other
  | buffer r => exact {}

theorem policy_tick (s : Scheduler) : s.tick.2.policy = s.policy :=
  calc s.tick.2.policy = s.beforeDecision.policy := (still_schedule s.beforeDecision).policy
    _ = s.advance.policy := (still_chargeCurrent s.advance).policy

theorem now_tick (s : Scheduler) : s.tick.2.now = s.now.next :=
  calc s.tick.2.now = s.beforeDecision.now := (still_schedule s.beforeDecision).now
    _ = s.advance.now := (still_chargeCurrent s.advance).now

theorem policy_after (s : Scheduler) (r : Request) : (s.after r).policy = s.policy := by
  by_cases tick : r = .tick
  · rw [tick]
    exact policy_tick s
  · exact (still_after s tick).policy

theorem policy_run (s : Scheduler) (rs : List Request) : (s.run rs).policy = s.policy := by
  induction rs generalizing s with
  | nil => rfl
  | cons r rs ih => exact (ih (s.after r)).trans (policy_after s r)

theorem run_concat (s : Scheduler) (rs : List Request) (r : Request) :
    s.run (rs ++ [r]) = (s.run rs).after r := by
  simp [run_append]

theorem consistent_after (h : s.Consistent) (r : Request) : (s.after r).Consistent :=
  (moves_after h r).consistent h

theorem consistent_run (h : s.Consistent) (rs : List Request) : (s.run rs).Consistent := by
  induction rs generalizing s with
  | nil => exact h
  | cons r rs ih => exact ih (consistent_after h r)

end Scheduler
end SeparationKernel
