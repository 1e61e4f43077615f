import Mathlib
import SeparationKernel.Proofs.Scheduler.QueueChange
import SeparationKernel.Proofs.Scheduler.Reachable

/-! Every request changes the queues of a scheduler as it would change first-in-first-out queues. -/
namespace SeparationKernel
namespace Scheduler

open ReadyQueues (Event)

variable {s : Scheduler} {i : Nat} {p : Process}

theorem exists_of_front? {r : Priority} {id : ProcessId} (front : s.queues.front? = some (r, id)) :
    ∃ i p, s.IsWaiting i p ∧ p.priority = r ∧ p.id = id :=
  mem_queue.1 (List.mem_of_head? (ReadyQueues.front?_eq_some front).1)

theorem front?_eq_none (empty : ∀ i p, ¬ s.IsWaiting i p) : s.queues.front? = none := by
  cases front : s.queues.front? with
  | none => rfl
  | some c =>
    obtain ⟨i, p, waits, _⟩ := exists_of_front? front
    exact absurd waits (empty i p)

/-- Who goes first among all that wait is at the head of the most important queue. -/
theorem front?_eq_some (h : s.Consistent) (waits : s.IsWaiting i p)
    (first : ∀ j q, s.IsWaiting j q → q.precedes p = false) :
    s.queues.front? = some (p.priority, p.id) := by
  have head := queue_eq_cons h waits fun j q waits' same =>
    Process.queuedAt_le_of_not_precedes (first j q waits') same
  rw [ReadyQueues.front?_eq_some_iff, waiting_queues, head]
  refine ⟨rfl, fun r more => List.eq_nil_iff_forall_not_mem.2 fun id mem => ?_⟩
  obtain ⟨j, q, waits', rfl, _⟩ := mem_queue.1 mem
  have less := Process.not_moreImportant_of_not_precedes (first j q waits')
  rw [more] at less
  cases less

theorem queues_withdraw (h : s.Consistent) (holder : s.current = some i) :
    s.withdraw.queues = s.queues.putBack := by
  obtain ⟨p, held, _⟩ := h.holder i holder
  have able := h.alive_of_holder holder held
  have change := change_withdraw holder held (Process.not_isTerminated_of_isSchedulable able)
  have place : p.preempt.queuedAt = p.queuedAt := by rw [Process.preempt_eq]
  have vacant : s.withdraw.current = none := by simp [withdraw_eq holder, vacate]
  refine change.queues_putBack h (consistent_withdraw h holder) holder vacant
    (by simpa using able) ?_
  intro j u waits same
  rw [Process.priority_preempt] at same
  rw [place]
  by_cases at_i : j = i
  · subst j
    rw [eq_of_isWaiting change.get?_self waits, place]
  · have held' := waits.1
    rw [change.get?_of_ne at_i] at held'
    exact h.longest i j p u holder held held' waits.2.1 same

theorem queues_giveTo (h : s.Consistent) (vacant : s.current = none)
    (held : s.processes.get? i = some p) (able : p.isSchedulable = true)
    (first : ∀ j q, s.processes.get? j = some q → q.isSchedulable = true →
      q.precedes p = false) : (s.giveTo i).queues = s.queues.give := by
  have waits : s.IsWaiting i p := ⟨held, able, by simp [vacant]⟩
  have first' : ∀ j q, s.IsWaiting j q → q.precedes p = false :=
    fun j q waits' => first j q waits'.1 waits'.2.1
  exact (change_giveTo vacant held able).queues_give h (consistent_giveTo h vacant held able first)
    waits rfl (fun j q waits' same => Process.queuedAt_le_of_not_precedes (first' j q waits') same)
    (front?_eq_some h waits first')

theorem queues_schedule (h : s.Consistent) : s.schedule.queues = s.queues.elect := by
  have decision := decision_schedule s
  generalize s.schedule = t at decision ⊢
  cases decision with
  | @keep i p holder held able best =>
    rw [ReadyQueues.elect, holder_queues, holding_of_holder holder held]
    cases front : s.queues.front? with
    | none => simp
    | some c =>
      obtain ⟨j, q, waits, priority, _⟩ := exists_of_front? front
      have less := best j q waits
      rw [priority] at less
      simp [less]
  | @preempt i j p q holder held able waits more first =>
    have vacant : s.withdraw.current = none := by simp [withdraw_eq holder, vacate]
    have kept : s.withdraw.processes.get? j = some q := by
      rw [get?_withdraw, if_neg waits.2.2, waits.1]
    have given := queues_giveTo (consistent_withdraw h holder) vacant kept waits.2.1
      (first_after_withdraw holder held more first)
    rw [ReadyQueues.elect, holder_queues, holding_of_holder holder held,
      front?_eq_some h waits first, given, queues_withdraw h holder]
    simp [more]
  | @dispatch j q nobody waits first =>
    have vacant := current_eq_none_of_holder? h nobody
    have given := queues_giveTo h vacant waits.1 waits.2.1 fun k r held able =>
      first k r ⟨held, able, by simp [vacant]⟩
    rw [ReadyQueues.elect, holder_queues, holding_of_vacant vacant, given]
  | idle nobody empty =>
    have vacant := current_eq_none_of_holder? h nobody
    have same : s.vacate = s := by rw [vacate, ← vacant]
    rw [same, ReadyQueues.elect, holder_queues, holding_of_vacant vacant, ReadyQueues.give,
      front?_eq_none empty]

def granted {ε α : Type} (answer : Except ε α) (events : List Event) : List Event :=
  match answer with
  | .ok _ => events
  | .error _ => []

theorem queues_commit {ε : Type} {v : Verdict ε} {s t : Scheduler} {events : List Event}
    (h : v = .ok () → t.queues = events.foldl ReadyQueues.step s.queues) :
    (Verdict.commit v s t).2.queues =
      (granted (Verdict.commit v s t).1 events).foldl ReadyQueues.step s.queues := by
  rcases v with e | ⟨⟩
  · rfl
  · exact h rfl

def eventFor (s : Scheduler) (id : ProcessId) (event : Priority → Event) : List Event :=
  match s.processes.live? id with
  | none => []
  | some p => [event p.priority]

theorem queues_yield (h : s.Consistent) (id : ProcessId) (delay : Option UInt32) :
    (s.yield id delay).2.queues =
      (granted (s.yield id delay).1
        [if delay.filter (· != 0) = none then .rotate else .release]).foldl
          ReadyQueues.step s.queues := by
  rw [yield_eq]
  refine queues_commit fun accepted => ?_
  obtain ⟨p, held, running, holder, _⟩ := checkRunning_eq_ok.1 accepted
  have alive := Process.not_isTerminated_of_running running
  cases delay.filter (· != 0) with
  | none =>
    exact ((change_requeue held alive).vacated holder).queues_rotate h
      (consistent_rotate h holder held) holder rfl rfl (Nat.le_refl _)
  | some d =>
    exact (change_block holder held alive .yield (some (s.deadlineAfter d))
      (Nat.le_succ _)).queues_release h (consistent_block h holder held _ _ (Nat.le_succ _)) holder
        rfl rfl

theorem queues_wait (h : s.Consistent) (id : ProcessId) (reason : BlockReason)
    (timeout : Option UInt32) :
    (s.wait id reason timeout).2.queues =
      (granted (s.wait id reason timeout).1 [.release]).foldl ReadyQueues.step s.queues := by
  rw [wait_eq]
  refine queues_commit fun accepted => ?_
  obtain ⟨p, held, running, holder, _⟩ := checkRunning_eq_ok.1 accepted
  have alive := Process.not_isTerminated_of_running running
  exact (change_block holder held alive reason (timeout.map s.deadlineAfter)
    (Nat.le_refl _)).queues_release h (consistent_block h holder held _ _ (Nat.le_refl _)) holder
      rfl rfl

theorem queues_requeue (h : s.Consistent) (held : s.processes.get? i = some p)
    (blocked : p.isBlocked = true) : (s.requeue i).queues = s.queues.join p.priority p.id :=
  (change_requeue held (Process.not_isTerminated_of_isBlocked blocked)).queues_join h
    (consistent_requeue h held blocked) (h.not_current_of_isBlocked held blocked) rfl rfl
    (Nat.le_refl _)

theorem queues_wake (h : s.Consistent) (id : ProcessId) (reason : BlockReason) :
    (s.wake id reason).2.queues =
      (granted (s.wake id reason).1 (s.eventFor id (.join · id))).foldl
        ReadyQueues.step s.queues := by
  rw [wake_eq]
  refine queues_commit fun accepted => ?_
  obtain ⟨p, live, waits⟩ := checkState_eq_ok.1 accepted
  obtain ⟨held, rfl, _⟩ := ProcessTable.live?_eq_some_iff.1 live
  have blocked : p.isBlocked = true := Process.isBlocked_iff.2 ⟨reason, by simpa using waits⟩
  rw [eventFor, live]
  exact queues_requeue h held blocked

theorem queues_requestTermination (h : s.Consistent) (id : ProcessId) :
    (s.requestTermination id).2.queues =
      (granted (s.requestTermination id).1
        (if s.isCurrent id then [] else s.eventFor id (.join · id))).foldl
          ReadyQueues.step s.queues := by
  rw [requestTermination_eq]
  refine queues_commit fun accepted => ?_
  obtain ⟨p, live, healthy⟩ := checkState_eq_ok.1 accepted
  obtain ⟨held, rfl, alive⟩ := ProcessTable.live?_eq_some_iff.1 live
  by_cases holder : s.current = some p.id.index
  · have running := h.running_of_holder holder held (by simpa using healthy)
    simp only [isCurrent, holder, beq_self_eq_true, if_true]
    exact (change_condemnHolder held running _).queues_eq h
      (consistent_condemnHolder h holder held running) holder rfl
  · simp only [isCurrent, beq_eq_false_iff_ne.2 holder, Bool.false_eq_true, if_false]
    rw [eventFor, live]
    exact (change_condemn held alive _).queues_join h (consistent_condemn h holder held alive)
      holder rfl rfl (Nat.le_refl _)

theorem queues_retire (h : s.Consistent) (held : s.processes.get? i = some p)
    (cleanup : p.state.isCleanup = true) (outcome : CleanupOutcome) :
    (s.retire i p outcome).queues =
      if s.current = some i then s.queues.release else s.queues.leave p.priority p.id := by
  have able := Process.isSchedulable_of_isCleanup cleanup
  have change := change_retire held (Process.not_isTerminated_of_isSchedulable able) outcome
  have consistent := consistent_retire h held cleanup outcome
  by_cases holder : s.current = some i
  · have vacant : (s.retire i p outcome).current = none := by simp [retire, holder, vacate]
    rw [if_pos holder]
    exact change.queues_release h consistent holder vacant rfl
  · have same : (s.retire i p outcome).current = s.current := by
      simp [retire, holder, releaseBuffers, update]
    rw [if_neg holder]
    exact change.queues_leave h consistent ⟨held, able, holder⟩ same rfl

theorem queues_cleanupDone (h : s.Consistent) (id : ProcessId) :
    (s.cleanupDone id).2.queues =
      (granted (s.cleanupDone id).1
        (if s.isCurrent id then [.release] else s.eventFor id (.leave · id))).foldl
          ReadyQueues.step s.queues := by
  rw [cleanupDone_eq]
  refine queues_commit fun accepted => ?_
  obtain ⟨p, live, cleanup⟩ := checkState_eq_ok.1 accepted
  obtain ⟨held, rfl, _⟩ := ProcessTable.live?_eq_some_iff.1 live
  have retired := queues_retire h held cleanup .completed
  by_cases holder : s.current = some p.id.index
  · rw [if_pos holder] at retired
    simpa [isCurrent, holder, live, ReadyQueues.step] using retired
  · rw [if_neg holder] at retired
    simpa [isCurrent, holder, live, eventFor, ReadyQueues.step] using retired

theorem queues_install (h : s.Consistent) {asid : Asid} {app : App}
    (described : s.store.get? asid = some app) (fresh : s.processes.ofApp? asid = none)
    (free : s.processes.freeSlot? = some i) :
    (s.install i (s.newProcess i asid app)).queues =
      s.queues.join app.priority (s.processes.nextId i) := by
  obtain ⟨lt, dead⟩ := ProcessTable.freeSlot?_eq_some free
  have vacant := h.not_current_of_freeSlot? free
  have put := put_install s lt (s.newProcess i asid app)
  apply ReadyQueues.ext
  · refine put.queue_join h (consistent_install h described fresh free) ⟨put.self, rfl, vacant⟩
      (Nat.le_refl _) ?_
    intro p waits
    have alive := Process.not_isTerminated_of_isSchedulable waits.2.1
    rw [dead p waits.1] at alive
    cases alive
  · exact put.holding_eq vacant rfl

def spawnEvents (s : Scheduler) (asid : Asid) : List Event :=
  match (s.instantiate asid).1, s.store.get? asid with
  | .ok id, some app => [.join app.priority id]
  | _, _ => []

theorem queues_instantiate (h : s.Consistent) (asid : Asid) :
    (s.instantiate asid).2.queues = (s.spawnEvents asid).foldl ReadyQueues.step s.queues := by
  cases described : s.store.get? asid with
  | none => simp [spawnEvents, instantiate_eq, described]
  | some app =>
    cases fresh : s.processes.ofApp? asid with
    | some q => simp [spawnEvents, instantiate_eq, described, ofApp?, fresh]
    | none =>
      cases free : s.processes.freeSlot? with
      | none => simp [spawnEvents, instantiate_eq, described, ofApp?, fresh, free]
      | some i =>
        have joined := queues_install h described fresh free
        simpa [spawnEvents, instantiate_eq, described, ofApp?, fresh, free, install, newProcess,
          ReadyQueues.step] using joined

/-- The holder goes to the tail of its queue when its quantum is used up, and to none when it has
overrun its cleanup. -/
def chargeEvents (s : Scheduler) : List Event :=
  match s.currentProcess?.map Process.charge with
  | some .quantumExpired => [.rotate]
  | some .cleanupOverrun => [.release]
  | _ => []

theorem queues_chargeCurrent (h : s.Consistent) :
    s.chargeCurrent.2.queues = s.chargeEvents.foldl ReadyQueues.step s.queues := by
  cases current : s.current with
  | none => simp [chargeCurrent, chargeEvents, currentProcess?, current]
  | some i =>
    obtain ⟨p, held, _⟩ := h.holder i current
    have able := h.alive_of_holder current held
    have alive := Process.not_isTerminated_of_isSchedulable able
    cases charge : p.charge with
    | goesOn left =>
      have same := (change_charge held charge).queues_eq h (consistent_charge h current held charge)
        current rfl
      simpa [chargeCurrent, chargeEvents, currentProcess?, current, held, charge] using same
    | quantumExpired =>
      have rotated := ((change_requeue held alive).vacated current).queues_rotate h
        (consistent_rotate h current held) current rfl rfl (Nat.le_refl _)
      simpa [chargeCurrent, chargeEvents, currentProcess?, current, held, charge,
        ReadyQueues.step] using rotated
    | cleanupOverrun =>
      obtain ⟨n, cleanup, _⟩ := Process.charge_cleanupOverrun charge
      have retired := queues_retire h held (by simp [cleanup, ProcessState.isCleanup]) .overrun
      rw [if_pos current] at retired
      simpa [chargeCurrent, chargeEvents, currentProcess?, current, held, charge,
        ReadyQueues.step] using retired

/-- Those whose time limits have run out by `now` join their queues, in slot order. -/
def wakeEvents (s : Scheduler) (now : Timestamp) : List Event :=
  (s.processes.due now).map fun (_, p) => .join p.priority p.id

theorem queues_foldl_requeue {xs : List (Nat × Process)} :
    ∀ {s : Scheduler}, s.Consistent → (xs.map (·.1)).Nodup →
      (∀ x ∈ xs, s.processes.get? x.1 = some x.2 ∧ x.2.isBlocked = true) →
      (xs.foldl (fun t x => t.requeue x.1) s).queues =
        (xs.map fun (_, p) => Event.join p.priority p.id).foldl ReadyQueues.step s.queues := by
  induction xs with
  | nil => exact fun _ _ _ => rfl
  | cons x xs ih =>
    intro s h nodup asleep
    obtain ⟨held, blocked⟩ := asleep x (by simp)
    have rest := ih (consistent_requeue h held blocked) (List.nodup_cons.1 nodup).2
      (forall_mem_requeue nodup fun y mem => asleep y (List.mem_cons_of_mem _ mem))
    rw [queues_requeue h held blocked] at rest
    exact rest

theorem queues_wakeExpired (h : s.Consistent) :
    s.wakeExpired.queues = (s.wakeEvents s.now).foldl ReadyQueues.step s.queues := by
  rw [wakeExpired_eq h]
  refine queues_foldl_requeue h (s.processes.nodup_due s.now) ?_
  intro ⟨i, p⟩ mem
  obtain ⟨held, come⟩ := ProcessTable.mem_due.1 mem
  exact ⟨held, isBlocked_of_isDue h held come⟩

theorem wakeEvents_eq {t : Scheduler} {q : Process} (c : Change s t i p q)
    (unlimited : p.deadline = none) (unlimited' : q.deadline = none) (now : Timestamp) :
    t.wakeEvents now = s.wakeEvents now := by
  have same : t.processes.due now = s.processes.due now := by
    refine ProcessTable.due_eq fun j u come => ?_
    by_cases at_i : j = i
    · subst j
      rw [c.get?_self, c.held]
      constructor
      · intro held
        obtain rfl := Option.some.inj held
        simp [Process.isDue, unlimited'] at come
      · intro held
        obtain rfl := Option.some.inj held
        simp [Process.isDue, unlimited] at come
    · rw [c.get?_of_ne at_i]
  rw [wakeEvents, same, wakeEvents]

theorem wakeEvents_chargeCurrent (h : s.Consistent) (now : Timestamp) :
    s.chargeCurrent.2.wakeEvents now = s.wakeEvents now := by
  cases current : s.current with
  | none => simp [chargeCurrent, current]
  | some i =>
    obtain ⟨p, held, _⟩ := h.holder i current
    have able := h.alive_of_holder current held
    have alive := Process.not_isTerminated_of_isSchedulable able
    have unlimited := h.deadline_eq_none held able
    cases charge : p.charge with
    | goesOn left =>
      have unlimited' : left.deadline = none := by
        rcases Process.charge_goesOn charge with ⟨_, _, rfl⟩ | ⟨_, _, _, rfl⟩ | ⟨_, _, rfl⟩ <;>
          exact unlimited
      have same := wakeEvents_eq (change_charge held charge) unlimited unlimited' now
      simpa [chargeCurrent, currentProcess?, current, held, charge] using same
    | quantumExpired =>
      have same := wakeEvents_eq ((change_requeue held alive).vacated current) unlimited rfl now
      simpa [chargeCurrent, currentProcess?, current, held, charge] using same
    | cleanupOverrun =>
      have same := wakeEvents_eq (change_retire held alive .overrun) unlimited rfl now
      simpa [chargeCurrent, currentProcess?, current, held, charge] using same

theorem queues_tick (h : s.Consistent) :
    s.tick.2.queues =
      (s.chargeEvents ++ s.wakeEvents s.now.next ++ [Event.elect]).foldl ReadyQueues.step s.queues := by
  have advanced : s.advance.Consistent := h.congr rfl rfl rfl rfl rfl
  have charged := (moves_chargeCurrent s.advance).consistent advanced
  have woken := (moves_wakeExpired charged).consistent charged
  have decided : s.tick.2.queues = s.beforeDecision.queues.elect := queues_schedule woken
  have wakes : s.advance.chargeCurrent.2.wakeEvents s.advance.chargeCurrent.2.now =
      s.wakeEvents s.now.next := by
    rw [wakeEvents_chargeCurrent advanced, (still_chargeCurrent s.advance).now]
    rfl
  have charges : s.advance.chargeCurrent.2.queues =
      s.chargeEvents.foldl ReadyQueues.step s.queues := queues_chargeCurrent advanced
  rw [decided, beforeDecision, queues_wakeExpired charged, wakes, charges, List.foldl_append,
    List.foldl_append]
  rfl

/-- What a request does to the queues. -/
def events (s : Scheduler) : Request → List Event
  | .instantiate asid => s.spawnEvents asid
  | .schedule => [.elect]
  | .yield id delay =>
    granted (s.yield id delay).1 [if delay.filter (· != 0) = none then .rotate else .release]
  | .waitIpc id timeout => granted (s.waitIpc id timeout).1 [.release]
  | .waitIo id timeout => granted (s.waitIo id timeout).1 [.release]
  | .deliverIpc id => granted (s.deliverIpc id).1 (s.eventFor id (.join · id))
  | .completeIo id => granted (s.completeIo id).1 (s.eventFor id (.join · id))
  | .requestTermination id =>
    granted (s.requestTermination id).1
      (if s.isCurrent id then [] else s.eventFor id (.join · id))
  | .cleanupDone id =>
    granted (s.cleanupDone id).1
      (if s.isCurrent id then [.release] else s.eventFor id (.leave · id))
  | .tick => s.chargeEvents ++ s.wakeEvents s.now.next ++ [.elect]
  | .buffer _ => []

theorem queues_after (h : s.Consistent) (r : Request) :
    (s.after r).queues = (s.events r).foldl ReadyQueues.step s.queues := by
  cases r with
  | instantiate asid => exact queues_instantiate h asid
  | schedule => exact queues_schedule h
  | yield id delay => exact queues_yield h id delay
  | waitIpc id timeout => exact queues_wait h id .ipc timeout
  | waitIo id timeout => exact queues_wait h id .io timeout
  | deliverIpc id => exact queues_wake h id .ipc
  | completeIo id => exact queues_wake h id .io
  | requestTermination id => exact queues_requestTermination h id
  | cleanupDone id => exact queues_cleanupDone h id
  | tick => exact queues_tick h
  | buffer r => rfl

def history (s : Scheduler) : List Request → List Event
  | [] => []
  | r :: rs => s.events r ++ (s.after r).history rs

theorem queues_run (h : s.Consistent) (rs : List Request) :
    (s.run rs).queues = (s.history rs).foldl ReadyQueues.step s.queues := by
  induction rs generalizing s with
  | nil => rfl
  | cons r rs ih =>
    rw [run_cons, ih (consistent_after h r), queues_after h r, history, List.foldl_append]

theorem queues_ofStore (store : Store) (o : Options) : (ofStore store o).queues = {} := by
  apply ReadyQueues.ext
  · funext r
    refine List.eq_nil_iff_forall_not_mem.2 fun id mem => ?_
    obtain ⟨i, p, ⟨held, _⟩, _⟩ := mem_queue.1 mem
    simp [get?_ofStore] at held
  · rfl

/-- Whatever is asked of a new scheduler, its queues are what empty first-in-first-out queues would
have become. Whatever is asked of it next changes them as it would change such queues. -/
theorem ready_queue_refinement {o : Options} {store : Store} (supported : o.check = .ok ())
    (loaded : store.IsLoaded o) (requests : List Request) (r : Request) :
    let s := (ofStore store o).run requests
    s.queues = ((ofStore store o).history requests).foldl ReadyQueues.step {} ∧
      (s.after r).queues = (s.events r).foldl ReadyQueues.step s.queues := by
  intro s
  have new := consistent_ofStore supported loaded
  have run : s.queues = _ := queues_run new requests
  rw [queues_ofStore] at run
  exact ⟨run, queues_after (consistent_run new requests) r⟩

/-- A more important process takes the processor, and the holder is at the head of its queue again.
-/
theorem ready_queue_refinement_duo :
    let s := (ofStore duo {}).run [.instantiate ⟨1⟩, .schedule, .instantiate ⟨0⟩]
    s.events .tick = [.elect] ∧ (s.after .tick).queues = s.queues.elect ∧
      (s.after .tick).queue ⟨3⟩ = [⟨0, 0⟩] := by
  intro s
  have reachable := reachable_duo [.instantiate ⟨1⟩, .schedule, .instantiate ⟨0⟩]
  have refines : s.queues = _ ∧ (s.after .tick).queues = _ := ready_queue_refinement
    reachable.supported reachable.loaded [.instantiate ⟨1⟩, .schedule, .instantiate ⟨0⟩] .tick
  have elects : s.events .tick = [.elect] := by decide +kernel
  refine ⟨elects, ?_, by decide +kernel⟩
  rw [refines.2]
  exact congrArg (List.foldl ReadyQueues.step s.queues) elects

end Scheduler
end SeparationKernel
