import Mathlib
import SeparationKernel.Proofs.Scheduler.Deadline
import SeparationKernel.Proofs.Scheduler.Isolation

/-! Waits with a time limit. A process that is left alone waits for exactly as long as it asked to,
and a limit that did not run out is gone without a trace. -/
namespace SeparationKernel
namespace Scheduler

def Request.suspends? : Request → Option (ProcessId × BlockReason × Option UInt32)
  | .yield id delay => (delay.filter (· != 0)).map fun d => (id, .yield, some d)
  | .waitIpc id timeout => some (id, .ipc, timeout)
  | .waitIo id timeout => some (id, .io, timeout)
  | _ => none

/-- What a process that waits for `reason` is waiting for has happened, or it is to terminate. -/
inductive Request.Interrupts (id : ProcessId) : BlockReason → Request → Prop where
  | message : Interrupts id .ipc (.deliverIpc id)
  | transfer : Interrupts id .io (.completeIo id)
  | termination (reason : BlockReason) : Interrupts id reason (.requestTermination id)

/-- In `t` the time limit that was set in `s` has not run out. A limit of zero lasts until the next
systick, as a limit of one does, and time ends at the last timestamp. -/
def Lasts (s t : Scheduler) (limit : Option UInt32) : Prop :=
  ∀ d, limit = some d →
    t.now.ticks.toNat < min (s.now.ticks.toNat + max d.toNat 1) (UInt64.size - 1)

variable {s t : Scheduler} {i : Nat} {p q : Process} {r e : Request} {rs : List Request}
  {id : ProcessId} {reason : BlockReason} {limit : Option UInt32}

theorem now_after_congr (same : t.now = s.now) (r : Request) : (t.after r).now = (s.after r).now := by
  by_cases tick : r = .tick
  · subst r
    show t.tick.2.now = s.tick.2.now
    rw [now_tick, now_tick, same]
  · rw [(still_after t tick).now, (still_after s tick).now, same]

theorem now_run_congr (same : t.now = s.now) (rs : List Request) :
    (t.run rs).now = (s.run rs).now := by
  induction rs generalizing s t with
  | nil => exact same
  | cons r rs ih => exact ih (now_after_congr same r)

theorem now_le_after (s : Scheduler) (r : Request) :
    s.now.ticks.toNat ≤ (s.after r).now.ticks.toNat := by
  by_cases tick : r = .tick
  · subst r
    show _ ≤ s.tick.2.now.ticks.toNat
    have last := s.now.ticks.toNat_lt
    have size : UInt64.size = 2 ^ 64 := rfl
    rw [now_tick, Timestamp.toNat_next]
    omega
  · rw [(still_after s tick).now]

theorem now_le_run (s : Scheduler) (rs : List Request) :
    s.now.ticks.toNat ≤ (s.run rs).now.ticks.toNat := by
  induction rs generalizing s with
  | nil => exact le_rfl
  | cons r rs ih => exact (now_le_after s r).trans (ih (s.after r))

theorem Lasts.of_le {u : Scheduler} (lasts : s.Lasts u limit)
    (le : t.now.ticks.toNat ≤ u.now.ticks.toNat) : s.Lasts t limit :=
  fun d limited => Nat.lt_of_le_of_lt le (lasts d limited)

/-- The deadline comes with the systick that the limit does not outlast. -/
theorem isDue_iff (deadline : p.deadline = limit.map s.deadlineAfter)
    (le : s.now.ticks.toNat ≤ t.now.ticks.toNat) :
    p.isDue t.now.next = true ↔ ¬ s.Lasts (t.after .tick) limit := by
  have now : (t.after .tick).now = t.now.next := now_tick t
  rw [Process.isDue, deadline, Lasts, now]
  cases limit with
  | none => simp
  | some d =>
    simp only [Option.map_some, Option.any_some, Timestamp.hasCome_iff, deadlineAfter,
      Timestamp.toNat_after, Timestamp.toNat_next, Option.some.injEq, forall_eq']
    omega

theorem answer?_of_suspends (suspends : r.suspends? = some (id, reason, limit)) :
    s.answer? r = some (s.checkRunning id) := by
  cases r with
  | yield id' delay =>
    obtain ⟨d, _, same⟩ := Option.map_eq_some_iff.1 suspends
    obtain ⟨rfl, _⟩ := Prod.mk.inj same
    exact answer?_eq rfl
  | waitIpc id' timeout | waitIo id' timeout =>
    obtain ⟨rfl, _⟩ := Prod.mk.inj (Option.some.inj suspends)
    exact answer?_eq rfl
  | _ => cases suspends

theorem after_of_suspends (suspends : r.suspends? = some (id, reason, limit))
    (granted : s.checkRunning id = .ok ()) :
    s.after r = { (s.update id.index (·.block reason (limit.map s.deadlineAfter))).vacate with
      nextPlace := if reason = .yield then s.nextPlace + 1 else s.nextPlace } := by
  cases r with
  | yield id' delay =>
    obtain ⟨d, delayed, same⟩ := Option.map_eq_some_iff.1 suspends
    obtain ⟨rfl, rfl, rfl⟩ := same
    show (s.yield _ delay).2 = _
    rw [yield_eq, granted, delayed]
    rfl
  | waitIpc id' timeout | waitIo id' timeout =>
    obtain ⟨rfl, rfl, rfl⟩ := suspends
    show (s.wait _ _ _).2 = _
    rw [wait_eq, granted]
    rfl
  | _ => cases suspends

theorem forget_of_suspends (suspends : r.suspends? = some (id, reason, limit))
    (granted : s.checkRunning id = .ok ()) :
    (s.after r).forget id.index = { (s.update id.index (·.block reason none)).vacate with
      nextPlace := if reason = .yield then s.nextPlace + 1 else s.nextPlace } := by
  rw [after_of_suspends suspends granted]
  simp only [forget, update, vacate, ProcessTable.modify_modify]
  rfl

theorem endsWait_iff :
    s.EndsWait p reason r ↔
      r.Interrupts p.id reason ∨ r = .tick ∧ p.isDue s.now.next = true := by
  constructor
  · rintro (⟨rfl, rfl⟩ | ⟨rfl, rfl⟩ | due | rfl)
    · exact Or.inl .message
    · exact Or.inl .transfer
    · exact Or.inr due
    · exact Or.inl (.termination reason)
  · rintro (interrupts | due)
    · cases interrupts with
      | message => exact Or.inl ⟨rfl, rfl⟩
      | transfer => exact Or.inr (Or.inl ⟨rfl, rfl⟩)
      | termination => exact Or.inr (Or.inr (Or.inr rfl))
    · exact Or.inr (Or.inr (Or.inl due))

theorem Becomes.eq_of_waits (becomes : s.Becomes i p r q) (h : s.Consistent)
    (held : s.processes.get? i = some p) (blocked : p.state = .blocked reason)
    (waits : ¬ s.EndsWait p reason r) : q = p := by
  have unready : p.state ≠ .ready := by simp [blocked]
  have idle : p.state ≠ .running := by simp [blocked]
  cases becomes with
  | stays => rfl
  | obeys granted =>
    rw [not_isGrantedTo_of_waits blocked waits] at granted
    cases granted
  | settles => exact Process.settle_eq_self unready idle _
  | elapses place =>
    have stuck : p.isBlocked = true := Process.isBlocked_iff.2 ⟨reason, blocked⟩
    have holds : (s.current == some i) = false :=
      beq_eq_false_iff_ne.2 (h.not_current_of_isBlocked held stuck)
    have elapsed : p.elapse (s.current == some i) s.now.next place = p := by
      rw [holds, Process.elapse, not_isDue_of_waits waits]
      rfl
    rw [elapsed]
    exact Process.settle_eq_self unready idle _

/-- A process that was suspended in `s` is left alone, and its limit outlasts the requests: it stays
as it is, and nothing else depends on its deadline. -/
theorem run_of_waits (h : t.Consistent) (le : s.now.ticks.toNat ≤ t.now.ticks.toNat)
    (held : t.processes.get? i = some p) (blocked : p.state = .blocked reason)
    (deadline : p.deadline = limit.map s.deadlineAfter)
    (calm : ∀ r ∈ rs, ¬ r.Interrupts p.id reason) (lasts : s.Lasts (t.run rs) limit) :
    (t.run rs).processes.get? i = some p ∧ (t.forget i).run rs = (t.run rs).forget i := by
  induction rs generalizing t with
  | nil => exact ⟨held, rfl⟩
  | cons r rs ih =>
    have waits : ¬ t.EndsWait p reason r := by
      rw [endsWait_iff, not_or]
      refine ⟨calm r (List.mem_cons_self ..), ?_⟩
      rintro ⟨rfl, due⟩
      exact (isDue_iff deadline le).1 due (lasts.of_le (now_le_run (t.after .tick) rs))
    have alive : p.isTerminated = false :=
      Process.not_isTerminated_of_isBlocked (Process.isBlocked_iff.2 ⟨reason, blocked⟩)
    obtain ⟨q, held', becomes⟩ := exists_after h (not_fills h held alive r) held
    obtain rfl := becomes.eq_of_waits h held blocked waits
    rw [run_cons, run_cons, after_forget h held blocked waits]
    exact ih (consistent_after h r) (le.trans (now_le_after t r)) held'
      (fun e mem => calm e (List.mem_cons_of_mem _ mem)) lasts

theorem get?_tick_of_isDue (h : s.Consistent) (held : s.processes.get? i = some p)
    (due : p.isDue s.now.next = true) :
    ∃ q, s.tick.2.processes.get? i = some q ∧ q.id = p.id ∧ q.app = p.app ∧
      q.state = (if s.tick.2.current = some i then .running else .ready) ∧
      q.quantumLeft = p.app.quantum ∧ q.deadline = none := by
  have waits := isBlocked_of_isDue (consistent_advance h) held due
  have holds : (s.current == some i) = false :=
    beq_eq_false_iff_ne.2 (h.not_current_of_isBlocked held waits)
  obtain ⟨place, after⟩ := get?_tick h i
  rw [held, Option.map_some, holds, Process.elapse, if_neg Bool.false_ne_true, if_pos due] at after
  refine ⟨_, after, ?_⟩
  by_cases chosen : s.tick.2.current = some i <;>
    simp [chosen, Process.settle, Process.makeReady, Process.dispatch, Process.preempt]

/-- An event or a request to terminate overwrites the deadline. -/
theorem after_forget_of_interrupts (interrupts : e.Interrupts id reason)
    (held : s.processes.get? id.index = some p) (named : p.id = id)
    (blocked : p.state = .blocked reason) : (s.forget id.index).after e = s.after e := by
  have live : s.processes.live? id = some p := ProcessTable.live?_eq_some_iff.2 ⟨held, named,
    Process.not_isTerminated_of_isBlocked (Process.isBlocked_iff.2 ⟨reason, blocked⟩)⟩
  cases interrupts with
  | message | transfer =>
    have granted : s.checkState id (· == .blocked _) (.notWaiting id) = .ok () :=
      checkState_eq_ok.2 ⟨p, live, beq_iff_eq.2 blocked⟩
    show ((s.forget id.index).wake id _).2 = (s.wake id _).2
    rw [wake_eq, wake_eq, checkState_forget, granted]
    simp only [Verdict.commit_ok, requeue, enqueue, forget, update, ProcessTable.modify_modify]
    rfl
  | termination =>
    have granted : s.checkState id (!·.isCleanup) (.terminating id) = .ok () :=
      checkState_eq_ok.2 ⟨p, live, by simp [blocked, ProcessState.isCleanup]⟩
    show ((s.forget id.index).requestTermination id).2 = (s.requestTermination id).2
    rw [requestTermination_eq, requestTermination_eq, checkState_forget, granted]
    simp only [Verdict.commit_ok, enqueue, forget, update, isCurrent, ProcessTable.modify_modify]
    rfl

def IsUnlimited (s : Scheduler) (id : ProcessId) : Prop :=
  ∀ p, s.processes.find? id = some p → p.deadline = none

theorem Becomes.deadline_eq_none (becomes : s.Becomes i p r q) (unlimited : p.deadline = none)
    (others : ∀ reason limit, r.suspends? ≠ some (p.id, reason, limit)) : q.deadline = none := by
  cases becomes with
  | stays => exact unlimited
  | settles => rw [Process.deadline_settle, unlimited]
  | elapses place =>
    rw [Process.deadline_settle, Process.elapse]
    split
    · exact deadline_charged unlimited place
    · rw [if_neg (by simp [Process.isDue, unlimited]), unlimited]
  | obeys granted =>
    have about : r.addressee? = some p.id := by
      rw [Request.isGrantedTo, Bool.and_eq_true, beq_iff_eq] at granted
      exact granted.1
    cases r with
    | yield id delay =>
      obtain rfl := Option.some.inj about
      cases delayed : delay.filter (· != 0) with
      | none =>
        rw [obey, delayed]
        rfl
      | some d => exact absurd (by rw [Request.suspends?, delayed]; rfl) (others .yield (some d))
    | waitIpc id timeout | waitIo id timeout =>
      obtain rfl := Option.some.inj about
      exact absurd rfl (others _ timeout)
    | deliverIpc | completeIo | requestTermination | cleanupDone => rfl
    | instantiate | schedule | tick | buffer => cases about

theorem IsUnlimited.after (unlimited : s.IsUnlimited id) (h : s.Consistent)
    (others : ∀ reason limit, r.suspends? ≠ some (id, reason, limit)) :
    (s.after r).IsUnlimited id := by
  intro q found
  obtain ⟨held, named⟩ := ProcessTable.find?_eq_some_iff.1 found
  by_cases fills : s.Fills id.index r
  · obtain ⟨_, _, _, _, _, _, made⟩ := get?_after_of_fills h fills
    obtain rfl := Option.some.inj (held.symm.trans made)
    rfl
  · obtain ⟨p, held', becomes⟩ := exists_before h fills held
    have same : p.id = id := becomes.sameAs.id.symm.trans named
    exact becomes.deadline_eq_none (unlimited p (ProcessTable.find?_eq_some_iff.2 ⟨held', same⟩))
      (same ▸ others)

theorem IsUnlimited.run (unlimited : s.IsUnlimited id) (h : s.Consistent)
    (others : ∀ r ∈ rs, ∀ reason limit, r.suspends? ≠ some (id, reason, limit)) :
    (s.run rs).IsUnlimited id := by
  induction rs generalizing s with
  | nil => exact unlimited
  | cons r rs ih =>
    exact ih (unlimited.after h (others r (List.mem_cons_self ..))) (consistent_after h r)
      fun e mem => others e (List.mem_cons_of_mem _ mem)

theorem isUnlimited_after_of_interrupts (h : s.Consistent) (interrupts : e.Interrupts id reason)
    (held : s.processes.get? id.index = some p) (named : p.id = id)
    (blocked : p.state = .blocked reason) : (s.after e).IsUnlimited id := by
  intro q found
  obtain ⟨held', _⟩ := ProcessTable.find?_eq_some_iff.1 found
  subst named
  cases interrupts with
  | message | transfer | termination =>
    rw [get?_after_of_addressee? h rfl, held, Option.map_some, if_pos
      ((isGrantedTo_iff rfl).2 ⟨rfl, by simp [Request.suits, blocked, ProcessState.isTerminated,
        ProcessState.isCleanup]⟩)] at held'
    rw [← Option.some.inj held']
    rfl

theorem IsUnlimited.tick (unlimited : s.IsUnlimited id) (h : s.Consistent)
    (found : s.processes.find? id = some p) (waits : s.currentId? ≠ some id)
    (found' : s.tick.2.processes.find? id = some q) :
    q.quantumLeft = p.quantumLeft ∧ q.queuedAt = p.queuedAt := by
  have early : p.isDue s.now.next = false := by simp [Process.isDue, unlimited p found]
  obtain ⟨held, rfl⟩ := ProcessTable.find?_eq_some_iff.1 found
  obtain ⟨held', _⟩ := ProcessTable.find?_eq_some_iff.1 found'
  have holds : (s.current == some p.id.index) = false :=
    beq_eq_false_iff_ne.2 fun holder => waits ((currentId?_eq_some_iff h held).2 holder)
  obtain ⟨place, after⟩ := get?_tick h p.id.index
  rw [held', held, Option.map_some, holds, Process.elapse, if_neg Bool.false_ne_true,
    if_neg (by simp [early])] at after
  rw [Option.some.inj after, Process.queuedAt_settle, Process.quantumLeft_settle]
  exact ⟨rfl, rfl⟩

/-- A process that was suspended and left alone while its limit lasts waits as it began to. Were it
not for its deadline, nothing would tell the limit. -/
theorem run_of_suspends (h : s.Consistent) (suspends : r.suspends? = some (id, reason, limit))
    (granted : s.checkRunning id = .ok ()) (calm : ∀ e ∈ rs, ¬ e.Interrupts id reason)
    (lasts : s.Lasts (s.run (r :: rs)) limit) :
    ∃ p, (s.run (r :: rs)).processes.get? id.index = some p ∧ p.id = id ∧
      p.state = .blocked reason ∧ p.deadline = limit.map s.deadlineAfter ∧
      (s.run (r :: rs)).forget id.index = ((s.after r).forget id.index).run rs := by
  obtain ⟨q, held, _, _, named⟩ := checkRunning_eq_ok.1 granted
  have begun : (s.after r).processes.get? id.index =
      some (q.block reason (limit.map s.deadlineAfter)) := by
    rw [after_of_suspends suspends granted]
    show (s.processes.modify id.index _).get? id.index = _
    rw [ProcessTable.get?_modify_self, held]
    rfl
  have same : (q.block reason (limit.map s.deadlineAfter)).id = id := named
  obtain ⟨held', forgets⟩ := run_of_waits (consistent_after h r) (now_le_after s r) begun rfl rfl
    (same.symm ▸ calm) lasts
  exact ⟨_, held', same, rfl, rfl, forgets.symm⟩

/-- How a wait goes that began in `s` and has come to `t` by `rs`. -/
structure TimedWait (s t : Scheduler) (id : ProcessId) (reason : BlockReason)
    (limit : Option UInt32) (rs : List Request) : Prop where
  /-- The process stays blocked as long as the limit lasts, and for ever if there is none. -/
  waits : s.Lasts t limit → ∃ p, t.processes.find? id = some p ∧ p.state = .blocked reason ∧
    p.deadline = limit.map s.deadlineAfter
  /-- The systick that the limit does not outlast wakes it, with a whole quantum. -/
  wakes : s.Lasts t limit → ¬ s.Lasts t.tick.2 limit →
    ∃ p, t.tick.2.processes.find? id = some p ∧
      p.state = (if t.tick.2.currentId? = some id then .running else .ready) ∧
      p.quantumLeft = p.app.quantum ∧ p.deadline = none
  /-- If its wait is interrupted before, it has no deadline until it is suspended again, and a
  systick gives it neither a quantum nor a place while it has not got the processor. -/
  disarms : s.Lasts t limit → ∀ e, e.Interrupts id reason → ∀ later,
    (∀ r ∈ later, ∀ reason limit, r.suspends? ≠ some (id, reason, limit)) →
    let u := (t.after e).run later
    u.IsUnlimited id ∧ ∀ p q, u.currentId? ≠ some id → u.processes.find? id = some p →
      u.tick.2.processes.find? id = some q →
      q.quantumLeft = p.quantumLeft ∧ q.queuedAt = p.queuedAt
  /-- From then on everything is as if there had been another limit, or none. -/
  forgets : s.Lasts t limit → ∀ e, e.Interrupts id reason → ∀ r limit',
    r.suspends? = some (id, reason, limit') → s.Lasts t limit' →
    (s.run (r :: rs)).after e = t.after e

/-- After any requests to a new scheduler with supported options, a process is suspended, and other
requests follow, none of which is the event that it waits for or a request to terminate it. Its time
limit is exact: it neither wakes before nor after the systick with which its time is over. If it is
interrupted before that, the limit has no effect ever after. -/
theorem time_limits_exact {o o' : Options} {store : Store} (supported : o.check = .ok ())
    (loaded : store.IsLoaded o') (before : List Request)
    (suspends : r.suspends? = some (id, reason, limit))
    (granted : ((ofStore store o).run before).answer? r = some (.ok ()))
    (calm : ∀ e ∈ rs, ¬ e.Interrupts id reason) :
    let s := (ofStore store o).run before
    TimedWait s (s.run (r :: rs)) id reason limit rs := by
  intro s
  have h : s.Consistent := consistent_run (consistent_ofStore supported loaded) before
  have h' : (s.run (r :: rs)).Consistent := consistent_run h _
  have le : s.now.ticks.toNat ≤ (s.run (r :: rs)).now.ticks.toNat := now_le_run s _
  have runs : s.checkRunning id = .ok () :=
    Option.some.inj ((answer?_of_suspends suspends).symm.trans granted)
  have waits := run_of_suspends h suspends runs calm
  constructor
  · intro lasts
    obtain ⟨p, held, named, blocked, deadline, _⟩ := waits lasts
    exact ⟨p, ProcessTable.find?_eq_some_iff.2 ⟨held, named⟩, blocked, deadline⟩
  · intro lasts ended
    obtain ⟨p, held, rfl, _, deadline, _⟩ := waits lasts
    obtain ⟨q, held', named, app, state, whole, unlimited⟩ :=
      get?_tick_of_isDue h' held ((isDue_iff deadline le).2 ended)
    have holds := currentId?_eq_some_iff (consistent_after h' .tick) held'
    rw [named] at holds
    refine ⟨q, ProcessTable.find?_eq_some_iff.2 ⟨held', named⟩, ?_, by rw [whole, app], unlimited⟩
    rw [state]
    exact if_congr holds.symm rfl rfl
  · intro lasts e interrupts later others u
    obtain ⟨p, held, named, blocked, _⟩ := waits lasts
    have disarmed := isUnlimited_after_of_interrupts h' interrupts held named blocked
    have unlimited : u.IsUnlimited id := disarmed.run (consistent_after h' e) others
    exact ⟨unlimited, fun p q waiting found found' =>
      unlimited.tick (consistent_run (consistent_after h' e) later) found waiting found'⟩
  · intro lasts e interrupts r' limit' suspends' lasts'
    obtain ⟨p, held, named, blocked, _, forgets⟩ := waits lasts
    have same : (s.after r').now = (s.after r).now := by
      rw [after_of_suspends suspends' runs, after_of_suspends suspends runs]
      rfl
    have lasts'' : s.Lasts (s.run (r' :: rs)) limit' :=
      lasts'.of_le (le_of_eq (congrArg (·.ticks.toNat) (now_run_congr same rs)))
    obtain ⟨p', held', named', blocked', _, forgets'⟩ :=
      run_of_suspends h suspends' runs calm lasts''
    calc (s.run (r' :: rs)).after e
        = ((s.run (r' :: rs)).forget id.index).after e :=
          (after_forget_of_interrupts interrupts held' named' blocked').symm
      _ = (((s.after r').forget id.index).run rs).after e := by rw [forgets']
      _ = (((s.after r).forget id.index).run rs).after e := by
          rw [forget_of_suspends suspends' runs, forget_of_suspends suspends runs]
      _ = ((s.run (r :: rs)).forget id.index).after e := by rw [forgets]
      _ = (s.run (r :: rs)).after e :=
          after_forget_of_interrupts interrupts held named blocked

/-- The more important of two applications waits for a message, for two systicks. After one of them it
still waits, and the other one gives it the processor back; or the message comes in between, as it
might have come without a limit. -/
theorem time_limits_exact_duo :
    let s := (ofStore duo {}).run [.instantiate ⟨0⟩, .instantiate ⟨1⟩, .schedule]
    let t := s.run [.waitIpc ⟨0, 0⟩ (some 2), .schedule, .tick]
    t.stateOf? ⟨0, 0⟩ = some (.blocked .ipc) ∧ t.tick.2.stateOf? ⟨0, 0⟩ = some .running ∧
      (∃ p, t.tick.2.processes.find? ⟨0, 0⟩ = some p ∧ p.quantumLeft = p.app.quantum) ∧
      ((t.after (.deliverIpc ⟨0, 0⟩)).run [.tick, .tick]).IsUnlimited ⟨0, 0⟩ ∧
      (s.run [.waitIpc ⟨0, 0⟩ none, .schedule, .tick]).after (.deliverIpc ⟨0, 0⟩) =
        t.after (.deliverIpc ⟨0, 0⟩) := by
  intro s t
  have loaded : duo.IsLoaded {} := ⟨{}, {}, duo.apps, by decide +kernel⟩
  have granted : s.answer? (.waitIpc ⟨0, 0⟩ (some 2)) = some (.ok ()) := by decide +kernel
  have calm : ∀ e ∈ [Request.schedule, .tick], ¬ e.Interrupts ⟨0, 0⟩ .ipc := by
    intro e mem interrupts
    cases interrupts <;> simp at mem
  have timed := time_limits_exact (by decide) loaded _ rfl granted calm
  have lasts : s.Lasts t (some 2) := by
    rintro d ⟨⟩
    decide +kernel
  have ended : ¬ s.Lasts t.tick.2 (some 2) := fun lasts => absurd (lasts 2 rfl) (by decide +kernel)
  obtain ⟨p, found, blocked, _⟩ := timed.waits lasts
  obtain ⟨q, found', _, whole, _⟩ := timed.wakes lasts ended
  have disarmed := timed.disarms lasts _ .message [.tick, .tick] (by simp [Request.suspends?])
  refine ⟨?_, by decide +kernel, ⟨q, found', whole⟩, disarmed.1,
    timed.forgets lasts _ .message (.waitIpc ⟨0, 0⟩ none) none rfl fun d limited => by cases limited⟩
  rw [stateOf?, found, Option.map_some, blocked]

end Scheduler
end SeparationKernel
