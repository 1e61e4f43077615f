import Mathlib
import SeparationKernel.Proofs.Process.Course
import SeparationKernel.Proofs.Scheduler.Reachable

/-! What each request makes of the process in one slot. Whatever is said about the life of a
process, from when it is made until its slot is used again, goes through these equations. -/
namespace SeparationKernel
namespace Scheduler

variable {s : Scheduler} {i : Nat} {p : Process}

/-- The states of a process in which a request about it is granted. -/
def Request.suits : Request → ProcessState → Bool
  | .yield _ _, state | .waitIpc _ _, state | .waitIo _ _, state => state == .running
  | .deliverIpc _, state => state == .blocked .ipc
  | .completeIo _, state => state == .blocked .io
  | .requestTermination _, state => !state.isTerminated && !state.isCleanup
  | .cleanupDone _, state => state.isCleanup
  | _, _ => false

def Request.isGrantedTo (r : Request) (p : Process) : Bool :=
  r.addressee? == some p.id && r.suits p.state

def obey (s : Scheduler) (p : Process) : Request → Process
  | .yield _ delay =>
    match delay.filter (· != 0) with
    | none => p.makeReady s.nextPlace
    | some d => p.block .yield (some (s.deadlineAfter d))
  | .waitIpc _ timeout => p.block .ipc (timeout.map s.deadlineAfter)
  | .waitIo _ timeout => p.block .io (timeout.map s.deadlineAfter)
  | .deliverIpc _ | .completeIo _ => p.makeReady s.nextPlace
  | .requestTermination id =>
    p.beginCleanup s.policy.cleanupQuantum (if s.isCurrent id then none else some s.nextPlace)
  | .cleanupDone _ => p.terminate .completed
  | _ => p

theorem sameAs_obey (s : Scheduler) (p : Process) (r : Request) :
    Process.SameAs p (s.obey p r) := by
  cases r with
  | yield id delay =>
    rw [obey]
    split <;> exact {}
  | _ => exact {}

theorem not_isTerminated_of_suits {r : Request} {state : ProcessState}
    (suits : r.suits state = true) : state.isTerminated = false := by
  rcases state with (_ | _ | _) | _ | outcome
  · rfl
  · rfl
  · rfl
  · rfl
  · cases r <;> simp [Request.suits, ProcessState.isTerminated, ProcessState.isCleanup] at suits

theorem isGrantedTo_iff {r : Request} {id : ProcessId} (about : r.addressee? = some id) :
    r.isGrantedTo p = true ↔ id = p.id ∧ r.suits p.state = true := by
  simp [Request.isGrantedTo, about]

theorem not_isGrantedTo_of_index_ne (h : s.Consistent) {r : Request} {id : ProcessId}
    (about : r.addressee? = some id) (held : s.processes.get? i = some p) (other : id.index ≠ i) :
    r.isGrantedTo p = false := by
  by_contra suited
  obtain ⟨rfl, _⟩ := (isGrantedTo_iff about).1 (by simpa using suited)
  exact other (h.named i p held).1

def Request.releases : Request → Bool
  | .yield _ _ | .waitIpc _ _ | .waitIo _ _ | .cleanupDone _ => true
  | _ => false

/-- A request about one process is refused, or granted to the process that it names. -/
inductive Outcome (s : Scheduler) (r : Request) (id : ProcessId) : Scheduler → Prop where
  | refused (nobody : ∀ i p, s.processes.get? i = some p → r.isGrantedTo p = false) :
    Outcome s r id s
  | granted {q : Process} {t : Scheduler} (held : s.processes.get? id.index = some q)
    (suits : r.isGrantedTo q = true)
    (processes : t.processes = s.processes.modify id.index (s.obey · r))
    (current : t.current = if r.releases && s.isCurrent id then none else s.current) :
    Outcome s r id t

theorem outcome_of_commit (h : s.Consistent) {r : Request} {id : ProcessId}
    (about : r.addressee? = some id) {v : Verdict ProcessError} {t : Scheduler}
    (granted : v = .ok () ↔ ∃ q, s.processes.live? id = some q ∧ r.suits q.state = true)
    (changes : v = .ok () → ∀ q, s.processes.live? id = some q →
      t.processes = s.processes.modify id.index (s.obey · r) ∧
        t.current = if r.releases && s.isCurrent id then none else s.current) :
    Outcome s r id (Verdict.commit v s t).2 := by
  cases verdict : v with
  | error e =>
    refine .refused fun i p held => ?_
    by_contra suited
    obtain ⟨rfl, suits⟩ := (isGrantedTo_iff about).1 (by simpa using suited)
    have live : s.processes.live? p.id = some p := ProcessTable.live?_eq_some_iff.2
      ⟨(h.named i p held).1 ▸ held, rfl, not_isTerminated_of_suits suits⟩
    have accepted := granted.2 ⟨p, live, suits⟩
    simp [verdict] at accepted
  | ok =>
    obtain ⟨q, live, suits⟩ := granted.1 verdict
    obtain ⟨held, rfl, _⟩ := ProcessTable.live?_eq_some_iff.1 live
    obtain ⟨processes, current⟩ := changes verdict q live
    exact .granted held ((isGrantedTo_iff about).2 ⟨rfl, suits⟩) processes current

theorem checkRunning_eq_ok_iff (h : s.Consistent) {id : ProcessId} :
    s.checkRunning id = .ok () ↔
      ∃ p, s.processes.live? id = some p ∧ (p.state == .running) = true := by
  rw [checkRunning_eq_ok]
  constructor
  · rintro ⟨p, held, running, _, named⟩
    have alive := Process.not_isTerminated_of_running running
    exact ⟨p, ProcessTable.live?_eq_some_iff.2 ⟨held, named, alive⟩, by simp [running]⟩
  · rintro ⟨p, live, running⟩
    obtain ⟨held, named, _⟩ := ProcessTable.live?_eq_some_iff.1 live
    have runs : p.state = .running := by simpa using running
    exact ⟨p, held, runs, h.running id.index p held runs, named⟩

theorem checkHealthy_eq_ok_iff {id : ProcessId} :
    s.checkState id (!·.isCleanup) (.terminating id) = .ok () ↔
      ∃ p, s.processes.live? id = some p ∧
        (Request.requestTermination id).suits p.state = true := by
  rw [checkState_eq_ok]
  refine exists_congr fun p => and_congr_right fun live => ?_
  have alive : p.state.isTerminated = false := (ProcessTable.live?_eq_some_iff.1 live).2.2
  simp [Request.suits, alive]

theorem processes_retire (s : Scheduler) (j : Nat) (q : Process) (outcome : CleanupOutcome) :
    (s.retire j q outcome).processes = s.processes.modify j (·.terminate outcome) := by
  rw [retire]
  split <;> rfl

theorem current_retire (s : Scheduler) (j : Nat) (q : Process) (outcome : CleanupOutcome) :
    (s.retire j q outcome).current = if s.current = some j then none else s.current := by
  rw [retire]
  split <;> rfl

theorem isCurrent_of_checkRunning {id : ProcessId} (runs : s.checkRunning id = .ok ()) :
    s.isCurrent id = true := by
  obtain ⟨_, _, _, holder, _⟩ := checkRunning_eq_ok.1 runs
  exact beq_iff_eq.2 holder

/-- Nothing speaks against a request about a live process that suits it. -/
theorem findings_eq_ok_iff (h : s.Consistent) {r : Request} {id : ProcessId}
    (about : r.addressee? = some id) :
    s.findings r = .ok () ↔
      ∃ p, s.processes.live? id = some p ∧ r.suits p.state = true := by
  cases r with
  | yield | waitIpc | waitIo =>
    obtain rfl := Option.some.inj about
    exact checkRunning_eq_ok_iff h
  | deliverIpc | completeIo | cleanupDone =>
    obtain rfl := Option.some.inj about
    rw [findings, checkState_eq_ok]
    rfl
  | requestTermination =>
    obtain rfl := Option.some.inj about
    exact checkHealthy_eq_ok_iff
  | instantiate | schedule | tick | buffer => cases about

/-- What a request about one process does. -/
theorem outcome_after (h : s.Consistent) {r : Request} {id : ProcessId}
    (about : r.addressee? = some id) : Outcome s r id (s.after r) := by
  rw [after_eq_commit about]
  refine outcome_of_commit h about (findings_eq_ok_iff h about) fun suits q live => ?_
  cases r with
  | yield id' delay =>
    obtain rfl := Option.some.inj about
    constructor
    · cases limit : delay.filter (· != 0) <;> simp only [accept, obey, limit] <;> rfl
    · rw [isCurrent_of_checkRunning suits]
      rfl
  | waitIpc id' timeout | waitIo id' timeout =>
    obtain rfl := Option.some.inj about
    refine ⟨rfl, ?_⟩
    rw [isCurrent_of_checkRunning suits]
    rfl
  | deliverIpc id' | completeIo id' =>
    obtain rfl := Option.some.inj about
    exact ⟨rfl, rfl⟩
  | requestTermination id' =>
    obtain rfl := Option.some.inj about
    simp only [accept, obey]
    split <;> exact ⟨rfl, rfl⟩
  | cleanupDone id' =>
    obtain rfl := Option.some.inj about
    rw [accept, live]
    refine ⟨processes_retire s _ q .completed, ?_⟩
    rw [current_retire]
    simp [isCurrent, Request.releases]
  | instantiate | schedule | tick | buffer => cases about

theorem get?_after_of_addressee? (h : s.Consistent) {r : Request} {id : ProcessId}
    (about : r.addressee? = some id) (i : Nat) :
    (s.after r).processes.get? i =
      (s.processes.get? i).map fun p => if r.isGrantedTo p then s.obey p r else p := by
  have outcome := outcome_after h about
  generalize s.after r = t at outcome ⊢
  cases held : s.processes.get? i with
  | none =>
    cases outcome with
    | refused => rw [held]; rfl
    | granted _ _ processes => simp [processes, ProcessTable.get?_modify, held]
  | some p =>
    cases outcome with
    | refused nobody => simp [held, nobody i p held]
    | @granted q _ held' suits processes =>
      rw [processes, ProcessTable.get?_modify]
      by_cases same : id.index = i
      · subst i
        obtain rfl := Option.some.inj (held'.symm.trans held)
        simp [held, suits]
      · simp [same, held, not_isGrantedTo_of_index_ne h about held same]

theorem current_after_of_addressee? (h : s.Consistent) {r : Request} {id : ProcessId}
    (about : r.addressee? = some id) (held : s.processes.get? i = some p) :
    (s.after r).current = some i ↔
      s.current = some i ∧ (r.isGrantedTo p && r.releases) = false := by
  have outcome := outcome_after h about
  generalize s.after r = t at outcome ⊢
  cases outcome with
  | refused nobody => simp [nobody i p held]
  | @granted q _ held' suits processes current =>
    rw [current]
    by_cases same : id.index = i
    · subst i
      obtain rfl := Option.some.inj (held'.symm.trans held)
      by_cases holder : s.current = some id.index <;>
        cases releases : r.releases <;> simp [isCurrent, holder, suits]
    · have refused := not_isGrantedTo_of_index_ne h about held same
      by_cases holder : s.current = some id.index <;>
        cases releases : r.releases <;> simp [isCurrent, holder, refused, same]

theorem not_running_of_not_current (h : s.Consistent) (held : s.processes.get? i = some p)
    (other : s.current ≠ some i) : p.state ≠ .running :=
  fun running => other (h.running i p held running)

/-- What a decision makes of the process in slot `i`, if there is one. -/
theorem get?_schedule (h : s.Consistent) (i : Nat) :
    s.schedule.processes.get? i =
      (s.processes.get? i).map (·.settle (s.schedule.current == some i)) := by
  have decision := decision_schedule s
  generalize s.schedule = t at decision ⊢
  cases held : s.processes.get? i with
  | none => cases decision <;> simp [get?_giveTo, get?_withdraw, vacate, held]
  | some p =>
    cases decision with
    | @keep j q holder held' able best =>
      by_cases same : j = i
      · subst j
        have unready : p.state ≠ .ready := by
          intro ready
          have runs := h.running_of_holder holder held (by simp [ready, ProcessState.isCleanup])
          simp [ready] at runs
        simp [holder, held, Process.settle, Process.dispatch_eq_self unready]
      · have idle := not_running_of_not_current h held (by simp [holder, same])
        simp [holder, same, held, Process.settle, Process.preempt_eq_self idle]
    | @preempt j k q r holder held' able waits more first =>
      have given : (s.withdraw.giveTo k).current = some k := rfl
      rw [given, get?_giveTo, get?_withdraw, held]
      by_cases chosen : k = i
      · subst k
        simp [waits.2.2, Process.settle]
      · by_cases same : j = i
        · subst j
          simp [holder, chosen, Process.settle]
        · have idle := not_running_of_not_current h held (by simp [holder, same])
          simp [holder, same, chosen, Process.settle, Process.preempt_eq_self idle]
    | @dispatch k r nobody waits first =>
      have given : (s.giveTo k).current = some k := rfl
      have vacant := current_eq_none_of_holder? h nobody
      rw [given, get?_giveTo, held]
      by_cases chosen : k = i
      · subst k
        simp [Process.settle]
      · have idle := not_running_of_not_current h held (by simp [vacant])
        simp [chosen, Process.settle, Process.preempt_eq_self idle]
    | idle nobody empty =>
      have vacant := current_eq_none_of_holder? h nobody
      have idle := not_running_of_not_current h held (by simp [vacant])
      simp [vacate, held, Process.settle, Process.preempt_eq_self idle]

/-- How many of the processes below slot `i` wake up now. -/
def dueBelow (s : Scheduler) (i : Nat) : Nat :=
  (s.processes.slots.take i).countP fun slot => slot.isDue s.now && slot.isBlocked

/-- A slot whose deadline has come gets the place after those of the slots before it. -/
theorem getElem?_wakeSlots (now : Timestamp) (slots : List Slot) :
    ∀ (place i : Nat), (ProcessTable.wakeSlots now place slots).1[i]? =
      slots[i]?.map fun slot => if slot.isDue now then
        slot.expire (place + (slots.take i).countP fun x => x.isDue now && x.isBlocked)
      else slot := by
  induction slots with
  | nil => exact fun place i => rfl
  | cons slot slots ih =>
    intro place i
    cases i with
    | zero =>
      rw [ProcessTable.wakeSlots]
      split <;> simp [*]
    | succ i =>
      rw [ProcessTable.wakeSlots, List.take_succ_cons, List.countP_cons]
      by_cases come : slot.isDue now = true
      · rw [if_pos come, List.getElem?_cons_succ, List.getElem?_cons_succ, ih]
        cases slot.isBlocked <;> simp [come, Nat.add_assoc, Nat.add_comm 1]
      · rw [if_neg come, List.getElem?_cons_succ, List.getElem?_cons_succ, ih]
        simp [come]

theorem get?_wakeExpired (h : s.Consistent) (i : Nat) :
    s.wakeExpired.processes.get? i = (s.processes.get? i).map fun a =>
      if a.isDue s.now then a.makeReady (s.nextPlace + s.dueBelow i) else a := by
  show (ProcessTable.wakeSlots s.now s.nextPlace s.processes.slots).1[i]?.bind (·.occupant) = _
  rw [getElem?_wakeSlots, ← dueBelow]
  cases at_i : s.processes.slots[i]? with
  | none => simp [ProcessTable.get?, at_i]
  | some slot =>
    cases occupied : slot.occupant with
    | none => simp [ProcessTable.get?, at_i, occupied, Slot.isDue]
    | some a =>
      have held : s.processes.get? i = some a := by simp [ProcessTable.get?, at_i, occupied]
      have due : slot.isDue s.now = a.isDue s.now := by simp [Slot.isDue, occupied]
      rw [held]
      by_cases come : a.isDue s.now = true
      · simp [due, come, Slot.expire, occupied, Process.expire, isBlocked_of_isDue h held come]
      · simp [due, come, occupied]

theorem get?_chargeCurrent_of_ne (other : s.current ≠ some i) :
    s.chargeCurrent.2.processes.get? i = s.processes.get? i := by
  rw [chargeCurrent]
  split
  · rename_i j q holder _
    have away : i ≠ j := fun same => other (same ▸ holder)
    split
    · exact ProcessTable.get?_modify_of_ne _ _ away
    · exact ProcessTable.get?_modify_of_ne _ _ away
    · show (s.retire j q .overrun).processes.get? i = _
      rw [processes_retire]
      exact ProcessTable.get?_modify_of_ne _ _ away
  · rfl

theorem get?_chargeCurrent (holder : s.current = some i) (held : s.processes.get? i = some p) :
    s.chargeCurrent.2.processes.get? i = some (p.charged s.nextPlace) := by
  have current : s.currentProcess? = some p := currentProcess?_eq_some_iff.2 ⟨i, holder, held⟩
  cases charge : p.charge with
  | goesOn left => simp [chargeCurrent, holder, current, Process.charged, charge, update, held]
  | quantumExpired =>
    simp [chargeCurrent, holder, current, Process.charged, charge, vacate, requeue, enqueue, update,
      held]
  | cleanupOverrun =>
    simp [chargeCurrent, holder, current, Process.charged, charge, processes_retire, held]

theorem deadline_charged (unlimited : p.deadline = none) (place : Nat) :
    (p.charged place).deadline = none := by
  rw [Process.charged]
  split
  · rename_i left goesOn
    rcases Process.charge_goesOn goesOn with ⟨_, _, rfl⟩ | ⟨_, _, _, rfl⟩ | ⟨_, _, rfl⟩ <;>
      exact unlimited
  · rfl
  · rfl

theorem consistent_advance (h : s.Consistent) : s.advance.Consistent := h.congr rfl rfl rfl rfl rfl

theorem consistent_charged (h : s.Consistent) : s.advance.chargeCurrent.2.Consistent :=
  (moves_chargeCurrent s.advance).consistent (consistent_advance h)

theorem consistent_beforeDecision (h : s.Consistent) : s.beforeDecision.Consistent :=
  (moves_beforeDecision h).consistent h

theorem get?_beforeDecision (h : s.Consistent) (i : Nat) :
    ∃ place, s.beforeDecision.processes.get? i =
      (s.processes.get? i).map (·.elapse (s.current == some i) s.now.next place) := by
  have now : s.advance.chargeCurrent.2.now = s.now.next := (still_chargeCurrent s.advance).now
  have woken := get?_wakeExpired (consistent_charged h) i
  rw [now] at woken
  -- Who is charged has no deadline, and who has one is not charged.
  by_cases holder : s.current = some i
  · obtain ⟨p, held, _⟩ := h.holder i holder
    have charged : s.advance.chargeCurrent.2.processes.get? i =
        some (p.charged s.nextPlace) := get?_chargeCurrent (s := s.advance) holder held
    have unlimited := deadline_charged (h.deadline_eq_none held (h.alive_of_holder holder held))
      s.nextPlace
    refine ⟨s.nextPlace, ?_⟩
    rw [beforeDecision, woken, charged, held]
    simp [Process.isDue, unlimited, Process.elapse, holder]
  · have kept : s.advance.chargeCurrent.2.processes.get? i = s.processes.get? i :=
      get?_chargeCurrent_of_ne (s := s.advance) holder
    refine ⟨s.advance.chargeCurrent.2.nextPlace + s.advance.chargeCurrent.2.dueBelow i, ?_⟩
    rw [beforeDecision, woken, kept]
    simp [Process.elapse, holder]

/-- What a systick makes of the process in slot `i`, if there is one. -/
theorem get?_tick (h : s.Consistent) (i : Nat) :
    ∃ place, s.tick.2.processes.get? i = (s.processes.get? i).map fun p =>
      (p.elapse (s.current == some i) s.now.next place).settle (s.tick.2.current == some i) := by
  obtain ⟨place, elapsed⟩ := get?_beforeDecision h i
  refine ⟨place, ?_⟩
  have decided : s.tick.2.processes.get? i = (s.beforeDecision.processes.get? i).map
      (·.settle (s.tick.2.current == some i)) := get?_schedule (consistent_beforeDecision h) i
  rw [decided, elapsed, Option.map_map]
  rfl

/-- An instantiation is refused, or it makes a process in a free slot. -/
theorem instantiate_cases (s : Scheduler) (asid : Asid) :
    (∃ e, s.instantiate asid = (.error e, s)) ∨
      ∃ j app, s.store.get? asid = some app ∧ s.processes.ofApp? asid = none ∧
        s.processes.freeSlot? = some j ∧
        s.instantiate asid =
          (.ok (s.processes.nextId j), s.install j (s.newProcess j asid app)) := by
  rw [instantiate_eq]
  split
  · exact Or.inl ⟨_, rfl⟩
  · rename_i app described
    split
    · exact Or.inl ⟨_, rfl⟩
    · rename_i fresh
      split
      · exact Or.inl ⟨_, rfl⟩
      · rename_i j free
        exact Or.inr ⟨j, app, described, by simpa [ofApp?] using fresh, free, rfl⟩

def makes? (s : Scheduler) : Request → Option ProcessId
  | .instantiate asid => (s.instantiate asid).1.toOption
  | _ => none

def Fills (s : Scheduler) (i : Nat) (r : Request) : Prop :=
  ∃ id, s.makes? r = some id ∧ id.index = i

theorem get?_after_of_fills (h : s.Consistent) {r : Request} (fills : s.Fills i r) :
    ∃ asid app, r = .instantiate asid ∧ s.store.get? asid = some app ∧
      (s.instantiate asid).1 = .ok (s.processes.nextId i) ∧
      (∀ p, s.processes.get? i = some p → p.isTerminated = true) ∧
      (s.after r).processes.get? i = some (s.newProcess i asid app) := by
  obtain ⟨id, makes, rfl⟩ := fills
  cases r with
  | instantiate asid =>
    rcases instantiate_cases s asid with ⟨e, refused⟩ | ⟨j, app, described, _, free, made⟩
    · rw [makes?, refused] at makes
      cases makes
    · obtain ⟨lt, dead⟩ := ProcessTable.freeSlot?_eq_some free
      have index := ProcessTable.index_nextId (t := s.processes) (Nat.lt_of_lt_of_le lt h.size_le)
      have put := put_install s lt (s.newProcess j asid app)
      rw [makes?, made] at makes
      obtain rfl := Option.some.inj makes
      rw [index]
      exact ⟨asid, app, rfl, described, by rw [made], dead, by rw [after, made]; exact put.self⟩
  | _ => cases makes

theorem get?_instantiate_of_not_fills (h : s.Consistent) {asid : Asid}
    (kept : ¬ s.Fills i (.instantiate asid)) :
    (s.instantiate asid).2.processes.get? i = s.processes.get? i := by
  rcases instantiate_cases s asid with ⟨e, refused⟩ | ⟨j, app, _, _, free, made⟩
  · rw [refused]
  · have lt := (ProcessTable.freeSlot?_eq_some free).1
    have index := ProcessTable.index_nextId (t := s.processes) (Nat.lt_of_lt_of_le lt h.size_le)
    have other : i ≠ j := by
      rintro rfl
      exact kept ⟨_, by rw [makes?, made]; rfl, index⟩
    rw [made]
    exact (put_install s lt (s.newProcess j asid app)).get? i other

/-- What a request makes of the process in slot `i`, which it does not replace. -/
inductive Becomes (s : Scheduler) (i : Nat) (p : Process) : Request → Process → Prop where
  | stays {r : Request} (refused : r.isGrantedTo p = false) (still : r ≠ .schedule ∧ r ≠ .tick) :
    Becomes s i p r p
  | obeys {r : Request} (granted : r.isGrantedTo p = true) : Becomes s i p r (s.obey p r)
  | settles : Becomes s i p .schedule (p.settle (s.schedule.current == some i))
  | elapses (place : Nat) : Becomes s i p .tick
    ((p.elapse (s.current == some i) s.now.next place).settle (s.tick.2.current == some i))

/-- Unless the slot is filled anew, there is a process in it if there was one. -/
theorem get?_after (h : s.Consistent) {r : Request} (kept : ¬ s.Fills i r) :
    ∃ f : Process → Process, (∀ p, s.Becomes i p r (f p)) ∧
      (s.after r).processes.get? i = (s.processes.get? i).map f := by
  cases about : r.addressee? with
  | some id =>
    refine ⟨fun p => if r.isGrantedTo p then s.obey p r else p, fun p => ?_,
      get?_after_of_addressee? h about i⟩
    by_cases granted : r.isGrantedTo p = true
    · simpa [granted] using Becomes.obeys (s := s) (i := i) granted
    · have still : r ≠ .schedule ∧ r ≠ .tick := by
        constructor <;> rintro rfl <;> cases about
      simpa [granted] using Becomes.stays (s := s) (i := i) (by simpa using granted) still
  | none =>
    cases r with
    | instantiate asid =>
      refine ⟨id, fun p => .stays rfl (by simp), ?_⟩
      rw [Option.map_id_fun, id, after, get?_instantiate_of_not_fills h kept]
    | schedule => exact ⟨_, fun p => .settles, get?_schedule h i⟩
    | tick =>
      obtain ⟨place, after⟩ := get?_tick h i
      exact ⟨_, fun p => .elapses place, after⟩
    | buffer r => exact ⟨id, fun p => .stays rfl (by simp), by simp [after, askBuffers]⟩
    | yield | waitIpc | waitIo | deliverIpc | completeIo | requestTermination | cleanupDone =>
      cases about

theorem exists_after (h : s.Consistent) {r : Request} (kept : ¬ s.Fills i r)
    (held : s.processes.get? i = some p) :
    ∃ q, (s.after r).processes.get? i = some q ∧ s.Becomes i p r q := by
  obtain ⟨f, becomes, after⟩ := get?_after h kept
  exact ⟨f p, by rw [after, held, Option.map_some], becomes p⟩

theorem exists_before (h : s.Consistent) {r : Request} {q : Process} (kept : ¬ s.Fills i r)
    (held : (s.after r).processes.get? i = some q) :
    ∃ p, s.processes.get? i = some p ∧ s.Becomes i p r q := by
  obtain ⟨f, becomes, after⟩ := get?_after h kept
  rw [after, Option.map_eq_some_iff] at held
  obtain ⟨p, held, rfl⟩ := held
  exact ⟨p, held, becomes p⟩

theorem not_fills (h : s.Consistent) (held : s.processes.get? i = some p)
    (alive : p.isTerminated = false) (r : Request) : ¬ s.Fills i r := by
  intro fills
  obtain ⟨_, _, _, _, _, dead, _⟩ := get?_after_of_fills h fills
  simp [dead p held] at alive

namespace Becomes

variable {r : Request} {q : Process}

theorem sameAs (becomes : s.Becomes i p r q) : Process.SameAs p q := by
  cases becomes with
  | stays => exact {}
  | obeys => exact sameAs_obey s p r
  | settles => exact p.sameAs_settle _
  | elapses place => exact (p.sameAs_elapse _ _ place).trans (Process.sameAs_settle _ _)

theorem eq_of_isTerminated (becomes : s.Becomes i p r q) (h : s.Consistent)
    (held : s.processes.get? i = some p) (dead : p.isTerminated = true) : q = p := by
  cases becomes with
  | stays => rfl
  | obeys granted =>
    have suits : r.suits p.state = true := by
      rw [Request.isGrantedTo, Bool.and_eq_true] at granted
      exact granted.2
    have alive : p.isTerminated = false := not_isTerminated_of_suits suits
    simp [dead] at alive
  | settles => exact Process.settle_of_isTerminated dead _
  | elapses place =>
    have idle : s.current ≠ some i := by
      intro holder
      have alive := Process.not_isTerminated_of_isSchedulable (h.alive_of_holder holder held)
      simp [dead] at alive
    have early : p.isDue s.now.next = false := by
      rw [← Bool.not_eq_true]
      intro due
      have blocked := isBlocked_of_isDue (consistent_advance h) held due
      have alive := Process.not_isTerminated_of_isBlocked blocked
      simp [dead] at alive
    have kept : p.elapse (s.current == some i) s.now.next place = p := by
      simp [Process.elapse, idle, early]
    rw [kept]
    exact Process.settle_of_isTerminated dead _

end Becomes

end Scheduler
end SeparationKernel
