import Mathlib
import SeparationKernel.Proofs.Scheduler.StateMachine

/-! Deadlines that have not come. Only a systick asks for a deadline, and only whether it has come, so
that a scheduler in which a blocked process has lost its deadline does the same as before with
everybody else. -/
namespace SeparationKernel

def Process.unlimited (p : Process) : Process := { p with deadline := none }

namespace ProcessTable

variable {t : ProcessTable} {i j : Nat} {f g : Process → Process}

theorem modify_comm (t : ProcessTable) (f g : Process → Process) (other : j ≠ i) :
    (t.modify i f).modify j g = (t.modify j g).modify i f := by
  rw [modify, modify, modify, modify, List.modify_modify_ne _ _ _ other.symm]

theorem modify_modify (t : ProcessTable) (i : Nat) (f g : Process → Process) :
    (t.modify i f).modify i g = t.modify i (g ∘ f) := by
  rw [modify, modify, modify, List.modify_modify_eq]
  simp only [Function.comp_def, Option.map_map]

theorem install_modify (t : ProcessTable) (f : Process → Process) (p : Process) (other : j ≠ i) :
    (t.modify i f).install j p = (t.install j p).modify i f := by
  rw [install, modify, modify, install, mk.injEq]
  apply List.ext_getElem?
  intro k
  simp only [List.getElem?_set, List.getElem?_modify, List.length_modify]
  by_cases at_j : j = k
  · subst k
    by_cases lt : j < t.slots.length <;> simp [lt, other.symm]
  · simp [at_j]

theorem live?_modify_of_ne {id : ProcessId} (other : id.index ≠ i) :
    (t.modify i f).live? id = t.live? id := by
  rw [live?, live?, find?, find?, get?_modify_of_ne _ _ other]

theorem freeSlot?_modify (dead : ∀ p, (f p).isTerminated = p.isTerminated) :
    (t.modify i f).freeSlot? = t.freeSlot? := by
  have free : (t.modify i f).slots.map Slot.isFree = t.slots.map Slot.isFree := by
    apply List.ext_getElem?
    intro k
    simp only [modify, List.getElem?_map, List.getElem?_modify]
    cases t.slots[k]? with
    | none => rfl
    | some slot =>
      obtain ⟨generation, occupant⟩ := slot
      by_cases same : i = k <;> cases occupant <;> simp [same, Slot.isFree, dead]
  have search : ∀ u : ProcessTable,
      u.freeSlot? = (u.slots.map Slot.isFree).findIdx? (fun x => x) := fun u => by
    rw [List.findIdx?_map]
    rfl
  rw [search, search, free]

theorem nextId_modify : (t.modify i f).nextId j = t.nextId j := by
  simp only [nextId, modify, List.getElem?_modify]
  cases t.slots[j]? with
  | none => rfl
  | some slot => by_cases same : i = j <;> simp [same, Slot.nextGeneration]

theorem ofApp?_modify_isSome (asid : Asid) (number : ∀ p, (f p).asid = p.asid)
    (dead : ∀ p, (f p).isTerminated = p.isTerminated) :
    ((t.modify i f).ofApp? asid).isSome = (t.ofApp? asid).isSome := by
  rw [Bool.eq_iff_iff, ← not_iff_not]
  simp only [Bool.not_eq_true, Option.isSome_eq_false_iff, Option.isNone_iff_eq_none,
    ofApp?_eq_none_iff, get?_modify]
  constructor
  · intro none j p held
    by_cases same : i = j
    · have changed := none j (f p) (by simp [same, held])
      rwa [dead, number] at changed
    · exact none j p (by simp [same, held])
  · intro none j p held
    by_cases same : i = j
    · rw [if_pos same, Option.map_eq_some_iff] at held
      obtain ⟨q, held, rfl⟩ := held
      rw [dead, number]
      exact none j q held
    · rw [if_neg same] at held
      exact none j p held

theorem wakeSlots_modify (now : Timestamp) {f : Slot → Slot} (slots : List Slot) :
    ∀ (i place : Nat), (∀ slot, slots[i]? = some slot →
        slot.isDue now = false ∧ (f slot).isDue now = false) →
      wakeSlots now place (slots.modify i f) =
        ((wakeSlots now place slots).1.modify i f, (wakeSlots now place slots).2) := by
  induction slots with
  | nil => exact fun i place _ => by simp [wakeSlots]
  | cons slot slots ih =>
    intro i place early
    cases i with
    | zero =>
      obtain ⟨before, after⟩ := early slot rfl
      simp [wakeSlots, before, after]
    | succ i =>
      have rest := fun place => ih i place fun slot at_i => early slot at_i
      rw [List.modify_succ_cons, wakeSlots, wakeSlots]
      split <;> simp only [rest, List.modify_succ_cons]

end ProcessTable

namespace Scheduler

def forget (s : Scheduler) (i : Nat) : Scheduler := s.update i (·.unlimited)

variable {s : Scheduler} {i j : Nat} {p : Process} {id : ProcessId} {reason : BlockReason}

theorem update_forget (s : Scheduler) (f : Process → Process) (other : j ≠ i) :
    (s.forget i).update j f = (s.update j f).forget i := by
  simp only [forget, update, ProcessTable.modify_comm _ _ _ other]

theorem enqueue_forget (s : Scheduler) (f : Nat → Process → Process) (other : j ≠ i) :
    (s.forget i).enqueue j f = (s.enqueue j f).forget i := by
  simp only [forget, enqueue, update, ProcessTable.modify_comm _ _ _ other]

theorem retire_forget (s : Scheduler) (p : Process) (outcome : CleanupOutcome) (other : j ≠ i) :
    (s.forget i).retire j p outcome = (s.retire j p outcome).forget i := by
  rw [retire, retire, update_forget s _ other]
  show (if s.current = some j then _ else _) = _
  split <;> rfl

theorem currentProcess?_forget (idle : s.current ≠ some i) :
    (s.forget i).currentProcess? = s.currentProcess? := by
  show s.current.bind (s.processes.modify i (·.unlimited)).get? = s.current.bind s.processes.get?
  cases holder : s.current with
  | none => rfl
  | some j =>
    have other : j ≠ i := fun same => idle (same ▸ holder)
    exact ProcessTable.get?_modify_of_ne _ _ other

theorem challenger?_forget (held : s.processes.get? i = some p) (blocked : p.isBlocked = true) :
    (s.forget i).challenger? = s.challenger? := by
  refine ProcessTable.elect_congr fun j q eligible => ?_
  have able : q.isSchedulable = true := by
    rw [Bool.and_eq_true] at eligible
    exact eligible.1
  show (s.processes.modify i (·.unlimited)).get? j = some q ↔ s.processes.get? j = some q
  rw [ProcessTable.get?_modify]
  by_cases same : i = j
  · -- the blocked process is not eligible, with or without a deadline
    subst j
    have unable := Process.not_isSchedulable_of_isBlocked blocked
    rw [if_pos rfl, held, Option.map_some, Option.some.injEq, Option.some.injEq]
    refine iff_of_false ?_ ?_ <;> rintro rfl
    · exact absurd (able.symm.trans unable) Bool.noConfusion
    · exact absurd (able.symm.trans unable) Bool.noConfusion
  · rw [if_neg same]

theorem withdraw_forget (idle : s.current ≠ some i) :
    (s.forget i).withdraw = s.withdraw.forget i := by
  cases holder : s.current with
  | none => simp [withdraw, forget, update, holder]
  | some j =>
    have other : j ≠ i := fun same => idle (same ▸ holder)
    rw [withdraw_eq holder, withdraw_eq (s := s.forget i) holder, update_forget s _ other]
    rfl

theorem giveTo_forget (s : Scheduler) (other : j ≠ i) :
    (s.forget i).giveTo j = (s.giveTo j).forget i := by
  simp only [giveTo, forget, update, ProcessTable.modify_comm _ _ _ other]

theorem schedule_forget (h : s.Consistent) (held : s.processes.get? i = some p)
    (blocked : p.isBlocked = true) : (s.forget i).schedule = s.schedule.forget i := by
  have idle := h.not_current_of_isBlocked held blocked
  have holder : (s.forget i).holder? = s.holder? := by
    rw [holder?, holder?, currentProcess?_forget idle]
  have others : ∀ {j q}, s.challenger? = some (j, q) → j ≠ i := by
    rintro j q chosen rfl
    obtain ⟨⟨held', able, _⟩, _⟩ := challenger?_eq_some chosen
    obtain rfl := Option.some.inj (held.symm.trans held')
    exact absurd (able.symm.trans (Process.not_isSchedulable_of_isBlocked blocked)) Bool.noConfusion
  rw [schedule, schedule, holder, challenger?_forget held blocked]
  cases s.holder? with
  | none =>
    cases chosen : s.challenger? with
    | none => rfl
    | some c => exact giveTo_forget s (others chosen)
  | some q =>
    cases chosen : s.challenger? with
    | none => rfl
    | some c =>
      simp only
      split
      · rw [withdraw_forget idle, giveTo_forget _ (others chosen)]
      · rfl

theorem chargeCurrent_forget (idle : s.current ≠ some i) :
    (s.forget i).chargeCurrent.2 = s.chargeCurrent.2.forget i := by
  have same : (s.forget i).current = s.current := rfl
  rw [chargeCurrent, chargeCurrent, currentProcess?_forget idle, same]
  split
  · rename_i j q holder _
    have other : j ≠ i := fun same => idle (same ▸ holder)
    split
    · exact update_forget s _ other
    · exact congrArg vacate (enqueue_forget s _ other)
    · exact retire_forget s q .overrun other
  · rfl

theorem wakeExpired_forget (held : s.processes.get? i = some p) (early : p.isDue s.now = false) :
    (s.forget i).wakeExpired = s.wakeExpired.forget i := by
  have passed := ProcessTable.wakeSlots_modify s.now
    (f := fun slot => { slot with occupant := slot.occupant.map (·.unlimited) })
    s.processes.slots i s.nextPlace fun slot at_i => by
      have occupied : slot.occupant = some p := by simpa [ProcessTable.get?, at_i] using held
      have unlimited : p.unlimited.isDue s.now = false := rfl
      simp [Slot.isDue, occupied, early, unlimited]
  simp only [wakeExpired, ProcessTable.wakeExpired, forget, update, ProcessTable.modify, passed]

theorem countIdle_forget (s : Scheduler) : (s.forget i).countIdle = s.countIdle.forget i := by
  have same : (s.forget i).currentId? = s.currentId? := by
    rw [currentId?, currentId?, currentProcess?, currentProcess?]
    show (s.current.bind (s.processes.modify i (·.unlimited)).get?).map (·.id) = _
    cases s.current with
    | none => rfl
    | some j =>
      simp only [Option.bind_some, ProcessTable.get?_modify]
      split
      · rw [Option.map_map]
        rfl
      · rfl
  rw [countIdle, countIdle, same]
  rfl

theorem tick_forget (h : s.Consistent) (held : s.processes.get? i = some p)
    (blocked : p.isBlocked = true) (early : p.isDue s.now.next = false) :
    (s.forget i).tick.2 = s.tick.2.forget i := by
  have idle : s.advance.current ≠ some i := h.not_current_of_isBlocked held blocked
  have charged : (s.forget i).advance.chargeCurrent.2 = s.advance.chargeCurrent.2.forget i :=
    chargeCurrent_forget idle
  have now : s.advance.chargeCurrent.2.now = s.now.next := (still_chargeCurrent s.advance).now
  have kept : s.advance.chargeCurrent.2.processes.get? i = some p :=
    (get?_chargeCurrent_of_ne idle).trans held
  have woken : (s.forget i).beforeDecision = s.beforeDecision.forget i := by
    rw [beforeDecision, charged, wakeExpired_forget kept (now ▸ early), beforeDecision]
  have asleep : s.beforeDecision.processes.get? i = some p := by
    obtain ⟨place, elapsed⟩ := get?_beforeDecision h i
    have holds : (s.current == some i) = false := beq_eq_false_iff_ne.2 idle
    rw [elapsed, held, Option.map_some, holds, Process.elapse, if_neg Bool.false_ne_true,
      if_neg (by rw [early]; exact Bool.false_ne_true)]
  show (s.forget i).beforeDecision.schedule.countIdle = s.beforeDecision.schedule.countIdle.forget i
  rw [woken, schedule_forget (consistent_beforeDecision h) asleep blocked, countIdle_forget]

theorem live?_forget (s : Scheduler) (i : Nat) (id : ProcessId) :
    (s.forget i).processes.live? id =
      (s.processes.live? id).map fun p => if id.index = i then p.unlimited else p := by
  by_cases same : id.index = i
  · subst i
    simp only [if_true, ProcessTable.live?, ProcessTable.find?, forget, update,
      ProcessTable.get?_modify_self, Option.filter_map]
    rfl
  · simp only [if_neg same, Option.map_id']
    exact ProcessTable.live?_modify_of_ne same

@[simp] theorem checkState_forget (s : Scheduler) (i : Nat) (id : ProcessId)
    (f : ProcessState → Bool) (fault : ProcessError) :
    (s.forget i).checkState id f fault = s.checkState id f fault := by
  rw [checkState, checkState, checkLive, checkLive, live?_forget]
  cases s.processes.live? id with
  | none => rfl
  | some q => by_cases same : id.index = i <;> simp [same, Process.unlimited]

@[simp] theorem checkRunning_forget (s : Scheduler) (i : Nat) (id : ProcessId) :
    (s.forget i).checkRunning id = s.checkRunning id := by
  rw [checkRunning, checkRunning, checkState_forget]
  rfl

theorem commit_forget {ε : Type} {v : Verdict ε} {t u : Scheduler}
    (changes : v = .ok () → u = t.forget i) :
    (Verdict.commit v (s.forget i) u).2 = (Verdict.commit v s t).2.forget i := by
  cases v with
  | error e => rfl
  | ok => exact changes rfl

theorem yield_forget (other : s.checkRunning id = .ok () → id.index ≠ i) (delay : Option UInt32) :
    ((s.forget i).yield id delay).2 = (s.yield id delay).2.forget i := by
  rw [yield_eq, yield_eq, checkRunning_forget]
  refine commit_forget fun granted => ?_
  cases delay.filter (· != 0) with
  | none => exact congrArg vacate (enqueue_forget s _ (other granted))
  | some d => exact congrArg vacate (enqueue_forget s _ (other granted))

theorem wait_forget (other : s.checkRunning id = .ok () → id.index ≠ i) (reason : BlockReason)
    (timeout : Option UInt32) :
    ((s.forget i).wait id reason timeout).2 = (s.wait id reason timeout).2.forget i := by
  rw [wait_eq, wait_eq, checkRunning_forget]
  exact commit_forget fun granted => congrArg vacate (update_forget s _ (other granted))

theorem wake_forget (other : s.checkState id (· == .blocked reason) (.notWaiting id) = .ok () →
    id.index ≠ i) : ((s.forget i).wake id reason).2 = (s.wake id reason).2.forget i := by
  rw [wake_eq, wake_eq, checkState_forget]
  exact commit_forget fun granted => enqueue_forget s _ (other granted)

theorem requestTermination_forget
    (other : s.checkState id (!·.isCleanup) (.terminating id) = .ok () → id.index ≠ i) :
    ((s.forget i).requestTermination id).2 = (s.requestTermination id).2.forget i := by
  rw [requestTermination_eq, requestTermination_eq, checkState_forget]
  refine commit_forget fun granted => ?_
  show (if s.isCurrent id then _ else _) = (if s.isCurrent id then _ else _ : Scheduler).forget i
  split
  · exact update_forget s _ (other granted)
  · exact enqueue_forget s _ (other granted)

theorem cleanupDone_forget
    (other : s.checkState id (·.isCleanup) (.notTerminating id) = .ok () → id.index ≠ i) :
    ((s.forget i).cleanupDone id).2 = (s.cleanupDone id).2.forget i := by
  rw [cleanupDone_eq, cleanupDone_eq, checkState_forget]
  refine commit_forget fun granted => ?_
  have same : (s.forget i).processes.live? id = s.processes.live? id :=
    ProcessTable.live?_modify_of_ne (other granted)
  rw [same]
  cases s.processes.live? id with
  | none => rfl
  | some q => exact retire_forget s q .completed (other granted)

theorem instantiate_forget (s : Scheduler) (asid : Asid) (held : s.processes.get? i = some p)
    (alive : p.isTerminated = false) :
    (s.forget i).instantiate asid = ((s.instantiate asid).1, (s.instantiate asid).2.forget i) := by
  have free : (s.forget i).processes.freeSlot? = s.processes.freeSlot? :=
    ProcessTable.freeSlot?_modify fun _ => rfl
  have single : ((s.forget i).ofApp? asid).isSome = (s.ofApp? asid).isSome := by
    rw [ofApp?, ofApp?, Option.isSome_map, Option.isSome_map]
    exact ProcessTable.ofApp?_modify_isSome asid (fun _ => rfl) fun _ => rfl
  have same : (s.forget i).store = s.store := rfl
  rw [instantiate_eq, instantiate_eq, single, free, same]
  split
  · rfl
  · split
    · rfl
    · split
      · rfl
      · rename_i j at_j
        have other : j ≠ i := by
          rintro rfl
          have dead := (ProcessTable.freeSlot?_eq_some at_j).2 p held
          rw [alive] at dead
          cases dead
        have named : (s.forget i).processes.nextId j = s.processes.nextId j :=
          ProcessTable.nextId_modify
        rw [named]
        simp only [forget, update, ProcessTable.install_modify _ _ _ other]

theorem index_ne_of_granted {r : Request} (held : s.processes.get? i = some p)
    (about : r.addressee? = some id) (refused : r.isGrantedTo p = false)
    (granted : ∃ q, s.processes.live? id = some q ∧ r.suits q.state = true) : id.index ≠ i := by
  rintro rfl
  obtain ⟨q, live, suits⟩ := granted
  obtain ⟨held', named, _⟩ := ProcessTable.live?_eq_some_iff.1 live
  obtain rfl := Option.some.inj (held.symm.trans held')
  have suited := (isGrantedTo_iff about).2 ⟨named.symm, suits⟩
  rw [refused] at suited
  cases suited

theorem not_isGrantedTo_of_waits {r : Request} (blocked : p.state = .blocked reason)
    (waits : ¬ s.EndsWait p reason r) : r.isGrantedTo p = false := by
  by_cases tick : r = .tick
  · subst r
    rfl
  · rw [← Bool.not_eq_true, isGrantedTo_iff_of_blocked blocked tick]
    exact waits

theorem not_isDue_of_waits (waits : ¬ s.EndsWait p reason .tick) : p.isDue s.now.next = false := by
  rw [← Bool.not_eq_true]
  exact fun due => waits (Or.inr (Or.inr (Or.inl ⟨rfl, due⟩)))

/-- Nothing that leaves a process waiting tells whether it has a deadline. -/
theorem after_forget (h : s.Consistent) (held : s.processes.get? i = some p) {r : Request}
    (blocked : p.state = .blocked reason) (waits : ¬ s.EndsWait p reason r) :
    (s.forget i).after r = (s.after r).forget i := by
  have stuck : p.isBlocked = true := Process.isBlocked_iff.2 ⟨reason, blocked⟩
  have other : ∀ id, r.addressee? = some id →
      (∃ q, s.processes.live? id = some q ∧ r.suits q.state = true) → id.index ≠ i :=
    fun id about granted =>
      index_ne_of_granted held about (not_isGrantedTo_of_waits blocked waits) granted
  cases r with
  | instantiate asid =>
    have alive := Process.not_isTerminated_of_isBlocked stuck
    exact congrArg Prod.snd (instantiate_forget s asid held alive)
  | schedule => exact schedule_forget h held stuck
  | tick => exact tick_forget h held stuck (not_isDue_of_waits waits)
  | buffer r => rfl
  | yield id delay =>
    exact yield_forget (fun ok => other id rfl ((checkRunning_eq_ok_iff h).1 ok)) delay
  | waitIpc id timeout | waitIo id timeout =>
    exact wait_forget (fun ok => other id rfl ((checkRunning_eq_ok_iff h).1 ok)) _ timeout
  | deliverIpc id | completeIo id =>
    exact wake_forget fun ok => other id rfl (checkState_eq_ok.1 ok)
  | requestTermination id =>
    exact requestTermination_forget fun ok => other id rfl (checkHealthy_eq_ok_iff.1 ok)
  | cleanupDone id =>
    exact cleanupDone_forget fun ok => other id rfl (checkState_eq_ok.1 ok)

end Scheduler
end SeparationKernel
