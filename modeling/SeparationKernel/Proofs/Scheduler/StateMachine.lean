import Mathlib
import SeparationKernel.Proofs.Scheduler.Cleanup

/-! The state machine of a process. Whatever is asked of a scheduler, the state of each process goes
along its edges, and a process that the request does not concern stays as it is. -/
namespace SeparationKernel

open Relation (ReflGen ReflTransGen)

namespace ProcessState

/-- One change of the state of a process that has `quantum` systicks to clean up. -/
inductive Next (quantum : UInt32) : ProcessState → ProcessState → Prop where
  | run : Next quantum .ready .running
  | stop : Next quantum .running .ready
  | block (reason : BlockReason) : Next quantum .running (.blocked reason)
  | wake (reason : BlockReason) : Next quantum (.blocked reason) .ready
  | condemn (state : ScheduleState) : Next quantum (.healthy state) (.cleanup quantum)
  | clean {n left : UInt32} (some_left : 1 ≤ left.toNat) (less : n.toNat = left.toNat + 1) :
      Next quantum (.cleanup n) (.cleanup left)
  | complete (n : UInt32) : Next quantum (.cleanup n) (.terminated .completed)
  | overrun : Next quantum (.cleanup 1) (.terminated .overrun)

variable {quantum : UInt32} {a b : ProcessState}

theorem Next.ne (next : Next quantum a b) : a ≠ b := by
  cases next with
  | @clean n left some_left less =>
    intro same
    rw [cleanup.inj same] at less
    omega
  | _ => simp

end ProcessState

open ProcessState (Next)

namespace Process

variable {p : Process} {quantum : UInt32}

theorem next_settle (quantum : UInt32) (p : Process) (chosen : Bool) :
    ReflGen (Next quantum) p.state (p.settle chosen).state := by
  cases chosen with
  | true =>
    rw [settle, if_pos rfl, dispatch_eq]
    by_cases ready : p.state = .ready
    · simpa [ready] using ReflGen.single Next.run
    · simpa [ready] using ReflGen.refl
  | false =>
    rw [settle, if_neg Bool.false_ne_true, preempt_eq]
    by_cases running : p.state = .running
    · simpa [running] using ReflGen.single Next.stop
    · simpa [running] using ReflGen.refl

theorem next_charged (quantum : UInt32) (some_left : ∀ n, p.state = .cleanup n → 1 ≤ n.toNat)
    (place : Nat) : ReflGen (Next quantum) p.state (p.charged place).state := by
  rw [charged]
  cases charge : p.charge with
  | goesOn left =>
    rcases charge_goesOn charge with ⟨_, _, rfl⟩ | ⟨n, cleanup, more, rfl⟩ | ⟨_, _, rfl⟩
    · exact .refl
    · rw [cleanup]
      refine .single (.clean ?_ ?_) <;> rw [Counter.toNat_down] <;> omega
    · exact .refl
  | quantumExpired =>
    rw [(charge_quantumExpired charge).1]
    exact .single .stop
  | cleanupOverrun =>
    obtain ⟨n, cleanup, last⟩ := charge_cleanupOverrun charge
    have first := some_left n cleanup
    obtain rfl : n = 1 := UInt32.toNat_inj.1 (Nat.le_antisymm last first)
    rw [cleanup]
    exact .single .overrun

theorem next_elapse (quantum : UInt32) (some_left : ∀ n, p.state = .cleanup n → 1 ≤ n.toNat)
    {now : Timestamp} (blocked : p.isDue now = true → p.isBlocked = true) (holds : Bool)
    (place : Nat) : ReflGen (Next quantum) p.state (p.elapse holds now place).state := by
  rw [elapse]
  split
  · exact next_charged quantum some_left place
  · split
    · rename_i due
      obtain ⟨reason, state⟩ := isBlocked_iff.1 (blocked due)
      rw [state]
      exact .single (.wake reason)
    · exact .refl

end Process

namespace Scheduler

variable {s : Scheduler} {i : Nat} {p q : Process} {r : Request}

theorem suits_of_isGrantedTo (granted : r.isGrantedTo p = true) : r.suits p.state = true := by
  rw [Request.isGrantedTo, Bool.and_eq_true] at granted
  exact granted.2

theorem next_obey (granted : r.isGrantedTo p = true) :
    Next s.policy.cleanupQuantum p.state (s.obey p r).state := by
  have suits := suits_of_isGrantedTo granted
  cases r with
  | yield id delay =>
    have running : p.state = .running := beq_iff_eq.1 suits
    rw [obey, running]
    split
    · exact .stop
    · exact .block .yield
  | waitIpc id timeout | waitIo id timeout =>
    have running : p.state = .running := beq_iff_eq.1 suits
    rw [running]
    exact .block _
  | deliverIpc id | completeIo id =>
    have blocked := beq_iff_eq.1 suits
    rw [blocked]
    exact .wake _
  | requestTermination id =>
    cases state : p.state with
    | healthy healthy => exact .condemn healthy
    | cleanup n => simp [Request.suits, state, ProcessState.isCleanup] at suits
    | terminated outcome => simp [Request.suits, state, ProcessState.isTerminated] at suits
  | cleanupDone id =>
    cases state : p.state with
    | cleanup n => exact .complete n
    | healthy | terminated => simp [Request.suits, state, ProcessState.isCleanup] at suits
  | instantiate | schedule | tick | buffer => cases suits

/-- A request takes a process along one edge at most. A systick may take it along two, the second
when it is decided who gets the processor. -/
theorem Becomes.course (becomes : s.Becomes i p r q) (h : s.Consistent)
    (held : s.processes.get? i = some p) :
    ∃ state, ReflGen (Next s.policy.cleanupQuantum) p.state state ∧
      ReflGen (Next s.policy.cleanupQuantum) state q.state ∧ (r ≠ .tick → state = q.state) := by
  cases becomes with
  | stays => exact ⟨p.state, .refl, .refl, fun _ => rfl⟩
  | obeys granted => exact ⟨_, .single (next_obey granted), .refl, fun _ => rfl⟩
  | settles => exact ⟨_, p.next_settle _ _, .refl, fun _ => rfl⟩
  | elapses place =>
    have some_left : ∀ n, p.state = .cleanup n → 1 ≤ n.toNat :=
      fun n cleanup => (h.cleanup i p n held cleanup).1
    exact ⟨_, Process.next_elapse _ some_left (isBlocked_of_isDue (consistent_advance h) held) _
      place, Process.next_settle _ _ _, fun other => absurd rfl other⟩

instance (s : Scheduler) (i : Nat) (r : Request) : Decidable (s.Fills i r) :=
  decidable_of_iff ((s.makes? r).any (·.index == i) = true) (by simp [Fills, Option.any_eq_true])

/-- How often slot `i` is filled in the course of requests. -/
def fillings (s : Scheduler) (i : Nat) : List Request → Nat
  | [] => 0
  | r :: rs => (if s.Fills i r then 1 else 0) + (s.after r).fillings i rs

theorem nextId_of_held (h : s.Consistent) (held : s.processes.get? i = some p) :
    s.processes.nextId i = ⟨p.id.slot, p.id.generation + 1⟩ := by
  obtain ⟨index, generation⟩ := h.named i p held
  have slot : UInt8.ofNat i = p.id.slot := by
    rw [← index]
    exact UInt8.ofNat_toNat
  simp only [ProcessTable.get?, Option.bind_eq_some_iff] at held
  obtain ⟨entry, at_i, occupied⟩ := held
  have same : entry.generation = p.id.generation := by
    simpa [ProcessTable.generation?, at_i] using generation
  simp [ProcessTable.nextId, slot, at_i, Slot.nextGeneration, occupied, same]

/-- As long as its slot is not filled anew, a process is there, and is the same one. -/
theorem exists_run (h : s.Consistent) {rs : List Request} (kept : s.fillings i rs = 0)
    (held : s.processes.get? i = some p) :
    ∃ q, (s.run rs).processes.get? i = some q ∧ Process.SameAs p q ∧
      ReflTransGen (Next s.policy.cleanupQuantum) p.state q.state ∧
      (p.isTerminated = true → q = p) := by
  induction rs generalizing s p with
  | nil => exact ⟨p, held, .refl p, .refl, fun _ => rfl⟩
  | cons r rs ih =>
    rw [fillings, Nat.add_eq_zero_iff] at kept
    have unfilled : ¬ s.Fills i r := fun fills => by simp [fills] at kept
    obtain ⟨q, held', becomes⟩ := exists_after h unfilled held
    obtain ⟨u, held'', same, path, dead⟩ := ih (consistent_after h r) kept.2 held'
    obtain ⟨state, first, second, _⟩ := becomes.course h held
    rw [policy_after] at path
    refine ⟨u, held'', becomes.sameAs.trans same, ?_, fun ended => ?_⟩
    · exact (first.to_reflTransGen.trans second.to_reflTransGen).trans path
    · obtain rfl := becomes.eq_of_isTerminated h held ended
      exact dead ended

structure IsFresh (p : Process) (asid : Asid) (app : App) : Prop where
  number : p.asid = asid := by rfl
  descriptor : p.app = app := by rfl
  ready : p.state = .ready := by rfl
  whole : p.quantumLeft = app.quantum := by rfl
  unlimited : p.deadline = none := by rfl

/-- What takes a process out of waiting for `reason`: its event, the end of its time limit, or a
request to terminate. -/
def EndsWait (s : Scheduler) (p : Process) (reason : BlockReason) (r : Request) : Prop :=
  reason = .ipc ∧ r = .deliverIpc p.id ∨ reason = .io ∧ r = .completeIo p.id ∨
    r = .tick ∧ p.isDue s.now.next = true ∨ r = .requestTermination p.id

/-- All that a request does to the processes, with `quantum` systicks to clean up. -/
structure Conforms (s : Scheduler) (quantum : UInt32) (r : Request) : Prop where
  /-- A process whose slot is not filled anew is still there, and its state has gone along one edge
  at most, or two if a systick has passed. -/
  path : ∀ i p, s.processes.get? i = some p → ¬ s.Fills i r →
    ∃ q, (s.after r).processes.get? i = some q ∧ Process.SameAs p q ∧
      ∃ state, ReflGen (Next quantum) p.state state ∧ ReflGen (Next quantum) state q.state ∧
        (r ≠ .tick → state = q.state)
  /-- A process that has terminated stays as it is, -/
  final : ∀ i p, s.processes.get? i = some p → p.isTerminated = true → ¬ s.Fills i r →
    (s.after r).processes.get? i = some p
  /-- until a new one takes its slot, in the next generation. Nobody else loses the slot. -/
  reuse : ∀ i, s.Fills i r → ∃ asid app q, r = .instantiate asid ∧ s.store.get? asid = some app ∧
    (s.after r).processes.get? i = some q ∧ IsFresh q asid app ∧
    ∀ p, s.processes.get? i = some p →
      p.isTerminated = true ∧ q.id = ⟨p.id.slot, p.id.generation + 1⟩
  /-- Unless it is filled, an empty slot stays empty. -/
  empty : ∀ i, s.processes.get? i = none → ¬ s.Fills i r → (s.after r).processes.get? i = none
  /-- Only decisions and systicks change processes that the request does not name. -/
  frame : ∀ i p, s.processes.get? i = some p → r ≠ .schedule → r ≠ .tick →
    r.addressee? ≠ some p.id → ¬ s.Fills i r → (s.after r).processes.get? i = some p
  /-- A decision concerns who had the processor and who gets it. -/
  decision : r = .schedule → ∀ i, s.current ≠ some i → (s.after r).current ≠ some i →
    (s.after r).processes.get? i = s.processes.get? i
  /-- A process goes on waiting until it has what it waits for, or has no more time. -/
  waiting : ∀ i p q reason, s.processes.get? i = some p → p.state = .blocked reason →
    (s.after r).processes.get? i = some q → (q.state ≠ .blocked reason ↔ s.EndsWait p reason r)

theorem isGrantedTo_iff_of_blocked {reason : BlockReason} (blocked : p.state = .blocked reason)
    (other : r ≠ .tick) : r.isGrantedTo p = true ↔ s.EndsWait p reason r := by
  cases r with
  | tick => exact absurd rfl other
  | deliverIpc | completeIo =>
    cases reason <;> simp [Request.isGrantedTo, Request.addressee?, Request.suits, EndsWait, blocked]
  | _ =>
    simp [Request.isGrantedTo, Request.addressee?, Request.suits, EndsWait, blocked,
      ProcessState.isTerminated, ProcessState.isCleanup]

theorem Becomes.not_blocked_iff (becomes : s.Becomes i p r q) (h : s.Consistent)
    (held : s.processes.get? i = some p) {reason : BlockReason}
    (blocked : p.state = .blocked reason) :
    q.state ≠ .blocked reason ↔ s.EndsWait p reason r := by
  have unready : p.state ≠ .ready := by simp [blocked]
  have idle : p.state ≠ .running := by simp [blocked]
  cases becomes with
  | stays refused still =>
    rw [← isGrantedTo_iff_of_blocked blocked still.2, refused]
    simp [blocked]
  | obeys granted =>
    have other : r ≠ .tick := by
      rintro rfl
      cases granted
    rw [← isGrantedTo_iff_of_blocked blocked other, ← blocked]
    exact iff_of_true (next_obey granted).ne.symm granted
  | settles =>
    rw [Process.settle_eq_self unready idle, blocked]
    simp [EndsWait]
  | elapses place =>
    have waits : s.current ≠ some i :=
      h.not_current_of_isBlocked held (Process.isBlocked_iff.2 ⟨reason, blocked⟩)
    have holds : (s.current == some i) = false := beq_eq_false_iff_ne.2 waits
    rw [holds, Process.elapse, if_neg Bool.false_ne_true]
    by_cases due : p.isDue s.now.next = true
    · rw [if_pos due]
      refine iff_of_true ?_ (Or.inr (Or.inr (Or.inl ⟨rfl, due⟩)))
      cases s.tick.2.current == some i <;> simp [Process.settle, Process.makeReady,
        Process.dispatch, Process.preempt]
    · rw [if_neg due, Process.settle_eq_self unready idle, blocked]
      simp [EndsWait, due]

theorem get?_schedule_of_ne (h : s.Consistent) (before : s.current ≠ some i)
    (after : s.schedule.current ≠ some i) :
    s.schedule.processes.get? i = s.processes.get? i := by
  have chosen : (s.schedule.current == some i) = false := beq_eq_false_iff_ne.2 after
  rw [get?_schedule h, chosen]
  cases held : s.processes.get? i with
  | none => rfl
  | some p =>
    have idle := not_running_of_not_current h held before
    rw [Option.map_some, Process.settle, if_neg Bool.false_ne_true, Process.preempt_eq_self idle]

theorem Consistent.conforms (h : s.Consistent) (r : Request) :
    s.Conforms s.policy.cleanupQuantum r where
  path i p held kept := by
    obtain ⟨q, held', becomes⟩ := exists_after h kept held
    exact ⟨q, held', becomes.sameAs, becomes.course h held⟩
  final i p held dead kept := by
    obtain ⟨q, held', becomes⟩ := exists_after h kept held
    obtain rfl := becomes.eq_of_isTerminated h held dead
    exact held'
  reuse i fills := by
    obtain ⟨asid, app, asked, described, _, dead, made⟩ := get?_after_of_fills h fills
    refine ⟨asid, app, _, asked, described, made, {}, fun p held => ⟨dead p held, ?_⟩⟩
    exact nextId_of_held h held
  empty i vacant kept := by
    obtain ⟨f, _, after⟩ := get?_after h kept
    rw [after, vacant]
    rfl
  frame i p held unscheduled untimed other kept := by
    obtain ⟨q, held', becomes⟩ := exists_after h kept held
    rw [held']
    cases becomes with
    | stays => rfl
    | obeys granted =>
      rw [Request.isGrantedTo, Bool.and_eq_true, beq_iff_eq] at granted
      exact absurd granted.1 other
    | settles => exact absurd rfl unscheduled
    | elapses => exact absurd rfl untimed
  decision asked i before after := by
    subst asked
    exact get?_schedule_of_ne h before after
  waiting i p q reason held blocked held' := by
    have alive := Process.not_isTerminated_of_isBlocked (Process.isBlocked_iff.2 ⟨reason, blocked⟩)
    obtain ⟨u, held'', becomes⟩ := exists_after h (not_fills h held alive r) held
    obtain rfl := Option.some.inj (held'.symm.trans held'')
    exact becomes.not_blocked_iff h held blocked

/-- After any requests to a new scheduler with supported options, the next one takes each process
along the edges of the state machine, changes nobody that it does not concern, and revives nobody.
Along a whole run a process stays on the edges as long as its slot is not filled anew. -/
theorem process_states_conform {o o' : Options} {store : Store} (supported : o.check = .ok ())
    (loaded : store.IsLoaded o') (rs : List Request) :
    let s := (ofStore store o).run rs
    (∀ r, s.Conforms o.cleanupQuantum r) ∧
      ∀ i p, s.processes.get? i = some p → ∀ ss, s.fillings i ss = 0 →
        ∃ q, (s.run ss).processes.get? i = some q ∧ Process.SameAs p q ∧
          ReflTransGen (Next o.cleanupQuantum) p.state q.state ∧
          (p.isTerminated = true → q = p) := by
  intro s
  have consistent : s.Consistent := consistent_run (consistent_ofStore supported loaded) rs
  have policy : s.policy = .ofOptions o := policy_run _ rs
  have quantum : s.policy.cleanupQuantum = o.cleanupQuantum := by
    rw [policy]
    rfl
  rw [← quantum]
  exact ⟨consistent.conforms, fun i p held ss kept => exists_run consistent kept held⟩

/-- The more important of two applications waits for one systick, after which it has the processor
again. It terminates, and stays so while the other one is made again. -/
theorem process_states_conform_duo :
    let s := (ofStore duo {}).run
      [.instantiate ⟨0⟩, .instantiate ⟨1⟩, .schedule, .waitIpc ⟨0, 0⟩ (some 1), .schedule]
    let ss : List Request := [.tick, .requestTermination ⟨0, 0⟩, .requestTermination ⟨1, 0⟩,
      .cleanupDone ⟨1, 0⟩, .instantiate ⟨1⟩, .cleanupDone ⟨0, 0⟩]
    s.Conforms 20 .tick ∧ (∃ p, s.processes.get? 0 = some p ∧ s.EndsWait p .ipc .tick) ∧
      s.tick.2.stateOf? ⟨0, 0⟩ = some .running ∧ s.fillings 0 ss = 0 ∧ s.fillings 1 ss = 1 ∧
      ∃ p q, s.processes.get? 0 = some p ∧ (s.run ss).processes.get? 0 = some q ∧
        q.isTerminated = true ∧ ReflTransGen (Next 20) p.state q.state := by
  intro s ss
  have loaded : duo.IsLoaded {} := ⟨{}, {}, duo.apps, by decide +kernel⟩
  obtain ⟨conforms, course⟩ := process_states_conform (o := {}) (by decide) loaded
    [.instantiate ⟨0⟩, .instantiate ⟨1⟩, .schedule, .waitIpc ⟨0, 0⟩ (some 1), .schedule]
  obtain ⟨p, held, waits⟩ : ∃ p, s.processes.get? 0 = some p ∧ p.state = .blocked .ipc :=
    ⟨_, rfl, by decide +kernel⟩
  obtain ⟨q, held', runs⟩ : ∃ q, (s.after .tick).processes.get? 0 = some q ∧ q.state = .running :=
    ⟨_, rfl, by decide +kernel⟩
  have ends := ((conforms .tick).waiting 0 p q .ipc held waits held').1 (by simp [runs])
  have kept : s.fillings 0 ss = 0 := by decide +kernel
  obtain ⟨u, held'', _, path, _⟩ := course 0 p held ss kept
  have dead : ((s.run ss).processes.get? 0).all (·.isTerminated) = true := by decide +kernel
  rw [held''] at dead
  exact ⟨conforms .tick, ⟨p, held, ends⟩, by decide +kernel, kept, by decide +kernel, p, u, held,
    held'', dead, path⟩

end Scheduler
end SeparationKernel
