import Mathlib
import SeparationKernel.Proofs.Scheduler.Move

/-! Consistency: the facts about the fields of a scheduler and of its processes that belong
together. Every move keeps them. -/
namespace SeparationKernel
namespace Scheduler

structure Consistent (s : Scheduler) : Prop where
  /-- Who holds the processor can use it: it runs, or it cleans up. -/
  holder : ∀ i, s.current = some i →
    ∃ p, s.processes.get? i = some p ∧ (p.state = .running ∨ p.state.isCleanup = true)
  /-- Nobody else runs. -/
  running : ∀ i p, s.processes.get? i = some p → p.state = .running → s.current = some i
  /-- A process is named by its slot and the generation of that slot. -/
  named : ∀ i p, s.processes.get? i = some p →
    p.id.index = i ∧ s.processes.generation? i = some p.id.generation
  /-- A process has the descriptor of its application. -/
  described : ∀ i p, s.processes.get? i = some p → s.store.get? p.asid = some p.app
  /-- An application has one live process at most. -/
  single : ∀ i j p q, s.processes.get? i = some p → s.processes.get? j = some q →
    p.isTerminated = false → q.isTerminated = false → p.asid = q.asid → i = j
  /-- Only a blocked process has a deadline. -/
  deadline : ∀ i p, s.processes.get? i = some p → p.deadline.isSome = true → p.isBlocked = true
  /-- Some of the quantum is left, and no more than there was. -/
  quantum : ∀ i p, s.processes.get? i = some p →
    1 ≤ p.quantumLeft.toNat ∧ p.quantumLeft.toNat ≤ p.app.quantum.toNat
  /-- In cleanup, some of the cleanup quantum is left. -/
  cleanup : ∀ i p n, s.processes.get? i = some p → p.state = .cleanup n →
    1 ≤ n.toNat ∧ n.toNat ≤ s.policy.cleanupQuantum.toNat
  place_lt : ∀ i p, s.processes.get? i = some p → p.queuedAt < s.nextPlace
  /-- No two processes have the same place. -/
  place_inj : ∀ i j p q, s.processes.get? i = some p → s.processes.get? j = some q →
    p.queuedAt = q.queuedAt → i = j
  /-- Who holds the processor has waited longest among those of its priority. -/
  longest : ∀ i j p q, s.current = some i → s.processes.get? i = some p →
    s.processes.get? j = some q → q.isSchedulable = true → q.priority = p.priority →
    p.queuedAt ≤ q.queuedAt
  /-- Every application has a quantum, -/
  allotted : ∀ asid app, s.store.get? asid = some app → 1 ≤ app.quantum.toNat
  /-- there is one for cleanup, -/
  cleanup_pos : 1 ≤ s.policy.cleanupQuantum.toNat
  /-- and slots can be told apart by eight bits. -/
  size_le : s.processes.slots.length ≤ 256

/-- Put in slot `i`, the process keeps the rules that concern it alone. -/
structure Fits (s : Scheduler) (i : Nat) (p : Process) : Prop where
  holder : s.current = some i → p.state = .running ∨ p.state.isCleanup = true
  running : p.state = .running → s.current = some i
  deadline : p.deadline.isSome = true → p.isBlocked = true
  quantum : 1 ≤ p.quantumLeft.toNat ∧ p.quantumLeft.toNat ≤ p.app.quantum.toNat
  cleanup : ∀ n, p.state = .cleanup n → 1 ≤ n.toNat ∧ n.toNat ≤ s.policy.cleanupQuantum.toNat

/-- The process `q` is put in slot `i`. Nothing else of the process table or of who holds the
processor changes. -/
structure Put (s t : Scheduler) (i : Nat) (q : Process) : Prop extends AgreeExcept s t i where
  self : t.processes.get? i = some q
  generation? : ∀ j, j ≠ i → t.processes.generation? j = s.processes.generation? j
  store : t.store = s.store
  policy : t.policy = s.policy
  places : s.nextPlace ≤ t.nextPlace
  size : t.processes.slots.length = s.processes.slots.length

/-- Put in slot `i`, the process keeps the rules that concern the others too. -/
structure FitsAmong (s t : Scheduler) (i : Nat) (q : Process) : Prop where
  named : q.id.index = i ∧ t.processes.generation? i = some q.id.generation
  described : s.store.get? q.asid = some q.app
  single : ∀ j r, j ≠ i → s.processes.get? j = some r → q.isTerminated = false →
    r.isTerminated = false → r.asid ≠ q.asid
  place_lt : q.queuedAt < t.nextPlace
  place_ne : ∀ j r, j ≠ i → s.processes.get? j = some r → r.queuedAt ≠ q.queuedAt
  before : t.current = some i → ∀ j r, j ≠ i → s.processes.get? j = some r →
    r.isSchedulable = true → r.priority = q.priority → q.queuedAt ≤ r.queuedAt
  behind : q.isSchedulable = true → ∀ j r, j ≠ i → s.current = some j →
    s.processes.get? j = some r → q.priority = r.priority → r.queuedAt ≤ q.queuedAt

namespace Put

variable {s t : Scheduler} {i : Nat} {q : Process}

theorem get?_cases (c : Put s t i q) {j : Nat} {r : Process} (h : t.processes.get? j = some r) :
    j = i ∧ r = q ∨ j ≠ i ∧ s.processes.get? j = some r := by
  by_cases same : j = i
  · subst j
    rw [c.self] at h
    exact Or.inl ⟨rfl, (Option.some.inj h).symm⟩
  · rw [c.get? j same] at h
    exact Or.inr ⟨same, h⟩

/-- What is so of the process put there, and was of all others, is so of all. -/
theorem forall_get? (c : Put s t i q) {P : Nat → Process → Prop} (own : P i q)
    (others : ∀ j r, j ≠ i → s.processes.get? j = some r → P j r) (j : Nat) (r : Process)
    (held : t.processes.get? j = some r) : P j r := by
  rcases c.get?_cases held with ⟨rfl, rfl⟩ | ⟨other, held⟩
  · exact own
  · exact others j r other held

/-- A scheduler stays consistent if the process that is put into it fits. -/
theorem consistent (c : Put s t i q) (h : s.Consistent) (fits : t.Fits i q)
    (among : FitsAmong s t i q) : t.Consistent where
  holder := by
    intro j holds
    by_cases same : j = i
    · subst j
      exact ⟨q, c.self, fits.holder holds⟩
    · obtain ⟨r, held, uses⟩ := h.holder j ((c.holder j same).1 holds)
      exact ⟨r, (c.get? j same).trans held, uses⟩
  running := c.forall_get? fits.running fun j r other held runs =>
    (c.holder j other).2 (h.running j r held runs)
  named := c.forall_get? among.named fun j r other held => by
    rw [c.generation? j other]
    exact h.named j r held
  described := by
    rw [c.store]
    exact c.forall_get? among.described fun j r _ => h.described j r
  single := by
    intro j k r u held held' alive alive' same
    rcases c.get?_cases held with ⟨rfl, rfl⟩ | ⟨other, held⟩ <;>
      rcases c.get?_cases held' with ⟨rfl, rfl⟩ | ⟨other', held'⟩
    · rfl
    · exact absurd same.symm (among.single k u other' held' alive alive')
    · exact absurd same (among.single j r other held alive' alive)
    · exact h.single j k r u held held' alive alive' same
  deadline := c.forall_get? fits.deadline fun j r _ => h.deadline j r
  quantum := c.forall_get? fits.quantum fun j r _ => h.quantum j r
  cleanup := by
    intro j r n held cleans
    rcases c.get?_cases held with ⟨rfl, rfl⟩ | ⟨_, held⟩
    · exact fits.cleanup n cleans
    · rw [c.policy]
      exact h.cleanup j r n held cleans
  place_lt := c.forall_get? among.place_lt fun j r _ held =>
    Nat.lt_of_lt_of_le (h.place_lt j r held) c.places
  place_inj := by
    intro j k r u held held' same
    rcases c.get?_cases held with ⟨rfl, rfl⟩ | ⟨other, held⟩ <;>
      rcases c.get?_cases held' with ⟨rfl, rfl⟩ | ⟨other', held'⟩
    · rfl
    · exact absurd same.symm (among.place_ne k u other' held')
    · exact absurd same (among.place_ne j r other held)
    · exact h.place_inj j k r u held held' same
  longest := by
    intro j k r u holds held held' schedulable same
    rcases c.get?_cases held with ⟨rfl, rfl⟩ | ⟨other, held⟩ <;>
      rcases c.get?_cases held' with ⟨rfl, rfl⟩ | ⟨other', held'⟩
    · exact le_rfl
    · exact among.before holds k u other' held' schedulable same
    · exact among.behind schedulable j r other ((c.holder j other).1 holds) held same
    · exact h.longest j k r u ((c.holder j other).1 holds) held held' schedulable same
  allotted := c.store ▸ h.allotted
  cleanup_pos := c.policy ▸ h.cleanup_pos
  size_le := c.size ▸ h.size_le

end Put

namespace Change

variable {s t : Scheduler} {i : Nat} {p q : Process}

theorem put (c : Change s t i p q) : Put s t i q :=
  { c.agreeExcept with
    self := c.get?_self
    generation? := fun j _ => c.generation?_eq j
    store := c.store
    policy := c.policy
    places := c.places
    size := c.size }

theorem priority (c : Change s t i p q) : q.priority = p.priority := congrArg App.priority c.app

/-- A change keeps a scheduler consistent if the changed process fits in, and holds the processor
only as one that has waited longest. -/
theorem consistent (c : Change s t i p q) (h : s.Consistent) (fits : t.Fits i q)
    (longest : t.current = some i → q.queuedAt = p.queuedAt ∧ (s.current = some i ∨
      ∀ j r, s.processes.get? j = some r → r.isSchedulable = true → r.precedes p = false)) :
    t.Consistent := by
  have before := h.place_lt i p c.held
  have places := c.places
  refine c.put.consistent h fits ⟨?_, ?_, ?_, ?_, ?_, ?_, ?_⟩
  · rw [c.generation?_eq, c.id]
    exact h.named i p c.held
  · rw [c.asid, c.app]
    exact h.described i p c.held
  · intro j r other held alive alive' same
    exact other (h.single j i r p held c.held alive' (c.alive alive) (same.trans c.asid))
  · rcases c.place with ⟨kept, _⟩ | ⟨_, new⟩ <;> omega
  · intro j r other held same
    rcases c.place with ⟨kept, _⟩ | ⟨new, _⟩
    · exact other (h.place_inj j i r p held c.held (same.trans kept))
    · have lt := h.place_lt j r held
      omega
  · intro holds j r other held schedulable same
    rw [c.priority] at same
    obtain ⟨kept, held_before | first⟩ := longest holds
    · rw [kept]
      exact h.longest i j p r held_before c.held held schedulable same
    · rw [kept]
      exact Process.queuedAt_le_of_not_precedes (first j r held schedulable) same
  · intro schedulable j r other holds held same
    rw [c.priority] at same
    rcases c.place with ⟨kept, schedulable'⟩ | ⟨new, _⟩
    · rw [kept]
      exact h.longest j i r p holds held c.held (schedulable' schedulable) same
    · have lt := h.place_lt j r held
      omega

end Change

section Moves

variable {s t : Scheduler} {i : Nat} {p : Process}

theorem Consistent.alive_of_holder (h : s.Consistent) (holder : s.current = some i)
    (held : s.processes.get? i = some p) : p.isSchedulable = true := by
  obtain ⟨q, held', uses⟩ := h.holder i holder
  obtain rfl : q = p := Option.some.inj (held'.symm.trans held)
  rcases uses with running | cleanup
  · exact Process.isSchedulable_of_running running
  · exact Process.isSchedulable_of_isCleanup cleanup

theorem Consistent.running_of_holder (h : s.Consistent) (holder : s.current = some i)
    (held : s.processes.get? i = some p) (healthy : p.state.isCleanup = false) :
    p.state = .running := by
  obtain ⟨q, held', uses⟩ := h.holder i holder
  obtain rfl : q = p := Option.some.inj (held'.symm.trans held)
  simpa [healthy] using uses

theorem Consistent.deadline_eq_none (h : s.Consistent) (held : s.processes.get? i = some p)
    (schedulable : p.isSchedulable = true) : p.deadline = none := by
  by_contra limited
  have blocked := h.deadline i p held (Option.isSome_iff_ne_none.2 limited)
  rw [Process.not_isSchedulable_of_isBlocked blocked] at schedulable
  cases schedulable

theorem Consistent.not_current_of_isBlocked (h : s.Consistent)
    (held : s.processes.get? i = some p) (blocked : p.isBlocked = true) : s.current ≠ some i := by
  intro holder
  have schedulable := h.alive_of_holder holder held
  rw [Process.not_isSchedulable_of_isBlocked blocked] at schedulable
  cases schedulable

theorem Consistent.not_current_of_freeSlot? (h : s.Consistent)
    (free : s.processes.freeSlot? = some i) : s.current ≠ some i := by
  intro holder
  obtain ⟨q, held, _⟩ := h.holder i holder
  have alive := Process.not_isTerminated_of_isSchedulable (h.alive_of_holder holder held)
  rw [(ProcessTable.freeSlot?_eq_some free).2 q held] at alive
  cases alive

theorem Consistent.fits_ready (h : s.Consistent) (held : s.processes.get? i = some p)
    (vacant : t.current ≠ some i) (place : Nat) : t.Fits i (p.makeReady place) where
  holder holds := absurd holds vacant
  running runs := by cases runs
  deadline limited := by cases limited
  quantum := ⟨h.allotted p.asid p.app (h.described i p held), le_rfl⟩
  cleanup _ cleans := by cases cleans

theorem Consistent.fits_cleanup (h : s.Consistent) (held : s.processes.get? i = some p)
    (policy : t.policy = s.policy) (place : Option Nat) :
    t.Fits i (p.beginCleanup s.policy.cleanupQuantum place) where
  holder _ := Or.inr rfl
  running runs := by cases runs
  deadline limited := by cases limited
  quantum := h.quantum i p held
  cleanup n cleans := by
    obtain rfl : s.policy.cleanupQuantum = n := by simpa [Process.beginCleanup] using cleans
    exact ⟨h.cleanup_pos, policy ▸ le_rfl⟩

theorem consistent_requeue (h : s.Consistent) (held : s.processes.get? i = some p)
    (blocked : p.isBlocked = true) : (s.requeue i).Consistent := by
  have vacant : (s.requeue i).current ≠ some i := h.not_current_of_isBlocked held blocked
  exact (change_requeue held (Process.not_isTerminated_of_isBlocked blocked)).consistent h
    (h.fits_ready held vacant _) fun holds => absurd holds vacant

theorem consistent_rotate (h : s.Consistent) (holder : s.current = some i)
    (held : s.processes.get? i = some p) : (s.requeue i).vacate.Consistent := by
  have alive := Process.not_isTerminated_of_isSchedulable (h.alive_of_holder holder held)
  have vacant : (s.requeue i).vacate.current ≠ some i := by simp [vacate]
  exact ((change_requeue held alive).vacated holder).consistent h
    (h.fits_ready held vacant _) fun holds => absurd holds vacant

theorem consistent_block (h : s.Consistent) (holder : s.current = some i)
    (held : s.processes.get? i = some p) (reason : BlockReason) (deadline : Option Timestamp)
    {next : Nat} (places : s.nextPlace ≤ next) :
    Consistent { (s.update i (·.block reason deadline)).vacate with nextPlace := next } := by
  have alive := Process.not_isTerminated_of_isSchedulable (h.alive_of_holder holder held)
  refine (change_block holder held alive reason deadline places).consistent h ?_ ?_
  · exact {
      holder := fun holds => by cases holds
      running := fun runs => by cases runs
      deadline := fun _ => rfl
      quantum := h.quantum i p held
      cleanup := fun _ cleans => by cases cleans }
  · intro holds
    cases holds

theorem consistent_charge (h : s.Consistent) (holder : s.current = some i)
    (held : s.processes.get? i = some p) {q : Process} (left : p.charge = .goesOn q) :
    (s.update i fun _ => q).Consistent := by
  have change := change_charge held left
  have fits : (s.update i fun _ => q).Fits i q := by
    rcases Process.charge_goesOn left with ⟨running, more, rfl⟩ | ⟨n, cleanup, more, rfl⟩ |
      ⟨idle, healthy, rfl⟩
    · have quantum := h.quantum i p held
      exact {
        holder := fun _ => Or.inl running
        running := fun _ => holder
        deadline := h.deadline i p held
        quantum := by
          simp only [Counter.toNat_down]
          omega
        cleanup := fun m cleans => h.cleanup i p m held cleans }
    · have quantum := h.cleanup i p n held cleanup
      exact {
        holder := fun _ => Or.inr rfl
        running := fun _ => holder
        deadline := fun limited => by
          obtain ⟨r, blocked⟩ := Process.isBlocked_iff.1 (h.deadline i p held limited)
          simp [cleanup] at blocked
        quantum := h.quantum i p held
        cleanup := by
          rintro m cleans
          obtain rfl : Counter.down n = m := by simpa using cleans
          simp only [Counter.toNat_down]
          have policy : (s.update i fun _ => { p with state := .cleanup (Counter.down n) }).policy
            = s.policy := rfl
          rw [policy]
          omega }
    · obtain ⟨r, held', uses⟩ := h.holder i holder
      obtain rfl : r = q := Option.some.inj (held'.symm.trans held)
      simp [idle, healthy] at uses
  refine change.consistent h fits fun _ => ⟨?_, Or.inl holder⟩
  rcases Process.charge_goesOn left with ⟨_, _, rfl⟩ | ⟨_, _, _, rfl⟩ | ⟨_, _, rfl⟩ <;> rfl

theorem consistent_condemnHolder (h : s.Consistent) (holder : s.current = some i)
    (held : s.processes.get? i = some p) (running : p.state = .running) :
    (s.update i (·.beginCleanup s.policy.cleanupQuantum none)).Consistent := by
  have fits := h.fits_cleanup (t := s.update i (·.beginCleanup s.policy.cleanupQuantum none))
    held rfl none
  exact (change_condemnHolder held running _).consistent h fits fun _ => ⟨rfl, Or.inl holder⟩

theorem consistent_condemn (h : s.Consistent) (waits : s.current ≠ some i)
    (held : s.processes.get? i = some p) (alive : p.isTerminated = false) :
    (s.enqueue i fun place p =>
      p.beginCleanup s.policy.cleanupQuantum (some place)).Consistent := by
  have fits := h.fits_cleanup (t := s.enqueue i fun place p =>
    p.beginCleanup s.policy.cleanupQuantum (some place)) held rfl (some s.nextPlace)
  exact (change_condemn held alive _).consistent h fits fun holds => absurd holds waits

theorem consistent_retire (h : s.Consistent) (held : s.processes.get? i = some p)
    (cleanup : p.state.isCleanup = true) (outcome : CleanupOutcome) :
    (s.retire i p outcome).Consistent := by
  have alive := Process.not_isTerminated_of_isSchedulable
    (Process.isSchedulable_of_isCleanup cleanup)
  have vacant : (s.retire i p outcome).current ≠ some i := by
    by_cases holder : s.current = some i
    · simp [retire, holder, vacate]
    · simp [retire, holder, releaseBuffers, update]
  refine (change_retire held alive outcome).consistent h ?_ fun holds => absurd holds vacant
  exact {
    holder := fun holds => absurd holds vacant
    running := fun runs => by cases runs
    deadline := fun limited => by cases limited
    quantum := h.quantum i p held
    cleanup := fun _ cleans => by cases cleans }

theorem consistent_withdraw (h : s.Consistent) (holder : s.current = some i) :
    s.withdraw.Consistent := by
  obtain ⟨p, held, uses⟩ := h.holder i holder
  have schedulable := h.alive_of_holder holder held
  have vacant : s.withdraw.current ≠ some i := by simp [withdraw_eq holder, vacate]
  have change := change_withdraw holder held (Process.not_isTerminated_of_isSchedulable schedulable)
  refine change.consistent h ?_ fun holds => absurd holds vacant
  rw [Process.preempt_eq]
  exact {
    holder := fun holds => absurd holds vacant
    running := fun runs => by
      by_cases running : p.state = .running <;> simp [running] at runs
    deadline := fun limited => by simp [h.deadline_eq_none held schedulable] at limited
    quantum := h.quantum i p held
    cleanup := fun n cleans => by
      by_cases running : p.state = .running
      · simp [running] at cleans
      · have same : s.withdraw.policy = s.policy := change.policy
        rw [same]
        exact h.cleanup i p n held (by simpa [running] using cleans) }

theorem consistent_giveTo (h : s.Consistent) (vacant : s.current = none)
    (held : s.processes.get? i = some p) (schedulable : p.isSchedulable = true)
    (first : ∀ j q, s.processes.get? j = some q → q.isSchedulable = true →
      q.precedes p = false) : (s.giveTo i).Consistent := by
  have change := change_giveTo vacant held schedulable
  have uses : p.state = .ready ∨ p.state.isCleanup = true := by
    rcases Process.isSchedulable_iff.1 schedulable with ready | running | cleanup
    · exact Or.inl ready
    · have holder := h.running i p held running
      simp [vacant] at holder
    · exact Or.inr cleanup
  refine change.consistent h ?_ fun _ => ⟨by rw [Process.dispatch_eq], Or.inr first⟩
  rw [Process.dispatch_eq]
  exact {
    holder := fun _ => by
      rcases uses with ready | cleanup
      · simp [ready]
      · have other : p.state ≠ .ready := fun ready => by
          simp [ready, ProcessState.isCleanup] at cleanup
        exact Or.inr (by simpa [other] using cleanup)
    running := fun _ => rfl
    deadline := fun limited => by simp [h.deadline_eq_none held schedulable] at limited
    quantum := h.quantum i p held
    cleanup := fun n cleans => by
      by_cases ready : p.state = .ready
      · simp [ready] at cleans
      · exact h.cleanup i p n held (by simpa [ready] using cleans) }

theorem put_install (s : Scheduler) (lt : i < s.processes.slots.length) (p : Process) :
    Put s (s.install i p) i p where
  get? j other := by rw [install, ProcessTable.get?_install _ _ _ lt, if_neg other.symm]
  holder _ _ := Iff.rfl
  self := by rw [install, ProcessTable.get?_install _ _ _ lt, if_pos rfl]
  generation? j other := by
    rw [install, ProcessTable.generation?_install _ _ _ lt, if_neg other.symm]
  store := rfl
  policy := rfl
  places := Nat.le_succ _
  size := ProcessTable.length_slots_install _ _ _

/-- A new process has its slot to itself, since no live process was there. -/
theorem consistent_install (h : s.Consistent) {asid : Asid} {app : App}
    (described : s.store.get? asid = some app) (fresh : s.processes.ofApp? asid = none)
    (free : s.processes.freeSlot? = some i) :
    (s.install i (s.newProcess i asid app)).Consistent := by
  have lt := (ProcessTable.freeSlot?_eq_some free).1
  have vacant := h.not_current_of_freeSlot? free
  refine (put_install s lt _).consistent h ?_ ?_
  · exact {
      holder := fun holds => absurd holds vacant
      running := fun runs => by cases runs
      deadline := fun limited => by cases limited
      quantum := ⟨h.allotted asid app described, le_rfl⟩
      cleanup := fun _ cleans => by cases cleans }
  · exact {
      named := by
        rw [install, ProcessTable.generation?_install _ _ _ lt]
        exact ⟨ProcessTable.index_nextId (Nat.lt_of_lt_of_le lt h.size_le), if_pos rfl⟩
      described := described
      single := fun j r _ held _ alive => ProcessTable.ofApp?_eq_none_iff.1 fresh j r held alive
      place_lt := Nat.lt_succ_self _
      place_ne := fun j r _ held => Nat.ne_of_lt (h.place_lt j r held)
      before := fun holds => absurd holds vacant
      behind := fun _ j r _ _ held _ => Nat.le_of_lt (h.place_lt j r held) }

end Moves

theorem Consistent.congr {s t : Scheduler} (h : s.Consistent) (store : t.store = s.store)
    (policy : t.policy = s.policy) (processes : t.processes = s.processes)
    (current : t.current = s.current) (nextPlace : t.nextPlace = s.nextPlace) : t.Consistent := by
  obtain ⟨store', policy', processes', current', now, idleRun, nextPlace', buffers⟩ := t
  subst store policy processes current nextPlace
  exact ⟨h.holder, h.running, h.named, h.described, h.single, h.deadline, h.quantum, h.cleanup,
    h.place_lt, h.place_inj, h.longest, h.allotted, h.cleanup_pos, h.size_le⟩

theorem Move.consistent {s t : Scheduler} (m : Move s t) (h : s.Consistent) : t.Consistent := by
  cases m with
  | clock now idleRun => exact h.congr rfl rfl rfl rfl rfl
  | lend buffers => exact h.congr rfl rfl rfl rfl rfl
  | install described fresh free => exact consistent_install h described fresh free
  | wake held blocked => exact consistent_requeue h held blocked
  | rotate holder held running => exact consistent_rotate h holder held
  | block holder held running reason deadline places =>
    exact consistent_block h holder held reason deadline places
  | charge holder held left => exact consistent_charge h holder held left
  | condemnHolder holder held running => exact consistent_condemnHolder h holder held running
  | condemn waits held alive healthy => exact consistent_condemn h waits held alive
  | retire held cleanup outcome => exact consistent_retire h held cleanup outcome
  | preempt holder => exact consistent_withdraw h holder
  | dispatch vacant held schedulable first =>
    exact consistent_giveTo h vacant held schedulable first

theorem Moves.consistent {s t : Scheduler} (m : Moves s t) (h : s.Consistent) : t.Consistent := by
  induction m with
  | refl => exact h
  | tail _ last ih => exact last.consistent ih

end Scheduler
end SeparationKernel
