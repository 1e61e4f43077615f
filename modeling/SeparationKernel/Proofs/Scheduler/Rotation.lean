import Mathlib
import SeparationKernel.Proofs.Scheduler.Quantum
import SeparationKernel.Proofs.Scheduler.Ticks
import SeparationKernel.Proofs.Scheduler.TimeLimit

/-! Rounds. When nothing is asked of a scheduler, the processes of the most important band have the
processor in turns, each for its quantum, and after a turn of each the round begins again. -/
namespace SeparationKernel

namespace Scheduler

variable {s : Scheduler} {n : Nat} {p u : Process} {ps us done : List Process} {r : Priority}

/-- The next systicks all go well, with nothing to report, and begin while these processes run, one
after the other. -/
def Serves (s : Scheduler) : List ProcessId → Prop
  | [] => True
  | id :: ids => s.isRunning id = true ∧ s.tick.1 = .ok [] ∧ s.tick.2.Serves ids

theorem Serves.append {xs ys : List ProcessId} (first : s.Serves xs)
    (second : (s.ticked xs.length).Serves ys) : s.Serves (xs ++ ys) := by
  induction xs generalizing s with
  | nil => simpa using second
  | cons x xs ih =>
    obtain ⟨runs, fine, later⟩ := first
    rw [List.length_cons, ticked_succ] at second
    exact ⟨runs, fine, ih later second⟩

theorem isRunning_iff_eq {id id' : ProcessId} (runs : s.isRunning id = true) :
    s.isRunning id' = true ↔ id = id' := by
  simp only [isRunning, Option.any_eq_true, Bool.and_eq_true, beq_iff_eq] at runs ⊢
  obtain ⟨q, current, rfl, running⟩ := runs
  rw [current]
  simp [running]

theorem Serves.runningTicks {ids : List ProcessId} (serves : s.Serves ids) (id : ProcessId) :
    s.runningTicks id (List.replicate ids.length .tick) = ids.count id := by
  induction ids generalizing s with
  | nil => rfl
  | cons x xs ih =>
    obtain ⟨runs, _, later⟩ := serves
    have charged : s.runningTicks id (.tick :: List.replicate xs.length .tick) =
        (if x = id then 1 else 0) + s.tick.2.runningTicks id (List.replicate xs.length .tick) := by
      simp only [Scheduler.runningTicks, isRunning_iff_eq runs, true_and]
      rfl
    rw [List.length_cons, List.replicate_succ, charged, ih later, List.count_cons, Nat.add_comm]
    simp only [beq_iff_eq]

/-- The process is there, can run, and has `n` systicks left of its quantum. -/
def HasLeft (s : Scheduler) (p : Process) (n : Nat) : Prop :=
  ∃ q, s.processes.get? p.id.index = some q ∧ Process.SameAs p q ∧ q.CanRun ∧
    q.quantumLeft.toNat = n

namespace HasLeft

theorem isRunning_iff (has : s.HasLeft p n) (h : s.Consistent) :
    s.isRunning p.id = true ↔ s.currentId? = some p.id := by
  obtain ⟨q, held, same, able, _⟩ := has
  rw [← same.id, Scheduler.isRunning_iff h held, currentId?_eq_some_iff h held]
  exact ⟨h.running _ q held,
    fun holder => h.running_of_holder holder held (Process.canRun_iff.1 able).2⟩

theorem pos (has : s.HasLeft p n) (h : s.Consistent) : 1 ≤ n ∧ 1 ≤ p.app.quantum.toNat := by
  obtain ⟨q, held, same, _, rfl⟩ := has
  have quantum := h.quantum _ q held
  rw [same.app] at quantum
  exact ⟨quantum.1, quantum.1.trans quantum.2⟩

theorem tick (has : s.HasLeft p n) (h : s.Consistent) :
    s.tick.2.HasLeft p (if s.currentId? = some p.id then
      if n ≤ 1 then p.app.quantum.toNat else n - 1 else n) := by
  have runs := has.isRunning_iff h
  obtain ⟨q, held, same, able, rfl⟩ := has
  obtain ⟨place, after⟩ := get?_tick h p.id.index
  rw [held, Option.map_some] at after
  refine ⟨_, after, same.trans ((q.sameAs_elapse _ _ _).trans (Process.sameAs_settle _ _)),
    (able.elapse _ _ _).settle _, ?_⟩
  have awake : q.isBlocked = false := by
    rcases able with state | state <;> simp [Process.isBlocked, state]
  have quantum := h.quantum _ q held
  rw [Process.quantumLeft_settle]
  have charge := quantumLeft_elapse h held place
  simp only [Requeues, same.id, runs, awake, Bool.false_eq_true, false_and, false_or] at charge
  rcases charge with ⟨⟨holds, last⟩, whole⟩ | ⟨kept, left⟩
  · rw [if_pos holds, if_pos last.le, whole, same.app]
  · by_cases holds : s.currentId? = some p.id
    · have more : ¬ q.quantumLeft.toNat ≤ 1 := fun last => kept ⟨holds, by omega⟩
      rw [if_pos holds] at left ⊢
      rw [if_neg more]
      omega
    · rw [if_neg holds] at left ⊢
      exact left

end HasLeft

/-- The first process of the most important band has the processor, with `n` systicks left of its
quantum, and those behind it have all of theirs. Nobody waits for a time limit who could come before
any of them, or between them. -/
structure Turn (s : Scheduler) (n : Nat) (p : Process) (ps : List Process) : Prop where
  consistent : s.Consistent
  band : s.band p.priority = (p :: ps).map (·.id)
  current : s.currentId? = some p.id
  left : s.HasLeft p n
  whole : ∀ u ∈ ps, s.HasLeft u u.app.quantum.toNat
  foremost : ∀ r, r.isMoreImportantThan p.priority = true → s.band r = []
  unlimited : ∀ i u, s.processes.get? i = some u →
    p.priority.isMoreImportantThan u.priority = false → u.deadline = none

namespace Turn

theorem nodup (turn : s.Turn n p ps) : ((p :: ps).map (·.id)).Nodup :=
  turn.band ▸ nodup_band turn.consistent _

theorem running (turn : s.Turn n p ps) : s.isRunning p.id = true :=
  (turn.left.isRunning_iff turn.consistent).2 turn.current

theorem exists_hasLeft (turn : s.Turn n p ps) (mem : u ∈ p :: ps) : ∃ m, s.HasLeft u m := by
  rcases List.mem_cons.1 mem with rfl | mem
  · exact ⟨n, turn.left⟩
  · exact ⟨_, turn.whole u mem⟩

theorem priority_eq (turn : s.Turn n p ps) (mem : u ∈ p :: ps) : u.priority = p.priority := by
  have joined : u.id ∈ s.band p.priority := turn.band ▸ List.mem_map_of_mem mem
  obtain ⟨i, q, held, _, same, named⟩ := (mem_band turn.consistent).1 joined
  obtain ⟨_, q', held', same', _⟩ := turn.exists_hasLeft mem
  rw [← named, (turn.consistent.named i q held).1, held] at held'
  obtain rfl := Option.some.inj held'
  rw [← same, same'.priority]

theorem woken (turn : s.Turn n p ps) (near : p.priority.isMoreImportantThan r = false) :
    s.woken r = [] := by
  rw [List.eq_nil_iff_forall_not_mem]
  intro id wakes
  obtain ⟨u, mem, _⟩ := List.mem_map.1 wakes
  obtain ⟨listed, same⟩ := List.mem_filter.1 mem
  obtain ⟨⟨i, _⟩, due, rfl⟩ := List.mem_map.1 listed
  obtain ⟨held, come⟩ := ProcessTable.mem_due.1 due
  have unlimited := turn.unlimited i _ held (by rwa [beq_iff_eq.1 same])
  simp [Process.isDue, unlimited] at come

theorem band_tick (turn : s.Turn n p ps) (near : p.priority.isMoreImportantThan r = false) :
    s.tick.2.band r = if p.priority = r then (if n ≤ 1 then ps ++ [p] else p :: ps).map (·.id)
      else s.band r := by
  have h := turn.consistent
  obtain ⟨q, held, same, able, rfl⟩ := turn.left
  have holder : s.current = some p.id.index :=
    (currentId?_eq_some_iff h held).1 (same.id ▸ turn.current)
  have running := h.running_of_holder holder held (Process.canRun_iff.1 able).2
  have priority := same.priority
  have members : q.id :: s.queue p.priority = p.id :: ps.map (·.id) := by
    rw [← priority, ← band_of_holder holder held, priority, turn.band, List.map_cons]
  have charge := Process.charge_of_running running
  by_cases last : q.quantumLeft.toNat ≤ 1
  · rw [if_pos last] at charge ⊢
    rw [band_tick_of_quantumExpired h holder held charge, turn.woken near, List.append_nil,
      priority, (List.cons.inj members).2, same.id, List.map_append]
    rfl
  · rw [if_neg last] at charge ⊢
    rw [band_tick_of_goesOn h holder held charge, turn.woken near, List.append_nil]
    split
    · rename_i here
      rw [← here, turn.band]
    · rfl

theorem foremost_tick (turn : s.Turn n p ps) (more : r.isMoreImportantThan p.priority = true) :
    s.tick.2.band r = [] := by
  have other : p.priority ≠ r := by
    rintro rfl
    simp at more
  rw [turn.band_tick (Priority.not_isMoreImportantThan_of_isMoreImportantThan more), if_neg other,
    turn.foremost r more]

theorem unlimited_tick (turn : s.Turn n p ps) {i : Nat}
    (held : s.tick.2.processes.get? i = some u)
    (near : p.priority.isMoreImportantThan u.priority = false) : u.deadline = none := by
  have kept : ¬ s.Fills i .tick := by
    rintro ⟨_, makes, _⟩
    cases makes
  obtain ⟨x, held', becomes⟩ := exists_before turn.consistent kept held
  rw [becomes.sameAs.priority] at near
  exact becomes.deadline_eq_none (turn.unlimited i x held' near) fun _ _ suspends => by
    cases suspends

/-- After a systick it is the turn of the one that it puts first. -/
theorem tick {m : Nat} (turn : s.Turn n p ps)
    (next : (if n ≤ 1 then ps ++ [p] else p :: ps) = u :: us) (left : s.tick.2.HasLeft u m)
    (whole : ∀ x ∈ us, s.tick.2.HasLeft x x.app.quantum.toNat) : s.tick.2.Turn m u us := by
  have consistent : s.tick.2.Consistent := consistent_after turn.consistent .tick
  have priority : u.priority = p.priority := by
    have first : u ∈ if n ≤ 1 then ps ++ [p] else p :: ps := next ▸ List.mem_cons_self
    apply turn.priority_eq
    split at first <;> simpa [or_comm] using first
  have band : s.tick.2.band u.priority = (u :: us).map (·.id) := by
    rw [priority, turn.band_tick (Priority.not_isMoreImportantThan_self _), if_pos rfl, next]
  have foremost : ∀ r, r.isMoreImportantThan u.priority = true → s.tick.2.band r = [] :=
    fun r more => turn.foremost_tick (priority ▸ more)
  -- Who has the processor need not be followed: the decision gives it to the first of the band.
  exact {
    consistent, band, left, whole, foremost
    current := currentId?_of_band consistent (settled_tick s) band foremost
    unlimited := fun _ _ held near => turn.unlimited_tick held (priority ▸ near) }

theorem tick_left (turn : s.Turn n p ps) :
    s.tick.2.HasLeft p (if n ≤ 1 then p.app.quantum.toNat else n - 1) := by
  simpa [turn.current] using turn.left.tick turn.consistent

theorem tick_whole (turn : s.Turn n p ps) (mem : u ∈ ps) :
    s.tick.2.HasLeft u u.app.quantum.toNat := by
  have other : p.id ≠ u.id := by
    intro same
    exact (List.nodup_cons.1 turn.nodup).1 (List.mem_map.2 ⟨u, mem, same.symm⟩)
  simpa [turn.current, other] using (turn.whole u mem).tick turn.consistent

theorem tick_of_more (turn : s.Turn n p ps) (more : 1 < n) : s.tick.2.Turn (n - 1) p ps := by
  have left := turn.tick_left
  rw [if_neg more.not_ge] at left
  exact turn.tick (if_neg more.not_ge) left fun x mem => turn.tick_whole mem

theorem tick_of_last (turn : s.Turn n p ps) (last : n ≤ 1) (next : ps ++ [p] = u :: us) :
    s.tick.2.Turn u.app.quantum.toNat u us := by
  have whole : ∀ x ∈ u :: us, s.tick.2.HasLeft x x.app.quantum.toNat := by
    intro x mem
    rw [← next, List.mem_append, List.mem_singleton] at mem
    rcases mem with mem | rfl
    · exact turn.tick_whole mem
    · have left := turn.tick_left
      rwa [if_pos last] at left
  exact turn.tick ((if_pos last).trans next) (whole u List.mem_cons_self)
    fun x mem => whole x (List.mem_cons_of_mem _ mem)

theorem exists_tick (turn : s.Turn n p ps) : ∃ m u us, s.tick.2.Turn m u us := by
  rcases Nat.lt_or_ge 1 n with more | last
  · exact ⟨_, _, _, turn.tick_of_more more⟩
  · cases next : ps ++ [p] with
    | nil => simp at next
    | cons u us => exact ⟨_, _, _, turn.tick_of_last last next⟩

theorem answer (turn : s.Turn n p ps) : s.tick.1 = .ok [] := by
  obtain ⟨m, u, us, after⟩ := turn.exists_tick
  have busy : s.tick.2.isIdle = false := by
    simpa [after.current] using currentId?_tick s
  have silent : s.advance.chargeCurrent.1 = [] := by
    rw [List.eq_nil_iff_forall_not_mem]
    intro t mem
    obtain ⟨q, current, overrun, _⟩ := mem_chargeCurrent.1 mem
    obtain ⟨k, cleanup, _⟩ := Process.charge_cleanupOverrun overrun
    have running := turn.running
    rw [Scheduler.isRunning, show s.currentProcess? = some q from current] at running
    simp [cleanup] at running
  obtain ⟨told, well⟩ := exists_tick_eq_ok busy
  rw [well, eq_of_tick_eq_ok well, silent]

/-- The process has all of its turn without a break, and then it is the turn of the next one. -/
theorem serves (turn : s.Turn n p ps) (next : ps ++ [p] = u :: us) :
    s.Serves (List.replicate n p.id) ∧ (s.ticked n).Turn u.app.quantum.toNat u us := by
  induction n generalizing s with
  | zero => exact absurd (turn.left.pos turn.consistent).1 (by decide)
  | succ n ih =>
    rcases Nat.eq_zero_or_pos n with rfl | more
    · exact ⟨⟨turn.running, turn.answer, trivial⟩, turn.tick_of_last le_rfl next⟩
    · obtain ⟨later, after⟩ := ih (turn.tick_of_more (by omega))
      rw [List.replicate_succ, ticked_succ]
      exact ⟨⟨turn.running, turn.answer, later⟩, after⟩

end Turn

/-- Each process as often as it has systicks in its quantum, one after the other. -/
def stretches (ps : List Process) : List ProcessId :=
  ps.flatMap fun p => List.replicate p.app.quantum.toNat p.id

theorem stretches_cons (p : Process) (ps : List Process) :
    stretches (p :: ps) = List.replicate p.app.quantum.toNat p.id ++ stretches ps := rfl

/-- Those in front have their turns. Behind them are those who have had theirs in this round. -/
theorem Turn.round (turn : s.Turn p.app.quantum.toNat p (ps ++ done))
    (next : done ++ p :: ps = u :: us) :
    s.Serves (stretches (p :: ps)) ∧
      (s.ticked (stretches (p :: ps)).length).Turn u.app.quantum.toNat u us := by
  -- After its turn `p` is the last of those who have had theirs, so `done` grows as `ps` shrinks.
  induction ps generalizing s p done with
  | nil =>
    rw [stretches, List.flatMap_singleton, List.length_replicate]
    exact turn.serves next
  | cons q qs ih =>
    have passes : (q :: qs ++ done) ++ [p] = q :: (qs ++ (done ++ [p])) := by simp
    obtain ⟨first, turn'⟩ := turn.serves passes
    rw [List.append_cons] at next
    obtain ⟨rest, after⟩ := ih turn' next
    rw [stretches_cons, List.length_append, ticked_add, List.length_replicate]
    refine ⟨first.append ?_, after⟩
    rwa [List.length_replicate]

theorem length_stretches (ps : List Process) :
    (stretches ps).length = (ps.map (·.app.quantum.toNat)).sum := by
  simp [stretches, List.length_flatMap]

theorem count_stretches (distinct : (ps.map (·.id)).Nodup) (mem : p ∈ ps) :
    (stretches ps).count p.id = p.app.quantum.toNat := by
  induction ps with
  | nil => cases mem
  | cons q qs ih =>
    rw [List.map_cons, List.nodup_cons] at distinct
    rw [stretches_cons, List.count_append, List.count_replicate]
    rcases List.mem_cons.1 mem with rfl | later
    · have absent : p.id ∉ stretches qs := by
        intro served
        obtain ⟨u, mem', named⟩ := List.mem_flatMap.1 served
        exact distinct.1 (List.mem_map.2 ⟨u, mem', (List.eq_of_mem_replicate named).symm⟩)
      simp [List.count_eq_zero_of_not_mem absent]
    · have other : q.id ≠ p.id := fun same => distinct.1 (same ▸ List.mem_map_of_mem later)
      simp [other, ih distinct.2 later]

def present (s : Scheduler) (p : Process) : Process := (s.processes.find? p.id).getD p

/-- A round begins. `first` runs and `others` wait behind it, each with a whole quantum. Nobody who
is more important can use the processor, and nobody as important waits for a time limit. -/
structure RoundBegins (s : Scheduler) (first : Process) (others : List Process) : Prop where
  current : s.currentProcess? = some first
  running : first.state = .running
  held : ∀ p ∈ others, s.processes.find? p.id = some p
  queue : s.queue first.priority = others.map (·.id)
  healthy : ∀ p ∈ others, p.state.isCleanup = false
  whole : ∀ p ∈ first :: others, p.quantumLeft = p.app.quantum
  foremost : ∀ p ∈ s.processes.live, p.isSchedulable = true →
    p.priority.isMoreImportantThan first.priority = false
  unlimited : ∀ p ∈ s.processes.live, p.isBlocked = true →
    first.priority.isMoreImportantThan p.priority = false → p.deadline = none

variable {first : Process} {others : List Process}

theorem HasLeft.present (has : s.HasLeft p n) : ∃ q, s.present p = q ∧
    s.processes.get? p.id.index = some q ∧ Process.SameAs p q ∧ q.CanRun ∧
      q.quantumLeft.toNat = n := by
  obtain ⟨q, held, same, rest⟩ := has
  refine ⟨q, ?_, held, same, rest⟩
  rw [Scheduler.present, ProcessTable.find?_eq_some_iff.2 ⟨held, same.id⟩, Option.getD_some]

theorem RoundBegins.turn (begins : s.RoundBegins first others) (h : s.Consistent) :
    s.Turn first.app.quantum.toNat first others := by
  obtain ⟨i, holder, held⟩ := currentProcess?_eq_some_iff.1 begins.current
  have index := (h.named i first held).1
  exact {
    consistent := h
    band := by rw [band_of_holder holder held, begins.queue, List.map_cons]
    current := (currentId?_eq_some_iff h held).2 holder
    left := ⟨first, index ▸ held, .refl first, Or.inr begins.running,
      by rw [begins.whole first List.mem_cons_self]⟩
    whole := by
      intro u mem
      obtain ⟨held', _⟩ := ProcessTable.find?_eq_some_iff.1 (begins.held u mem)
      have waits : u.id ∈ s.queue first.priority := begins.queue ▸ List.mem_map_of_mem mem
      have able := (eq_of_mem_queue h held' waits rfl).2.1.2.1
      exact ⟨u, held', .refl u, Process.canRun_iff.2 ⟨able, begins.healthy u mem⟩,
        by rw [begins.whole u (List.mem_cons_of_mem _ mem)]⟩
    foremost := by
      intro r more
      rw [List.eq_nil_iff_forall_not_mem]
      intro id mem
      obtain ⟨j, u, held', able, rfl, _⟩ := (mem_band h).1 mem
      have live : u ∈ s.processes.live :=
        ProcessTable.mem_live.2 ⟨j, held', Process.not_isTerminated_of_isSchedulable able⟩
      rw [begins.foremost u live able] at more
      cases more
    unlimited := by
      intro j u held' near
      by_contra limited
      have blocked := h.deadline j u held' (Option.isSome_iff_ne_none.2 limited)
      have live : u ∈ s.processes.live :=
        ProcessTable.mem_live.2 ⟨j, held', Process.not_isTerminated_of_isBlocked blocked⟩
      exact limited (begins.unlimited u live blocked near) }

theorem HasLeft.whole (has : s.HasLeft p p.app.quantum.toNat) :
    s.processes.find? (s.present p).id = some (s.present p) ∧
      (s.present p).state.isCleanup = false ∧
        (s.present p).quantumLeft = (s.present p).app.quantum := by
  obtain ⟨q, here, held, same, able, all⟩ := has.present
  rw [here, same.id]
  refine ⟨ProcessTable.find?_eq_some_iff.2 ⟨held, same.id⟩, (Process.canRun_iff.1 able).2, ?_⟩
  rw [← UInt32.toNat_inj, all, same.app]

theorem Turn.roundBegins (turn : s.Turn p.app.quantum.toNat p ps) :
    s.RoundBegins (s.present p) (ps.map s.present) := by
  have h := turn.consistent
  have names : (ps.map s.present).map (·.id) = ps.map (·.id) := by
    rw [List.map_map]
    refine List.map_congr_left fun u mem => ?_
    obtain ⟨q, here, _, same, _⟩ := (turn.whole u mem).present
    exact (congrArg (·.id) here).trans same.id
  obtain ⟨_, rfl, held, same, able, _⟩ := turn.left.present
  have holder := (currentId?_eq_some_iff h held).1 (same.id ▸ turn.current)
  exact {
    current := currentProcess?_eq_some_iff.2 ⟨_, holder, held⟩
    running := h.running_of_holder holder held (Process.canRun_iff.1 able).2
    held := List.forall_mem_map.2 fun u mem => (turn.whole u mem).whole.1
    queue := by
      have members := turn.band
      rw [← same.priority, band_of_holder holder held, List.map_cons] at members
      rw [names, (List.cons.inj members).2]
    healthy := List.forall_mem_map.2 fun u mem => (turn.whole u mem).whole.2.1
    whole := List.forall_mem_cons.2 ⟨turn.left.whole.2.2,
      List.forall_mem_map.2 fun u mem => (turn.whole u mem).whole.2.2⟩
    foremost := by
      intro u live able'
      by_contra more
      obtain ⟨j, held', _⟩ := ProcessTable.mem_live.1 live
      have mem : u.id ∈ s.band u.priority := (mem_band h).2 ⟨j, u, held', able', rfl, rfl⟩
      rw [same.priority] at more
      rw [turn.foremost _ (by simpa using more)] at mem
      cases mem
    unlimited := by
      intro u live _ near
      obtain ⟨j, held', _⟩ := ProcessTable.mem_live.1 live
      exact turn.unlimited j u held' (same.priority ▸ near) }

/-- If a round begins in a reachable state and nothing is asked, then each of its processes runs for
as many systicks as its quantum has, without a break and in the order of the queue. All of these
systicks go well, whatever becomes of the less important processes, and after them the round begins
again. -/
theorem Reachable.round_robin_exact {o : Options} {store : Store} (h : Reachable o store s)
    (begins : s.RoundBegins first others) :
    let round := first :: others
    let n := (round.map (·.app.quantum.toNat)).sum
    let t := s.ticked n
    (round.map (·.id)).Nodup ∧
      s.Serves (stretches round) ∧
      (∀ p ∈ round, s.runningTicks p.id (List.replicate n .tick) = p.app.quantum.toNat) ∧
      t.RoundBegins (t.present first) (others.map t.present) ∧
      ∀ p ∈ round, Process.SameAs p (t.present p) := by
  intro round n t
  have turn := begins.turn h.consistent
  rw [← List.append_nil others] at turn
  obtain ⟨serves, again⟩ := turn.round rfl
  have length : (stretches round).length = n := length_stretches round
  rw [length] at again
  rw [List.append_nil] at turn
  refine ⟨turn.nodup, serves, fun p mem => ?_, again.roundBegins, ?_⟩
  · rw [← length, serves.runningTicks, count_stretches turn.nodup mem]
  · intro p mem
    obtain ⟨_, has⟩ := again.exists_hasLeft mem
    obtain ⟨q, here, _, same, _⟩ := has.present
    exact here ▸ same

/-- Three applications of one priority with quanta of their own, and one that is less important. -/
def quartet : Store :=
  ⟨[{ name := "a", priority := ⟨1⟩, quantum := 2 }, { name := "b", priority := ⟨1⟩, quantum := 1 },
    { name := "c", priority := ⟨1⟩, quantum := 3 }, { name := "d", priority := ⟨3⟩, quantum := 2 }]⟩

/-- The less important application waits when the round begins, and its time limit ends in the
middle of the round. -/
theorem round_robin_exact_quartet :
    let s := (ofStore quartet {}).run [.instantiate ⟨3⟩, .schedule, .waitIo ⟨0, 0⟩ (some 2),
      .instantiate ⟨0⟩, .instantiate ⟨1⟩, .instantiate ⟨2⟩, .schedule]
    let t := s.ticked 6
    ∃ first others, s.RoundBegins first others ∧
      s.Serves [⟨1, 0⟩, ⟨1, 0⟩, ⟨2, 0⟩, ⟨3, 0⟩, ⟨3, 0⟩, ⟨3, 0⟩] ∧
      t.RoundBegins (t.present first) (others.map t.present) ∧
      s.stateOf? ⟨0, 0⟩ = some (.blocked .io) ∧ t.stateOf? ⟨0, 0⟩ = some .ready := by
  intro s t
  have reachable : Reachable {} quartet s :=
    ⟨by decide, ⟨{}, {}, quartet.apps, by decide +kernel⟩, _, rfl⟩
  let first := (s.processes.get? 1).get (by decide +kernel)
  let others := [(s.processes.get? 2).get (by decide +kernel),
    (s.processes.get? 3).get (by decide +kernel)]
  have begins : s.RoundBegins first others := {
    current := by decide +kernel
    running := by decide +kernel
    held := by decide +kernel
    queue := by
      have sorted : (s.waitingAt ⟨1⟩).Pairwise fun a b => isPlacedBefore a b = true := by
        decide +kernel
      have priority : first.priority = ⟨1⟩ := by decide +kernel
      rw [priority, queue, List.mergeSort_of_pairwise sorted]
      decide +kernel
    healthy := by decide +kernel
    whole := by decide +kernel
    foremost := by decide +kernel
    unlimited := by decide +kernel }
  have length : ((first :: others).map (·.app.quantum.toNat)).sum = 6 := by decide +kernel
  have served : stretches (first :: others) =
      [⟨1, 0⟩, ⟨1, 0⟩, ⟨2, 0⟩, ⟨3, 0⟩, ⟨3, 0⟩, ⟨3, 0⟩] := by decide +kernel
  obtain ⟨_, serves, _, again, _⟩ := reachable.round_robin_exact begins
  rw [served] at serves
  rw [length] at again
  exact ⟨first, others, begins, serves, again, by decide +kernel, by decide +kernel⟩

end Scheduler
end SeparationKernel
