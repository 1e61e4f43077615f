import Mathlib
import SeparationKernel.Proofs.Scheduler.Awake

/-! Systicks with no request between them when every process has been asked to terminate. One after
the other they use up the processor time they have left, and then the idle systicks begin. -/
namespace SeparationKernel
namespace Scheduler

def lineUp (s : Scheduler) : List Process :=
  ((s.processes.occupied.filter fun c => !c.2.isTerminated).mergeSort
    fun x y => !y.2.precedes x.2).map (·.2)

/-- With which systick the watchdog strikes when `n` processes have a cleanup quantum each. The one
with which the last of them overruns is idle already. -/
def strikesAt (policy : SchedulingPolicy) (n : Nat) : Nat :=
  if n = 0 then policy.idleDurationMax.toNat + 1
  else n * policy.cleanupQuantum.toNat + policy.idleDurationMax.toNat

/-- The live processes are those of a list, each of them goes before the ones behind it, and all of
them clean up. -/
structure WindsDown (s : Scheduler) (ps : List Process) : Prop where
  consistent : s.Consistent
  settled : s.Settled
  live : ∀ p, p ∈ s.processes.live ↔ p ∈ ps
  sorted : ps.Pairwise fun p q => p.precedes q = true
  cleans : ∀ p ∈ ps, ∃ n, p.state = .cleanup n

variable {s : Scheduler} {p q : Process} {ps : List Process} {i j k : Nat} {n : UInt32}

theorem lt_strikesAt {policy : SchedulingPolicy} (on : policy.idleDurationMax ≠ 0) (m : Nat) :
    m * policy.cleanupQuantum.toNat < strikesAt policy m := by
  have pos : 1 ≤ policy.idleDurationMax.toNat :=
    Nat.one_le_iff_ne_zero.2 fun zero => on (UInt32.toNat_inj.1 zero)
  rw [strikesAt]
  split
  · rename_i nobody
    simp [nobody]
  · omega

theorem mem_lineUp : p ∈ s.lineUp ↔ p ∈ s.processes.live := by
  simp [lineUp, ProcessTable.mem_live, ProcessTable.mem_occupied]

theorem pairwise_lineUp (h : s.Consistent) :
    s.lineUp.Pairwise fun p q => p.precedes q = true := by
  have slots : (s.processes.occupied.filter fun c => !c.2.isTerminated).Pairwise
      fun x y => x.1 ≠ y.1 := (s.processes.pairwise_occupied.filter _).imp Nat.ne_of_lt
  have sorted : ((s.processes.occupied.filter fun c => !c.2.isTerminated).mergeSort
      fun x y => !y.2.precedes x.2).Pairwise fun x y => (!y.2.precedes x.2) = true := by
    apply List.pairwise_mergeSort
    · intro a b c before before'
      simp only [Bool.not_eq_true'] at *
      exact Process.not_precedes_trans before' before
    · intro a b
      cases before : a.2.precedes b.2 with
      | false => simp
      | true => simp [Process.not_precedes_of_precedes before]
  have apart := (List.mergeSort_perm _ fun x y => !y.2.precedes x.2).symm.pairwise slots Ne.symm
  rw [lineUp, List.pairwise_map]
  refine (sorted.and apart).imp_of_mem ?_
  rintro ⟨i, p⟩ ⟨j, q⟩ mem mem' ⟨behind, ne⟩
  have held := ProcessTable.mem_occupied.1 (List.mem_of_mem_filter (List.mem_mergeSort.1 mem))
  have held' := ProcessTable.mem_occupied.1 (List.mem_of_mem_filter (List.mem_mergeSort.1 mem'))
  have places : p.queuedAt ≠ q.queuedAt := fun same => ne (h.place_inj i j p q held held' same)
  have behind : ¬ q.precedes p = true := by simpa using behind
  show p.precedes q = true
  rw [Process.precedes_iff_level] at *
  omega

/-- A scheduler in which everybody has been asked to terminate winds down. -/
theorem windsDown_lineUp (h : s.Consistent) (settled : s.Settled)
    (cleans : ∀ p ∈ s.processes.live, ∃ n, p.state = .cleanup n) : s.WindsDown s.lineUp where
  consistent := h
  settled := settled
  live _ := mem_lineUp.symm
  sorted := pairwise_lineUp h
  cleans p mem := cleans p (mem_lineUp.1 mem)

/-- A systick that goes well reports the process that holds the processor, if it was its last. -/
theorem reports_tick_of_cleanup (current : s.currentProcess? = some p)
    (cleanup : p.state = .cleanup n) (well : ∃ told, s.tick.1 = .ok told) :
    s.reports .tick = if n.toNat ≤ 1 then [.cleanupOverrun p.id] else [] := by
  obtain ⟨told, answer⟩ := well
  obtain ⟨i, holder, _⟩ := currentProcess?_eq_some_iff.1 current
  have holder' : s.advance.current = some i := holder
  have current' : s.advance.currentProcess? = some p := current
  rw [reports_tick_of_ok answer]
  by_cases last : n.toNat ≤ 1 <;>
    simp [chargeCurrent, holder', current', Process.charge_of_cleanup cleanup, last]

theorem reports_tick_of_vacant (vacant : s.currentProcess? = none) : s.reports .tick = [] := by
  cases answer : s.tick.1 with
  | error e => exact reports_tick_of_error answer
  | ok told =>
    rw [reports_tick_of_ok answer, List.eq_nil_iff_forall_not_mem]
    intro t mem
    obtain ⟨p, current, _⟩ := mem_chargeCurrent.1 mem
    simp [show s.currentProcess? = some p from current] at vacant

namespace WindsDown

theorem get?_of_mem (winds : s.WindsDown ps) (mem : p ∈ ps) :
    s.processes.get? p.id.index = some p ∧ p.isTerminated = false := by
  obtain ⟨i, held, alive⟩ := ProcessTable.mem_live.1 ((winds.live p).2 mem)
  rw [(winds.consistent.named i p held).1]
  exact ⟨held, alive⟩

theorem currentProcess? (winds : s.WindsDown (p :: ps)) : s.currentProcess? = some p := by
  obtain ⟨held, alive⟩ := winds.get?_of_mem List.mem_cons_self
  obtain ⟨n, cleanup⟩ := winds.cleans p List.mem_cons_self
  have able := Process.isSchedulable_of_cleanup cleanup
  cases current : s.current with
  | none =>
    have unable := winds.settled.idle current _ p held
    simp [able] at unable
  | some i =>
    obtain ⟨q, held', able', best⟩ := winds.settled.best i current
    have live := ProcessTable.mem_live.2
      ⟨i, held', Process.not_isTerminated_of_isSchedulable able'⟩
    rcases List.mem_cons.1 ((winds.live q).1 live) with rfl | behind
    · exact currentProcess?_eq_some_iff.2 ⟨i, current, held'⟩
    · have before := (List.pairwise_cons.1 winds.sorted).1 q behind
      rcases Process.precedes_iff.1 before with more | ⟨same, earlier⟩
      · have less := best _ p held able
        rw [Priority.isMoreImportantThan_iff.2 more] at less
        cases less
      · have le := winds.consistent.longest i _ q p current held' held able same
        omega

theorem currentId? (winds : s.WindsDown (p :: ps)) : s.currentId? = some p.id := by
  rw [Scheduler.currentId?, winds.currentProcess?, Option.map_some]

theorem isIdle_iff (winds : s.WindsDown ps) : s.isIdle = true ↔ ps = [] := by
  cases ps with
  | nil =>
    simp only [isIdle, List.all_eq_true, iff_true]
    intro q live
    cases (winds.live q).1 live
  | cons p ps =>
    have held := (winds.get?_of_mem List.mem_cons_self).1
    obtain ⟨n, cleanup⟩ := winds.cleans p List.mem_cons_self
    simp [not_isIdle held (Process.isSchedulable_of_cleanup cleanup)]

theorem mem_live_tick (winds : s.WindsDown ps) :
    q ∈ s.tick.2.processes.live ↔ ∃ p ∈ ps, ∃ n, p.state = .cleanup n ∧
      q = { p with state := s.cleanupAfter p.id n .tick } ∧ q.isTerminated = false := by
  rw [ProcessTable.mem_live]
  constructor
  · rintro ⟨i, held, alive⟩
    have kept : ¬ s.Fills i .tick := by
      rintro ⟨_, makes, _⟩
      cases makes
    obtain ⟨p, held', becomes⟩ := exists_before winds.consistent kept held
    have alive' : p.isTerminated = false := by
      by_contra dead
      rw [becomes.eq_of_isTerminated winds.consistent held' (by simpa using dead)] at alive
      exact dead alive
    have mem := (winds.live p).1 (ProcessTable.mem_live.2 ⟨i, held', alive'⟩)
    obtain ⟨n, cleanup⟩ := winds.cleans p mem
    rw [get?_tick_of_cleanup winds.consistent held' cleanup] at held
    exact ⟨p, mem, n, cleanup, (Option.some.inj held).symm, alive⟩
  · rintro ⟨p, mem, n, cleanup, rfl, alive⟩
    have held := (winds.get?_of_mem mem).1
    exact ⟨_, get?_tick_of_cleanup winds.consistent held cleanup, alive⟩

theorem cleanupAfter_first (winds : s.WindsDown (p :: ps)) (n : UInt32) :
    s.cleanupAfter p.id n .tick =
      if n.toNat ≤ 1 then .terminated .overrun else .cleanup (Counter.down n) := by
  simp [cleanupAfter, winds.currentId?]

theorem cleanupAfter_behind (winds : s.WindsDown (p :: ps)) (mem : q ∈ ps)
    (cleanup : q.state = .cleanup n) : s.cleanupAfter q.id n .tick = q.state := by
  have apart : p.id ≠ q.id := by
    intro same
    have held := (winds.get?_of_mem (List.mem_cons_of_mem p mem)).1
    rw [← same, (winds.get?_of_mem List.mem_cons_self).1] at held
    have before := (List.pairwise_cons.1 winds.sorted).1 q mem
    rw [← Option.some.inj held, Process.precedes_self] at before
    cases before
  simp [cleanupAfter, winds.currentId?, apart, cleanup]

theorem mem_live_tick_cons (winds : s.WindsDown (p :: ps)) (cleanup : p.state = .cleanup n) :
    q ∈ s.tick.2.processes.live ↔
      (2 ≤ n.toNat ∧ q = { p with state := .cleanup (Counter.down n) }) ∨ q ∈ ps := by
  rw [winds.mem_live_tick]
  constructor
  · rintro ⟨r, mem, m, state, rfl, alive⟩
    rcases List.mem_cons.1 mem with rfl | mem
    · obtain rfl := ProcessState.cleanup.inj (state.symm.trans cleanup)
      rw [winds.cleanupAfter_first] at alive ⊢
      split at alive
      · cases alive
      · rename_i more
        rw [if_neg more]
        exact Or.inl ⟨by omega, rfl⟩
    · rw [winds.cleanupAfter_behind mem state]
      exact Or.inr mem
  · rintro (⟨more, rfl⟩ | mem)
    · refine ⟨p, List.mem_cons_self, n, cleanup, ?_, rfl⟩
      rw [winds.cleanupAfter_first, if_neg (by omega)]
    · have mem' := List.mem_cons_of_mem p mem
      obtain ⟨m, state⟩ := winds.cleans q mem'
      refine ⟨q, mem', m, state, ?_, (winds.get?_of_mem mem').2⟩
      rw [winds.cleanupAfter_behind mem state]

theorem tick_of_more (winds : s.WindsDown (p :: ps)) (cleanup : p.state = .cleanup n)
    (more : 2 ≤ n.toNat) :
    s.tick.2.WindsDown ({ p with state := .cleanup (Counter.down n) } :: ps) where
  consistent := consistent_after winds.consistent .tick
  settled := settled_tick s
  live q := by rw [winds.mem_live_tick_cons cleanup, and_iff_right more, List.mem_cons]
  sorted := List.pairwise_cons.2 (List.pairwise_cons.1 winds.sorted)
  cleans q mem := by
    rcases List.mem_cons.1 mem with rfl | mem
    · exact ⟨_, rfl⟩
    · exact winds.cleans q (List.mem_cons_of_mem p mem)

theorem tick_of_last (winds : s.WindsDown (p :: ps)) (cleanup : p.state = .cleanup n)
    (last : n.toNat ≤ 1) : s.tick.2.WindsDown ps where
  consistent := consistent_after winds.consistent .tick
  settled := settled_tick s
  live q := by
    rw [winds.mem_live_tick_cons cleanup]
    exact or_iff_right fun more => absurd more.1 (by omega)
  sorted := (List.pairwise_cons.1 winds.sorted).2
  cleans q mem := winds.cleans q (List.mem_cons_of_mem p mem)

theorem tick_of_nil (winds : s.WindsDown []) : s.tick.2.WindsDown [] where
  consistent := consistent_after winds.consistent .tick
  settled := settled_tick s
  live q := by simp [winds.mem_live_tick]
  sorted := .nil
  cleans q mem := nomatch mem

theorem idleRun_tick (winds : s.tick.2.WindsDown ps) :
    s.tick.2.idleRun = if ps = [] then Counter.up s.idleRun else 0 := by
  rw [Scheduler.idleRun_tick]
  by_cases idle : ps = []
  · rw [if_pos (winds.isIdle_iff.2 idle), if_pos idle]
  · rw [if_neg (mt winds.isIdle_iff.1 idle), if_neg idle]

end WindsDown

/-- The process overruns with the `k`-th of the next systicks, and those of a list are left to wind
down. Nothing happens before. -/
structure OverrunsAt (s : Scheduler) (id : ProcessId) (ps : List Process) (k : Nat) : Prop where
  well : s.GoesWell k
  quiet : ∀ passed, ∀ j < k, s.overruns passed j = []
  reported : ∀ passed, s.overruns passed k = [(passed + k, .cleanupOverrun id)]
  rest : (s.ticked k).WindsDown ps
  idleRun : (s.ticked k).idleRun = if ps = [] then 1 else 0

theorem OverrunsAt.after_tick {id : ProcessId} (at_k : s.tick.2.OverrunsAt id ps k)
    (well : ∃ told, s.tick.1 = .ok told) (silent : s.reports .tick = []) :
    s.OverrunsAt id ps (k + 1) where
  well := ⟨well, at_k.well⟩
  quiet passed j lt := by
    cases j with
    | zero => rfl
    | succ j =>
      rw [overruns, silent, at_k.quiet _ j (Nat.lt_of_succ_lt_succ lt)]
      rfl
  reported passed := by
    rw [overruns, silent, at_k.reported, Nat.succ_add_eq_add_succ]
    rfl
  rest := at_k.rest
  idleRun := at_k.idleRun

namespace WindsDown

/-- The first of the list overruns when it has used what it has left. -/
theorem overrunsAt (winds : s.WindsDown (p :: ps)) (cleanup : p.state = .cleanup n)
    (rested : s.idleRun = 0) : s.OverrunsAt p.id ps n.toNat := by
  have pos := (winds.consistent.cleanup _ p n (winds.get?_of_mem List.mem_cons_self).1 cleanup).1
  induction left : n.toNat generalizing s p n with
  | zero => omega
  | succ k ih =>
    by_cases last : n.toNat ≤ 1
    · obtain rfl : k = 0 := by omega
      have rest := winds.tick_of_last cleanup last
      have idleRun : s.tick.2.idleRun = if ps = [] then 1 else 0 := by
        rw [rest.idleRun_tick, rested]
        rfl
      have well : ∃ told, s.tick.1 = .ok told := by
        refine exists_tick_eq_ok_of_le_one ?_
        rw [idleRun]
        split <;> decide
      refine ⟨⟨well, trivial⟩, fun passed j lt => ?_, fun passed => ?_, rest, idleRun⟩
      · obtain rfl := Nat.lt_one_iff.1 lt
        rfl
      · rw [overruns, reports_tick_of_cleanup winds.currentProcess? cleanup well, if_pos last]
        rfl
    · have rest := winds.tick_of_more cleanup (by omega)
      have idleRun : s.tick.2.idleRun = 0 := by rw [rest.idleRun_tick, if_neg (by simp)]
      have well : ∃ told, s.tick.1 = .ok told :=
        exists_tick_eq_ok_of_le_one (by rw [idleRun]; decide)
      have silent := reports_tick_of_cleanup winds.currentProcess? cleanup well
      rw [if_neg last] at silent
      have down : (Counter.down n).toNat = k := by rw [Counter.toNat_down, left]; rfl
      have later := ih rest rfl idleRun (by omega) down
      exact later.after_tick well silent

theorem currentProcess?_of_nil (winds : s.WindsDown []) : s.currentProcess? = none := by
  have vacant : s.currentId? = none := winds.settled.currentId?_eq_none_iff.2 fun p live =>
    nomatch (winds.live p).1 live
  exact Option.map_eq_none_iff.1 vacant

theorem ticked_of_nil (winds : s.WindsDown []) (k : Nat) :
    (s.ticked k).WindsDown [] ∧
      (s.ticked k).idleRun.toNat = min (s.idleRun.toNat + k) (UInt32.size - 1) := by
  induction k with
  | zero =>
    have lt := s.idleRun.toNat_lt
    have size : UInt32.size = 2 ^ 32 := rfl
    refine ⟨winds, ?_⟩
    rw [ticked_zero]
    omega
  | succ k ih =>
    rw [ticked_concat]
    refine ⟨ih.1.tick_of_nil, ?_⟩
    rw [ih.1.tick_of_nil.idleRun_tick, if_pos rfl, Counter.toNat_up, ih.2]
    omega

theorem overruns_of_nil (winds : s.WindsDown []) (passed k : Nat) : s.overruns passed k = [] := by
  induction k generalizing s passed with
  | zero => rfl
  | succ k ih =>
    rw [overruns, reports_tick_of_vacant winds.currentProcess?_of_nil, ih winds.tick_of_nil]
    rfl

theorem goesWell_of_nil (winds : s.WindsDown []) (allowed : s.policy.idleDurationMax = 0 ∨
      s.idleRun.toNat + k ≤ s.policy.idleDurationMax.toNat) : s.GoesWell k := by
  rcases goesWell_or_fails s k with well | ⟨j, lt, _, e, fails⟩
  · exact well
  · obtain ⟨on, long, _⟩ := (tick_eq_error_iff _ e).1 fails
    rw [← ticked_concat, (winds.ticked_of_nil (j + 1)).2, policy_ticked] at long
    rw [policy_ticked] at on
    rcases allowed with off | short
    · exact absurd off on
    · omega

theorem tick_eq_error_of_nil (winds : s.WindsDown []) (on : s.policy.idleDurationMax ≠ 0)
    (short : s.policy.idleDurationMax.toNat + 1 < UInt32.size)
    (limit : s.idleRun.toNat + k = s.policy.idleDurationMax.toNat) :
    (s.ticked k).tick.1 = .error (.idleWatchdog (s.policy.idleDurationMax + 1)) := by
  have count : (s.ticked k).tick.2.idleRun.toNat = s.policy.idleDurationMax.toNat + 1 := by
    rw [← ticked_concat, (winds.ticked_of_nil (k + 1)).2]
    omega
  have same : (s.ticked k).tick.2.idleRun = s.policy.idleDurationMax + 1 := by
    rw [← UInt32.toNat_inj, count, UInt32.toNat_add]
    exact (Nat.mod_eq_of_lt short).symm
  rw [tick_eq_error_iff, policy_ticked]
  exact ⟨on, by omega, by rw [same]⟩

end WindsDown

/-- Nothing is used up yet, of none of the cleanup quanta and of the watchdog's patience. -/
structure BeginsToWindDown (s : Scheduler) (ps : List Process) : Prop extends s.WindsDown ps where
  untouched : ∀ p ∈ ps, p.state = .cleanup s.policy.cleanupQuantum
  rested : ps ≠ [] → s.idleRun = 0

namespace BeginsToWindDown

theorem overrunsAt (begins : s.BeginsToWindDown (p :: ps)) :
    s.OverrunsAt p.id ps s.policy.cleanupQuantum.toNat :=
  begins.toWindsDown.overrunsAt (begins.untouched p List.mem_cons_self) (begins.rested (by simp))

theorem next (begins : s.BeginsToWindDown (p :: ps)) :
    (s.ticked s.policy.cleanupQuantum.toNat).BeginsToWindDown ps where
  toWindsDown := begins.overrunsAt.rest
  untouched q mem := by
    rw [policy_ticked]
    exact begins.untouched q (List.mem_cons_of_mem p mem)
  rested some_left := by rw [begins.overrunsAt.idleRun, if_neg some_left]

/-- Each of them has its whole cleanup quantum, and then all are done. -/
theorem wound_down (begins : s.BeginsToWindDown ps) :
    s.GoesWell (ps.length * s.policy.cleanupQuantum.toNat) ∧
      (s.ticked (ps.length * s.policy.cleanupQuantum.toNat)).WindsDown [] ∧
      (s.ticked (ps.length * s.policy.cleanupQuantum.toNat)).idleRun =
        if ps = [] then s.idleRun else 1 := by
  induction ps generalizing s with
  | nil =>
    rw [List.length_nil, Nat.zero_mul, ticked_zero, if_pos rfl]
    exact ⟨trivial, begins.toWindsDown, rfl⟩
  | cons p ps ih =>
    have first := begins.overrunsAt
    obtain ⟨well, done, idleRun⟩ := ih begins.next
    rw [policy_ticked] at well done idleRun
    rw [List.length_cons, Nat.succ_mul, Nat.add_comm, goesWell_add, ticked_add, idleRun,
      first.idleRun]
    refine ⟨⟨first.well, well⟩, done, ?_⟩
    split <;> simp

/-- The overruns come one cleanup quantum after the other, first to last. -/
theorem overruns_eq (begins : s.BeginsToWindDown ps) (passed m : Nat) :
    s.overruns passed m =
      (ps.take (m / s.policy.cleanupQuantum.toNat)).zipIdx.map fun (p, i) =>
        (passed + (i + 1) * s.policy.cleanupQuantum.toNat, .cleanupOverrun p.id) := by
  have pos : 0 < s.policy.cleanupQuantum.toNat := begins.consistent.cleanup_pos
  induction ps generalizing s passed m with
  | nil => simp [begins.toWindsDown.overruns_of_nil]
  | cons p ps ih =>
    have first := begins.overrunsAt
    by_cases early : m < s.policy.cleanupQuantum.toNat
    · simp [first.quiet passed m early, Nat.div_eq_of_lt early]
    · obtain ⟨rest, rfl⟩ := Nat.exists_eq_add_of_le (Nat.le_of_not_lt early)
      have later := ih begins.next (passed + s.policy.cleanupQuantum.toNat) rest
      rw [policy_ticked] at later
      rw [overruns_add, first.reported, later pos, Nat.add_div_left _ pos, List.take_succ_cons,
        List.zipIdx_cons, List.map_cons, List.zipIdx_succ, List.map_map]
      simp only [Function.comp_def, Nat.zero_add, Nat.one_mul, List.singleton_append,
        List.cons.injEq, true_and]
      refine List.map_congr_left fun x _ => ?_
      rw [Nat.add_mul (x.2 + 1), Nat.one_mul, Nat.add_assoc, Nat.add_comm _ ((x.2 + 1) * _)]

theorem overruns_of_le (begins : s.BeginsToWindDown ps) (passed : Nat) {m : Nat}
    (le : ps.length * s.policy.cleanupQuantum.toNat ≤ m) :
    s.overruns passed m = s.overruns passed (ps.length * s.policy.cleanupQuantum.toNat) := by
  obtain ⟨rest, rfl⟩ := Nat.exists_eq_add_of_le le
  rw [overruns_add, begins.wound_down.2.1.overruns_of_nil, List.append_nil]

theorem toNat_idleRun_wound_down (begins : s.BeginsToWindDown ps) (rested : s.idleRun = 0) :
    ps.length * s.policy.cleanupQuantum.toNat + s.policy.idleDurationMax.toNat + 1 =
      strikesAt s.policy ps.length +
        (s.ticked (ps.length * s.policy.cleanupQuantum.toNat)).idleRun.toNat := by
  rw [begins.wound_down.2.2, rested, strikesAt]
  cases ps with
  | nil => simp
  | cons p ps => simp

theorem goesWell (begins : s.BeginsToWindDown ps) (rested : s.idleRun = 0) {m : Nat}
    (early : s.policy.idleDurationMax = 0 ∨ m < strikesAt s.policy ps.length) : s.GoesWell m := by
  obtain ⟨well, done, _⟩ := begins.wound_down
  have limit := begins.toNat_idleRun_wound_down rested
  rcases Nat.le_total m (ps.length * s.policy.cleanupQuantum.toNat) with le | le
  · obtain ⟨rest, whole⟩ := Nat.exists_eq_add_of_le le
    rw [whole] at well
    exact (goesWell_add.1 well).1
  · obtain ⟨rest, rfl⟩ := Nat.exists_eq_add_of_le le
    refine goesWell_add.2 ⟨well, done.goesWell_of_nil ?_⟩
    rw [policy_ticked]
    exact early.imp_right fun lt => by omega

theorem tick_eq_error (begins : s.BeginsToWindDown ps) (rested : s.idleRun = 0)
    (on : s.policy.idleDurationMax ≠ 0) (short : s.policy.idleDurationMax.toNat + 1 < UInt32.size)
    {m : Nat} (strikes : strikesAt s.policy ps.length = m + 1) :
    (s.ticked m).tick.1 = .error (.idleWatchdog (s.policy.idleDurationMax + 1)) := by
  obtain ⟨_, done, _⟩ := begins.wound_down
  have limit := begins.toNat_idleRun_wound_down rested
  have reached := lt_strikesAt on ps.length
  rw [strikes] at reached
  obtain ⟨rest, rfl⟩ := Nat.exists_eq_add_of_le (Nat.le_of_lt_succ reached)
  have fails := done.tick_eq_error_of_nil (k := rest)
  rw [policy_ticked] at fails
  rw [ticked_add]
  exact fails on short (by omega)

/-- A run of systicks goes well to its end, or up to the one at which the watchdog strikes. -/
theorem ends (begins : s.BeginsToWindDown ps) (rested : s.idleRun = 0)
    (short : s.policy.idleDurationMax.toNat + 1 < UInt32.size) (m : Nat) :
    if s.policy.idleDurationMax ≠ 0 ∧ strikesAt s.policy ps.length ≤ m then
      ∃ k < m, strikesAt s.policy ps.length = k + 1 ∧ s.GoesWell k ∧
        (s.ticked k).tick.1 = .error (.idleWatchdog (s.policy.idleDurationMax + 1)) ∧
          s.overruns 0 k = s.overruns 0 m
    else s.GoesWell m := by
  split
  · rename_i stops
    obtain ⟨on, le⟩ := stops
    have reached := lt_strikesAt on ps.length
    obtain ⟨k, strikes⟩ := Nat.exists_eq_succ_of_ne_zero (Nat.ne_of_gt (Nat.zero_lt_of_lt reached))
    refine ⟨k, by omega, strikes, begins.goesWell rested (Or.inr (by omega)),
      begins.tick_eq_error rested on short strikes, ?_⟩
    rw [begins.overruns_of_le 0 (m := m) (by omega), begins.overruns_of_le 0 (by omega)]
  · rename_i goes_on
    refine begins.goesWell rested ?_
    by_cases off : s.policy.idleDurationMax = 0
    · exact Or.inl off
    · exact Or.inr (Nat.lt_of_not_le fun le => goes_on ⟨off, le⟩)

end BeginsToWindDown
end Scheduler
end SeparationKernel
