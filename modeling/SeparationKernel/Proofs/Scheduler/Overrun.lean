import Mathlib
import SeparationKernel.Proofs.Scheduler.Cleanup

/-! What is reported of processes that overran their cleanup. A systick that fails reports nothing,
so it matters that none fails in which a process overruns. -/
namespace SeparationKernel
namespace Scheduler

variable {s : Scheduler} {i : Nat} {p q : Process} {r : Request} {n : UInt32}

/-- A process is made, and its slot is not filled again in the course of the requests since. -/
structure Life (s : Scheduler) (p : Process) (since : List Request) : Prop where
  made : (s.instantiate p.asid).1 = .ok p.id
  kept : ∀ first r rest, since = first ++ r :: rest →
    ¬ (s.run (.instantiate p.asid :: first)).Fills p.id.index r
  held : (s.run (.instantiate p.asid :: since)).processes.get? p.id.index = some p

namespace Life

variable {since : List Request}

theorem born (h : s.Consistent) (life : s.Life p []) : p.state = .ready := by
  have makes : s.makes? (.instantiate p.asid) = some p.id := by
    rw [makes?, life.made]
    rfl
  have fills : s.Fills p.id.index (.instantiate p.asid) := ⟨p.id, makes, rfl⟩
  obtain ⟨asid, app, _, _, _, _, held⟩ := get?_after_of_fills h fills
  rw [← Option.some.inj (held.symm.trans life.held)]
  rfl

theorem before (h : s.Consistent) (life : s.Life p (since ++ [r])) :
    ∃ q, s.Life q since ∧
      (s.run (.instantiate p.asid :: since)).processes.get? p.id.index = some q ∧
      (s.run (.instantiate p.asid :: since)).Becomes p.id.index q r p := by
  have consistent := consistent_run h (.instantiate p.asid :: since)
  have held := life.held
  rw [← List.cons_append, run_concat] at held
  obtain ⟨q, held, becomes⟩ := exists_before consistent (life.kept since r [] rfl) held
  have id := becomes.sameAs.id
  have asid := becomes.sameAs.asid
  refine ⟨q, ⟨?_, fun first r' rest split => ?_, ?_⟩, held, becomes⟩ <;> rw [← asid, ← id]
  · exact life.made
  · exact life.kept first r' (rest ++ [r]) (by simp [split])
  · exact held

theorem concat (life : s.Life p since) (same : Process.SameAs p q)
    (kept : ¬ (s.run (.instantiate p.asid :: since)).Fills p.id.index r)
    (held : ((s.run (.instantiate p.asid :: since)).after r).processes.get? p.id.index = some q) :
    s.Life q (since ++ [r]) := by
  refine ⟨?_, fun first r' rest split => ?_, ?_⟩ <;> rw [same.asid, same.id]
  · exact life.made
  · rcases List.eq_nil_or_concat rest with rfl | ⟨front, last, rfl⟩
    · obtain ⟨rfl, rfl⟩ := List.append_inj' split rfl |>.imp id List.singleton_inj.1
      exact kept
    · have split' : since ++ [r] = (first ++ r' :: front) ++ [last] := by simpa using split
      exact life.kept first r' front (List.append_inj' split' rfl).1
  · rw [← List.cons_append, run_concat]
    exact held

end Life

theorem exists_life (h : s.Consistent) (empty : ∀ i, s.processes.get? i = none) (rs : List Request)
    (held : (s.run rs).processes.get? i = some p) :
    ∃ before since, rs = before ++ .instantiate p.asid :: since ∧ (s.run before).Life p since := by
  induction rs using List.reverseRecOn generalizing p with
  | nil => simp [empty i] at held
  | append_singleton rs r ih =>
    have consistent := consistent_run h rs
    rw [run_concat] at held
    by_cases fills : (s.run rs).Fills i r
    · obtain ⟨asid, app, rfl, _, made, _, held'⟩ := get?_after_of_fills consistent fills
      obtain rfl := Option.some.inj (held'.symm.trans held)
      have index := ((consistent_after consistent _).named i _ held).1
      refine ⟨rs, [], rfl, made, fun first r rest split => by simp at split, ?_⟩
      rw [index]
      exact held
    · obtain ⟨q, held', becomes⟩ := exists_before consistent fills held
      obtain ⟨before, since, rfl, life⟩ := ih held'
      have index := (consistent.named i q held').1
      have same := becomes.sameAs
      rw [run_append] at fills held
      refine ⟨before, since ++ [r], by simp [same.asid], life.concat same ?_ ?_⟩
      · rw [index]
        exact fills
      · rw [index]
        exact held

def reports (s : Scheduler) : Request → List SchedulingTimeout
  | .tick => s.tick.1.toOption.getD []
  | _ => []

def reported (s : Scheduler) : List Request → List SchedulingTimeout
  | [] => []
  | r :: rs => s.reports r ++ (s.after r).reported rs

/-- The request ends a live process for having used up its cleanup quantum. -/
def Overruns (s : Scheduler) (r : Request) (p : Process) : Prop :=
  p ∈ s.processes.live ∧ (s.after r).stateOf? p.id = some (.terminated .overrun)

/-- What keeps the watchdog from striking when a process overruns. A cleanup takes several systicks,
and those it has used were not idle, while more than one in a row would have to be. -/
structure Attentive (s : Scheduler) : Prop where
  lenient : s.policy.idleDurationMax = 0 ∨ 2 ≤ s.policy.idleDurationMax.toNat
  several : 2 ≤ s.policy.cleanupQuantum.toNat
  busy : ∀ i p n, s.processes.get? i = some p → p.state = .cleanup n →
    n.toNat < s.policy.cleanupQuantum.toNat → s.idleRun = 0

theorem reported_concat (s : Scheduler) (rs : List Request) (r : Request) :
    s.reported (rs ++ [r]) = s.reported rs ++ (s.run rs).reports r := by
  induction rs generalizing s with
  | nil => simp [reported]
  | cons r' rs ih => simp [reported, ih]

theorem attentive_ofStore {o : Options} (supported : o.check = .ok ()) (store : Store) :
    (ofStore store o).Attentive where
  lenient := by
    have bounds := Options.isInBounds_iff.1 ((Options.check_eq_ok.1 supported).1 .idleDurationMax)
    rcases bounds with ⟨_, zero⟩ | ⟨two, _⟩
    · exact Or.inl (UInt32.toNat_inj.1 zero)
    · exact Or.inr two
  several := (Options.bounds_of_check supported (k := .cleanupQuantum) rfl).1
  busy i p n held := by simp [get?_ofStore] at held

theorem not_isIdle (held : s.processes.get? i = some p) (able : p.isSchedulable = true) :
    s.isIdle = false := by
  have alive := Process.not_isTerminated_of_isSchedulable able
  have live : p ∈ s.processes.live := ProcessTable.mem_live.2 ⟨i, held, alive⟩
  rw [isIdle, List.all_eq_false]
  exact ⟨p, live, by simp [able]⟩

theorem eq_cleanupQuantum_of_obey (granted : r.isGrantedTo p = true)
    (cleanup : (s.obey p r).state = .cleanup n) : n = s.policy.cleanupQuantum := by
  cases r with
  | yield id delay =>
    rw [obey] at cleanup
    split at cleanup <;> cases cleanup
  | requestTermination id => exact (ProcessState.cleanup.inj cleanup).symm
  | waitIpc | waitIo | deliverIpc | completeIo | cleanupDone => cases cleanup
  | instantiate | schedule | tick | buffer => cases granted

theorem Becomes.cleanup_of_cleanup (becomes : s.Becomes i p r q) (other : r ≠ .tick)
    (cleanup : q.state = .cleanup n) (used : n.toNat < s.policy.cleanupQuantum.toNat) :
    p.state = .cleanup n := by
  cases becomes with
  | stays => exact cleanup
  | obeys granted =>
    have whole := eq_cleanupQuantum_of_obey granted cleanup
    rw [whole] at used
    exact absurd used (Nat.lt_irrefl _)
  | settles => exact Process.state_settle_eq_cleanup_iff.1 cleanup
  | elapses => exact absurd rfl other

theorem Attentive.after (attentive : s.Attentive) (h : s.Consistent) (r : Request) :
    (s.after r).Attentive where
  lenient := by
    rw [policy_after]
    exact attentive.lenient
  several := by
    rw [policy_after]
    exact attentive.several
  busy := by
    intro i q n held cleanup used
    rw [policy_after] at used
    by_cases tick : r = .tick
    · subst r
      have able : q.isSchedulable = true := Process.isSchedulable_of_cleanup cleanup
      have busy : s.tick.2.isIdle = false := not_isIdle held able
      rw [Scheduler.after, idleRun_tick, busy]
      rfl
    · have kept : ¬ s.Fills i r := by
        intro fills
        obtain ⟨_, _, _, _, _, _, made⟩ := get?_after_of_fills h fills
        rw [← Option.some.inj (made.symm.trans held)] at cleanup
        cases cleanup
      obtain ⟨p, held', becomes⟩ := exists_before h kept held
      have cleanup' := becomes.cleanup_of_cleanup tick cleanup used
      rw [(still_after s tick).idleRun]
      exact attentive.busy i p n held' cleanup' used

theorem Attentive.run (attentive : s.Attentive) (h : s.Consistent) (rs : List Request) :
    (s.run rs).Attentive := by
  induction rs generalizing s with
  | nil => exact attentive
  | cons r rs ih => exact ih (attentive.after h r) (consistent_after h r)

theorem mem_chargeCurrent {t : SchedulingTimeout} :
    t ∈ s.chargeCurrent.1 ↔
      ∃ p, s.currentProcess? = some p ∧ p.charge = .cleanupOverrun ∧ t = .cleanupOverrun p.id := by
  rw [chargeCurrent]
  split
  · rename_i i p holder current
    rw [current]
    cases charge : p.charge <;> simp [charge]
  · rename_i nobody
    constructor
    · intro mem
      cases mem
    · rintro ⟨p, current, _⟩
      obtain ⟨i, holder, _⟩ := currentProcess?_eq_some_iff.1 current
      exact absurd current (nobody i p holder)

theorem nodup_chargeCurrent (s : Scheduler) : s.chargeCurrent.1.Nodup := by
  rw [chargeCurrent]
  split
  · split <;> simp
  · simp

/-- A systick that fails ends no process. -/
theorem Attentive.chargeCurrent_of_error (attentive : s.Attentive) {e : SchedulingTimeout}
    (fails : s.tick.1 = .error e) : s.advance.chargeCurrent.1 = [] := by
  obtain ⟨on, long, _⟩ := (tick_eq_error_iff s e).1 fails
  rw [List.eq_nil_iff_forall_not_mem]
  intro t mem
  obtain ⟨p, current, overrun, _⟩ := mem_chargeCurrent.1 mem
  obtain ⟨i, _, held⟩ := currentProcess?_eq_some_iff.1 current
  obtain ⟨n, cleanup, last⟩ := Process.charge_cleanupOverrun overrun
  -- Some of its cleanup is used already, so that no systick before this one counts as idle.
  have several := attentive.several
  have busy : s.idleRun = 0 := attentive.busy i p n held cleanup (by omega)
  have short : s.tick.2.idleRun.toNat ≤ 1 := by
    rw [idleRun_tick, busy]
    split
    · rw [Counter.toNat_up]
      exact Nat.min_le_left _ _
    · exact Nat.zero_le 1
  rcases attentive.lenient with off | two
  · exact on off
  · omega

theorem reports_of_ne (other : r ≠ .tick) : s.reports r = [] := by
  cases r with
  | tick => exact absurd rfl other
  | _ => rfl

theorem reports_tick_of_error {e : SchedulingTimeout} (fails : s.tick.1 = .error e) :
    s.reports .tick = [] := by
  rw [reports, fails]
  rfl

theorem reports_tick_of_ok {told : List SchedulingTimeout} (well : s.tick.1 = .ok told) :
    s.reports .tick = s.advance.chargeCurrent.1 := by
  rw [reports, well]
  exact eq_of_tick_eq_ok well

theorem Attentive.reports_tick (attentive : s.Attentive) :
    s.reports .tick = s.advance.chargeCurrent.1 := by
  cases answer : s.tick.1 with
  | error e => rw [reports_tick_of_error answer, attentive.chargeCurrent_of_error answer]
  | ok overruns => exact reports_tick_of_ok answer

theorem state_obey_ne_overrun (granted : r.isGrantedTo p = true) :
    (s.obey p r).state ≠ .terminated .overrun := by
  cases r with
  | yield id delay =>
    rw [obey]
    split <;> exact ProcessState.noConfusion
  | waitIpc | waitIo | deliverIpc | completeIo | requestTermination =>
    exact ProcessState.noConfusion
  | cleanupDone id =>
    rw [obey, Process.terminate]
    simp
  | instantiate | schedule | tick | buffer => cases granted

theorem Becomes.isTerminated_iff_of_tick (becomes : s.Becomes i p .tick q)
    (alive : p.isTerminated = false) :
    q.isTerminated = true ↔ s.current = some i ∧ p.charge = .cleanupOverrun := by
  cases becomes with
  | stays _ still => exact absurd rfl still.2
  | obeys granted => cases granted
  | elapses place => simp [Process.isTerminated_elapse alive]

theorem Becomes.overrun_iff (becomes : s.Becomes i p r q) (alive : p.isTerminated = false) :
    q.state = .terminated .overrun ↔
      r = .tick ∧ s.current = some i ∧ p.charge = .cleanupOverrun := by
  have ends : q.state = .terminated .overrun → q.isTerminated = true := by
    intro ended
    exact Process.isTerminated_iff.2 ⟨.overrun, ended⟩
  cases becomes with
  | stays refused still =>
    have going : p.state ≠ .terminated .overrun := by
      intro ended
      simp [ends ended] at alive
    simp [going, still.2]
  | obeys granted =>
    have other : r ≠ .tick := by
      rintro rfl
      cases granted
    simp [state_obey_ne_overrun granted, other]
  | settles =>
    have going : (p.settle (s.schedule.current == some i)).state ≠ .terminated .overrun := by
      intro ended
      have dead := ends ended
      simp [alive] at dead
    simp [going]
  | elapses place =>
    constructor
    · intro ended
      exact ⟨rfl, (Becomes.elapses place).isTerminated_iff_of_tick alive |>.1 (ends ended)⟩
    · rintro ⟨_, holder, overrun⟩
      rw [holder, beq_self_eq_true, Process.elapse_of_overrun overrun,
        Process.settle_of_isTerminated rfl]
      rfl

theorem stateOf?_after_eq_some_iff (h : s.Consistent) (held : s.processes.get? i = some p)
    (held' : (s.after r).processes.get? i = some q) (same : q.id = p.id) {state : ProcessState} :
    (s.after r).stateOf? p.id = some state ↔ q.state = state := by
  rw [stateOf?_eq_some_iff, (h.named i p held).1, held']
  constructor
  · rintro ⟨u, found, _, reached⟩
    rwa [Option.some.inj found]
  · intro reached
    exact ⟨q, rfl, same, reached⟩

theorem overruns_iff_of_held (h : s.Consistent) (held : s.processes.get? i = some p)
    (alive : p.isTerminated = false) :
    s.Overruns r p ↔ r = .tick ∧ s.current = some i ∧ p.charge = .cleanupOverrun := by
  obtain ⟨q, held', becomes⟩ := exists_after h (not_fills h held alive r) held
  rw [← becomes.overrun_iff alive, Overruns,
    stateOf?_after_eq_some_iff h held held' becomes.sameAs.id]
  exact and_iff_right (ProcessTable.mem_live.2 ⟨i, held, alive⟩)

theorem overruns_iff (h : s.Consistent) :
    s.Overruns r p ↔ r = .tick ∧ s.currentProcess? = some p ∧ p.charge = .cleanupOverrun := by
  constructor
  · intro overruns
    obtain ⟨i, held, alive⟩ := ProcessTable.mem_live.1 overruns.1
    obtain ⟨tick, holder, overrun⟩ := (overruns_iff_of_held h held alive).1 overruns
    exact ⟨tick, currentProcess?_eq_some_iff.2 ⟨i, holder, held⟩, overrun⟩
  · rintro ⟨tick, current, overrun⟩
    obtain ⟨i, holder, held⟩ := currentProcess?_eq_some_iff.1 current
    have alive := Process.not_isTerminated_of_isSchedulable (h.alive_of_holder holder held)
    exact (overruns_iff_of_held h held alive).2 ⟨tick, holder, overrun⟩

/-- What is reported is who overran. -/
theorem Attentive.mem_reports_iff (attentive : s.Attentive) (h : s.Consistent)
    {t : SchedulingTimeout} :
    t ∈ s.reports r ↔ ∃ p, s.Overruns r p ∧ t = .cleanupOverrun p.id := by
  simp only [overruns_iff h]
  by_cases tick : r = .tick
  · subst r
    rw [attentive.reports_tick, mem_chargeCurrent]
    simp only [true_and, and_assoc]
    rfl
  · simp [reports_of_ne tick, tick]

theorem Attentive.nodup_reports (attentive : s.Attentive) (r : Request) : (s.reports r).Nodup := by
  by_cases tick : r = .tick
  · subst r
    rw [attentive.reports_tick]
    exact nodup_chargeCurrent s.advance
  · rw [reports_of_ne tick]
    exact List.nodup_nil

theorem Attentive.count_reports (attentive : s.Attentive) (h : s.Consistent)
    (held : s.processes.get? i = some p) (becomes : s.Becomes i p r q) :
    (if p.state = .terminated .overrun then 1 else 0) +
        (s.reports r).count (.cleanupOverrun p.id) =
      if q.state = .terminated .overrun then 1 else 0 := by
  -- No other process has its identifier as long as it has its slot.
  have named : SchedulingTimeout.cleanupOverrun p.id ∈ s.reports r ↔ s.Overruns r p := by
    rw [attentive.mem_reports_iff h]
    constructor
    · rintro ⟨p', overruns, same⟩
      obtain ⟨j, held', _⟩ := ProcessTable.mem_live.1 overruns.1
      have index : i = j := by
        rw [← (h.named i p held).1, SchedulingTimeout.cleanupOverrun.inj same,
          (h.named j p' held').1]
      rw [← index, held] at held'
      exact Option.some.inj held' ▸ overruns
    · intro overruns
      exact ⟨p, overruns, rfl⟩
  rw [(attentive.nodup_reports r).count]
  by_cases alive : p.isTerminated = false
  · have going : p.state ≠ .terminated .overrun := by
      intro ended
      simp [Process.isTerminated, ProcessState.isTerminated, ended] at alive
    simp only [going, if_false, named, overruns_iff_of_held h held alive,
      becomes.overrun_iff alive, Nat.zero_add]
  · have dead : p.isTerminated = true := by simpa using alive
    have silent : ¬ s.Overruns r p := by
      intro overruns
      obtain ⟨_, _, alive'⟩ := ProcessTable.mem_live.1 overruns.1
      exact alive alive'
    rw [becomes.eq_of_isTerminated h held dead, if_neg (named.not.2 silent), Nat.add_zero]

/-- All through its life, the overrun of a process is reported as often as it occurs. -/
theorem Life.count_reported {since : List Request} (life : s.Life p since) (h : s.Consistent)
    (attentive : s.Attentive) :
    (s.reported (.instantiate p.asid :: since)).count (.cleanupOverrun p.id) =
      if p.state = .terminated .overrun then 1 else 0 := by
  induction since using List.reverseRecOn generalizing p with
  | nil =>
    rw [life.born h]
    rfl
  | append_singleton since r ih =>
    obtain ⟨q, life', held, becomes⟩ := life.before h
    have id := becomes.sameAs.id
    have asid := becomes.sameAs.asid
    have earlier := ih life'
    rw [← asid, ← id] at earlier
    have consistent := consistent_run h (.instantiate p.asid :: since)
    have step := (attentive.run h (.instantiate p.asid :: since)).count_reports consistent held
      becomes
    rw [← List.cons_append, reported_concat, List.count_append, earlier, id]
    exact step

/-- After any requests to a new scheduler with supported options, a systick that fails ends no
process. Any request reports exactly those that overrun by it, so that in the life of every process
its overrun is reported once, if it has come to that. -/
theorem overrun_reported_once {o o' : Options} {store : Store} (supported : o.check = .ok ())
    (loaded : store.IsLoaded o') (rs : List Request) :
    let new := ofStore store o
    let s := new.run rs
    (∀ e, s.tick.1 = .error e → s.advance.chargeCurrent.1 = [] ∧
      ∀ i p, s.tick.2.processes.get? i = some p → p.isTerminated = true →
        s.processes.get? i = some p) ∧
      (∀ r, (s.reports r).Nodup ∧
        ∀ t, t ∈ s.reports r ↔ ∃ p, s.Overruns r p ∧ t = .cleanupOverrun p.id) ∧
      (∀ i p, s.processes.get? i = some p →
        ∃ before since, rs = before ++ .instantiate p.asid :: since ∧
          (new.run before).Life p since) ∧
      ∀ before since p, (new.run before).Life p since →
        ((new.run before).reported (.instantiate p.asid :: since)).count (.cleanupOverrun p.id) =
          if p.state = .terminated .overrun then 1 else 0 := by
  intro new s
  have consistent : ∀ rs, (new.run rs).Consistent :=
    consistent_run (consistent_ofStore supported loaded)
  have attentive : ∀ rs, (new.run rs).Attentive :=
    (attentive_ofStore supported store).run (consistent_ofStore supported loaded)
  refine ⟨fun e fails => ?_, fun r => ?_, fun i p held => ?_, fun before since p life => ?_⟩
  · have nobody := (attentive rs).chargeCurrent_of_error fails
    refine ⟨nobody, fun i q held ended => ?_⟩
    have kept : ¬ s.Fills i .tick := by
      rintro ⟨_, makes, _⟩
      cases makes
    obtain ⟨p, held', becomes⟩ := exists_before (consistent rs) kept held
    by_cases alive : p.isTerminated = false
    · obtain ⟨holder, overrun⟩ := (becomes.isTerminated_iff_of_tick alive).1 ended
      have mem : SchedulingTimeout.cleanupOverrun p.id ∈ s.advance.chargeCurrent.1 :=
        mem_chargeCurrent.2 ⟨p, currentProcess?_eq_some_iff.2 ⟨i, holder, held'⟩, overrun, rfl⟩
      rw [nobody] at mem
      cases mem
    · rw [becomes.eq_of_isTerminated (consistent rs) held' (by simpa using alive)]
      exact held'
  · exact ⟨(attentive rs).nodup_reports r, fun t => (attentive rs).mem_reports_iff (consistent rs)⟩
  · exact exists_life (consistent []) (get?_ofStore store o) rs held
  · exact life.count_reported (consistent before) (attentive before)

/-- Two systicks to clean up, and the second one is charged. -/
theorem overrun_reported_once_duo :
    let s := (ofStore duo { cleanupQuantum := 2 }).run
      [.instantiate ⟨0⟩, .schedule, .requestTermination ⟨0, 0⟩, .tick]
    s.tick.1 = .ok [.cleanupOverrun ⟨0, 0⟩] ∧ ∃ p, s.Overruns .tick p ∧ p.id = ⟨0, 0⟩ := by
  intro s
  have loaded : duo.IsLoaded {} := ⟨{}, {}, duo.apps, by decide +kernel⟩
  have told := overrun_reported_once (o := { cleanupQuantum := 2 }) (by decide) loaded
    [.instantiate ⟨0⟩, .schedule, .requestTermination ⟨0, 0⟩, .tick]
  have mem : SchedulingTimeout.cleanupOverrun ⟨0, 0⟩ ∈ s.reports .tick := by decide +kernel
  obtain ⟨p, overruns, named⟩ := ((told.2.1 .tick).2 _).1 mem
  exact ⟨by decide +kernel, p, overruns, (SchedulingTimeout.cleanupOverrun.inj named).symm⟩

end Scheduler
end SeparationKernel
