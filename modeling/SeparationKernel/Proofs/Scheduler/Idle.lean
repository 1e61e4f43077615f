import Mathlib
import SeparationKernel.Options.Check
import SeparationKernel.Proofs.Scheduler.Request

/-! The idle watchdog. The scheduler keeps one number, which stands for how all the systicks of its
past ended. -/
namespace SeparationKernel

theorem le_length_rtakeWhile_iff {α : Type} {p : α → Bool} {xs : List α} {n : Nat} :
    n ≤ (xs.rtakeWhile p).length ↔
      ∃ last, last <:+ xs ∧ last.length = n ∧ ∀ x ∈ last, p x = true := by
  constructor
  · intro le
    refine ⟨(xs.rtakeWhile p).drop ((xs.rtakeWhile p).length - n), ?_, ?_, fun x mem => ?_⟩
    · exact (List.drop_suffix _ _).trans (List.rtakeWhile_suffix p xs)
    · rw [List.length_drop]
      omega
    · exact List.mem_rtakeWhile_imp (List.mem_of_mem_drop mem)
  · rintro ⟨last, ⟨front, rfl⟩, rfl, all⟩
    have split : ((front ++ last).reverse.takeWhile p) =
        last.reverse ++ front.reverse.takeWhile p := by
      rw [List.reverse_append]
      exact List.takeWhile_append_of_pos fun x mem => all x (List.mem_reverse.1 mem)
    rw [List.rtakeWhile, split]
    simp

namespace Scheduler

variable {s : Scheduler}

def isIdle (s : Scheduler) : Bool := s.processes.live.all (!·.isSchedulable)

/-- How the systicks of a run ended, those that failed included, first to last. -/
def systicks (s : Scheduler) : List Request → List Scheduler
  | [] => []
  | r :: rs => (if r = .tick then [s.tick.2] else []) ++ (s.after r).systicks rs

/-- How many systicks in a row, up to the last one, ended with nobody to use the processor. -/
def idleTicks (s : Scheduler) (rs : List Request) : Nat :=
  ((s.systicks rs).rtakeWhile isIdle).length

theorem systicks_append (s : Scheduler) (rs ss : List Request) :
    s.systicks (rs ++ ss) = s.systicks rs ++ (s.run rs).systicks ss := by
  induction rs generalizing s with
  | nil => rfl
  | cons r rs ih => simp [systicks, ih]

theorem systicks_concat_tick (s : Scheduler) (rs : List Request) :
    s.systicks (rs ++ [.tick]) = s.systicks rs ++ [(s.run rs).tick.2] := by
  simp [systicks_append, systicks]

theorem systicks_concat (s : Scheduler) (rs : List Request) {r : Request} (other : r ≠ .tick) :
    s.systicks (rs ++ [r]) = s.systicks rs := by
  simp [systicks_append, systicks, other]

theorem idleTicks_concat_tick (s : Scheduler) (rs : List Request) :
    s.idleTicks (rs ++ [.tick]) =
      if (s.run rs).tick.2.isIdle then s.idleTicks rs + 1 else 0 := by
  rw [idleTicks, systicks_concat_tick]
  by_cases idle : (s.run rs).tick.2.isIdle = true
  · rw [List.rtakeWhile_concat_pos _ _ _ idle, if_pos idle, List.length_append, idleTicks]
    rfl
  · rw [List.rtakeWhile_concat_neg _ _ _ idle, if_neg idle]
    rfl

theorem idleTicks_concat (s : Scheduler) (rs : List Request) {r : Request} (other : r ≠ .tick) :
    s.idleTicks (rs ++ [r]) = s.idleTicks rs := by
  rw [idleTicks, systicks_concat s rs other, idleTicks]

theorem currentId?_tick (s : Scheduler) : s.tick.2.currentId?.isSome = !s.tick.2.isIdle := by
  have settled := (settled_tick s).currentId?_eq_none_iff
  have idle : s.tick.2.isIdle = true ↔ s.tick.2.currentId? = none := by
    simp [isIdle, settled]
  cases holder : s.tick.2.currentId? with
  | none => simp [idle.2 holder]
  | some id =>
    have busy : s.tick.2.isIdle = false := by
      rw [← Bool.not_eq_true, idle, holder]
      simp
    simp [busy]

theorem idleRun_tick (s : Scheduler) :
    s.tick.2.idleRun = if s.tick.2.isIdle then Counter.up s.idleRun else 0 := by
  have before : s.beforeDecision.schedule.idleRun = s.idleRun :=
    (still_schedule s.beforeDecision).idleRun.trans (still_chargeCurrent s.advance).idleRun
  have counted : s.tick.2.idleRun =
      if s.tick.2.currentId?.isSome then 0 else Counter.up s.beforeDecision.schedule.idleRun := rfl
  rw [counted, before, currentId?_tick]
  cases s.tick.2.isIdle <;> rfl

/-- The number that is kept is how many of the last systicks ended idle, as far as one can count. -/
theorem toNat_idleRun_run (store : Store) (o : Options) (rs : List Request) :
    ((ofStore store o).run rs).idleRun.toNat =
      min ((ofStore store o).idleTicks rs) (UInt32.size - 1) := by
  induction rs using List.reverseRecOn with
  | nil => rfl
  | append_singleton rs r ih =>
    rw [run_concat]
    by_cases tick : r = .tick
    · subst r
      rw [idleTicks_concat_tick]
      show ((ofStore store o).run rs).tick.2.idleRun.toNat = _
      rw [idleRun_tick]
      by_cases idle : ((ofStore store o).run rs).tick.2.isIdle = true
      · rw [if_pos idle, if_pos idle, Counter.toNat_up, ih]
        omega
      · rw [if_neg idle, if_neg idle]
        rfl
    · rw [idleTicks_concat _ _ tick, (still_after _ tick).idleRun, ih]

/-- A systick fails only for the watchdog, and only past its limit. -/
theorem tick_eq_error_iff (s : Scheduler) (e : SchedulingTimeout) :
    s.tick.1 = .error e ↔
      s.policy.idleDurationMax ≠ 0 ∧
        s.policy.idleDurationMax.toNat < s.tick.2.idleRun.toNat ∧
        e = .idleWatchdog s.tick.2.idleRun := by
  have answer : s.tick.1 = (s.tick.2.checkIdle.map fun _ => s.advance.chargeCurrent.1) := rfl
  have limit : s.tick.2.checkIdle = .error e ↔ s.policy.idleDurationMax ≠ 0 ∧
      s.policy.idleDurationMax.toNat < s.tick.2.idleRun.toNat ∧
      e = .idleWatchdog s.tick.2.idleRun := by
    rw [checkIdle, Verdict.require_eq_error, policy_tick, SchedulingPolicy.watchdog?]
    split
    · simp [*]
    · simp [*, eq_comm]
  rw [answer, ← limit]
  cases s.tick.2.checkIdle with
  | error e' => simp [Except.map]
  | ok => simp [Except.map]

theorem eq_of_tick_eq_ok {overruns : List SchedulingTimeout} (told : s.tick.1 = .ok overruns) :
    overruns = s.advance.chargeCurrent.1 := by
  have answer : s.tick.1 = (s.tick.2.checkIdle.map fun _ => s.advance.chargeCurrent.1) := rfl
  rw [answer] at told
  cases checked : s.tick.2.checkIdle with
  | error e => simp [checked, Except.map] at told
  | ok => simpa [checked, Except.map, eq_comm] using told

/-- After any requests to a new scheduler with supported options, a systick fails exactly if it and
as many before it as the limit says ended with nobody to use the processor. The number that is kept
and reported is how many did so in a row. Nothing but a systick changes it. -/
theorem idle_watchdog_exact {o : Options} (supported : o.check = .ok ()) (store : Store)
    (rs : List Request) :
    let new := ofStore store o
    let s := new.run rs
    (∀ ticks, s.tick.1 = .error (.idleWatchdog ticks) ↔
      o.idleDurationMax ≠ 0 ∧
        (∃ last, last <:+ new.systicks (rs ++ [.tick]) ∧
          last.length = o.idleDurationMax.toNat + 1 ∧ ∀ t ∈ last, t.isIdle = true) ∧
        ticks.toNat = min (new.idleTicks (rs ++ [.tick])) (UInt32.size - 1)) ∧
      (∀ e, s.tick.1 = .error e → ∃ ticks, e = .idleWatchdog ticks) ∧
      (o.idleDurationMax = 0 → ∃ overruns, s.tick.1 = .ok overruns) ∧
      s.idleRun.toNat = min (new.idleTicks rs) (UInt32.size - 1) ∧
      ∀ r, r ≠ .tick → (s.after r).idleRun = s.idleRun := by
  intro new s
  have policy : s.policy = .ofOptions o := policy_run new rs
  have max : s.policy.idleDurationMax = o.idleDurationMax := by
    rw [policy]
    rfl
  have small : o.idleDurationMax.toNat < UInt32.size - 1 := by
    have bounds := Options.isInBounds_iff.1 ((Options.check_eq_ok.1 supported).1 .idleDurationMax)
    have size : UInt32.size = 4294967296 := rfl
    simp only [Options.Key.bounds, Options.get] at bounds
    omega
  have count : s.tick.2.idleRun.toNat =
      min (new.idleTicks (rs ++ [.tick])) (UInt32.size - 1) := by
    rw [← toNat_idleRun_run, run_concat]
    rfl
  refine ⟨fun ticks => ?_, fun e fails => ?_, fun off => ?_, toNat_idleRun_run store o rs,
    fun r other => (still_after s other).idleRun⟩
  · rw [tick_eq_error_iff, max, ← le_length_rtakeWhile_iff, ← idleTicks, count,
      SchedulingTimeout.idleWatchdog.injEq, ← UInt32.toNat_inj, count]
    exact and_congr_right fun _ => and_congr_left fun _ => by omega
  · exact ⟨_, ((tick_eq_error_iff s e).1 fails).2.2⟩
  · cases answer : s.tick.1 with
    | error e => exact absurd (max.trans off) ((tick_eq_error_iff s e).1 answer).1
    | ok overruns => exact ⟨overruns, rfl⟩

/-- The only process waits for a message, and nobody sends one. -/
theorem idle_watchdog_exact_waiting :
    let apps : Store := ⟨[{ name := "a", priority := ⟨1⟩, quantum := 2 }]⟩
    let s := (ofStore apps { idleDurationMax := 2 }).run
      [.instantiate ⟨0⟩, .tick, .waitIpc ⟨0, 0⟩ none, .tick, .schedule, .tick]
    s.idleRun = 2 ∧ s.tick.1 = .error (.idleWatchdog 3) := by
  intro apps s
  have watchdog := idle_watchdog_exact (o := { idleDurationMax := 2 }) (by decide) apps
    [.instantiate ⟨0⟩, .tick, .waitIpc ⟨0, 0⟩ none, .tick, .schedule, .tick]
  have last : ∃ last, last <:+ (ofStore apps { idleDurationMax := 2 }).systicks
      [.instantiate ⟨0⟩, .tick, .waitIpc ⟨0, 0⟩ none, .tick, .schedule, .tick, .tick] ∧
        last.length = 3 ∧ ∀ t ∈ last, t.isIdle = true :=
    ⟨_, List.drop_suffix 1 _, by decide +kernel, by decide +kernel⟩
  exact ⟨by decide +kernel, (watchdog.1 3).2 ⟨by decide, last, by decide +kernel⟩⟩

end Scheduler
end SeparationKernel
