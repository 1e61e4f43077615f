import Mathlib
import SeparationKernel.Proofs.Scheduler.Overrun
import SeparationKernel.Scheduler.Ticks

/-! Systicks with no request between them. What is seen of such a run is what each systick leaves
and reports, up to the first one that fails. -/
namespace SeparationKernel
namespace Scheduler

def ticked (s : Scheduler) (n : Nat) : Scheduler := s.run (List.replicate n .tick)

def GoesWell (s : Scheduler) : Nat → Prop
  | 0 => True
  | n + 1 => (∃ overruns, s.tick.1 = .ok overruns) ∧ s.tick.2.GoesWell n

def holders (s : Scheduler) : Nat → List (Option Process)
  | 0 => []
  | n + 1 => s.tick.2.identified? :: s.tick.2.holders n

/-- What the next systicks report, each with its number. Some have passed already. -/
def overruns (s : Scheduler) (passed : Nat) : Nat → List (Nat × SchedulingTimeout)
  | 0 => []
  | n + 1 => (s.reports .tick).map (passed + 1, ·) ++ s.tick.2.overruns (passed + 1) n

variable {s : Scheduler} {k m n passed : Nat}

theorem Consistent.find?_id (h : s.Consistent) {i : Nat} {p : Process}
    (held : s.processes.get? i = some p) : s.processes.find? p.id = some p := by
  rw [ProcessTable.find?_eq_some_iff, (h.named i p held).1]
  exact ⟨held, rfl⟩

/-- The identifier of the holder of the processor names it. -/
theorem Consistent.identified?_eq (h : s.Consistent) : s.identified? = s.currentProcess? := by
  rw [identified?, currentId?]
  cases current : s.currentProcess? with
  | none => rfl
  | some p =>
    obtain ⟨i, _, held⟩ := currentProcess?_eq_some_iff.1 current
    exact h.find?_id held

@[simp] theorem ticked_zero (s : Scheduler) : s.ticked 0 = s := rfl

theorem ticked_succ (s : Scheduler) (n : Nat) : s.ticked (n + 1) = s.tick.2.ticked n := rfl

theorem ticked_add (s : Scheduler) (m n : Nat) : s.ticked (m + n) = (s.ticked m).ticked n := by
  rw [ticked, List.replicate_add, run_append]
  rfl

theorem ticked_concat (s : Scheduler) (n : Nat) : s.ticked (n + 1) = (s.ticked n).tick.2 :=
  ticked_add s n 1

theorem policy_ticked (s : Scheduler) (n : Nat) : (s.ticked n).policy = s.policy := policy_run s _

theorem goesWell_add : s.GoesWell (m + n) ↔ s.GoesWell m ∧ (s.ticked m).GoesWell n := by
  induction m generalizing s with
  | zero => simp [GoesWell]
  | succ m ih => rw [Nat.succ_add, GoesWell, GoesWell, ih, ticked_succ, and_assoc]

theorem overruns_add (s : Scheduler) (passed m n : Nat) :
    s.overruns passed (m + n) =
      s.overruns passed m ++ (s.ticked m).overruns (passed + m) n := by
  induction m generalizing s passed with
  | zero => simp [overruns]
  | succ m ih =>
    rw [Nat.succ_add, overruns, overruns, ih, ticked_succ, List.append_assoc,
      Nat.succ_add_eq_add_succ]

@[simp] theorem length_holders (s : Scheduler) (n : Nat) : (s.holders n).length = n := by
  induction n generalizing s with
  | zero => rfl
  | succ n ih => rw [holders, List.length_cons, ih]

theorem Consistent.holders_eq (h : s.Consistent) (n : Nat) :
    s.holders n = (List.range n).map fun k => (s.ticked (k + 1)).currentProcess? := by
  induction n generalizing s with
  | zero => rfl
  | succ n ih =>
    have next : s.tick.2.Consistent := consistent_after h .tick
    rw [holders, next.identified?_eq, ih next, List.range_succ_eq_map, List.map_cons, List.map_map]
    rfl

theorem exists_tick_eq_ok_of_le_one (short : s.tick.2.idleRun.toNat ≤ 1) :
    ∃ told, s.tick.1 = .ok told := by
  cases answer : s.tick.1 with
  | ok told => exact ⟨told, rfl⟩
  | error e =>
    obtain ⟨on, long, _⟩ := (tick_eq_error_iff s e).1 answer
    have zero : s.policy.idleDurationMax.toNat = 0 := by omega
    exact absurd (UInt32.toNat_inj.1 zero) on

theorem exists_tick_eq_ok (busy : s.tick.2.isIdle = false) : ∃ told, s.tick.1 = .ok told := by
  refine exists_tick_eq_ok_of_le_one ?_
  rw [idleRun_tick, busy]
  exact Nat.zero_le 1

/-- The next systicks go well, or there is a first one that does not. -/
theorem goesWell_or_fails (s : Scheduler) (n : Nat) :
    s.GoesWell n ∨ ∃ k < n, s.GoesWell k ∧ ∃ e, (s.ticked k).tick.1 = .error e := by
  induction n generalizing s with
  | zero => exact Or.inl trivial
  | succ n ih =>
    cases answer : s.tick.1 with
    | error e => exact Or.inr ⟨0, n.succ_pos, trivial, e, answer⟩
    | ok told =>
      rcases ih s.tick.2 with well | ⟨k, lt, well, fails⟩
      · exact Or.inl ⟨⟨told, answer⟩, well⟩
      · exact Or.inr ⟨k + 1, Nat.succ_lt_succ lt, ⟨⟨told, answer⟩, well⟩, fails⟩

theorem reverse_reports (s : Scheduler) : (s.reports .tick).reverse = s.reports .tick := by
  cases answer : s.tick.1 with
  | error e => rw [reports_tick_of_error answer, List.reverse_nil]
  | ok told =>
    rw [reports_tick_of_ok answer, chargeCurrent]
    split
    · split <;> rfl
    · rfl

open Scheduler (Observation)

theorem ticksAfter_of_goesWell (well : s.GoesWell n) (seen : Observation) (m : Nat) :
    ticksAfter seen s (n + m) = ticksAfter { seen with
      holders := (s.holders n).reverse ++ seen.holders
      overruns := (s.overruns seen.holders.length n).reverse ++ seen.overruns } (s.ticked n) m := by
  induction n generalizing s seen with
  | zero => simp [holders, overruns]
  | succ n ih =>
    obtain ⟨⟨told, answer⟩, well⟩ := well
    have reported : s.reports .tick = told := by
      rw [reports, answer]
      rfl
    have step : s.tick = (.ok told, s.tick.2) := by rw [← answer]
    rw [Nat.succ_add, ticksAfter, step]
    simp only
    rw [ih well, ticked_succ, holders, overruns, List.length_cons, List.reverse_cons,
      List.reverse_append, ← List.map_reverse, reverse_reports, reported, List.append_assoc, List.append_assoc,
      List.singleton_append]

/-- A run of systicks that go well is seen to its end, -/
theorem ticks_of_goesWell (well : s.GoesWell n) :
    s.ticks n = ({ holders := s.holders n, overruns := s.overruns 0 n }, s.ticked n) := by
  have run := ticksAfter_of_goesWell well {} 0
  rw [Nat.add_zero] at run
  simp [ticks, run, ticksAfter]

/-- and any other run up to the systick that fails. -/
theorem ticks_of_fails (well : s.GoesWell k) {e : SchedulingTimeout}
    (fails : (s.ticked k).tick.1 = .error e) (lt : k < n) :
    (s.ticks n).1 =
      { holders := s.holders k, overruns := s.overruns 0 k, stopped := some e } := by
  obtain ⟨m, rfl⟩ := Nat.exists_eq_add_of_lt lt
  have step : (s.ticked k).tick = (.error e, (s.ticked k).tick.2) := by rw [← fails]
  have run := ticksAfter_of_goesWell well {} (m + 1)
  rw [ticksAfter, step] at run
  simp [ticks, Nat.add_assoc, run]

end Scheduler
end SeparationKernel
