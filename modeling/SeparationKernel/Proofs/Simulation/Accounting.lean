import Mathlib
import SeparationKernel.Proofs.Scheduler.Awake
import SeparationKernel.Proofs.Scheduler.Reachable
import SeparationKernel.Proofs.Simulation.Output

/-! The numbers that a simulation prints. Each systick is counted once, for the application that
holds the processor after it or as an idle one, and the only failure left once there is a first
systick is the idle watchdog. -/
namespace SeparationKernel

theorem sum_map_beq {κ : Type} [DecidableEq κ] (k : κ) (keys : List κ) :
    (keys.map fun k' => if (k == k') = true then 1 else 0).sum = keys.count k := by
  induction keys with
  | nil => rfl
  | cons k' keys ih => rw [List.map_cons, List.sum_cons, ih, List.count_cons, BEq.comm, add_comm]

theorem sum_countP_add_countP_isNone {β κ : Type} [DecidableEq κ] {key : β → κ} {keys : List κ}
    {xs : List (Option β)} (distinct : keys.Nodup) (listed : ∀ x, some x ∈ xs → key x ∈ keys) :
    (keys.map fun k => xs.countP fun x => x.any (key · == k)).sum + xs.countP (·.isNone) =
      xs.length := by
  induction xs with
  | nil => simp
  | cons x xs ih =>
    have ih := ih fun y mem => listed y (List.mem_cons_of_mem _ mem)
    simp only [List.countP_cons, List.sum_map_add, List.length_cons]
    have here : (keys.map fun k => if x.any (key · == k) = true then 1 else 0).sum +
        (if x.isNone = true then 1 else 0) = 1 := by
      cases x with
      | none => simp
      | some y =>
        have once : keys.count (key y) = 1 :=
          List.count_eq_one_of_mem distinct (listed y List.mem_cons_self)
        simp only [Option.any_some, Option.isNone_some, sum_map_beq, once, Bool.false_eq_true,
          if_false]
    omega

namespace Scheduler

variable {s : Scheduler}

/-- Whoever holds the processor is found by its identifier, and is a process of some application. -/
theorem Consistent.exists_holder (h : s.Consistent) {id : ProcessId}
    (holds : s.currentId? = some id) :
    ∃ p app, s.processes.find? id = some p ∧ s.currentProcess? = some p ∧
      s.store.get? p.asid = some app := by
  obtain ⟨p, current, rfl⟩ := Option.map_eq_some_iff.1 holds
  obtain ⟨i, _, held⟩ := currentProcess?_eq_some_iff.1 current
  exact ⟨p, p.app, h.find?_id held, current, h.described i p held⟩

theorem store_ticked (s : Scheduler) (h : s.Consistent) (n : Nat) :
    (s.ticked n).store = s.store := (store_policy_run h _).1

theorem isIdle_ticked {k : Nat} (nobody : (s.ticked (k + 1)).currentProcess? = none) :
    (s.ticked (k + 1)).isIdle = true := by
  rw [ticked_concat] at nobody ⊢
  exact (currentProcess?_tick_eq_none_iff _).1 nobody

end Scheduler

namespace Session

/-- Before the first systick nobody waits for anything but the processor. -/
theorem Stage.awake {session : Session} {holder : Option Asid} {started condemned : List Asid}
    {s : Scheduler} (stage : session.Stage holder started condemned s) (sound : session.Sound) :
    s.Awake started condemned := by
  refine ⟨stage.early.consistent sound, stage.listed.asid, fun i p held => ?_, stage.healthy⟩
  by_cases mem : p.asid ∈ condemned
  · simp [Process.isBlocked, stage.cleans i p held mem]
  · rcases stage.healthy i p held mem with state | state <;> simp [Process.isBlocked, state]

end Session

namespace Simulation

/-- What the outcome of a run says in which, of the applications `started`, those of `condemned`
have been asked to terminate. -/
structure Accounts (sim : Simulation) (libs : Libraries) (m : Manifest) (session : Session)
    (started condemned : List Asid) (first : Scheduler) (outcome : Outcome) : Prop where
  /-- Whoever holds the processor is found, and there is a number to be kept for it. -/
  found : ∀ k id, (first.ticked k).currentId? = some id →
    ∃ p, (first.ticked k).processes.find? id = some p ∧ (first.ticked k).currentProcess? = some p ∧
      p.asid.index < session.store.size
  /-- A run that succeeds has written the number of each application and of nobody, -/
  written : outcome.code = 0 → outcome.stderr = "" ∧
    outcome.stdout = String.join
      ((overrunReport first sim.ticks ++ tally m session first sim.ticks).map (· ++ "\n"))
  /-- and these numbers add up. -/
  complete : (session.store.entries.map fun (a, _) => first.systicksOf sim.ticks a).sum +
    first.idleSysticks sim.ticks = sim.ticks
  /-- A systick counts as idle only once all have terminated, -/
  ended : ∀ k, (first.ticked (k + 1)).currentProcess? = none →
    ∀ a ∈ started, (first.ticked (k + 1)).HasEnded a
  /-- and none does if one was not asked to, so that the run gets to its end. -/
  busy : ∀ a ∈ started, a ∉ condemned → first.idleSysticks sim.ticks = 0 ∧ outcome.code = 0
  /-- Any other run is stopped by the watchdog only. -/
  stopped : outcome.code ≠ 0 → ∃ k < sim.ticks, ∃ ticks,
    (first.ticked k).tick.1 = .error (.idleWatchdog ticks) ∧ outcome = {
      code := 1
      stdout := String.join ((overrunReport first k).map (· ++ "\n"))
      stderr := "Error: " ++ libs.report {
        message := "session stopped at systick " ++ toString (k + 1)
        causes := ["no ukProc was schedulable for " ++ toString ticks.toNat ++
          " systicks in a row"] } ++ "\n" }

variable {sim : Simulation} {libs : Libraries} {m : Manifest} {session : Session}
  {first : Scheduler} {started condemned : List Asid} {file text : String}

/-- Every systick is counted once. -/
theorem sum_systicksOf_add_idle (h : first.Consistent) (store : first.store = session.store)
    (sound : session.Sound) (n : Nat) :
    (session.store.entries.map fun (a, _) => first.systicksOf n a).sum + first.idleSysticks n =
      n := by
  have distinct : (session.store.entries.map (·.1)).Nodup := by
    refine List.pairwise_map.2 ((Store.pairwise_entries sound.size_le).imp ?_)
    rintro x y lt same
    exact lt.ne (congrArg Asid.index same)
  let holders := (List.range n).map fun k => (first.ticked (k + 1)).currentProcess?
  have listed : ∀ p, some p ∈ holders → p.asid ∈ session.store.entries.map (·.1) := by
    intro p mem
    obtain ⟨k, _, holds⟩ := List.mem_map.1 mem
    have consistent : (first.ticked (k + 1)).Consistent := Scheduler.consistent_run h _
    have named : (first.ticked (k + 1)).currentId? = some p.id := by
      rw [Scheduler.currentId?, holds]
      rfl
    obtain ⟨q, app, _, holds', described⟩ := consistent.exists_holder named
    obtain rfl := Option.some.inj (holds.symm.trans holds')
    rw [first.store_ticked h, store] at described
    exact List.mem_map.2 ⟨_, (Store.mem_entries_iff sound.size_le).2 described, rfl⟩
  have counted := sum_countP_add_countP_isNone distinct listed
  simp only [holders, List.countP_map, List.length_map, List.length_range, List.map_map] at counted
  exact counted

theorem accounts (read : libs.manifest? text = some m)
    (opened : Command.session libs m = .ok session) (made : sim.prepare libs m session = .ok first)
    (awake : first.Awake started condemned) (store : first.store = session.store)
    (sound : session.Sound) :
    sim.Accounts libs m session started condemned first
      (Command.run (.simulate sim) libs file text) := by
  have consistent := awake.consistent
  have ends := first.goesWell_or_fails sim.ticks
  refine ⟨fun k id holds => ?_, fun succeeds => ?_, ?_, fun k nobody a mem => ?_,
    fun a mem spared => ?_, fun fails => ?_⟩
  · have later : (first.ticked k).Consistent := Scheduler.consistent_run consistent _
    obtain ⟨p, app, found, current, described⟩ := later.exists_holder holds
    rw [first.store_ticked consistent, store] at described
    exact ⟨p, found, current, (List.getElem?_eq_some_iff.1 described).1⟩
  · rcases ends with well | ⟨k, lt, well, e, fails⟩
    · rw [run_simulate_of_goesWell read opened made consistent well]
      exact ⟨rfl, rfl⟩
    · rw [run_simulate_of_fails read opened made well fails lt] at succeeds
      cases succeeds
  · exact sum_systicksOf_add_idle consistent store sound sim.ticks
  · exact (awake.ticked (k + 1)).hasEnded (Scheduler.isIdle_ticked nobody) mem
  · refine ⟨List.countP_eq_zero.2 fun k _ nobody => ?_, ?_⟩
    · have busy := (awake.ticked (k + 1)).not_isIdle mem spared
      rw [Scheduler.isIdle_ticked (Option.isNone_iff_eq_none.1 nobody)] at busy
      cases busy
    · have well := awake.goesWell mem spared sim.ticks
      rw [run_simulate_of_goesWell read opened made consistent well]
  · rcases ends with well | ⟨k, lt, well, e, stops⟩
    · rw [run_simulate_of_goesWell read opened made consistent well] at fails
      exact absurd rfl fails
    · obtain ⟨_, _, rfl⟩ := (Scheduler.tick_eq_error_iff _ e).1 stops
      exact ⟨k, lt, _, stops, run_simulate_of_fails read opened made well stops lt⟩

theorem exists_session_of_accepted (accepted : (Command.run .check libs file text).code = 0) :
    ∃ m session, libs.manifest? text = some m ∧ Command.session libs m = .ok session := by
  rw [Command.run] at accepted
  cases read : libs.manifest? text with
  | none =>
    rw [read] at accepted
    cases accepted
  | some m =>
    rw [read] at accepted
    simp only [Command.runOn] at accepted
    cases opened : Command.session libs m with
    | error failure =>
      rw [opened] at accepted
      cases accepted
    | ok session => exact ⟨m, session, rfl, opened⟩

/-- Whatever is simulated of a configuration that is accepted, it ends before the first systick only
for a name that is at fault, and what is written from then on is complete. -/
theorem accounting_complete (accepted : (Command.run .check libs file text).code = 0)
    (sim : Simulation) :
    ∃ m session, libs.manifest? text = some m ∧ Command.session libs m = .ok session ∧
      ((∃ failure, sim.Misnamed libs m session failure ∧
          Command.run (.simulate sim) libs file text =
            { code := 1, stdout := "", stderr := "Error: " ++ libs.report failure ++ "\n" }) ∨
        ∃ extras targets first, sim.start.mapM m.asid = .ok extras ∧
          sim.terminate.mapM m.asid = .ok targets ∧ sim.prepare libs m session = .ok first ∧
          sim.Accounts libs m session (session.startAtBoot ++ extras) targets first
            (Command.run (.simulate sim) libs file text)) := by
  obtain ⟨m, session, read, opened⟩ := exists_session_of_accepted accepted
  have h := Manifest.describes_of_session opened
  refine ⟨m, session, read, opened, ?_⟩
  rcases prepare_cases libs h sim with
    ⟨failure, misnamed, failed⟩ | ⟨_, extras, targets, last, _, started, condemned, stage, made⟩
  · exact Or.inl ⟨failure, misnamed, run_simulate_of_error read opened failed⟩
  · have awake := (stage.awake h.sound).schedule
    have store : last.schedule.store = session.store :=
      (Scheduler.still_schedule last).store.trans stage.early.still.store
    exact Or.inr ⟨extras, targets, _, started, condemned, made,
      accounts read opened made awake store h.sound⟩

def pairText : String :=
  "name = \"pair\"\n[apps.a]\npriority = 1\nquantum = 2\nstart = true\n" ++
    "[apps.b]\npriority = 1\nquantum = 2\n"

def pairDatum : Datum :=
  .record [
    ("name", .text "pair"),
    ("apps", .record [
      ("a", .record [("priority", .int 1), ("quantum", .int 2), ("start", .bool true)]),
      ("b", .record [("priority", .int 1), ("quantum", .int 2)])])]

set_option maxRecDepth 100000 in
/-- The second one is started too, and the first one is asked to terminate. -/
theorem accounting_complete_pair :
    let libs := Libraries.reading pairText pairDatum
    let sim : Simulation := { ticks := 12, start := ["b"], terminate := ["a"] }
    (Command.run .check libs "app.toml" pairText).code = 0 ∧
      (Command.run (.simulate sim) libs "app.toml" pairText).code = 0 ∧
      ∃ m session extras targets first, libs.manifest? pairText = some m ∧
        sim.prepare libs m session = .ok first ∧
        sim.Accounts libs m session (session.startAtBoot ++ extras) targets first
          (Command.run (.simulate sim) libs "app.toml" pairText) := by
  intro libs sim
  have accepted : (Command.run .check libs "app.toml" pairText).code = 0 := by decide +kernel
  have succeeds : (Command.run (.simulate sim) libs "app.toml" pairText).code = 0 := by
    decide +kernel
  obtain ⟨m, session, read, _, ⟨failure, _, failed⟩ |
    ⟨extras, targets, first, _, _, made, accounts⟩⟩ := accounting_complete accepted sim
  · rw [failed] at succeeds
    cases succeeds
  · exact ⟨accepted, succeeds, m, session, extras, targets, first, read, made, accounts⟩

set_option maxRecDepth 100000 in
example :
    (Command.run (.simulate { ticks := 12, start := ["b"], terminate := ["a"] })
      (Libraries.reading pairText pairDatum) "app.toml" pairText).stdout =
      "pair: 12 systicks\n" ++
        "  a                                     12 systicks  Cleanup \x7b remaining: 8 \x7d\n" ++
        "  b                                      0 systicks  Healthy(Ready)\n" ++
        "  (idle)                                 0 systicks\n" := by
  decide +kernel

end Simulation
end SeparationKernel
