import Mathlib
import SeparationKernel.Proofs.Scheduler.WindingDown
import SeparationKernel.Proofs.Simulation.Output

/-! Simulations in which everything that is started is asked to terminate. What such a run prints
and how it ends is a matter of a few numbers and of the order in which the processes end. -/
namespace SeparationKernel
namespace Simulation

/-- Ends before another process that is asked to terminate too: more important, or as important and
either the first holder of the processor or, if the other one is not, named earlier. -/
def EndsBefore (holder : Option Asid) (targets : List Asid) (p q : Process) : Prop :=
  p.priority.isMoreImportantThan q.priority = true ∨
    p.priority = q.priority ∧ (holder = some p.asid ∨
      holder ≠ some q.asid ∧ targets.idxOf p.asid < targets.idxOf q.asid)

/-- One line for each process that overruns, one cleanup quantum after the other as far as the run
reaches. -/
def overrunLines (quantum ticks : Nat) (order : List Process) : List String :=
  (order.take (ticks / quantum)).zipIdx.map fun (p, i) =>
    "systick " ++ toString ((i + 1) * quantum) ++ ": " ++
      ("ukProc " ++ toString p.id.slot.toNat ++ "." ++ toString p.id.generation.toNat ++
        " overran its cleanup quantum and was terminated")

/-- The order in which processes end that are all asked to terminate. -/
structure EndingOrder (session : Session) (holder : Option Asid) (targets : List Asid)
    (first : Scheduler) (order : List Process) : Prop where
  live : ∀ p ∈ order, p ∈ first.processes.live
  described : ∀ p ∈ order, session.store.get? p.asid = some p.app
  /-- One for each application. -/
  each : (order.map (·.asid)).Perm targets
  sorted : order.Pairwise (EndsBefore holder targets)

variable {sim : Simulation} {libs : Libraries} {m : Manifest} {session : Session}
  {s first : Scheduler}
  {holder : Option Asid} {started targets extras : List Asid} {order : List Process}
  {file text : String} {p q : Process}

/-- The first systick comes next, and everything that was started has been asked to terminate. -/
structure Condemned (session : Session) (holder : Option Asid) (targets : List Asid)
    (first : Scheduler) : Prop where
  consistent : first.Consistent
  settled : first.Settled
  still : Scheduler.Still (.ofStore session.store session.options) first
  cleans : ∀ i p, first.processes.get? i = some p →
    p.state = .cleanup session.options.cleanupQuantum
  mem_iff : ∀ a, a ∈ targets ↔ ∃ p ∈ first.processes.live, p.asid = a
  queued : first.Queued holder targets

theorem condemned_of_stage (stage : session.Stage holder started targets s)
    (sound : session.Sound) (all : targets.Perm started) :
    Condemned session holder targets s.schedule := by
  have consistent := stage.early.consistent sound
  have cleans : ∀ i p, s.processes.get? i = some p →
      p.state = .cleanup session.options.cleanupQuantum := by
    intro i p held
    have mem := List.mem_of_getElem? (stage.listed.getElem? held)
    exact stage.cleans i p held (all.symm.subset mem)
  -- Nobody is ready or runs, so that the decision changes no process.
  have kept : ∀ i, s.schedule.processes.get? i = s.processes.get? i := by
    intro i
    rw [Scheduler.get?_schedule consistent]
    cases held : s.processes.get? i with
    | none => rfl
    | some p =>
      have state : p.state.isCleanup = true := by simp [cleans i p held, ProcessState.isCleanup]
      rw [Option.map_some, Process.settle_of_isCleanup state]
  refine ⟨Scheduler.consistent_after consistent .schedule, Scheduler.settled_schedule s,
    (stage.early.after (r := .schedule) (by simp)).still, fun i p held => ?_, fun a => ?_, ?_, ?_⟩
  · rw [kept] at held
    exact cleans i p held
  · rw [all.mem_iff]
    exact (stage.listed.schedule consistent).mem_iff
  · simp only [kept]
    exact stage.queued.behind
  · simp only [kept]
    exact stage.queued.first

namespace Condemned

theorem policy (h : Condemned session holder targets first) :
    first.policy = .ofOptions session.options :=
  h.still.policy

theorem begins (h : Condemned session holder targets first) :
    first.BeginsToWindDown first.lineUp := by
  have whole : ∀ p ∈ first.processes.live, p.state = .cleanup first.policy.cleanupQuantum := by
    intro p live
    obtain ⟨i, held, _⟩ := ProcessTable.mem_live.1 live
    rw [h.policy]
    exact h.cleans i p held
  exact {
    toWindsDown := Scheduler.windsDown_lineUp h.consistent h.settled fun p live => ⟨_, whole p live⟩
    untouched := fun p mem => whole p (Scheduler.mem_lineUp.1 mem)
    rested := fun _ => h.still.idleRun }

theorem asid_ne (h : Condemned session holder targets first) (live : p ∈ first.processes.live)
    (live' : q ∈ first.processes.live) (before : p.precedes q = true) : p.asid ≠ q.asid := by
  intro same
  obtain ⟨i, held, alive⟩ := ProcessTable.mem_live.1 live
  obtain ⟨j, held', alive'⟩ := ProcessTable.mem_live.1 live'
  obtain rfl := h.consistent.single i j p q held held' alive alive' same
  rw [Option.some.inj (held.symm.trans held'), Process.precedes_self] at before
  cases before

theorem endsBefore (h : Condemned session holder targets first) (live : p ∈ first.processes.live)
    (live' : q ∈ first.processes.live) (before : p.precedes q = true) :
    EndsBefore holder targets p q := by
  obtain ⟨i, held, _⟩ := ProcessTable.mem_live.1 live
  obtain ⟨j, held', _⟩ := ProcessTable.mem_live.1 live'
  rcases Process.precedes_iff.1 before with more | ⟨same, earlier⟩
  · exact Or.inl (Priority.isMoreImportantThan_iff.2 more)
  refine Or.inr ⟨same, ?_⟩
  by_cases first_holder : holder = some p.asid
  · exact Or.inl first_holder
  have mem := (h.mem_iff p.asid).2 ⟨p, live, rfl⟩
  have mem' := (h.mem_iff q.asid).2 ⟨q, live', rfl⟩
  have apart : p.asid ≠ q.asid := h.asid_ne live live' before
  refine Or.inr ⟨fun other => ?_, ?_⟩
  · have first_other := h.queued.first j i q p held' held other mem apart
    omega
  · by_contra behind
    have places : targets.idxOf p.asid ≠ targets.idxOf q.asid :=
      fun place => apart ((List.idxOf_inj mem).1 place)
    have lt : targets.idxOf q.asid < targets.idxOf p.asid := by omega
    have later := List.pairwise_iff_getElem.1 h.queued.behind _ _
      (List.idxOf_lt_length_iff.2 mem') (List.idxOf_lt_length_iff.2 mem) lt
    rw [List.getElem_idxOf, List.getElem_idxOf] at later
    have first_other := later first_holder j i q p held' held rfl rfl
    omega

theorem endingOrder (h : Condemned session holder targets first) (distinct : targets.Nodup) :
    EndingOrder session holder targets first first.lineUp := by
  have sorted := Scheduler.pairwise_lineUp h.consistent
  refine ⟨fun p mem => Scheduler.mem_lineUp.1 mem, fun p mem => ?_, ?_, sorted.imp_of_mem ?_⟩
  · obtain ⟨i, held, _⟩ := ProcessTable.mem_live.1 (Scheduler.mem_lineUp.1 mem)
    have described := h.consistent.described i p held
    rwa [h.still.store] at described
  · have apart : (first.lineUp.map (·.asid)).Nodup := List.pairwise_map.2 <| sorted.imp_of_mem
      fun mem mem' => h.asid_ne (Scheduler.mem_lineUp.1 mem) (Scheduler.mem_lineUp.1 mem')
    refine (List.perm_ext_iff_of_nodup apart distinct).2 fun a => ?_
    simp only [h.mem_iff, List.mem_map, Scheduler.mem_lineUp]
  · intro p q mem mem' before
    exact h.endsBefore (Scheduler.mem_lineUp.1 mem) (Scheduler.mem_lineUp.1 mem') before

end Condemned

theorem overrunReport_eq (h : Condemned session holder targets first) (ticks : Nat) :
    overrunReport first ticks =
      overrunLines session.options.cleanupQuantum.toNat ticks first.lineUp := by
  have quantum : first.policy.cleanupQuantum = session.options.cleanupQuantum := by
    rw [h.policy]
    rfl
  rw [overrunReport, h.begins.overruns_eq, quantum, overrunLines, List.map_map]
  refine List.map_congr_left ?_
  rintro ⟨p, i⟩ _
  show "systick " ++ toString _ ++ ": " ++ _ = _
  rw [Nat.zero_add]
  rfl

theorem message_idleWatchdog {limit : UInt32} (short : limit.toNat + 1 < UInt32.size) :
    (SchedulingTimeout.idleWatchdog (limit + 1)).message =
      "no ukProc was schedulable for " ++ toString (limit.toNat + 1) ++ " systicks in a row" := by
  have next : (limit + 1).toNat = limit.toNat + 1 := by
    have size : UInt32.size = 2 ^ 32 := rfl
    rw [UInt32.toNat_add, UInt32.toNat_one]
    omega
  rw [← next]
  rfl

/-- What such a run writes, and how it ends. -/
theorem run_simulate_of_condemned (read : libs.manifest? text = some m)
    (opened : Command.session libs m = .ok session) (made : sim.prepare libs m session = .ok first)
    (h : Condemned session holder targets first) (sound : session.Sound)
    (distinct : targets.Nodup) :
    let quantum := session.options.cleanupQuantum.toNat
    let limit := session.options.idleDurationMax
    let stop := Scheduler.strikesAt (.ofOptions session.options) targets.length
    Command.run (.simulate sim) libs file text =
      if limit ≠ 0 ∧ stop ≤ sim.ticks then {
        code := 1
        stdout := String.join ((overrunLines quantum sim.ticks first.lineUp).map (· ++ "\n"))
        stderr := "Error: " ++ libs.report {
          message := "session stopped at systick " ++ toString stop
          causes := ["no ukProc was schedulable for " ++ toString (limit.toNat + 1) ++
            " systicks in a row"] } ++ "\n" }
      else {
        code := 0
        stdout := String.join ((overrunLines quantum sim.ticks first.lineUp ++
          tally m session first sim.ticks).map (· ++ "\n"))
        stderr := "" } := by
  intro quantum limit stop
  have length : first.lineUp.length = targets.length := by
    rw [← (h.endingOrder distinct).each.length_eq, List.length_map]
  have same : first.policy.idleDurationMax = limit := by
    rw [h.policy]
    rfl
  have short := Options.succ_idleDurationMax_lt sound.supported
  have ends := h.begins.ends h.still.idleRun (by rwa [same]) sim.ticks
  rw [same, h.policy, length] at ends
  split at ends
  · rename_i strikes
    obtain ⟨k, lt, stops, well, fails, quiet⟩ := ends
    have reported : overrunReport first k = overrunReport first sim.ticks := by
      rw [overrunReport, quiet, overrunReport]
    rw [if_pos strikes, run_simulate_of_fails read opened made well fails lt,
      message_idleWatchdog short, reported,
      overrunReport_eq h, ← stops]
  · rename_i goes_on
    rw [if_neg goes_on, run_simulate_of_goesWell read opened made h.consistent ends,
      overrunReport_eq h]

/-- When everything that is started is asked to terminate, each in turn overruns its cleanup, and
then the watchdog waits as long as it may. -/
theorem overruns_closed_form (read : libs.manifest? text = some m)
    (opened : Command.session libs m = .ok session) (started : sim.start.mapM m.asid = .ok extras)
    (condemned : sim.terminate.mapM m.asid = .ok targets)
    (fresh : (session.startAtBoot ++ extras).Nodup)
    (all : targets.Perm (session.startAtBoot ++ extras)) :
    let quantum := session.options.cleanupQuantum.toNat
    let limit := session.options.idleDurationMax
    let stop :=
      if targets.length = 0 then limit.toNat + 1 else targets.length * quantum + limit.toNat
    ∃ booted first order, session.scheduler = .ok booted ∧ sim.prepare libs m session = .ok first ∧
      EndingOrder session (booted.currentProcess?.map (·.asid)) targets first order ∧
      Command.run (.simulate sim) libs file text =
        if limit ≠ 0 ∧ stop ≤ sim.ticks then {
          code := 1
          stdout := String.join ((overrunLines quantum sim.ticks order).map (· ++ "\n"))
          stderr := "Error: " ++ libs.report {
            message := "session stopped at systick " ++ toString stop
            causes := ["no ukProc was schedulable for " ++ toString (limit.toNat + 1) ++
              " systicks in a row"] } ++ "\n" }
        else {
          code := 0
          stdout := String.join ((overrunLines quantum sim.ticks order ++
            tally m session first sim.ticks).map (· ++ "\n"))
          stderr := "" } := by
  intro quantum limit stop
  have described := Manifest.describes_of_session opened
  rcases prepare_cases libs described sim with
    ⟨failure, misnamed, _⟩ | ⟨booted, extras', targets', last, boots, started', condemned', stage,
      made⟩
  · exact absurd misnamed (not_misnamed described started condemned fresh all)
  · obtain rfl := Except.ok.inj (started.symm.trans started')
    obtain rfl := Except.ok.inj (condemned.symm.trans condemned')
    have distinct : targets.Nodup := all.symm.nodup fresh
    have h := condemned_of_stage stage described.sound all
    exact ⟨booted, last.schedule, _, boots, made, h.endingOrder distinct,
      run_simulate_of_condemned read opened made h described.sound distinct⟩

/-- Two applications of one priority. The first one starts with the session. -/
def brief : Manifest where
  name := "brief"
  options := { cleanupQuantum := 2, idleDurationMax := 2 }
  apps := [
    ⟨{ name := "a", priority := ⟨1⟩, quantum := 2, startAtBoot := true }, []⟩,
    ⟨{ name := "b", priority := ⟨1⟩, quantum := 2 }, []⟩]

def briefText : String :=
  "name = \"brief\"\n[options]\ncleanup-quantum = 2\nidle-duration-max = 2\n" ++
    "[apps.a]\npriority = 1\nquantum = 2\nstart = true\n" ++
    "[apps.b]\npriority = 1\nquantum = 2\n"

def briefDatum : Datum :=
  .record [
    ("name", .text "brief"),
    ("options", .record [("cleanup-quantum", .int 2), ("idle-duration-max", .int 2)]),
    ("apps", .record [
      ("a", .record [("priority", .int 1), ("quantum", .int 2), ("start", .bool true)]),
      ("b", .record [("priority", .int 1), ("quantum", .int 2)])])]

set_option maxRecDepth 100000 in
/-- The other one is started too, and named first. Both have overrun after four systicks, and with
the sixth one the watchdog strikes. -/
theorem overruns_closed_form_brief :
    let libs := Libraries.reading briefText briefDatum
    let sim : Simulation := { ticks := 9, start := ["b"], terminate := ["b", "a"] }
    libs.manifest? briefText = some brief ∧
      ∃ session booted first order, Command.session libs brief = .ok session ∧
        session.scheduler = .ok booted ∧ sim.prepare libs brief session = .ok first ∧
        EndingOrder session (booted.currentProcess?.map (·.asid)) [⟨1⟩, ⟨0⟩] first order ∧
        Command.run (.simulate sim) libs "app.toml" briefText = {
          code := 1
          stdout := String.join ((overrunLines 2 9 order).map (· ++ "\n"))
          stderr := "Error: " ++ libs.report {
            message := "session stopped at systick " ++ toString 6
            causes := ["no ukProc was schedulable for " ++ toString 3 ++
              " systicks in a row"] } ++ "\n" } := by
  intro libs sim
  let session : Session :=
    { options := brief.options, platform := {}, store := ⟨brief.apps.map (·.app)⟩ }
  have read : libs.manifest? briefText = some brief := by decide +kernel
  have opened : Command.session libs brief = .ok session := by decide +kernel
  have started : sim.start.mapM brief.asid = .ok [⟨1⟩] := by decide +kernel
  have condemned : sim.terminate.mapM brief.asid = .ok [⟨1⟩, ⟨0⟩] := by decide +kernel
  have fresh : (session.startAtBoot ++ [(⟨1⟩ : Asid)]).Nodup := by decide +kernel
  have all : List.Perm [⟨1⟩, ⟨0⟩] (session.startAtBoot ++ [(⟨1⟩ : Asid)]) := by decide +kernel
  obtain ⟨booted, first, order, boots, made, ending, outcome⟩ :=
    overruns_closed_form read opened started condemned fresh all
  rw [if_pos (by decide)] at outcome
  exact ⟨read, session, booted, first, order, opened, boots, made, ending, outcome⟩

end Simulation
end SeparationKernel
