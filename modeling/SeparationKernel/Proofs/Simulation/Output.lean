import Mathlib
import SeparationKernel.Proofs.Scheduler.Ticks
import SeparationKernel.Proofs.Simulation.Preparation

/-! What a simulation writes, text by text and number by number. -/
namespace SeparationKernel

namespace Text

theorem padRight_eq (width : Nat) (s : String) :
    padRight width s = .ofList (s.toList.rightpad width ' ') := by
  simp [padRight, List.rightpad, String.length_toList]

theorem padLeft_eq (width : Nat) (s : String) :
    padLeft width s = .ofList (s.toList.leftpad width ' ') := by
  simp [padLeft, List.leftpad, String.length_toList]

end Text

/-- Libraries that can read one text, and show a failure with at most one cause. -/
def Libraries.reading (text : String) (d : Datum) : Libraries where
  parse given := if given = text then some d else none
  complaint _ := "not a configuration"
  distance a b := if a = b then 0 else max a.length b.length
  report failure :=
    failure.message ++ String.join (failure.causes.map ("\n\nCaused by:\n    " ++ ·))

/-- The exit code is 1 for a failure and 0 without one, and a failure is all that is written beside
the lines. -/
theorem Outcome.ofLines_eq (libs : Libraries) (lines : List String) (failure? : Option Failure) :
    ofLines libs lines failure? = {
      code := if failure?.isSome then 1 else 0
      stdout := String.join (lines.map (· ++ "\n"))
      stderr := failure?.elim "" fun failure => "Error: " ++ libs.report failure ++ "\n" } := by
  cases failure? <;> rfl

namespace Scheduler

/-- After how many of the next systicks the processor is held by a process of the application. -/
def systicksOf (s : Scheduler) (n : Nat) (a : Asid) : Nat :=
  (List.range n).countP fun k => (s.ticked (k + 1)).currentProcess?.any (·.asid == a)

def idleSysticks (s : Scheduler) (n : Nat) : Nat :=
  (List.range n).countP fun k => (s.ticked (k + 1)).currentProcess?.isNone

end Scheduler

namespace Simulation

open Scheduler (Observation)

/-- A line on each process that overruns its cleanup within the next systicks. -/
def overrunReport (first : Scheduler) (n : Nat) : List String :=
  (first.overruns 0 n).map fun (systick, overrun) =>
    "systick " ++ toString systick ++ ": " ++ overrun.message

def row (width : Nat) (name : String) (count : Nat) : String :=
  "  " ++ .ofList (name.toList.rightpad width ' ') ++ " " ++
    .ofList ((toString count).toList.leftpad 8 ' ') ++ " systicks"

/-- The last lines of a run of `n` systicks: the systicks of each application, with the state of its
live process at the end, and those of nobody. -/
def tally (m : Manifest) (session : Session) (first : Scheduler) (n : Nat) : List String :=
  [m.name ++ ": " ++ toString n ++ " systicks"] ++
    (session.store.entries.map fun (a, app) =>
      row session.options.appNameLengthMax.toNat app.name (first.systicksOf n a) ++ "  " ++
        match (first.ticked n).processes.ofApp? a with
        | none => "-"
        | some p => p.state.shown) ++
    [row session.options.appNameLengthMax.toNat "(idle)" (first.idleSysticks n)]

variable {sim : Simulation} {libs : Libraries} {m : Manifest} {session : Session}
  {first last : Scheduler} {n : Nat} {file text : String}

theorem usageLine_eq (width : Nat) (name : String) (count : Nat) :
    usageLine width name count = row width name count := by
  rw [usageLine, Text.padRight_eq, Text.padLeft_eq, row]

/-- The identifier that an application's process is found by names it. -/
theorem stateOf_eq (h : last.Consistent) (a : Asid) :
    stateOf last a = match last.processes.ofApp? a with
      | none => "-"
      | some p => p.state.shown := by
  rw [stateOf, Scheduler.ofApp?]
  cases live : last.processes.ofApp? a with
  | none => rfl
  | some p =>
    obtain ⟨i, held, _⟩ := ProcessTable.mem_live.1 (List.mem_of_find?_eq_some live)
    simp only [Option.map_some, Option.bind_some, Scheduler.state?, h.find?_id held]

theorem usage_eq (h : first.Consistent) {seen : Observation}
    (holders : seen.holders = first.holders n) (a : Asid) : usage seen a = first.systicksOf n a := by
  rw [usage, holders, h.holders_eq, List.countP_map]
  rfl

theorem idle_eq (h : first.Consistent) {seen : Observation}
    (holders : seen.holders = first.holders n) : idle seen = first.idleSysticks n := by
  rw [idle, holders, h.holders_eq, List.countP_map]
  rfl

theorem summary_eq (h : first.Consistent) {seen : Observation}
    (holders : seen.holders = first.holders sim.ticks) :
    sim.summary m session seen (first.ticked sim.ticks) = tally m session first sim.ticks := by
  have consistent : (first.ticked sim.ticks).Consistent := Scheduler.consistent_run h _
  simp only [summary, tally, usageLine_eq, stateOf_eq consistent, usage_eq h holders,
    idle_eq h holders, Session.nameWidth]

/-- A run of systicks that go well writes its overruns and its numbers, -/
theorem run_of_goesWell (h : first.Consistent) (well : first.GoesWell sim.ticks) :
    sim.run m session first =
      (overrunReport first sim.ticks ++ tally m session first sim.ticks, none) := by
  have numbers : sim.summary m session
      { holders := first.holders sim.ticks, overruns := first.overruns 0 sim.ticks }
      (first.ticked sim.ticks) = tally m session first sim.ticks := summary_eq h rfl
  simp only [run, Scheduler.ticks_of_goesWell well, numbers]
  rfl

/-- and any other run the overruns before the systick that fails. -/
theorem run_of_fails {k : Nat} (well : first.GoesWell k) {timeout : SchedulingTimeout}
    (fails : (first.ticked k).tick.1 = .error timeout) (lt : k < sim.ticks) :
    sim.run m session first =
      (overrunReport first k, some {
        message := "session stopped at systick " ++ toString (k + 1)
        causes := [timeout.message] }) := by
  have seen := Scheduler.ticks_of_fails well fails lt
  simp only [run, seen, Scheduler.length_holders]
  rfl

/-- A simulation that does not get to its first systick writes nothing but the failure. -/
theorem run_simulate_of_error (read : libs.manifest? text = some m)
    (opened : Command.session libs m = .ok session) {failure : Failure}
    (failed : sim.prepare libs m session = .error failure) :
    Command.run (.simulate sim) libs file text =
      { code := 1, stdout := "", stderr := "Error: " ++ libs.report failure ++ "\n" } := by
  simp only [Command.run, read, Command.runOn, opened, failed, Outcome.ofFailure,
    Outcome.ofLines_eq]
  rfl

theorem run_simulate_of_goesWell (read : libs.manifest? text = some m)
    (opened : Command.session libs m = .ok session) (made : sim.prepare libs m session = .ok first)
    (h : first.Consistent) (well : first.GoesWell sim.ticks) :
    Command.run (.simulate sim) libs file text = {
      code := 0
      stdout := String.join
        ((overrunReport first sim.ticks ++ tally m session first sim.ticks).map (· ++ "\n"))
      stderr := "" } := by
  simp only [Command.run, read, Command.runOn, opened, made, run_of_goesWell h well,
    Outcome.ofLines_eq]
  rfl

theorem run_simulate_of_fails (read : libs.manifest? text = some m)
    (opened : Command.session libs m = .ok session) (made : sim.prepare libs m session = .ok first)
    {k : Nat} (well : first.GoesWell k) {timeout : SchedulingTimeout}
    (fails : (first.ticked k).tick.1 = .error timeout) (lt : k < sim.ticks) :
    Command.run (.simulate sim) libs file text = {
      code := 1
      stdout := String.join ((overrunReport first k).map (· ++ "\n"))
      stderr := "Error: " ++ libs.report {
        message := "session stopped at systick " ++ toString (k + 1)
        causes := [timeout.message] } ++ "\n" } := by
  simp only [Command.run, read, Command.runOn, opened, made, run_of_fails well fails lt,
    Outcome.ofLines_eq]
  rfl

end Simulation
end SeparationKernel
