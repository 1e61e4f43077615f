import SeparationKernel.Datum.Shown
import SeparationKernel.Libraries
import SeparationKernel.Report.Acceptance
import SeparationKernel.Scheduler.Ticks

/-! Simulations. A session runs for some systicks in which every process uses all the processor time
it is given, and none that is asked to terminate ever reports that it is done. -/
namespace SeparationKernel

structure Simulation where
  ticks : Nat := 100
  /-- Applications started beside those that start with the session. -/
  start : List String := []
  /-- Applications whose termination is asked for before the first systick. -/
  terminate : List String := []
deriving DecidableEq, Repr

namespace Simulation

def ofName (libs : Libraries) (m : Manifest) (name : String) : Except Failure Asid :=
  (m.asid name).mapError fun e => { message := e.message libs.distance }

def startAll (libs : Libraries) (m : Manifest) (s : Scheduler) :
    List String → Except Failure Scheduler
  | [] => .ok s
  | name :: names => do
    let asid ← ofName libs m name
    match s.instantiate asid with
    | (.ok _, s') => startAll libs m s' names
    | (.error e, _) => .error { message := "starting '" ++ name ++ "'", causes := [e.message] }

def terminateAll (libs : Libraries) (m : Manifest) (s : Scheduler) :
    List String → Except Failure Scheduler
  | [] => .ok s
  | name :: names => do
    match s.ofApp? (← ofName libs m name) with
    | none => .error { message := "'" ++ name ++ "' has no live ukProc" }
    | some id =>
      match s.requestTermination id with
      | (.ok _, s') => terminateAll libs m s' names
      | (.error e, _) => .error { message := e.message }

/-- The scheduler before the first systick. -/
def prepare (sim : Simulation) (libs : Libraries) (m : Manifest) (s : Session) :
    Except Failure Scheduler := do
  let booted ← s.scheduler.mapError fun e => { message := e.message }
  let started ← startAll libs m booted sim.start
  return (← terminateAll libs m started sim.terminate).schedule

open Scheduler (Observation)

/-- After how many systicks an application held the processor. -/
def usage (seen : Observation) (asid : Asid) : Nat :=
  seen.holders.countP fun holder => holder.any (·.asid == asid)

def idle (seen : Observation) : Nat := seen.holders.countP (·.isNone)

open Text

def overrunLine (systick : Nat) (overrun : SchedulingTimeout) : String :=
  "systick " ++ toString systick ++ ": " ++ overrun.message

def stateOf (s : Scheduler) (asid : Asid) : String :=
  match (s.ofApp? asid).bind s.state? with
  | none => "-"
  | some state => state.shown

def usageLine (width : Nat) (name : String) (count : Nat) : String :=
  "  " ++ padRight width name ++ " " ++ padLeft 8 (toString count) ++ " systicks"

/-- Who used the processor for how long, and the states at the end. -/
def summary (sim : Simulation) (m : Manifest) (s : Session) (seen : Observation)
    (last : Scheduler) : List String :=
  [m.name ++ ": " ++ toString sim.ticks ++ " systicks"] ++
    (s.store.entries.map fun (asid, app) =>
      usageLine s.nameWidth app.name (usage seen asid) ++ "  " ++ stateOf last asid) ++
    [usageLine s.nameWidth "(idle)" (idle seen)]

/-- The lines of a run, and why it ended early if it did. -/
def run (sim : Simulation) (m : Manifest) (s : Session) (first : Scheduler) :
    List String × Option Failure :=
  let (seen, last) := first.ticks sim.ticks
  let overruns := seen.overruns.map fun (systick, overrun) => overrunLine systick overrun
  match seen.stopped with
  | none => (overruns ++ sim.summary m s seen last, none)
  | some timeout =>
    (overruns, some {
      message := "session stopped at systick " ++ toString (seen.holders.length + 1)
      causes := [timeout.message] })

end Simulation
end SeparationKernel
