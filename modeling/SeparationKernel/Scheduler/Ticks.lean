import SeparationKernel.Scheduler

/-! Runs of systicks with no request between them, and what is seen of them from outside. -/
namespace SeparationKernel.Scheduler

/-- The process that holds the processor, looked up by its identifier. -/
def identified? (s : Scheduler) : Option Process := s.currentId?.bind s.processes.find?

structure Observation where
  /-- Who held the processor after each systick that went well. -/
  holders : List (Option Process) := []
  /-- The processes that overran their cleanup, each with the number of the systick. -/
  overruns : List (Nat × SchedulingTimeout) := []
  /-- Why the run ended early. -/
  stopped : Option SchedulingTimeout := none
deriving DecidableEq, Repr

/-- Up to `n` systicks, none after the first that fails. What was seen before is given, last things
first. -/
def ticksAfter (seen : Observation) (s : Scheduler) : Nat → Observation × Scheduler
  | 0 => (seen, s)
  | n + 1 =>
    match s.tick with
    | (.error timeout, s') => ({ seen with stopped := some timeout }, s')
    | (.ok overruns, s') =>
      ticksAfter
        { seen with
          holders := s'.identified? :: seen.holders
          overruns := overruns.map (seen.holders.length + 1, ·) ++ seen.overruns }
        s' n

def ticks (s : Scheduler) (n : Nat) : Observation × Scheduler :=
  let run := ticksAfter {} s n
  ({ run.1 with holders := run.1.holders.reverse, overruns := run.1.overruns.reverse }, run.2)

end SeparationKernel.Scheduler
