import SeparationKernel.Scheduler

/-! Everything that can be asked of a scheduler, so that a run is a list of requests. -/
namespace SeparationKernel.Scheduler

inductive Request where
  | instantiate (asid : Asid)
  | schedule
  | yield (id : ProcessId) (delay : Option UInt32)
  | waitIpc (id : ProcessId) (timeout : Option UInt32)
  | waitIo (id : ProcessId) (timeout : Option UInt32)
  | deliverIpc (id : ProcessId)
  | completeIo (id : ProcessId)
  | requestTermination (id : ProcessId)
  | cleanupDone (id : ProcessId)
  | tick
  | buffer (request : BufferTable.Request)
deriving DecidableEq, Repr

def askBuffers (s : Scheduler) (r : BufferTable.Request) : Verdict TransferError × Scheduler :=
  let performed := s.buffers.perform r
  (performed.1, { s with buffers := performed.2 })

/-- The state after a request, granted or refused. -/
def after (s : Scheduler) : Request → Scheduler
  | .instantiate asid => (s.instantiate asid).2
  | .schedule => s.schedule
  | .yield id delay => (s.yield id delay).2
  | .waitIpc id timeout => (s.waitIpc id timeout).2
  | .waitIo id timeout => (s.waitIo id timeout).2
  | .deliverIpc id => (s.deliverIpc id).2
  | .completeIo id => (s.completeIo id).2
  | .requestTermination id => (s.requestTermination id).2
  | .cleanupDone id => (s.cleanupDone id).2
  | .tick => s.tick.2
  | .buffer r => (s.askBuffers r).2

def run (s : Scheduler) (requests : List Request) : Scheduler := requests.foldl after s

@[simp] theorem run_nil (s : Scheduler) : s.run [] = s := rfl

@[simp] theorem run_cons (s : Scheduler) (r : Request) (rs : List Request) :
    s.run (r :: rs) = (s.after r).run rs := rfl

theorem run_append (s : Scheduler) (rs ss : List Request) :
    s.run (rs ++ ss) = (s.run rs).run ss := by
  simp [run]

end SeparationKernel.Scheduler
