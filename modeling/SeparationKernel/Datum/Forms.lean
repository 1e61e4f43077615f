import SeparationKernel.App
import SeparationKernel.Datum
import SeparationKernel.Options
import SeparationKernel.Process.State
import SeparationKernel.Register.Range

/-! The written forms of the types that cross the kernel's interface. Reading a written form gives
the value back. -/
namespace SeparationKernel

namespace Block

def shape : Datum.Shape := .ofNames ["start", "length"]

def toDatum (b : Block) : Datum :=
  .record [("start", .ofWord b.start), ("length", .ofWord b.length)]

def ofDatum? (d : Datum) : Option Block :=
  match d.require? shape with
  | some [start, length] => start.word?.bind fun s => length.word?.map fun l => ⟨s, l⟩
  | _ => none

@[simp] theorem ofDatum?_toDatum (b : Block) : ofDatum? b.toDatum = some b := by
  simp [ofDatum?, toDatum, Datum.require?, Datum.arrange?, shape, Datum.Shape.ofNames,
    Datum.Shape.isRepeatedIn, List.lookup_cons]

end Block

namespace Access

def toDatum : Access → Datum
  | .read => .text "Read"
  | .write => .text "Write"

def ofDatum? (d : Datum) : Option Access :=
  match d.choice? with
  | some ("Read", .null) => some .read
  | some ("Write", .null) => some .write
  | _ => none

@[simp] theorem ofDatum?_toDatum (a : Access) : ofDatum? a.toDatum = some a := by
  cases a <;> rfl

end Access

namespace Register.Mask

def toDatum (m : Mask) : Datum := .ofWord m.bits

def ofDatum? (d : Datum) : Option Mask := d.word?.map .mk

@[simp] theorem ofDatum?_toDatum (m : Mask) : ofDatum? m.toDatum = some m := by
  simp [ofDatum?, toDatum]

end Register.Mask

namespace Register.Range

def shape : Datum.Shape := .ofNames ["first-address", "last-address", "read-mask", "write-mask"]

def toDatum (r : Range) : Datum :=
  .record [
    ("first-address", .ofWord r.first),
    ("last-address", .ofWord r.last),
    ("read-mask", r.readMask.toDatum),
    ("write-mask", r.writeMask.toDatum)]

def ofDatum? (d : Datum) : Option Range :=
  match d.require? shape with
  | some [first, last, readMask, writeMask] =>
    first.word?.bind fun f => last.word?.bind fun l =>
      (Mask.ofDatum? readMask).bind fun r => (Mask.ofDatum? writeMask).map fun w => ⟨f, l, r, w⟩
  | _ => none

@[simp] theorem ofDatum?_toDatum (r : Range) : ofDatum? r.toDatum = some r := by
  simp [ofDatum?, toDatum, Datum.require?, Datum.arrange?, shape, Datum.Shape.ofNames,
    Datum.Shape.isRepeatedIn, List.lookup_cons]

end Register.Range

namespace Priority

def toDatum (p : Priority) : Datum := .ofByte p.level

def ofDatum? (d : Datum) : Option Priority := d.byte?.map .mk

@[simp] theorem ofDatum?_toDatum (p : Priority) : ofDatum? p.toDatum = some p := by
  simp [ofDatum?, toDatum]

end Priority

namespace Asid

def toDatum (a : Asid) : Datum := .ofByte a.number

def ofDatum? (d : Datum) : Option Asid := d.byte?.map .mk

@[simp] theorem ofDatum?_toDatum (a : Asid) : ofDatum? a.toDatum = some a := by
  simp [ofDatum?, toDatum]

end Asid

namespace IpcTarget

def toDatum : IpcTarget → Datum
  | .app asid => .record [("App", asid.toDatum)]
  | .any => .text "Any"

def ofDatum? (d : Datum) : Option IpcTarget :=
  match d.choice? with
  | some ("App", asid) => (Asid.ofDatum? asid).map .app
  | some ("Any", .null) => some .any
  | _ => none

@[simp] theorem ofDatum?_toDatum (t : IpcTarget) : ofDatum? t.toDatum = some t := by
  cases t <;> simp [ofDatum?, toDatum, Datum.choice?]

end IpcTarget

namespace Pirq

def toDatum (q : Pirq) : Datum := .ofHalfword q.line

def ofDatum? (d : Datum) : Option Pirq := d.halfword?.map .mk

@[simp] theorem ofDatum?_toDatum (q : Pirq) : ofDatum? q.toDatum = some q := by
  simp [ofDatum?, toDatum]

end Pirq

namespace ProcessId

def shape : Datum.Shape := { Datum.Shape.ofNames ["slot", "generation"] with isClosed := false }

def toDatum (id : ProcessId) : Datum :=
  .record [("slot", .ofByte id.slot), ("generation", .ofByte id.generation)]

def ofDatum? (d : Datum) : Option ProcessId :=
  match d.require? shape with
  | some [slot, generation] => slot.byte?.bind fun s => generation.byte?.map fun g => ⟨s, g⟩
  | _ => none

@[simp] theorem ofDatum?_toDatum (id : ProcessId) : ofDatum? id.toDatum = some id := by
  simp [ofDatum?, toDatum, Datum.require?, Datum.arrange?, shape, Datum.Shape.ofNames,
    Datum.Shape.isRepeatedIn, List.lookup_cons]

end ProcessId

namespace BlockReason

def toDatum : BlockReason → Datum
  | .yield => .text "Yield"
  | .ipc => .text "Ipc"
  | .io => .text "Io"

def ofDatum? (d : Datum) : Option BlockReason :=
  match d.choice? with
  | some ("Yield", .null) => some .yield
  | some ("Ipc", .null) => some .ipc
  | some ("Io", .null) => some .io
  | _ => none

@[simp] theorem ofDatum?_toDatum (r : BlockReason) : ofDatum? r.toDatum = some r := by
  cases r <;> rfl

end BlockReason

namespace ScheduleState

def toDatum : ScheduleState → Datum
  | .ready => .text "Ready"
  | .running => .text "Running"
  | .blocked reason => .record [("Blocked", reason.toDatum)]

def ofDatum? (d : Datum) : Option ScheduleState :=
  match d.choice? with
  | some ("Ready", .null) => some .ready
  | some ("Running", .null) => some .running
  | some ("Blocked", reason) => (BlockReason.ofDatum? reason).map .blocked
  | _ => none

@[simp] theorem ofDatum?_toDatum (s : ScheduleState) : ofDatum? s.toDatum = some s := by
  cases s <;> simp [ofDatum?, toDatum, Datum.choice?]

end ScheduleState

namespace CleanupOutcome

def toDatum : CleanupOutcome → Datum
  | .completed => .text "Completed"
  | .overrun => .text "Overrun"

def ofDatum? (d : Datum) : Option CleanupOutcome :=
  match d.choice? with
  | some ("Completed", .null) => some .completed
  | some ("Overrun", .null) => some .overrun
  | _ => none

@[simp] theorem ofDatum?_toDatum (o : CleanupOutcome) : ofDatum? o.toDatum = some o := by
  cases o <;> rfl

end CleanupOutcome

namespace ProcessState

def toDatum : ProcessState → Datum
  | .healthy state => .record [("Healthy", state.toDatum)]
  | .cleanup remaining => .record [("Cleanup", .record [("remaining", .ofWord remaining)])]
  | .terminated outcome => .record [("Terminated", outcome.toDatum)]

def cleanupShape : Datum.Shape :=
  { Datum.Shape.ofNames ["remaining"] with isClosed := false }

/-- A list does not stand for the record that comes with an alternative. -/
def remaining? : Datum → Option UInt32
  | .record entries =>
    match (Datum.record entries).require? cleanupShape with
    | some [remaining] => remaining.word?
    | _ => none
  | _ => none

@[simp] theorem remaining?_record (n : UInt32) :
    remaining? (.record [("remaining", .ofWord n)]) = some n := by
  simp [remaining?, Datum.require?, Datum.arrange?, cleanupShape, Datum.Shape.ofNames,
    Datum.Shape.isRepeatedIn]

def ofDatum? (d : Datum) : Option ProcessState :=
  match d.choice? with
  | some ("Healthy", state) => (ScheduleState.ofDatum? state).map .healthy
  | some ("Cleanup", content) => (remaining? content).map .cleanup
  | some ("Terminated", outcome) => (CleanupOutcome.ofDatum? outcome).map .terminated
  | _ => none

@[simp] theorem ofDatum?_toDatum (s : ProcessState) : ofDatum? s.toDatum = some s := by
  cases s <;> simp [ofDatum?, toDatum, Datum.choice?]

end ProcessState

namespace Options

/-- Every option may be left out. -/
def shape : Datum.Shape where
  fields := Key.all.map fun k => (k.name, .defaulted)

def toDatum (o : Options) : Datum := .record (Key.all.map fun k => (k.name, .int (o.get k)))

def update? (o : Options) : List (Key × Option Datum) → Option Options
  | [] => some o
  | (_, none) :: rest => o.update? rest
  | (k, some d) :: rest => (d.nat? k.size).bind fun n => (o.set k n).update? rest

/-- Options that are left out have their defaults. -/
def ofDatum? (d : Datum) : Option Options :=
  (d.arrange? shape).bind fun values => update? {} (Key.all.zip values)

end Options
end SeparationKernel
