import SeparationKernel.Datum.Forms

/-! How values are shown to a reader: a type's or alternative's name followed by what it holds, in
parentheses or, where the parts have names, in braces. -/
namespace SeparationKernel

namespace Text

/-- A name with what it holds, as `Priority(3)`. -/
def applied (name content : String) : String := name ++ "(" ++ content ++ ")"

/-- A name with named parts, as in `ProcId { slot: 1, generation: 0 }`. -/
def labelled (name : String) (parts : List (String × String)) : String :=
  name ++ " \x7b " ++ ", ".intercalate (parts.map fun (label, part) => label ++ ": " ++ part) ++
    " \x7d"

def underscored (name : String) : String := name.map fun c => if c = '-' then '_' else c

end Text

open Text

namespace Block

def shown (b : Block) : String :=
  labelled "AddressBlock"
    [("start", toString b.start.toNat), ("length", toString b.length.toNat)]

end Block

namespace Access

def shown : Access → String
  | .read => "Read"
  | .write => "Write"

end Access

namespace Register.Mask

def shown (m : Mask) : String := applied "RegisterMask" (toString m.bits.toNat)

end Register.Mask

namespace Register.Range

def shown (r : Range) : String :=
  labelled "McuRegisterRange" [
    ("first_address", toString r.first.toNat),
    ("last_address", toString r.last.toNat),
    ("read_mask", r.readMask.shown),
    ("write_mask", r.writeMask.shown)]

end Register.Range

namespace Priority

def shown (p : Priority) : String := applied "Priority" (toString p.level.toNat)

end Priority

namespace Asid

def shown (a : Asid) : String := applied "Asid" (toString a.index)

end Asid

namespace IpcTarget

def shown : IpcTarget → String
  | .app asid => applied "App" asid.shown
  | .any => "Any"

end IpcTarget

namespace Pirq

def shown (q : Pirq) : String := applied "PirqIndex" (toString q.line.toNat)

end Pirq

namespace ProcessId

def shown (id : ProcessId) : String :=
  labelled "ProcId"
    [("slot", toString id.slot.toNat), ("generation", toString id.generation.toNat)]

end ProcessId

namespace BlockReason

def shown : BlockReason → String
  | .yield => "Yield"
  | .ipc => "Ipc"
  | .io => "Io"

end BlockReason

namespace ScheduleState

def shown : ScheduleState → String
  | .ready => "Ready"
  | .running => "Running"
  | .blocked reason => applied "Blocked" reason.shown

end ScheduleState

namespace CleanupOutcome

def shown : CleanupOutcome → String
  | .completed => "Completed"
  | .overrun => "Overrun"

end CleanupOutcome

namespace ProcessState

def shown : ProcessState → String
  | .healthy state => applied "Healthy" state.shown
  | .cleanup remaining => labelled "Cleanup" [("remaining", toString remaining.toNat)]
  | .terminated outcome => applied "Terminated" outcome.shown

end ProcessState

namespace Options

def shown (o : Options) : String :=
  labelled "Options" (Key.all.map fun k => (underscored k.name, toString (o.get k)))

end Options
end SeparationKernel
