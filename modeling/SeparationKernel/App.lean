import SeparationKernel.Asid
import SeparationKernel.Block
import SeparationKernel.Priority
import SeparationKernel.Register.Mask

/-! Descriptors of applications. Nothing is checked here; the store decides what is acceptable. -/
namespace SeparationKernel

/-- An interrupt line of a peripheral. -/
structure Pirq where
  line : UInt16
deriving DecidableEq, Repr

namespace App

structure Attributes where
  read : Bool := false
  write : Bool := false
  execute : Bool := false
  device : Bool := false
deriving DecidableEq, Repr

namespace Attributes

/-- Bit 0 reads, 1 writes, 2 executes, 3 marks registers. -/
def ofBits (bits : UInt32) : Attributes where
  read := bits.toNat.testBit 0
  write := bits.toNat.testBit 1
  execute := bits.toNat.testBit 2
  device := bits.toNat.testBit 3

def bits (a : Attributes) : UInt32 :=
  (if a.read then 1 else 0) + (if a.write then 2 else 0) + (if a.execute then 4 else 0) +
    (if a.device then 8 else 0)

@[simp] theorem ofBits_bits (a : Attributes) : ofBits a.bits = a := by
  obtain ⟨r, w, x, d⟩ := a
  cases r <;> cases w <;> cases x <;> cases d <;> decide

end Attributes

structure SharedBlock where
  label : String
  block : Block
deriving DecidableEq, Repr

/-- A block mapped into the application beside its own code and data. -/
structure ExtraBlock where
  label : String
  attributes : Attributes
  block : Block
deriving DecidableEq, Repr

/-- The bits of one register that the application may touch through the kernel. -/
structure RegisterGrant where
  address : UInt32
  readMask : Register.Mask
  writeMask : Register.Mask
deriving DecidableEq, Repr

def RegisterGrant.mask (g : RegisterGrant) : Access → Register.Mask
  | .read => g.readMask
  | .write => g.writeMask

/-- A transfer between two blocks of the application, given by their labels. -/
structure DmaStream where
  label : String
  engine : UInt8
  sourceRequest : UInt8
  destinationRequest : UInt8
  source : String
  destination : String
deriving DecidableEq, Repr

/-- The systicks a process may be allotted before it goes behind its peers. -/
def quantumMin : UInt32 := 1

def quantumMax : UInt32 := 255

end App

structure App where
  name : String
  priority : Priority
  quantum : UInt32
  startAtBoot : Bool := false
  ipcTargets : List IpcTarget := []
  pirqs : List Pirq := []
  sharedBlocks : List App.SharedBlock := []
  extraBlocks : List App.ExtraBlock := []
  registers : List App.RegisterGrant := []
  dmaStreams : List App.DmaStream := []
deriving DecidableEq, Repr

namespace App

def maySendTo (a : App) (target : Asid) : Bool := a.ipcTargets.any (·.admits target)

def labelledBlocks (a : App) : List (String × Block) :=
  a.sharedBlocks.map (fun b => (b.label, b.block)) ++
    a.extraBlocks.map fun b => (b.label, b.block)

def blockLabels (a : App) : List String := a.labelledBlocks.map (·.1)

def blockLabelled? (a : App) (label : String) : Option Block := a.labelledBlocks.lookup label

/-- The first grant for the register. -/
def register? (a : App) (address : UInt32) : Option RegisterGrant :=
  a.registers.find? (·.address == address)

end App
end SeparationKernel
