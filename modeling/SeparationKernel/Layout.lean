import SeparationKernel.Check
import SeparationKernel.Config.Error

/-! The target's memory map, and what its protection unit can express. -/
namespace SeparationKernel

structure Layout where
  /-- Starts and lengths of blocks are multiples of this. -/
  blockAlignment : UInt32 := 32
  blockSizeMin : UInt32 := 0x20
  blockSizeMax : UInt32 := 0x40000000
  sharedBufferSizeMin : UInt32 := 0x100
  sharedBufferSizeMax : UInt32 := 0x8000
  /-- A region has a power of two for its length, and starts at a multiple of it. -/
  powerOfTwoRegions : Bool := false
  /-- Every block of the registry lies within one of these. -/
  peripheralSpaces : List Block := [⟨0x40000000, 0x20000000⟩]
  /-- Every register range lies within one of these; the second is the private peripheral bus. -/
  registerSpaces : List Block := [⟨0x40000000, 0x20000000⟩, ⟨0xE0000000, 0x00100000⟩]
  /-- The registers that the kernel keeps: its timer and the protection unit. -/
  kernelRegisters : List Block := [⟨0xE000E010, 0x10⟩, ⟨0xE000ED90, 0x38⟩]
deriving DecidableEq, Repr

namespace Layout

/-- The start if that is no multiple, else the length. -/
def misalignedValue (block : Block) (align : UInt32) : UInt32 :=
  if block.start.toNat % max align.toNat 1 != 0 then block.start else block.length

/-- A block is well formed, aligned, expressible as one region if it has to be, and of a length from
`min` to `max`. -/
def checkBlock (l : Layout) (entry : ConfigEntry) (block : Block) (min max : UInt32)
    (isRegion : Bool) : Verdict ConfigError :=
  .all [
    .require block.isWellFormed (.outOfRange entry (.malformed block)),
    .require (block.isAlignedTo l.blockAlignment)
      (.misaligned entry (misalignedValue block l.blockAlignment) l.blockAlignment),
    .require (!(isRegion && l.powerOfTwoRegions) || block.isNaturallyAligned)
      (.misaligned entry block.start block.naturalAlignment),
    .require (min.toNat ≤ block.length.toNat && block.length.toNat ≤ max.toNat)
      (.outOfRange entry (.length block.length min max))]

def checkRegistryBlock (l : Layout) (entry : ConfigEntry) (block : Block) : Verdict ConfigError :=
  l.checkBlock entry block l.blockSizeMin l.blockSizeMax false

def checkExtraBlock (l : Layout) (entry : ConfigEntry) (block : Block) : Verdict ConfigError :=
  l.checkBlock entry block l.blockSizeMin l.blockSizeMax true

def checkSharedBlock (l : Layout) (entry : ConfigEntry) (block : Block) : Verdict ConfigError :=
  l.checkBlock entry block l.sharedBufferSizeMin l.sharedBufferSizeMax true

theorem checkBlock_eq_ok {l : Layout} {entry : ConfigEntry} {block : Block} {min max : UInt32}
    {isRegion : Bool} :
    l.checkBlock entry block min max isRegion = .ok () ↔
      block.isWellFormed = true ∧ block.isAlignedTo l.blockAlignment = true ∧
        (isRegion = true → l.powerOfTwoRegions = true → block.isNaturallyAligned = true) ∧
        min.toNat ≤ block.length.toNat ∧ block.length.toNat ≤ max.toNat := by
  cases isRegion <;> cases h : l.powerOfTwoRegions <;> simp [checkBlock, h]

end Layout
end SeparationKernel
