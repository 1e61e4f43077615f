import SeparationKernel.Attempt
import SeparationKernel.Layout

/-! The registry of peripheral blocks: those that may be granted to applications, and those kept
back even inside such a block. Only a reserved block may meet another, and then it lies inside an
authorized one. -/
namespace SeparationKernel

structure RegistryBlock where
  kind : BlockClass
  block : Block
deriving DecidableEq, Repr

namespace RegistryBlock

def isAuthorized (b : RegistryBlock) : Bool := b.kind == .authorized

def isReserved (b : RegistryBlock) : Bool := b.kind == .reserved

/-- One of the two is a reserved block nested inside the other, an authorized one. -/
def isNested : RegistryBlock → RegistryBlock → Bool
  | ⟨.reserved, inner⟩, ⟨.authorized, outer⟩ => outer.contains inner
  | ⟨.authorized, outer⟩, ⟨.reserved, inner⟩ => outer.contains inner
  | _, _ => false

def isCompatible (a b : RegistryBlock) : Bool := !a.block.overlaps b.block || a.isNested b

theorem isNested_comm (a b : RegistryBlock) : a.isNested b = b.isNested a := by
  obtain ⟨_ | _, _⟩ := a <;> obtain ⟨_ | _, _⟩ := b <;> rfl

theorem isCompatible_comm (a b : RegistryBlock) : a.isCompatible b = b.isCompatible a := by
  rw [isCompatible, isCompatible, Block.overlaps_comm, isNested_comm]

end RegistryBlock

structure Registry where
  blocks : List RegistryBlock := []
  /-- How many authorized blocks the platform is said to have. -/
  declaredAuthorized : Option UInt32 := none
deriving DecidableEq, Repr

namespace Registry

/-- A block of a batch, given the blocks of the batch before it. -/
def checkNext (r : Registry) (l : Layout) (before : List RegistryBlock) (b : RegistryBlock) :
    Verdict ConfigError :=
  let entry := ConfigEntry.registryBlock b.kind before.length
  .all [
    l.checkRegistryBlock entry b.block,
    .require (l.peripheralSpaces.any (·.contains b.block))
      (.outOfRange entry (.outsidePeripherals b.block)),
    .each (fun other => .require (b.isCompatible other) (.overlap entry b.block other.block))
      (r.blocks ++ before)]

def check (r : Registry) (l : Layout) (batch : List RegistryBlock) : Verdict ConfigError :=
  .eachAfter (r.checkNext l) [] batch

/-- Adds a batch of blocks, or none of them if one is refused. -/
def register (r : Registry) (l : Layout) (batch : List RegistryBlock) :
    Verdict ConfigError × Registry :=
  Attempt.on (do
    Attempt.check (·.check l batch)
    modify fun r => { r with blocks := r.blocks ++ batch }) r

def declareAuthorized (r : Registry) (count : UInt32) : Registry :=
  { r with declaredAuthorized := some count }

def authorizedBlocks (r : Registry) : List Block :=
  (r.blocks.filter (·.isAuthorized)).map (·.block)

def reservedBlocks (r : Registry) : List Block :=
  (r.blocks.filter (·.isReserved)).map (·.block)

/-- The first authorized block around `block`. -/
def authorizedParent? (r : Registry) (block : Block) : Option Block :=
  r.authorizedBlocks.find? (·.contains block)

def reservedOverlapping? (r : Registry) (block : Block) : Option Block :=
  r.reservedBlocks.find? (·.overlaps block)

def authorizedCount (r : Registry) : Nat := r.authorizedBlocks.length

theorem register_eq (r : Registry) (l : Layout) (batch : List RegistryBlock) :
    r.register l batch =
      Verdict.commit (r.check l batch) r { r with blocks := r.blocks ++ batch } :=
  Attempt.on_check_modify _ _ r

@[simp] theorem register_fst (r : Registry) (l : Layout) (batch : List RegistryBlock) :
    (r.register l batch).1 = r.check l batch := by
  rw [register_eq, Verdict.commit_fst]

end Registry
end SeparationKernel
