import Mathlib
import SeparationKernel.Proofs.Session.Recheck

/-! What errors of a configuration say is true: the values they carry are those of the entry they
name, and have the defect that the text speaks of. -/
namespace SeparationKernel

namespace App

def count? (o : Options) (a : App) : AppPart → Option (Nat × UInt32)
  | .ipcTargets => some (a.ipcTargets.length, o.appIpcTargetCountMax)
  | .pirqs => some (a.pirqs.length, o.appPirqCountMax)
  | .sharedBuffers => some (a.sharedBlocks.length, o.appSharedBufferCountMax)
  | .extraBlocks => some (a.extraBlocks.length, o.appExtraBlockCountMax)
  | .registers => some (a.registers.length, o.appRegisterCountMax)
  | .dmaStreams => some (a.dmaStreams.length, o.appDmaStreamCountMax)
  | _ => none

def names (a : App) : AppPart → List Reference
  | .pirqs => a.pirqs.map fun q => .pirq q.line.toNat
  | .addressBlocks => a.labels.map .label
  | .dmaStreams => (a.dmaStreams.map (·.label)).map .label
  | _ => []

inductive RefersTo (a : App) : AppPart → Reference → Prop where
  | target {asid : Asid} (mem : .app asid ∈ a.ipcTargets) : RefersTo a .ipcTargets (.app asid)
  | register {g : RegisterGrant} (mem : g ∈ a.registers) :
      RefersTo a (.register g.address) (.register g.address)
  | source {s : DmaStream} (mem : s ∈ a.dmaStreams) :
      RefersTo a (.dmaStream s.label) (.label s.source)
  | destination {s : DmaStream} (mem : s ∈ a.dmaStreams) :
      RefersTo a (.dmaStream s.label) (.label s.destination)

end App

namespace Tables

def verdict (t : Tables) : Filling → Verdict ConfigError
  | .register l blocks => (t.registry.register l blocks).1
  | .authorize l range => (t.registers.authorize l range).1
  | .load o l apps => (t.store.load o (t.platform l) apps).1
  | _ => .ok ()

namespace Filling

/-- The block that an entry of the step names, the bounds of its length, and whether it is to be a
region. -/
inductive AsksOf : Filling → Layout → ConfigEntry → Block → UInt32 → UInt32 → Bool → Prop where
  | registryBlock {l : Layout} {blocks : List RegistryBlock} {i : Nat} {b : RegistryBlock}
      (place : blocks[i]? = some b) :
      AsksOf (.register l blocks) l (.registryBlock b.kind i) b.block l.blockSizeMin l.blockSizeMax
        false
  | sharedBuffer {o : Options} {l : Layout} {apps : List App} {i : Nat} {a : App}
      {b : App.SharedBlock} (place : apps[i]? = some a) (mem : b ∈ a.sharedBlocks) :
      AsksOf (.load o l apps) l (.app i a.name (.sharedBuffer b.label)) b.block
        l.sharedBufferSizeMin l.sharedBufferSizeMax true
  | extraBlock {o : Options} {l : Layout} {apps : List App} {i : Nat} {a : App}
      {b : App.ExtraBlock} (place : apps[i]? = some a) (mem : b ∈ a.extraBlocks) :
      AsksOf (.load o l apps) l (.app i a.name (.extraBlock b.label)) b.block l.blockSizeMin
        l.blockSizeMax true

/-- The values of an entry that have to be multiples: start and length of a block, first and last
address of a range. -/
inductive Measures : Filling → ConfigEntry → UInt32 → Prop where
  | start {f : Filling} {l : Layout} {entry : ConfigEntry} {b : Block} {min max : UInt32}
      {isRegion : Bool} (asks : f.AsksOf l entry b min max isRegion) : Measures f entry b.start
  | length {f : Filling} {l : Layout} {entry : ConfigEntry} {b : Block} {min max : UInt32}
      {isRegion : Bool} (asks : f.AsksOf l entry b min max isRegion) : Measures f entry b.length
  | first {l : Layout} {r : Register.Range} :
      Measures (.authorize l r) (.registerRange r.first r.last) r.first
  | last {l : Layout} {r : Register.Range} :
      Measures (.authorize l r) (.registerRange r.first r.last) r.last

inductive Counts : Filling → ConfigEntry → Nat → Nat → Prop where
  | apps {o : Options} {l : Layout} {apps : List App} :
      Counts (.load o l apps) .apps apps.length o.appCountMax.toNat
  | part {o : Options} {l : Layout} {apps : List App} {i : Nat} {a : App} {part : AppPart}
      {count : Nat} {max : UInt32} (place : apps[i]? = some a)
      (counts : a.count? o part = some (count, max)) :
      Counts (.load o l apps) (.app i a.name part) count max.toNat

inductive Lists : Filling → ConfigEntry → List Reference → Prop where
  | apps {o : Options} {l : Layout} {apps : List App} :
      Lists (.load o l apps) .apps ((apps.map (·.name)).map .label)
  | part {o : Options} {l : Layout} {apps : List App} {i : Nat} {a : App} {part : AppPart}
      (place : apps[i]? = some a) : Lists (.load o l apps) (.app i a.name part) (a.names part)

end Filling

/-- Two blocks that may not share a byte, the first one that of an entry. -/
inductive KeepsApart (t : Tables) : Filling → ConfigEntry → Block → Block → Prop where
  /-- A block of a batch, and one of the registry or before it in the batch. -/
  | registered {l : Layout} {blocks : List RegistryBlock} {i : Nat} {b other : RegistryBlock}
      (place : blocks[i]? = some b) (beside : other ∈ t.registry.blocks ++ blocks.take i)
      (unsuited : ¬b.Suits other) :
      KeepsApart t (.register l blocks) (.registryBlock b.kind i) b.block other.block
  /-- A range, and one of the table. -/
  | authorized {l : Layout} {r q : Register.Range} {span other : Block}
      (spans : r.span? = some span) (mem : q ∈ t.registers.ranges)
      (spans' : q.span? = some other) :
      KeepsApart t (.authorize l r) (.registerRange r.first r.last) span other
  /-- An extra block, and a reserved block. -/
  | reserved {o : Options} {l : Layout} {apps : List App} {i : Nat} {a : App}
      {b : App.ExtraBlock} {kept : Block} (place : apps[i]? = some a) (mem : b ∈ a.extraBlocks)
      (reserved : kept ∈ t.registry.reservedBlocks) :
      KeepsApart t (.load o l apps) (.app i a.name (.extraBlock b.label)) b.block kept

/-- What there is for a descriptor of a list to refer to: the applications of the list, registers of
the table, and blocks of its own. -/
inductive Declares (t : Tables) (apps : List App) (a : App) : Reference → Prop where
  | app {asid : Asid} (lt : asid.index < apps.length) : Declares t apps a (.app asid)
  | register {r : Register.Range} {address : UInt32} (mem : r ∈ t.registers.ranges)
      (contains : r.contains address = true) : Declares t apps a (.register address)
  | label {label : String} (mem : label ∈ a.labels) : Declares t apps a (.label label)

inductive Misses (t : Tables) : Filling → ConfigEntry → Reference → Prop where
  | part {o : Options} {l : Layout} {apps : List App} {i : Nat} {a : App} {part : AppPart}
      {name : Reference} (place : apps[i]? = some a) (refers : a.RefersTo part name)
      (undeclared : ¬t.Declares apps a name) :
      Misses t (.load o l apps) (.app i a.name part) name

/-- An entry lies outside what is supported, in the way that is said. -/
inductive Exceeds (t : Tables) : Filling → ConfigEntry → RangeFault → Prop where
  | malformed {f : Filling} {l : Layout} {entry : ConfigEntry} {b : Block} {min max : UInt32}
      {isRegion : Bool} (asks : f.AsksOf l entry b min max isRegion)
      (wrong : b.length.toNat = 0 ∨ UInt32.size ≤ b.limit) : Exceeds t f entry (.malformed b)
  | length {f : Filling} {l : Layout} {entry : ConfigEntry} {b : Block} {min max : UInt32}
      {isRegion : Bool} (asks : f.AsksOf l entry b min max isRegion)
      (wrong : b.length.toNat < min.toNat ∨ max.toNat < b.length.toNat) :
      Exceeds t f entry (.length b.length min max)
  | outsidePeripherals {l : Layout} {blocks : List RegistryBlock} {i : Nat} {b : RegistryBlock}
      (place : blocks[i]? = some b) (wrong : ∀ space ∈ l.peripheralSpaces, ¬b.block.Within space) :
      Exceeds t (.register l blocks) (.registryBlock b.kind i) (.outsidePeripherals b.block)
  | inverted {l : Layout} {r : Register.Range}
      (wrong : r.last.toNat < r.first.toNat ∨ UInt32.size ≤ r.last.toNat + 4) :
      Exceeds t (.authorize l r) (.registerRange r.first r.last) .inverted
  | outsideRegisterSpaces {l : Layout} {r : Register.Range} {span : Block}
      (spans : r.span? = some span) (wrong : ∀ space ∈ l.registerSpaces, ¬span.Within space) :
      Exceeds t (.authorize l r) (.registerRange r.first r.last) .outsideRegisterSpaces
  | kernelRegisters {l : Layout} {r : Register.Range} {span window : Block}
      (spans : r.span? = some span) (mem : window ∈ l.kernelRegisters)
      (wrong : window.Shares span) :
      Exceeds t (.authorize l r) (.registerRange r.first r.last) (.kernelRegisters window)
  | nameLength {o : Options} {l : Layout} {apps : List App} {i : Nat} {a : App}
      (place : apps[i]? = some a)
      (wrong : a.name.utf8ByteSize = 0 ∨ o.appNameLengthMax.toNat < a.name.utf8ByteSize) :
      Exceeds t (.load o l apps) (.app i a.name .name)
        (.nameLength a.name.utf8ByteSize o.appNameLengthMax.toNat)
  | priority {o : Options} {l : Layout} {apps : List App} {i : Nat} {a : App}
      (place : apps[i]? = some a) (wrong : o.priorityMax.toNat < a.priority.level.toNat) :
      Exceeds t (.load o l apps) (.app i a.name .priority)
        (.priority a.priority.level o.priorityMax)
  | quantum {o : Options} {l : Layout} {apps : List App} {i : Nat} {a : App}
      (place : apps[i]? = some a) (wrong : a.quantum.toNat < 1 ∨ 255 < a.quantum.toNat) :
      Exceeds t (.load o l apps) (.app i a.name .quantum) (.quantum a.quantum 1 255)
  | pirq {o : Options} {l : Layout} {apps : List App} {i : Nat} {a : App} {q : Pirq}
      (place : apps[i]? = some a) (mem : q ∈ a.pirqs)
      (wrong : o.pirqSupportedCount.toNat ≤ q.line.toNat) :
      Exceeds t (.load o l apps) (.app i a.name .pirqs) (.pirq q.line o.pirqSupportedCount)
  | unauthorized {o : Options} {l : Layout} {apps : List App} {i : Nat} {a : App}
      {b : App.ExtraBlock} (place : apps[i]? = some a) (mem : b ∈ a.extraBlocks)
      (wrong : ∀ outer ∈ t.registry.authorizedBlocks, ¬b.block.Within outer) :
      Exceeds t (.load o l apps) (.app i a.name (.extraBlock b.label)) (.unauthorized b.block)
  | masks {o : Options} {l : Layout} {apps : List App} {i : Nat} {a : App}
      {g : App.RegisterGrant} {r : Register.Range} (place : apps[i]? = some a)
      (mem : g ∈ a.registers) (range : r ∈ t.registers.ranges)
      (contains : r.contains g.address = true)
      (wrong : ¬(r.readMask.Includes g.readMask.bits ∧ r.writeMask.Includes g.writeMask.bits)) :
      Exceeds t (.load o l apps) (.app i a.name (.register g.address))
        (.masks g.readMask.bits g.writeMask.bits r.readMask.bits r.writeMask.bits)

/-- What an error about a step says is so. -/
def BearsOut (t : Tables) (f : Filling) : ConfigError → Prop
  | .overlap entry block other => t.KeepsApart f entry block other ∧ block.Shares other
  | .outOfRange entry fault => t.Exceeds f entry fault
  | .misaligned entry value align => f.Measures entry value ∧ ¬align.toNat ∣ value.toNat
  | .countMismatch entry count max => f.Counts entry count max ∧ max < count
  | .duplicateName entry name => ∃ names, f.Lists entry names ∧ 2 ≤ names.count name
  | .unknownReference entry name => t.Misses f entry name

/-- Errors whose text goes beyond what is wrong. -/
inductive Filling.Overstates : Filling → ConfigError → Prop where
  /-- The length of a region is no power of two, and nothing is wrong with its start. -/
  | region {f : Filling} {l : Layout} {entry : ConfigEntry} {b : Block} {min max : UInt32}
      (asks : f.AsksOf l entry b min max true) (power : l.powerOfTwoRegions = true)
      (uneven : ¬∃ k, b.length.toNat = 2 ^ k)
      (even : b.naturalAlignment.toNat ∣ b.start.toNat) :
      Overstates f (.misaligned entry b.start b.naturalAlignment)
  /-- An application is no target of its own. -/
  | ownTarget {o : Options} {l : Layout} {apps : List App} {i : Nat} {a : App} {asid : Asid}
      (place : apps[i]? = some a) (mem : .app asid ∈ a.ipcTargets) (own : asid.index = i) :
      Overstates (.load o l apps) (.unknownReference (.app i a.name .ipcTargets) (.app asid))
  /-- The window has no registers. -/
  | emptyWindow {l : Layout} {r : Register.Range} {window : Block}
      (mem : window ∈ l.kernelRegisters) (empty : window.length.toNat = 0) :
      Overstates (.authorize l r)
        (.outOfRange (.registerRange r.first r.last) (.kernelRegisters window))

end Tables

end SeparationKernel
