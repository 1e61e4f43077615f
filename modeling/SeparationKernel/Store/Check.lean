import SeparationKernel.App
import SeparationKernel.Options
import SeparationKernel.Registry
import SeparationKernel.Register.Table

/-! When a descriptor is acceptable. It is checked against the options and the platform's tables,
and against the list it is declared in: its index there and the length of the list. -/
namespace SeparationKernel

/-- What descriptors are checked against. -/
structure Platform where
  layout : Layout := {}
  registry : Registry := {}
  registers : Register.Table := {}
deriving DecidableEq, Repr

namespace App

def checkCount (entry : ConfigEntry) (count : Nat) (max : UInt32) : Verdict ConfigError :=
  .require (decide (count ≤ max.toNat)) (.countMismatch entry count max.toNat)

variable (o : Options) (p : Platform) (index count : Nat) (a : App)

def entry (part : AppPart) : ConfigEntry := .app index a.name part

def checkIdentity : Verdict ConfigError :=
  .all [
    .require (a.name.utf8ByteSize != 0 && decide (a.name.utf8ByteSize ≤ o.appNameLengthMax.toNat))
      (.outOfRange (entry index a .name)
        (.nameLength a.name.utf8ByteSize o.appNameLengthMax.toNat)),
    .require (decide (a.priority.level.toNat ≤ o.priorityMax.toNat))
      (.outOfRange (entry index a .priority) (.priority a.priority.level o.priorityMax)),
    .require (decide (quantumMin.toNat ≤ a.quantum.toNat) &&
        decide (a.quantum.toNat ≤ quantumMax.toNat))
      (.outOfRange (entry index a .quantum) (.quantum a.quantum quantumMin quantumMax))]

def checkCounts : Verdict ConfigError :=
  .all [
    checkCount (entry index a .ipcTargets) a.ipcTargets.length o.appIpcTargetCountMax,
    checkCount (entry index a .pirqs) a.pirqs.length o.appPirqCountMax,
    checkCount (entry index a .sharedBuffers) a.sharedBlocks.length o.appSharedBufferCountMax,
    checkCount (entry index a .extraBlocks) a.extraBlocks.length o.appExtraBlockCountMax,
    checkCount (entry index a .registers) a.registers.length o.appRegisterCountMax,
    checkCount (entry index a .dmaStreams) a.dmaStreams.length o.appDmaStreamCountMax]

/-- A target is any application, or another one of the same list. -/
def checkIpcTarget : IpcTarget → Verdict ConfigError
  | .any => .ok ()
  | .app asid =>
    .require (decide (asid.index < count) && asid.index != index)
      (.unknownReference (entry index a .ipcTargets) (.app asid))

def checkPirq (before : List Pirq) (q : Pirq) : Verdict ConfigError :=
  .all [
    .require (decide (q.line.toNat < o.pirqSupportedCount.toNat))
      (.outOfRange (entry index a .pirqs) (.pirq q.line o.pirqSupportedCount)),
    .require (!before.contains q) (.duplicateName (entry index a .pirqs) (.pirq q.line.toNat))]

def checkLabel (before : List String) (label : String) : Verdict ConfigError :=
  .require (!before.contains label) (.duplicateName (entry index a .addressBlocks) (.label label))

def checkSharedBlock (b : SharedBlock) : Verdict ConfigError :=
  p.layout.checkSharedBlock (entry index a (.sharedBuffer b.label)) b.block

/-- An extra block lies inside an authorized block and clear of the reserved ones. -/
def checkExtraBlock (b : ExtraBlock) : Verdict ConfigError :=
  let entry := entry index a (.extraBlock b.label)
  .all [
    p.layout.checkExtraBlock entry b.block,
    .require (p.registry.authorizedParent? b.block).isSome
      (.outOfRange entry (.unauthorized b.block)),
    .each (fun r => .require (!r.overlaps b.block) (.overlap entry b.block r))
      p.registry.reservedBlocks]

def checkBlocks : Verdict ConfigError :=
  .all [
    .eachAfter (checkLabel index a) [] a.blockLabels,
    .each (checkSharedBlock p index a) a.sharedBlocks,
    .each (checkExtraBlock p index a) a.extraBlocks]

def checkRegister (g : RegisterGrant) : Verdict ConfigError :=
  let entry := entry index a (.register g.address)
  match p.registers.lookup g.address with
  | none => .error (.unknownReference entry (.register g.address))
  | some r =>
    .require (r.readMask.covers g.readMask && r.writeMask.covers g.writeMask)
      (.outOfRange entry
        (.masks g.readMask.bits g.writeMask.bits r.readMask.bits r.writeMask.bits))

def checkDmaStream (before : List DmaStream) (s : DmaStream) : Verdict ConfigError :=
  let names (label : String) : Verdict ConfigError :=
    .require (a.blockLabelled? label).isSome
      (.unknownReference (entry index a (.dmaStream s.label)) (.label label))
  .all [
    .require (!(before.map (·.label)).contains s.label)
      (.duplicateName (entry index a .dmaStreams) (.label s.label)),
    names s.source,
    names s.destination]

/-- Everything that can be said of one descriptor, given the list it stands in. -/
def check : Verdict ConfigError :=
  .all [
    checkIdentity o index a,
    checkCounts o index a,
    .each (checkIpcTarget index count a) a.ipcTargets,
    .eachAfter (checkPirq o index a) [] a.pirqs,
    checkBlocks p index a,
    .each (checkRegister p index a) a.registers,
    .eachAfter (checkDmaStream index a) [] a.dmaStreams]

end App
end SeparationKernel
