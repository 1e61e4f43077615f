import SeparationKernel.Asid
import SeparationKernel.Block

/-! Faults of a configuration. An error names the entry that was being checked and says what is
wrong with it; the wording stands in one place, `ConfigError.message`. -/
namespace SeparationKernel

/-- Whether a block of the registry may be granted, or is kept back even inside one that may. -/
inductive BlockClass where
  | authorized
  | reserved
deriving DecidableEq, Repr

def BlockClass.text : BlockClass → String
  | .authorized => "authorized extra"
  | .reserved => "reserved"

inductive AppPart where
  | name
  | priority
  | quantum
  | ipcTargets
  | pirqs
  | sharedBuffers
  | extraBlocks
  | registers
  | dmaStreams
  | addressBlocks
  | sharedBuffer (label : String)
  | extraBlock (label : String)
  | register (address : UInt32)
  | dmaStream (label : String)
deriving DecidableEq, Repr

def AppPart.text : AppPart → String
  | .name => "name"
  | .priority => "priority"
  | .quantum => "quantum"
  | .ipcTargets => "IPC targets"
  | .pirqs => "PIRQs"
  | .sharedBuffers => "shared buffers"
  | .extraBlocks => "extra blocks"
  | .registers => "MCU registers"
  | .dmaStreams => "DMA streams"
  | .addressBlocks => "address blocks"
  | .sharedBuffer label => "shared buffer `" ++ label ++ "`"
  | .extraBlock label => "extra block `" ++ label ++ "`"
  | .register address => "MCU register " ++ Text.hexWord address
  | .dmaStream label => "DMA stream `" ++ label ++ "`"

/-- The entry of a table that an error is about. -/
inductive ConfigEntry where
  /-- A block of a batch, by its place in the batch. -/
  | registryBlock (kind : BlockClass) (index : Nat)
  | registerRange (first last : UInt32)
  /-- The list of descriptors as a whole. -/
  | apps
  /-- A descriptor that is being loaded. -/
  | app (index : Nat) (name : String) (part : AppPart)
  /-- A descriptor of the store. -/
  | loaded (asid : Asid) (part : AppPart)
deriving DecidableEq, Repr

def ConfigEntry.text : ConfigEntry → String
  | .registryBlock kind index => kind.text ++ " block " ++ toString index
  | .registerRange first last =>
    "register range " ++ Text.hexWord first ++ "..=" ++ Text.hexWord last
  | .apps => "ukApp descriptors"
  | .app index name part => "ukApp #" ++ toString index ++ " `" ++ name ++ "` " ++ part.text
  | .loaded asid part => asid.text ++ " " ++ part.text

inductive Reference where
  | label (name : String)
  | pirq (line : Nat)
  | app (asid : Asid)
  | register (address : UInt32)
deriving DecidableEq, Repr

def Reference.text : Reference → String
  | .label name => name
  | .pirq line => toString line
  | .app asid => asid.text
  | .register address => Text.hexWord address

inductive RangeFault where
  | malformed (block : Block)
  | outsidePeripherals (block : Block)
  | length (bytes min max : UInt32)
  | inverted
  | outsideRegisterSpaces
  | kernelRegisters (window : Block)
  | nameLength (bytes max : Nat)
  | priority (level max : UInt8)
  | quantum (systicks min max : UInt32)
  | pirq (line : UInt16) (supported : UInt32)
  | unauthorized (block : Block)
  | masks (read write authorizedRead authorizedWrite : UInt32)
  | noLongerAuthorized
deriving DecidableEq, Repr

def RangeFault.text : RangeFault → String
  | .malformed block => block.text ++ " is empty or wraps the address space"
  | .outsidePeripherals block => block.text ++ " is outside the peripheral address space"
  | .length bytes min max =>
    "length " ++ Text.hex bytes.toNat ++ " outside " ++ Text.hex min.toNat ++ "..=" ++
      Text.hex max.toNat
  | .inverted => "range is inverted or wraps the address space"
  | .outsideRegisterSpaces => "range is outside every register space"
  | .kernelRegisters window => "range touches kernel registers at " ++ window.text
  | .nameLength bytes max =>
    "name is " ++ toString bytes ++ " bytes long, must be 1..=" ++ toString max
  | .priority level max =>
    "priority " ++ toString level.toNat ++ " is less important than the minimum " ++
      toString max.toNat
  | .quantum systicks min max =>
    "quantum " ++ toString systicks.toNat ++ " outside " ++ toString min.toNat ++ "..=" ++
      toString max.toNat
  | .pirq line supported =>
    "PIRQ " ++ toString line.toNat ++ " beyond the " ++ toString supported.toNat ++
      " supported lines"
  | .unauthorized block => block.text ++ " is not inside an authorized extra block"
  | .masks read write authorizedRead authorizedWrite =>
    "masks r=" ++ Text.hexWord read ++ " w=" ++ Text.hexWord write ++ " exceed authorized r=" ++
      Text.hexWord authorizedRead ++ " w=" ++ Text.hexWord authorizedWrite
  | .noLongerAuthorized => "no longer inside an authorized block"

inductive ConfigError where
  | overlap (entry : ConfigEntry) (block other : Block)
  | outOfRange (entry : ConfigEntry) (fault : RangeFault)
  | misaligned (entry : ConfigEntry) (value align : UInt32)
  | countMismatch (entry : ConfigEntry) (count max : Nat)
  | duplicateName (entry : ConfigEntry) (name : Reference)
  | unknownReference (entry : ConfigEntry) (name : Reference)
deriving DecidableEq, Repr

namespace ConfigError

def entry : ConfigError → ConfigEntry
  | .overlap e _ _ => e
  | .outOfRange e _ => e
  | .misaligned e _ _ => e
  | .countMismatch e _ _ => e
  | .duplicateName e _ => e
  | .unknownReference e _ => e

def detail : ConfigError → String
  | .overlap _ block other => block.text ++ " overlaps " ++ other.text
  | .outOfRange _ fault => fault.text
  | .misaligned _ value align =>
    Text.hex value.toNat ++ " is not a multiple of " ++ Text.hex align.toNat
  | .countMismatch _ count max =>
    toString count ++ " entries declared, at most " ++ toString max ++ " allowed"
  | .duplicateName _ name => "`" ++ name.text ++ "` is declared more than once"
  | .unknownReference _ name => "`" ++ name.text ++ "` does not name anything declared"

def message (e : ConfigError) : String := e.entry.text ++ ": " ++ e.detail

end ConfigError
end SeparationKernel
