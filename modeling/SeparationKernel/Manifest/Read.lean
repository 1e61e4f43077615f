import SeparationKernel.Datum.Forms
import SeparationKernel.Manifest

/-! Reading manifests. Keys that are not known are refused everywhere, and so are values of a wrong
kind or out of range. -/
namespace SeparationKernel.Manifest

/-- The values of the fields of a record. In a list that stands for one, items after the last field
do not count. -/
def fields? (fields : List (String × Datum.Presence)) (d : Datum) : Option (List (Option Datum)) :=
  (d.cutTo fields.length).arrange? { fields }

def opt? {α : Type} (read? : Datum → Option α) : Option Datum → Option (Option α)
  | none => some none
  | some d => (read? d).map some

def orElse? {α : Type} (read? : Datum → Option α) (default : α) : Option Datum → Option α
  | none => some default
  | some d => read? d

def block? (d : Datum) : Option Block := Block.ofDatum? (d.cutTo 2)

def options? (d : Datum) : Option Options := Options.ofDatum? (d.cutTo Options.Key.all.length)

/-- A range of registers, of a single one if it has no last address. -/
def registerRange? (d : Datum) : Option Register.Range := do
  match ← fields? [("address", .required), ("last", .optional), ("read-mask", .required),
      ("write-mask", .required)] d with
  | [some address, last, some readMask, some writeMask] =>
    let first ← address.word?
    let last ← orElse? Datum.word? first last
    return { first, last, readMask := ⟨← readMask.word?⟩, writeMask := ⟨← writeMask.word?⟩ }
  | _ => none

def labelled (kind : BlockClass) (blocks : List (String × Block)) : List RegistryBlock :=
  blocks.map fun (_, block) => { kind, block }

def platform? (m : Manifest) (d : Datum) : Option Manifest := do
  match ← fields? [("address-block-alignment", .optional), ("address-block-size-min", .optional),
      ("address-block-size-max", .optional), ("shared-buffer-size-min", .optional),
      ("shared-buffer-size-max", .optional), ("power-of-two-regions", .optional),
      ("extra-authorized", .defaulted), ("extra-reserved", .defaulted),
      ("authorized-block-count", .optional), ("register-ranges", .defaulted),
      ("register-range-count", .optional), ("register-count", .optional)] d with
  | [alignment, sizeMin, sizeMax, bufferMin, bufferMax, regions, authorized, reserved, blockCount,
      ranges, rangeCount, registerCount] =>
    let l := m.layout
    let layout : Layout := { l with
      blockAlignment := ← orElse? Datum.word? l.blockAlignment alignment
      blockSizeMin := ← orElse? Datum.word? l.blockSizeMin sizeMin
      blockSizeMax := ← orElse? Datum.word? l.blockSizeMax sizeMax
      sharedBufferSizeMin := ← orElse? Datum.word? l.sharedBufferSizeMin bufferMin
      sharedBufferSizeMax := ← orElse? Datum.word? l.sharedBufferSizeMax bufferMax
      powerOfTwoRegions := ← orElse? Datum.bool? l.powerOfTwoRegions regions }
    let authorized ← orElse? (Datum.entries? block?) [] authorized
    let reserved ← orElse? (Datum.entries? block?) [] reserved
    let ranges ← orElse? (Datum.entries? registerRange?) [] ranges
    return { m with
      layout
      registryBlocks := labelled .authorized authorized ++ labelled .reserved reserved
      authorizedBlockCount := ← opt? Datum.word? blockCount
      registerRanges := ranges.map (·.2)
      registerRangeCount := ← opt? Datum.word? rangeCount
      registerCount := ← opt? Datum.word? registerCount }
  | _ => none

/-- The name of an attribute, or a table with the name for its only key and nothing in it. -/
def attributeName? : Datum → Option String
  | .text name => some name
  | .record [(name, .record [])] => some name
  | .record [(name, .list [])] => some name
  | _ => none

def addAttribute? (a : App.Attributes) (d : Datum) : Option App.Attributes :=
  match attributeName? d with
  | some "read" => some { a with read := true }
  | some "write" => some { a with write := true }
  | some "execute" => some { a with execute := true }
  | some "device" => some { a with device := true }
  | _ => none

def attributes? : Datum → Option App.Attributes
  | .list items => items.foldlM addAttribute? {}
  | _ => none

def extraBlock? (d : Datum) : Option (App.Attributes × Block) := do
  match ← fields? [("start", .required), ("length", .required), ("attributes", .defaulted)] d with
  | [some start, some length, attributes] =>
    return (← orElse? attributes? {} attributes, ⟨← start.word?, ← length.word?⟩)
  | _ => none

def register? (d : Datum) : Option App.RegisterGrant := do
  match ← fields? [("address", .required), ("read-mask", .required),
      ("write-mask", .required)] d with
  | [some address, some readMask, some writeMask] =>
    return {
      address := ← address.word?
      readMask := ⟨← readMask.word?⟩
      writeMask := ⟨← writeMask.word?⟩ }
  | _ => none

def dmaStream? (d : Datum) : Option (String → App.DmaStream) := do
  match ← fields? [("engine", .required), ("source-request", .required),
      ("destination-request", .required), ("source", .required), ("destination", .required)] d with
  | [some engine, some sourceRequest, some destinationRequest, some source, some destination] =>
    let engine ← engine.byte?
    let sourceRequest ← sourceRequest.byte?
    let destinationRequest ← destinationRequest.byte?
    let source ← source.text?
    let destination ← destination.text?
    return fun label =>
      { label, engine, sourceRequest, destinationRequest, source, destination }
  | _ => none

def description? (name : String) (d : Datum) : Option Entry := do
  match ← fields? [("priority", .required), ("quantum", .required), ("start", .defaulted),
      ("ipc-send-to", .defaulted), ("pirqs", .defaulted), ("shared-buffers", .defaulted),
      ("extra-blocks", .defaulted), ("registers", .defaulted), ("dma-streams", .defaulted)] d with
  | [some priority, some quantum, start, sendsTo, pirqs, buffers, blocks, registers, streams] =>
    let pirqs ← orElse? (Datum.list? Datum.halfword?) [] pirqs
    let buffers ← orElse? (Datum.entries? block?) [] buffers
    let blocks ← orElse? (Datum.entries? extraBlock?) [] blocks
    let streams ← orElse? (Datum.entries? dmaStream?) [] streams
    return {
      app := {
        name
        priority := ⟨← priority.byte?⟩
        quantum := ← quantum.word?
        startAtBoot := ← orElse? Datum.bool? false start
        pirqs := pirqs.map .mk
        sharedBlocks := buffers.map fun (label, block) => { label, block }
        extraBlocks := blocks.map fun (label, attributes, block) => { label, attributes, block }
        registers := ← orElse? (Datum.list? register?) [] registers
        dmaStreams := streams.map fun (label, stream) => stream label }
      sendsTo := ← orElse? (Datum.list? Datum.text?) [] sendsTo }
  | _ => none

def entries? : Datum → Option (List Entry)
  | .record entries => entries.mapM fun (name, d) => description? name d
  | _ => none

def ofDatum? (d : Datum) : Option Manifest := do
  match ← fields? [("name", .required), ("options", .defaulted), ("platform", .defaulted),
      ("apps", .defaulted)] d with
  | [some name, options, platform, apps] =>
    let name ← name.text?
    let options ← orElse? options? {} options
    let apps ← orElse? entries? [] apps
    let m : Manifest := { name, options, apps }
    orElse? (platform? m) m platform
  | _ => none

end SeparationKernel.Manifest
