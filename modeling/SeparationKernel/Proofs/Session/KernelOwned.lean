import Mathlib
import SeparationKernel.Proofs.Session.Grants

/-! What the kernel keeps for itself: reserved blocks, and the windows of its own registers. Extra
blocks are screened against the first and shared buffers against neither, so a buffer may lie
wherever its shape allows. -/
namespace SeparationKernel

theorem Block.Within.shares {b outer kept : Block} (within : b.Within outer)
    (shared : kept.Shares b) : kept.Shares outer := by
  obtain ⟨x, left, right⟩ := shared
  exact ⟨x, left, within x right⟩

namespace App

/-- The blocks of the application are clear of all that the kernel keeps for itself. -/
structure KeepsOff (a : App) (p : Platform) : Prop where
  reserved : ∀ b ∈ a.sharedBlocks, ∀ kept ∈ p.registry.reservedBlocks, ¬kept.Shares b.block
  windows : ∀ entry ∈ a.labelledBlocks, ∀ window ∈ p.layout.kernelRegisters,
    ¬window.Shares entry.2

/-- The screens that a descriptor does not have to pass. -/
structure IsScreened (a : App) (p : Platform) : Prop where
  reserved : ∀ b ∈ a.sharedBlocks, p.registry.reservedOverlapping? b.block = none
  windows : ∀ entry ∈ a.labelledBlocks, ∀ window ∈ p.layout.kernelRegisters,
    window.length.toNat ≠ 0 → window.overlaps entry.2 = false

def unplaced (a : App) : App :=
  { a with sharedBlocks := a.sharedBlocks.map fun b => { b with block := ⟨0, 0⟩ } }

def SharedBlock.Fits (b : SharedBlock) (l : Layout) : Prop :=
  l.Fits l.sharedBufferSizeMin l.sharedBufferSizeMax b.block ∧
    (l.powerOfTwoRegions = true → b.block.IsNatural)

variable {o : Options} {p : Platform} {index count : Nat} {a a' : App}

namespace IsAcceptable

theorem length_ne_zero (h : a.IsAcceptable o p index count) {entry : String × Block}
    (mem : entry ∈ a.labelledBlocks) : entry.2.length.toNat ≠ 0 := by
  rcases List.mem_append.1 mem with shared | extra
  · obtain ⟨b, b_mem, rfl⟩ := List.mem_map.1 shared
    exact (h.sharedBlocks b b_mem).1.nonempty
  · obtain ⟨b, b_mem, rfl⟩ := List.mem_map.1 extra
    exact (h.extraBlocks b b_mem).1.nonempty

theorem keepsOff_iff (h : a.IsAcceptable o p index count) (lawful : p.registry.Lawful) :
    a.KeepsOff p ↔ a.IsScreened p := by
  have reserved : ∀ b ∈ a.sharedBlocks, (p.registry.reservedOverlapping? b.block = none ↔
      ∀ kept ∈ p.registry.reservedBlocks, ¬kept.Shares b.block) := fun b mem =>
    lawful.reservedOverlapping?_eq_none (h.sharedBlocks b mem).1.nonempty
  have windows : ∀ entry ∈ a.labelledBlocks, ∀ window : Block,
      (¬window.Shares entry.2 ↔ (window.length.toNat ≠ 0 → window.overlaps entry.2 = false)) := by
    intro entry mem window
    by_cases empty : window.length.toNat = 0
    · have none : ¬window.Shares entry.2 := by
        rintro ⟨x, inside, _⟩
        have inside := Block.containsAddress_iff.1 inside
        rw [Block.limit] at inside
        omega
      simp [empty, none]
    · rw [← Block.overlaps_iff_shares empty (h.length_ne_zero mem), Bool.not_eq_true]
      exact ⟨fun off _ => off, fun off => off empty⟩
  constructor
  · intro keeps
    exact ⟨fun b mem => (reserved b mem).2 (keeps.reserved b mem), fun entry mem window w_mem =>
      (windows entry mem window).1 (keeps.windows entry mem window w_mem)⟩
  · intro screened
    exact ⟨fun b mem => (reserved b mem).1 (screened.reserved b mem), fun entry mem window w_mem =>
      (windows entry mem window).2 (screened.windows entry mem window w_mem)⟩

theorem of_unplaced (h : a.IsAcceptable o p index count) (same : a'.unplaced = a.unplaced)
    (fits : ∀ b ∈ a'.sharedBlocks, b.Fits p.layout) : a'.IsAcceptable o p index count := by
  have name : a'.name = a.name := (congrArg App.name same :)
  have priority : a'.priority = a.priority := (congrArg App.priority same :)
  have quantum : a'.quantum = a.quantum := (congrArg App.quantum same :)
  have ipcTargets : a'.ipcTargets = a.ipcTargets := (congrArg App.ipcTargets same :)
  have pirqs : a'.pirqs = a.pirqs := (congrArg App.pirqs same :)
  have extraBlocks : a'.extraBlocks = a.extraBlocks := (congrArg App.extraBlocks same :)
  have registers : a'.registers = a.registers := (congrArg App.registers same :)
  have dmaStreams : a'.dmaStreams = a.dmaStreams := (congrArg App.dmaStreams same :)
  have shapes : a'.sharedBlocks.map (fun b => { b with block := ⟨0, 0⟩ }) =
      a.sharedBlocks.map fun b => { b with block := ⟨0, 0⟩ } := (congrArg App.sharedBlocks same :)
  have length : a'.sharedBlocks.length = a.sharedBlocks.length := by
    simpa using congrArg List.length shapes
  have shared_labels : a'.sharedBlocks.map (·.label) = a.sharedBlocks.map (·.label) := by
    simpa [Function.comp_def] using congrArg (List.map SharedBlock.label) shapes
  have labels : a'.labels = a.labels := by rw [labels, shared_labels, extraBlocks, App.labels]
  exact {
    name := name ▸ h.name
    priority := priority ▸ h.priority
    quantum := quantum ▸ h.quantum
    length_ipcTargets := ipcTargets ▸ h.length_ipcTargets
    length_pirqs := pirqs ▸ h.length_pirqs
    length_sharedBlocks := length ▸ h.length_sharedBlocks
    length_extraBlocks := extraBlocks ▸ h.length_extraBlocks
    length_registers := registers ▸ h.length_registers
    length_dmaStreams := dmaStreams ▸ h.length_dmaStreams
    ipcTargets := ipcTargets ▸ h.ipcTargets
    pirqs := pirqs ▸ h.pirqs
    nodup_pirqs := pirqs ▸ h.nodup_pirqs
    nodup_labels := labels ▸ h.nodup_labels
    sharedBlocks := fits
    extraBlocks := extraBlocks ▸ h.extraBlocks
    authorized := extraBlocks ▸ h.authorized
    clear := extraBlocks ▸ h.clear
    registers := registers ▸ h.registers
    nodup_dmaStreams := dmaStreams ▸ h.nodup_dmaStreams
    dmaStreams := by rw [dmaStreams, labels]; exact h.dmaStreams }

end IsAcceptable
end App

theorem Store.Accepts.of_unplaced {o : Options} {p : Platform} {apps apps' : List App}
    (h : Accepts o p apps) (same : apps'.map (·.unplaced) = apps.map (·.unplaced))
    (fits : ∀ a ∈ apps', ∀ b ∈ a.sharedBlocks, b.Fits p.layout) : Accepts o p apps' := by
  have length : apps'.length = apps.length := by simpa using congrArg List.length same
  have names : apps'.map (·.name) = apps.map (·.name) := by
    simpa [App.unplaced, Function.comp_def] using congrArg (List.map App.name) same
  refine ⟨length ▸ h.length_le, names ▸ h.nodup_names, fun i a' at_i => ?_⟩
  have shape : (apps.map (·.unplaced))[i]? = some a'.unplaced := by
    rw [← same, List.getElem?_map, at_i, Option.map_some]
  rw [List.getElem?_map, Option.map_eq_some_iff] at shape
  obtain ⟨a, held, shape⟩ := shape
  rw [length]
  exact (h.acceptable i a held).of_unplaced shape.symm (fits a' (List.mem_of_getElem? at_i))

namespace Session

theorem total_unplaced {α : Type} (apps : List App) (entries : App → List α)
    (same : ∀ a, (entries a.unplaced).length = (entries a).length) :
    total ⟨apps.map (·.unplaced)⟩ entries = total ⟨apps⟩ entries := by
  simp only [total, List.map_map, Function.comp_def, same]

/-- The check of a whole session does not look at where shared buffers lie. -/
theorem check_unplaced (o : Options) (p : Platform) (apps : List App) :
    check o p ⟨apps.map (·.unplaced)⟩ = check o p ⟨apps⟩ := by
  have size : Store.size ⟨apps.map (·.unplaced)⟩ = Store.size ⟨apps⟩ := List.length_map _
  have buffers := total_unplaced apps App.sharedBlocks fun _ => List.length_map _
  have streams := total_unplaced apps App.dmaStreams fun _ => rfl
  have lines := total_unplaced apps App.pirqs fun _ => rfl
  have references : checkReferences p ⟨apps.map (·.unplaced)⟩ = checkReferences p ⟨apps⟩ := by
    simp only [checkReferences, Verdict.each, Store.entries, List.zipIdx_map, List.map_map]
    rfl
  rw [check, checkBudgets, size, buffers, streams, lines, references, ← checkBudgets, check]

variable {c : KernelConfig} {session : Session}

theorem StartedFrom.of_unplaced (h : session.StartedFrom c) {apps : List App}
    (same : apps.map (·.unplaced) = c.apps.map (·.unplaced))
    (fits : ∀ a ∈ apps, ∀ b ∈ a.sharedBlocks, b.Fits c.layout) :
    StartedFrom { session with store := ⟨apps⟩ } { c with apps } where
  options := h.options
  apps := rfl
  platform := h.platform
  supported := h.supported
  registered := h.registered
  accepts := h.accepts.of_unplaced same (h.layout ▸ fits)
  checked := by
    have checked := h.checked
    rw [h.apps, ← check_unplaced, ← same, check_unplaced] at checked
    exact checked

/-- A session that has started keeps extra blocks off the reserved ones, and off the windows of the
kernel's registers if the layout keeps its peripheral spaces off them. Beyond that, applications
are kept off what the kernel keeps for itself if their blocks pass screens that nothing puts them
through: shared buffers may be moved to wherever they fit, and the session starts as before. -/
theorem kernel_owned_exact (started : start c = .ok session) :
    (∀ app ∈ session.store.apps, ∀ b ∈ app.extraBlocks,
        ∀ kept ∈ session.platform.registry.reservedBlocks, ¬kept.Shares b.block) ∧
      ((∀ space ∈ session.platform.layout.peripheralSpaces,
          ∀ window ∈ session.platform.layout.kernelRegisters, ¬window.Shares space) →
        ∀ app ∈ session.store.apps, ∀ b ∈ app.extraBlocks,
          ∀ window ∈ session.platform.layout.kernelRegisters, ¬window.Shares b.block) ∧
      ((∀ app ∈ session.store.apps, app.KeepsOff session.platform) ↔
        ∀ app ∈ session.store.apps, app.IsScreened session.platform) ∧
      ∀ apps : List App, apps.map (·.unplaced) = c.apps.map (·.unplaced) →
        (∀ a ∈ apps, ∀ b ∈ a.sharedBlocks, b.Fits c.layout) →
        start { c with apps } = .ok { session with store := ⟨apps⟩ } := by
  have h := start_eq_ok_iff.1 started
  have lawful := h.lawful_registry
  refine ⟨fun app mem b b_mem => ?_, fun apart app mem b b_mem window w_mem shared => ?_,
    forall₂_congr fun app mem => ?_, fun apps same fits =>
      start_eq_ok_iff.2 (h.of_unplaced same fits)⟩
  · obtain ⟨index, acceptable⟩ := h.isAcceptable mem
    exact (acceptable.grants lawful b_mem).clear
  · -- an extra block lies in an authorized block, and that in a peripheral space
    obtain ⟨index, acceptable⟩ := h.isAcceptable mem
    obtain ⟨outer, outer_mem, within⟩ := acceptable.authorized b b_mem
    obtain ⟨entry, entry_mem, rfl⟩ := List.mem_map.1 outer_mem
    obtain ⟨_, space, space_mem, inside⟩ := h.admits (List.mem_filter.1 entry_mem).1
    exact apart space space_mem window w_mem (inside.shares (within.shares shared))
  · obtain ⟨index, acceptable⟩ := h.isAcceptable mem
    exact acceptable.keepsOff_iff lawful

/-- A driver's buffer is moved from memory to the registers that a reserved block holds. -/
theorem kernel_owned_exact_driver :
    let driver (frames : Block) : App := {
      name := "driver", priority := ⟨1⟩, quantum := 10
      sharedBlocks := [⟨"frames", frames⟩]
      extraBlocks := [⟨"timer", .ofBits 3, ⟨0x50000000, 0x400⟩⟩] }
    let c (frames : Block) : KernelConfig := {
      registryBlocks := [⟨.authorized, ⟨0x50000000, 0x10000000⟩⟩, ⟨.reserved, ⟨0x54020C00, 0x400⟩⟩]
      apps := [driver frames] }
    ∃ session, start (c ⟨0x20000000, 0x400⟩) = .ok session ∧
      (driver ⟨0x20000000, 0x400⟩).KeepsOff session.platform ∧
      (∀ window ∈ session.platform.layout.kernelRegisters,
        ¬window.Shares ⟨0x50000000, 0x400⟩) ∧
      start (c ⟨0x54020C00, 0x400⟩) =
        .ok { session with store := ⟨[driver ⟨0x54020C00, 0x400⟩]⟩ } := by
  intro driver c
  have started : start (c ⟨0x20000000, 0x400⟩) = .ok {
      options := {}, store := ⟨[driver ⟨0x20000000, 0x400⟩]⟩
      platform := { registry := { blocks := (c ⟨0x20000000, 0x400⟩).registryBlocks } } } := by
    decide +kernel
  have mem := List.mem_singleton_self (driver ⟨0x20000000, 0x400⟩)
  obtain ⟨_, windows, screens, moves⟩ := kernel_owned_exact started
  refine ⟨_, started, ?_, ?_, ?_⟩
  · refine screens.2 (fun app app_mem => ?_) _ mem
    rw [List.mem_singleton.1 app_mem]
    exact ⟨by decide +kernel, by decide +kernel⟩
  · refine windows (fun space space_mem window w_mem => ?_) _ mem _ (List.mem_singleton_self _)
    have apart : ∀ space ∈ ({} : Layout).peripheralSpaces, ∀ window ∈ ({} : Layout).kernelRegisters,
        (window.length.toNat ≠ 0 ∧ space.length.toNat ≠ 0) ∧ ¬window.overlaps space = true := by
      decide
    obtain ⟨⟨window_nonempty, space_nonempty⟩, clear⟩ := apart space space_mem window w_mem
    exact (Block.overlaps_iff_shares window_nonempty space_nonempty).not.1 clear
  · refine moves [driver ⟨0x54020C00, 0x400⟩] rfl ?_
    intro app app_mem b b_mem
    obtain rfl := List.mem_singleton.1 app_mem
    obtain rfl := List.mem_singleton.1 b_mem
    exact ⟨⟨by decide, by decide, by decide, by decide, by decide, by decide⟩, fun power => by
      cases power⟩

/-- The registers of a reserved block and those of the memory protection unit are mapped as shared
buffers. -/
theorem kernel_owned_mapped :
    let driver : App := {
      name := "driver", priority := ⟨1⟩, quantum := 10
      sharedBlocks := [⟨"rcc", ⟨0x54020C00, 0x400⟩⟩, ⟨"mpu", ⟨0xE000ED00, 0x100⟩⟩] }
    let c : KernelConfig := {
      registryBlocks := [⟨.authorized, ⟨0x50000000, 0x10000000⟩⟩, ⟨.reserved, ⟨0x54020C00, 0x400⟩⟩]
      apps := [driver] }
    ∃ session, start c = .ok session ∧ driver ∈ session.store.apps ∧
      (∃ b ∈ driver.sharedBlocks, ∃ kept ∈ session.platform.registry.reservedBlocks,
        kept.Shares b.block) ∧
      (∃ b ∈ driver.sharedBlocks, ∃ window ∈ session.platform.layout.kernelRegisters,
        window.Shares b.block) ∧
      ¬driver.KeepsOff session.platform := by
  intro driver c
  have started : start c = .ok {
      options := {}, store := ⟨[driver]⟩
      platform := { registry := { blocks := c.registryBlocks } } } := by decide +kernel
  have rcc : (Block.mk 0x54020C00 0x400).Shares ⟨0x54020C00, 0x400⟩ :=
    ⟨0x54020C00, by decide, by decide⟩
  have mpu : (Block.mk 0xE000ED90 0x38).Shares ⟨0xE000ED00, 0x100⟩ :=
    ⟨0xE000ED90, by decide, by decide⟩
  refine ⟨_, started, List.mem_singleton_self driver, ?_, ?_, fun keeps => ?_⟩
  · exact ⟨⟨"rcc", ⟨0x54020C00, 0x400⟩⟩, by decide, ⟨0x54020C00, 0x400⟩, by decide, rcc⟩
  · exact ⟨⟨"mpu", ⟨0xE000ED00, 0x100⟩⟩, by decide, ⟨0xE000ED90, 0x38⟩, by decide, mpu⟩
  · exact keeps.reserved ⟨"rcc", ⟨0x54020C00, 0x400⟩⟩ (by decide) ⟨0x54020C00, 0x400⟩ (by decide)
      rcc

end Session
end SeparationKernel
