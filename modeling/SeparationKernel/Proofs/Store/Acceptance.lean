import Mathlib
import SeparationKernel.Proofs.Block
import SeparationKernel.Store

/-! Which lists of descriptors the store accepts, said without the order in which they are checked.
-/
namespace SeparationKernel
namespace App

def labels (a : App) : List String :=
  a.sharedBlocks.map (·.label) ++ a.extraBlocks.map (·.label)

/-- What is asked of the descriptor in place `index` of a list of `count`. -/
structure IsAcceptable (o : Options) (p : Platform) (index count : Nat) (a : App) : Prop where
  name : 1 ≤ a.name.utf8ByteSize ∧ a.name.utf8ByteSize ≤ o.appNameLengthMax.toNat
  priority : a.priority.level.toNat ≤ o.priorityMax.toNat
  quantum : 1 ≤ a.quantum.toNat ∧ a.quantum.toNat ≤ 255
  length_ipcTargets : a.ipcTargets.length ≤ o.appIpcTargetCountMax.toNat
  length_pirqs : a.pirqs.length ≤ o.appPirqCountMax.toNat
  length_sharedBlocks : a.sharedBlocks.length ≤ o.appSharedBufferCountMax.toNat
  length_extraBlocks : a.extraBlocks.length ≤ o.appExtraBlockCountMax.toNat
  length_registers : a.registers.length ≤ o.appRegisterCountMax.toNat
  length_dmaStreams : a.dmaStreams.length ≤ o.appDmaStreamCountMax.toNat
  ipcTargets : ∀ t ∈ a.ipcTargets,
    t = .any ∨ ∃ other, t = .app other ∧ other.index < count ∧ other.index ≠ index
  pirqs : ∀ q ∈ a.pirqs, q.line.toNat < o.pirqSupportedCount.toNat
  nodup_pirqs : a.pirqs.Nodup
  nodup_labels : a.labels.Nodup
  sharedBlocks : ∀ b ∈ a.sharedBlocks,
    p.layout.Fits p.layout.sharedBufferSizeMin p.layout.sharedBufferSizeMax b.block ∧
      (p.layout.powerOfTwoRegions = true → b.block.IsNatural)
  extraBlocks : ∀ b ∈ a.extraBlocks,
    p.layout.Fits p.layout.blockSizeMin p.layout.blockSizeMax b.block ∧
      (p.layout.powerOfTwoRegions = true → b.block.IsNatural)
  authorized : ∀ b ∈ a.extraBlocks, ∃ outer ∈ p.registry.authorizedBlocks, b.block.Within outer
  clear : ∀ b ∈ a.extraBlocks, ∀ kept ∈ p.registry.reservedBlocks,
    kept.limit ≤ b.block.start.toNat ∨ b.block.limit ≤ kept.start.toNat
  registers : ∀ g ∈ a.registers, ∃ r, p.registers.lookup g.address = some r ∧
    r.readMask.Includes g.readMask.bits ∧ r.writeMask.Includes g.writeMask.bits
  nodup_dmaStreams : (a.dmaStreams.map (·.label)).Nodup
  dmaStreams : ∀ s ∈ a.dmaStreams, s.source ∈ a.labels ∧ s.destination ∈ a.labels

variable {o : Options} {p : Platform} {index count : Nat} {a : App}

theorem blockLabels_eq (a : App) : a.blockLabels = a.labels := by
  simp [blockLabels, labelledBlocks, labels, Function.comp_def]

theorem blockLabelled?_isSome_iff {label : String} :
    (a.blockLabelled? label).isSome = true ↔ label ∈ a.labels := by
  rw [← blockLabels_eq, blockLabelled?, blockLabels, List.lookup_isSome_iff, List.mem_map]
  exact exists_congr fun b => and_congr_right fun _ => by rw [beq_iff_eq, eq_comm]

theorem checkIdentity_eq_ok_iff :
    checkIdentity o index a = .ok () ↔
      (1 ≤ a.name.utf8ByteSize ∧ a.name.utf8ByteSize ≤ o.appNameLengthMax.toNat) ∧
        a.priority.level.toNat ≤ o.priorityMax.toNat ∧
        1 ≤ a.quantum.toNat ∧ a.quantum.toNat ≤ 255 := by
  have quanta : quantumMin.toNat = 1 ∧ quantumMax.toNat = 255 := ⟨rfl, rfl⟩
  simp only [checkIdentity, Verdict.all_cons_eq_ok, Verdict.all_nil_eq_ok, and_true,
    Verdict.require_eq_ok, Bool.and_eq_true, bne_iff_ne, ne_eq, decide_eq_true_eq,
    Nat.one_le_iff_ne_zero, quanta]

theorem checkCounts_eq_ok_iff :
    checkCounts o index a = .ok () ↔
      a.ipcTargets.length ≤ o.appIpcTargetCountMax.toNat ∧
        a.pirqs.length ≤ o.appPirqCountMax.toNat ∧
        a.sharedBlocks.length ≤ o.appSharedBufferCountMax.toNat ∧
        a.extraBlocks.length ≤ o.appExtraBlockCountMax.toNat ∧
        a.registers.length ≤ o.appRegisterCountMax.toNat ∧
        a.dmaStreams.length ≤ o.appDmaStreamCountMax.toNat := by
  simp only [checkCounts, checkCount, Verdict.all_cons_eq_ok, Verdict.all_nil_eq_ok, and_true,
    Verdict.require_eq_ok, decide_eq_true_eq]

theorem checkIpcTarget_eq_ok_iff {t : IpcTarget} :
    checkIpcTarget index count a t = .ok () ↔
      t = .any ∨ ∃ other, t = .app other ∧ other.index < count ∧ other.index ≠ index := by
  cases t with
  | any => simp [checkIpcTarget]
  | app other => simp [checkIpcTarget]

theorem not_contains_iff {α : Type} [BEq α] [LawfulBEq α] {before : List α} {x : α} :
    (!before.contains x) = true ↔ ∀ earlier ∈ before, earlier ≠ x := by
  rw [Bool.not_eq_true', ← Bool.not_eq_true, List.contains_iff_mem]
  exact ⟨fun fresh y mem same => fresh (same ▸ mem), fun others mem => others x mem rfl⟩

theorem checkPirq_eq_ok_iff (o : Options) (index : Nat) (a : App) (before : List Pirq) (q : Pirq) :
    checkPirq o index a before q = .ok () ↔
      q.line.toNat < o.pirqSupportedCount.toNat ∧ ∀ earlier ∈ before, earlier ≠ q := by
  simp only [checkPirq, Verdict.all_cons_eq_ok, Verdict.all_nil_eq_ok, and_true,
    Verdict.require_eq_ok, decide_eq_true_eq, not_contains_iff]

theorem checkLabel_eq_ok_iff (index : Nat) (a : App) (before : List String) (label : String) :
    checkLabel index a before label = .ok () ↔ True ∧ ∀ earlier ∈ before, earlier ≠ label := by
  rw [checkLabel, Verdict.require_eq_ok, not_contains_iff, true_and]

theorem checkSharedBlock_eq_ok_iff {b : SharedBlock} :
    checkSharedBlock p index a b = .ok () ↔
      p.layout.Fits p.layout.sharedBufferSizeMin p.layout.sharedBufferSizeMax b.block ∧
        (p.layout.powerOfTwoRegions = true → b.block.IsNatural) := by
  rw [checkSharedBlock, Layout.checkSharedBlock, Layout.checkBlock_eq_ok_iff]
  simp only [forall_const]

theorem checkExtraBlock_eq_ok_iff {b : ExtraBlock} :
    checkExtraBlock p index a b = .ok () ↔
      (p.layout.Fits p.layout.blockSizeMin p.layout.blockSizeMax b.block ∧
        (p.layout.powerOfTwoRegions = true → b.block.IsNatural)) ∧
        (∃ outer ∈ p.registry.authorizedBlocks, b.block.Within outer) ∧
        ∀ kept ∈ p.registry.reservedBlocks,
          kept.limit ≤ b.block.start.toNat ∨ b.block.limit ≤ kept.start.toNat := by
  simp only [checkExtraBlock, Layout.checkExtraBlock, Layout.checkBlock_eq_ok_iff,
    Verdict.all_cons_eq_ok, Verdict.all_nil_eq_ok, and_true, Verdict.require_eq_ok,
    Verdict.each_eq_ok, forall_const, Registry.authorizedParent?, List.find?_isSome]
  refine and_congr_right fun suits => and_congr ?_ (forall₂_congr fun kept _ => ?_)
  · refine exists_congr fun outer => and_congr_right fun _ => ?_
    exact Block.contains_iff_within suits.1.nonempty suits.1.limit_lt.le
  · rw [Bool.not_eq_true', ← Bool.not_eq_true, Block.overlaps_iff]
    omega

theorem checkBlocks_eq_ok_iff :
    checkBlocks p index a = .ok () ↔
      a.labels.Nodup ∧ (∀ b ∈ a.sharedBlocks, checkSharedBlock p index a b = .ok ()) ∧
        ∀ b ∈ a.extraBlocks, checkExtraBlock p index a b = .ok () := by
  simp only [checkBlocks, Verdict.all_cons_eq_ok, Verdict.all_nil_eq_ok, and_true,
    Verdict.each_eq_ok, Verdict.eachAfter_nil_eq_ok_iff (checkLabel_eq_ok_iff index a),
    blockLabels_eq]
  simp [List.Nodup]

theorem checkRegister_eq_ok_iff {g : RegisterGrant} :
    checkRegister p index a g = .ok () ↔ ∃ r, p.registers.lookup g.address = some r ∧
      r.readMask.Includes g.readMask.bits ∧ r.writeMask.Includes g.writeMask.bits := by
  rw [checkRegister]
  cases p.registers.lookup g.address with
  | none => simp
  | some r =>
    simp only [Verdict.require_eq_ok, Bool.and_eq_true, Register.Mask.covers,
      Register.Mask.permits_iff_includes, Option.some.injEq, exists_eq_left']

theorem checkDmaStream_eq_ok_iff (index : Nat) (a : App) (before : List DmaStream)
    (s : DmaStream) :
    checkDmaStream index a before s = .ok () ↔
      (s.source ∈ a.labels ∧ s.destination ∈ a.labels) ∧
        ∀ earlier ∈ before, earlier.label ≠ s.label := by
  simp only [checkDmaStream, Verdict.all_cons_eq_ok, Verdict.all_nil_eq_ok, and_true,
    Verdict.require_eq_ok, not_contains_iff, List.forall_mem_map, blockLabelled?_isSome_iff]
  exact and_comm

theorem check_eq_ok_iff : check o p index count a = .ok () ↔ a.IsAcceptable o p index count := by
  simp only [check, Verdict.all_cons_eq_ok, Verdict.all_nil_eq_ok, and_true, Verdict.each_eq_ok,
    checkIdentity_eq_ok_iff, checkCounts_eq_ok_iff, checkIpcTarget_eq_ok_iff,
    Verdict.eachAfter_nil_eq_ok_iff (checkPirq_eq_ok_iff o index a), checkBlocks_eq_ok_iff,
    checkSharedBlock_eq_ok_iff, checkExtraBlock_eq_ok_iff, checkRegister_eq_ok_iff,
    Verdict.eachAfter_nil_eq_ok_iff (checkDmaStream_eq_ok_iff index a)]
  constructor
  · rintro ⟨⟨name, priority, quantum⟩, ⟨c₁, c₂, c₃, c₄, c₅, c₆⟩, ipcTargets, ⟨pirqs, nodup_pirqs⟩,
      ⟨nodup_labels, sharedBlocks, extraBlocks⟩, registers, dmaStreams, nodup_dmaStreams⟩
    exact {
      name, priority, quantum, ipcTargets, pirqs, nodup_pirqs, nodup_labels, sharedBlocks
      registers, dmaStreams
      length_ipcTargets := c₁
      length_pirqs := c₂
      length_sharedBlocks := c₃
      length_extraBlocks := c₄
      length_registers := c₅
      length_dmaStreams := c₆
      extraBlocks := fun b mem => (extraBlocks b mem).1
      authorized := fun b mem => (extraBlocks b mem).2.1
      clear := fun b mem => (extraBlocks b mem).2.2
      nodup_dmaStreams := List.pairwise_map.2 nodup_dmaStreams }
  · intro h
    exact ⟨⟨h.name, h.priority, h.quantum⟩,
      ⟨h.length_ipcTargets, h.length_pirqs, h.length_sharedBlocks, h.length_extraBlocks,
        h.length_registers, h.length_dmaStreams⟩,
      h.ipcTargets, ⟨h.pirqs, h.nodup_pirqs⟩,
      ⟨h.nodup_labels, h.sharedBlocks, fun b mem =>
        ⟨h.extraBlocks b mem, h.authorized b mem, h.clear b mem⟩⟩,
      h.registers, h.dmaStreams, List.pairwise_map.1 h.nodup_dmaStreams⟩

end App

namespace Store

/-- What is asked of a list of descriptors. -/
structure Accepts (o : Options) (p : Platform) (apps : List App) : Prop where
  length_le : apps.length ≤ o.appCountMax.toNat
  nodup_names : (apps.map (·.name)).Nodup
  acceptable : ∀ (i : Nat) (a : App), apps[i]? = some a → a.IsAcceptable o p i apps.length

variable {o : Options} {p : Platform} {apps : List App}

theorem checkNext_eq_ok_iff (o : Options) (p : Platform) (count : Nat) (before : List App)
    (a : App) :
    checkNext o p count before a = .ok () ↔
      a.IsAcceptable o p before.length count ∧ ∀ earlier ∈ before, earlier.name ≠ a.name := by
  simp only [checkNext, Verdict.all_cons_eq_ok, Verdict.all_nil_eq_ok, and_true,
    Verdict.require_eq_ok, App.not_contains_iff, List.forall_mem_map, App.check_eq_ok_iff]

theorem check_eq_ok_iff : check o p apps = .ok () ↔ Accepts o p apps := by
  simp only [check, App.checkCount, Verdict.all_cons_eq_ok, Verdict.all_nil_eq_ok, and_true,
    Verdict.require_eq_ok, decide_eq_true_eq]
  rw [Verdict.eachAfter_eq_ok_iff (P := fun i (a : App) => a.IsAcceptable o p i apps.length)
    (checkNext_eq_ok_iff o p apps.length)]
  constructor
  · rintro ⟨length_le, each, apart, _⟩
    refine ⟨length_le, List.pairwise_map.2 apart, fun i a at_i => ?_⟩
    have acceptable := each i a at_i
    rwa [List.length_nil, Nat.zero_add] at acceptable
  · rintro ⟨length_le, nodup_names, acceptable⟩
    refine ⟨length_le, fun i a at_i => ?_, List.pairwise_map.1 nodup_names, by simp⟩
    rw [List.length_nil, Nat.zero_add]
    exact acceptable i a at_i

theorem load_eq_ok_iff {s : Store} : (s.load o p apps).1 = .ok () ↔ Accepts o p apps := by
  rw [load_fst, check_eq_ok_iff]

theorem load_of_accepts {s : Store} (acceptable : Accepts o p apps) :
    (s.load o p apps).2 = ⟨apps⟩ := by
  rw [load_eq, check_eq_ok_iff.2 acceptable, Verdict.commit_ok]

theorem load_of_not_accepts {s : Store} (unacceptable : ¬Accepts o p apps) :
    (s.load o p apps).2 = s := by
  rw [load_eq, Verdict.commit_snd_of_ne_ok (mt check_eq_ok_iff.1 unacceptable)]

/-- A load succeeds for exactly the lists that meet every condition, whatever the order in which the
conditions are checked. The list then is what the store holds; otherwise nothing changes. -/
theorem load_exact (s : Store) (o : Options) (p : Platform) (apps : List App) :
    ((s.load o p apps).1 = .ok () ↔ Accepts o p apps) ∧
      ((s.load o p apps).1 = .ok () → (s.load o p apps).2 = ⟨apps⟩) ∧
      ((s.load o p apps).1 ≠ .ok () → (s.load o p apps).2 = s) := by
  refine ⟨load_eq_ok_iff, fun accepted => ?_, fun refused => ?_⟩
  · exact load_of_accepts (load_eq_ok_iff.1 accepted)
  · exact load_of_not_accepts (mt load_eq_ok_iff.2 refused)

end Store
end SeparationKernel
