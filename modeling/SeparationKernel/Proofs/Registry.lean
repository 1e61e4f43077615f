import Mathlib
import SeparationKernel.Proofs.Block
import SeparationKernel.Registry

/-! The registry at any time: its blocks share no byte, but for reserved blocks that lie inside
authorized ones. -/
namespace SeparationKernel
namespace RegistryBlock

/-- The blocks share no byte, or one of them is reserved and lies inside the other, an authorized
one. -/
def Suits (a b : RegistryBlock) : Prop :=
  a.block.Shares b.block →
    (a.kind = .reserved ∧ b.kind = .authorized ∧ a.block.Within b.block) ∨
      (a.kind = .authorized ∧ b.kind = .reserved ∧ b.block.Within a.block)

def IsProper (b : RegistryBlock) : Prop := b.block.length.toNat ≠ 0 ∧ b.block.limit < UInt32.size

variable {a b : RegistryBlock}

theorem Suits.symm (h : a.Suits b) : b.Suits a := by
  intro shared
  rcases h shared.symm with ⟨inner, outer, inside⟩ | ⟨outer, inner, inside⟩
  · exact Or.inr ⟨outer, inner, inside⟩
  · exact Or.inl ⟨inner, outer, inside⟩

instance : Std.Symm Suits := ⟨fun _ _ => Suits.symm⟩

theorem isNested_iff (a_proper : a.IsProper) (b_proper : b.IsProper) :
    a.isNested b = true ↔
      (a.kind = .reserved ∧ b.kind = .authorized ∧ a.block.Within b.block) ∨
        (a.kind = .authorized ∧ b.kind = .reserved ∧ b.block.Within a.block) := by
  rw [← Block.contains_iff_within a_proper.1 a_proper.2.le,
    ← Block.contains_iff_within b_proper.1 b_proper.2.le]
  obtain ⟨_ | _, _⟩ := a <;> obtain ⟨_ | _, _⟩ := b <;> simp [isNested]

theorem isCompatible_iff (a_proper : a.IsProper) (b_proper : b.IsProper) :
    a.isCompatible b = true ↔ a.Suits b := by
  rw [isCompatible, Bool.or_eq_true, isNested_iff a_proper b_proper, Bool.not_eq_true',
    ← Bool.not_eq_true, Block.overlaps_iff_shares a_proper.1 b_proper.1, Suits, imp_iff_not_or]

end RegistryBlock

namespace Registry

open RegistryBlock (Suits IsProper)

def Admits (l : Layout) (b : Block) : Prop :=
  l.Fits l.blockSizeMin l.blockSizeMax b ∧ ∃ space ∈ l.peripheralSpaces, b.Within space

structure Lawful (r : Registry) : Prop where
  proper : ∀ b ∈ r.blocks, b.IsProper
  suits : r.blocks.Pairwise Suits

def after (r : Registry) (batches : List (Layout × List RegistryBlock)) : Registry :=
  batches.foldl (fun r (l, batch) => (r.register l batch).2) r

def built (batches : List (Layout × List RegistryBlock)) : Registry := after {} batches

variable {r : Registry} {l : Layout} {batch : List RegistryBlock}

theorem Admits.isProper {b : RegistryBlock} (h : Admits l b.block) : b.IsProper :=
  ⟨h.1.nonempty, h.1.limit_lt⟩

theorem checkNext_eq_ok (r : Registry) (l : Layout) (before : List RegistryBlock)
    (b : RegistryBlock) :
    r.checkNext l before b = .ok () ↔
      (Admits l b.block ∧ ∀ old ∈ r.blocks, b.isCompatible old = true) ∧
        ∀ other ∈ before, b.isCompatible other = true := by
  have own : l.checkRegistryBlock (.registryBlock b.kind before.length) b.block = .ok () ∧
      l.peripheralSpaces.any (·.contains b.block) = true ↔ Admits l b.block := by
    rw [Layout.checkRegistryBlock, Layout.checkBlock_eq_ok_iff, List.any_eq_true, Admits]
    constructor
    · rintro ⟨⟨fits, _⟩, space, mem, inside⟩
      exact ⟨fits, space, mem, (Block.contains_iff_within fits.nonempty fits.limit_lt.le).1 inside⟩
    · rintro ⟨fits, space, mem, inside⟩
      exact ⟨⟨fits, by simp⟩, space, mem,
        (Block.contains_iff_within fits.nonempty fits.limit_lt.le).2 inside⟩
  simp only [checkNext, Verdict.all_cons_eq_ok, Verdict.all_nil_eq_ok, and_true,
    Verdict.require_eq_ok, Verdict.each_eq_ok, List.forall_mem_append]
  rw [← own]
  tauto

theorem check_eq_ok_iff :
    r.check l batch = .ok () ↔
      (∀ b ∈ batch, Admits l b.block ∧ ∀ old ∈ r.blocks, b.isCompatible old = true) ∧
        batch.Pairwise fun other b => b.isCompatible other = true := by
  rw [check, Verdict.eachAfter_nil_eq_ok_iff (r.checkNext_eq_ok l)]

/-- A batch is accepted if each block is admitted by itself and suits all others, old and new. -/
theorem Lawful.check_eq_ok (h : r.Lawful) :
    r.check l batch = .ok () ↔
      (∀ b ∈ batch, Admits l b.block) ∧ (r.blocks ++ batch).Pairwise Suits := by
  rw [check_eq_ok_iff, List.pairwise_append]
  constructor
  · rintro ⟨each, apart⟩
    have proper : ∀ b ∈ batch, b.IsProper := fun b mem => (each b mem).1.isProper
    refine ⟨fun b mem => (each b mem).1, h.suits, ?_, fun old old_mem b mem => ?_⟩
    · refine apart.imp_of_mem fun {a b} a_mem b_mem compatible => ?_
      exact ((RegistryBlock.isCompatible_iff (proper b b_mem) (proper a a_mem)).1 compatible).symm
    · have compatible := (each b mem).2 old old_mem
      exact ((RegistryBlock.isCompatible_iff (proper b mem) (h.proper old old_mem)).1
        compatible).symm
  · rintro ⟨each, _, apart, beside⟩
    have proper : ∀ b ∈ batch, b.IsProper := fun b mem => (each b mem).isProper
    refine ⟨fun b mem => ⟨each b mem, fun old old_mem => ?_⟩, ?_⟩
    · exact (RegistryBlock.isCompatible_iff (proper b mem) (h.proper old old_mem)).2
        (beside old old_mem b mem).symm
    · refine apart.imp_of_mem fun {a b} a_mem b_mem suits => ?_
      exact (RegistryBlock.isCompatible_iff (proper b b_mem) (proper a a_mem)).2 suits.symm

theorem register_of_ok (accepted : r.check l batch = .ok ()) :
    r.register l batch = (.ok (), { r with blocks := r.blocks ++ batch }) := by
  rw [register_eq, accepted, Verdict.commit_ok]

theorem register_of_ne_ok (refused : r.check l batch ≠ .ok ()) : (r.register l batch).2 = r := by
  rw [register_eq, Verdict.commit_snd_of_ne_ok refused]

theorem Lawful.register (h : r.Lawful) (l : Layout) (batch : List RegistryBlock) :
    (r.register l batch).2.Lawful := by
  by_cases accepted : r.check l batch = .ok ()
  · obtain ⟨each, suits⟩ := h.check_eq_ok.1 accepted
    rw [register_of_ok accepted]
    refine ⟨fun b mem => ?_, suits⟩
    rcases List.mem_append.1 mem with old | new
    · exact h.proper b old
    · exact (each b new).isProper
  · rw [register_of_ne_ok accepted]
    exact h

theorem lawful_empty : Lawful {} := ⟨fun _ mem => absurd mem List.not_mem_nil, .nil⟩

theorem Lawful.after (h : r.Lawful) (batches : List (Layout × List RegistryBlock)) :
    (r.after batches).Lawful := by
  induction batches generalizing r with
  | nil => exact h
  | cons offer batches ih => exact ih (h.register offer.1 offer.2)

namespace Lawful

theorem authorized_apart (h : r.Lawful) : r.authorizedBlocks.Pairwise fun a b => ¬a.Shares b := by
  rw [authorizedBlocks, List.pairwise_map, List.pairwise_filter]
  refine h.suits.imp fun {a b} suits a_authorized b_authorized shared => ?_
  simp only [RegistryBlock.isAuthorized, beq_iff_eq] at a_authorized b_authorized
  rcases suits shared with ⟨inner, _⟩ | ⟨_, inner, _⟩
  · simp [a_authorized] at inner
  · simp [b_authorized] at inner

theorem reserved_apart (h : r.Lawful) : r.reservedBlocks.Pairwise fun a b => ¬a.Shares b := by
  rw [reservedBlocks, List.pairwise_map, List.pairwise_filter]
  refine h.suits.imp fun {a b} suits a_reserved b_reserved shared => ?_
  simp only [RegistryBlock.isReserved, beq_iff_eq] at a_reserved b_reserved
  rcases suits shared with ⟨_, outer, _⟩ | ⟨outer, _⟩
  · simp [b_reserved] at outer
  · simp [a_reserved] at outer

theorem within (h : r.Lawful) {inner outer : Block} (reserved : inner ∈ r.reservedBlocks)
    (authorized : outer ∈ r.authorizedBlocks) (shared : inner.Shares outer) :
    inner.Within outer := by
  obtain ⟨a, a_mem, rfl⟩ := List.mem_map.1 reserved
  obtain ⟨b, b_mem, rfl⟩ := List.mem_map.1 authorized
  obtain ⟨a_mem, a_reserved⟩ := List.mem_filter.1 a_mem
  obtain ⟨b_mem, b_authorized⟩ := List.mem_filter.1 b_mem
  simp only [RegistryBlock.isReserved, RegistryBlock.isAuthorized, beq_iff_eq]
    at a_reserved b_authorized
  have other : a ≠ b := by
    rintro rfl
    simp [a_reserved] at b_authorized
  have suits : a.Suits b := h.suits.forall a_mem b_mem other
  rcases suits shared with ⟨_, _, inside⟩ | ⟨outer, _⟩
  · exact inside
  · simp [a_reserved] at outer

end Lawful

/-- At most one block of blocks that share no byte holds an address. -/
theorem countP_containsAddress_le_one {blocks : List Block}
    (apart : blocks.Pairwise fun a b => ¬a.Shares b) (x : UInt32) :
    blocks.countP (·.containsAddress x) ≤ 1 :=
  countP_le_one (apart.imp fun apart both => apart ⟨x, both⟩)

theorem countP_contains_le_one {blocks : List Block}
    (apart : blocks.Pairwise fun a b => ¬a.Shares b) {b : Block} (nonempty : b.length.toNat ≠ 0) :
    blocks.countP (·.contains b) ≤ 1 := by
  refine countP_le_one (apart.imp fun {outer outer'} apart ⟨inside, inside'⟩ => ?_)
  have limit_eq : b.limit = b.start.toNat + b.length.toNat := rfl
  have bounds := Block.contains_iff.1 inside
  have bounds' := Block.contains_iff.1 inside'
  exact apart ⟨b.start, Block.containsAddress_iff.2 (by omega),
    Block.containsAddress_iff.2 (by omega)⟩

/-- Whatever has been offered to a registry: its blocks are proper, blocks of one class share no
byte, and a reserved block that meets an authorized one lies inside it. So an address is in one
block of either class at most, and a block has one authorized parent at most. A further batch is
accepted if each of its blocks is admitted by itself and every pair of blocks, old and new, suits.
-/
theorem built_apart_or_nested (batches : List (Layout × List RegistryBlock)) :
    (∀ b ∈ (built batches).blocks, b.block.length.toNat ≠ 0 ∧ b.block.limit < UInt32.size) ∧
      ((built batches).authorizedBlocks.Pairwise fun a b => ¬a.Shares b) ∧
      ((built batches).reservedBlocks.Pairwise fun a b => ¬a.Shares b) ∧
      (∀ inner ∈ (built batches).reservedBlocks, ∀ outer ∈ (built batches).authorizedBlocks,
        inner.Shares outer → inner.Within outer) ∧
      (∀ x, (built batches).authorizedBlocks.countP (·.containsAddress x) ≤ 1 ∧
        (built batches).reservedBlocks.countP (·.containsAddress x) ≤ 1) ∧
      (∀ b : Block, b.length.toNat ≠ 0 →
        (built batches).authorizedBlocks.countP (·.contains b) ≤ 1) ∧
      ∀ l batch,
        (((built batches).register l batch).1 = .ok () ↔ (∀ b ∈ batch, Admits l b.block) ∧
          ((built batches).blocks ++ batch).Pairwise Suits) ∧
        (((built batches).register l batch).1 = .ok () → ((built batches).register l batch).2 =
          { built batches with blocks := (built batches).blocks ++ batch }) ∧
        (((built batches).register l batch).1 ≠ .ok () →
          ((built batches).register l batch).2 = built batches) := by
  have lawful : (built batches).Lawful := lawful_empty.after batches
  have authorized := lawful.authorized_apart
  have reserved := lawful.reserved_apart
  refine ⟨lawful.proper, authorized, reserved, ?_, ?_, ?_, fun l batch => ?_⟩
  · intro inner inner_mem outer outer_mem shared
    exact lawful.within inner_mem outer_mem shared
  · intro x
    exact ⟨countP_containsAddress_le_one authorized x, countP_containsAddress_le_one reserved x⟩
  · intro b nonempty
    exact countP_contains_le_one authorized nonempty
  · rw [register_fst]
    refine ⟨lawful.check_eq_ok, fun accepted => ?_, register_of_ne_ok⟩
    rw [register_of_ok accepted]

/-- A reserved block inside an authorized one, and a batch that would cut across it. -/
theorem built_apart_or_nested_timer :
    let timer : List RegistryBlock :=
      [⟨.authorized, ⟨0x40000000, 0x1000⟩⟩, ⟨.reserved, ⟨0x40000400, 0x20⟩⟩]
    (built [({}, timer)]).blocks = timer ∧
      (Block.mk 0x40000400 0x20).Within ⟨0x40000000, 0x1000⟩ ∧
      ((built [({}, timer)]).register {} [⟨.reserved, ⟨0x40000FE0, 0x40⟩⟩]).2 =
        built [({}, timer)] := by
  intro timer
  have facts := built_apart_or_nested [({}, timer)]
  have shared : (Block.mk 0x40000400 0x20).Shares ⟨0x40000000, 0x1000⟩ :=
    ⟨0x40000400, by decide, by decide⟩
  refine ⟨by decide, ?_, ?_⟩
  · exact facts.2.2.2.1 _ (by decide) _ (by decide) shared
  · exact (facts.2.2.2.2.2.2 {} _).2.2 (by decide)

end Registry
end SeparationKernel
