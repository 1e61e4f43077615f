import Mathlib
import SeparationKernel.Layout

/-! Blocks as sets of bytes, and what a layout asks of them. -/
namespace SeparationKernel

theorem countP_le_one {α : Type} {p : α → Bool} {xs : List α}
    (exclusive : xs.Pairwise fun a b => ¬(p a = true ∧ p b = true)) : xs.countP p ≤ 1 := by
  induction xs with
  | nil => simp
  | cons a xs ih =>
    obtain ⟨head, tail⟩ := List.pairwise_cons.1 exclusive
    by_cases selected : p a = true
    · have none : xs.countP p = 0 := List.countP_eq_zero.2 fun b mem held =>
        head b mem ⟨selected, held⟩
      rw [List.countP_cons_of_pos selected, none]
    · rw [List.countP_cons_of_neg selected]
      exact ih tail

namespace Block

/-- Some byte lies in both blocks. -/
def Shares (a b : Block) : Prop := ∃ x, a.containsAddress x = true ∧ b.containsAddress x = true

def Within (b outer : Block) : Prop :=
  ∀ x, b.containsAddress x = true → outer.containsAddress x = true

def IsNatural (b : Block) : Prop := (∃ k, b.length.toNat = 2 ^ k) ∧ b.length.toNat ∣ b.start.toNat

variable {a b outer : Block}

theorem Shares.symm (h : a.Shares b) : b.Shares a := by
  obtain ⟨x, left, right⟩ := h
  exact ⟨x, right, left⟩

theorem containsAddress_iff_exists {x : UInt32} :
    b.containsAddress x = true ↔ ∃ i < b.length.toNat, x.toNat = b.start.toNat + i := by
  rw [containsAddress_iff, limit]
  constructor
  · rintro ⟨start_le, lt⟩
    exact ⟨x.toNat - b.start.toNat, by omega, by omega⟩
  · rintro ⟨i, lt, place⟩
    omega

theorem overlaps_iff_shares (a_nonempty : a.length.toNat ≠ 0) (b_nonempty : b.length.toNat ≠ 0) :
    a.overlaps b = true ↔ a.Shares b := by
  rw [overlaps_iff]
  constructor
  · rintro ⟨before, after⟩
    -- the later start is a byte of both
    rcases Nat.le_total a.start.toNat b.start.toNat with le | le
    · refine ⟨b.start, containsAddress_iff.2 ⟨le, after⟩, containsAddress_iff.2 ⟨le_rfl, ?_⟩⟩
      rw [limit]
      omega
    · refine ⟨a.start, containsAddress_iff.2 ⟨le_rfl, ?_⟩, containsAddress_iff.2 ⟨le, before⟩⟩
      rw [limit]
      omega
  · rintro ⟨x, left, right⟩
    have left := containsAddress_iff.1 left
    have right := containsAddress_iff.1 right
    omega

/-- A block that is not empty and ends within the address space is inside if its ends are. -/
theorem contains_iff_within (nonempty : b.length.toNat ≠ 0) (fits : b.limit ≤ UInt32.size) :
    outer.contains b = true ↔ b.Within outer := by
  rw [contains_iff]
  constructor
  · rintro ⟨start, finish⟩ x inside
    have inside := containsAddress_iff.1 inside
    exact containsAddress_iff.2 ⟨by omega, by omega⟩
  · intro within
    have size : UInt32.size = 4294967296 := rfl
    have limit_eq : b.limit = b.start.toNat + b.length.toNat := rfl
    have last : (UInt32.ofNat (b.limit - 1)).toNat = b.limit - 1 :=
      UInt32.toNat_ofNat_of_lt' (by omega)
    have first_inside := containsAddress_iff.1 (within b.start (containsAddress_iff.2 (by omega)))
    have last_inside := containsAddress_iff.1
      (within (UInt32.ofNat (b.limit - 1)) (containsAddress_iff.2 (by omega)))
    omega

theorem isAlignedTo_iff {align : UInt32} (nonempty : b.length.toNat ≠ 0) :
    b.isAlignedTo align = true ↔ align.toNat ∣ b.start.toNat ∧ align.toNat ∣ b.length.toNat := by
  simp only [isAlignedTo, Bool.and_eq_true, bne_iff_ne, beq_iff_eq, ← Nat.dvd_iff_mod_eq_zero]
  constructor
  · rintro ⟨⟨_, start⟩, length⟩
    exact ⟨start, length⟩
  · rintro ⟨start, length⟩
    refine ⟨⟨fun zero => nonempty ?_, start⟩, length⟩
    rw [zero] at length
    exact Nat.eq_zero_of_zero_dvd length

theorem exponent_lt {k : Nat} (power : b.length.toNat = 2 ^ k) : k < 32 := by
  have lt : 2 ^ k < 2 ^ 32 := power ▸ b.length.toNat_lt
  exact (Nat.pow_lt_pow_iff_right (by decide)).1 lt

theorem isNaturallyAligned_iff : b.isNaturallyAligned = true ↔ b.IsNatural := by
  have power : powersOfTwo.contains b.length.toNat = true ↔ ∃ k, b.length.toNat = 2 ^ k := by
    simp only [powersOfTwo, List.contains_iff_mem, List.mem_map, List.mem_range]
    constructor
    · rintro ⟨k, _, same⟩
      exact ⟨k, same.symm⟩
    · rintro ⟨k, same⟩
      exact ⟨k, exponent_lt same, same.symm⟩
  rw [isNaturallyAligned, Bool.and_eq_true, power, beq_iff_eq, ← Nat.dvd_iff_mod_eq_zero, IsNatural]

/-- The first power of two that is no less than a power of two is that one itself. -/
theorem naturalAlignment_eq {k : Nat} (power : b.length.toNat = 2 ^ k) :
    b.naturalAlignment = b.length := by
  have lt := exponent_lt power
  have found : powersOfTwo.find? (b.length.toNat ≤ ·) = some (2 ^ k) := by
    rw [powersOfTwo, List.find?_map, Option.map_eq_some_iff]
    refine ⟨k, List.find?_range_eq_some.2 ⟨?_, List.mem_range.2 lt, fun j less => ?_⟩, rfl⟩
    · simp [power]
    · have smaller : 2 ^ j < 2 ^ k := Nat.pow_lt_pow_right (by decide) less
      simpa [power] using smaller
  rw [naturalAlignment, found, Option.getD_some, ← power]
  exact UInt32.ofNat_toNat

end Block

/-- What is asked of every block: bytes that are all addresses, multiples of the granularity, and a
length within bounds. -/
structure Layout.Fits (l : Layout) (min max : UInt32) (b : Block) : Prop where
  nonempty : b.length.toNat ≠ 0
  limit_lt : b.limit < UInt32.size
  start_dvd : l.blockAlignment.toNat ∣ b.start.toNat
  length_dvd : l.blockAlignment.toNat ∣ b.length.toNat
  min_le : min.toNat ≤ b.length.toNat
  le_max : b.length.toNat ≤ max.toNat

theorem Layout.checkBlock_eq_ok_iff {l : Layout} {entry : ConfigEntry} {b : Block}
    {min max : UInt32} {isRegion : Bool} :
    l.checkBlock entry b min max isRegion = .ok () ↔
      l.Fits min max b ∧ (isRegion = true → l.powerOfTwoRegions = true → b.IsNatural) := by
  rw [checkBlock_eq_ok, Block.isWellFormed_iff]
  constructor
  · rintro ⟨⟨nonempty, limit_lt⟩, aligned, natural, min_le, le_max⟩
    obtain ⟨start_dvd, length_dvd⟩ := (Block.isAlignedTo_iff nonempty).1 aligned
    exact ⟨⟨nonempty, limit_lt, start_dvd, length_dvd, min_le, le_max⟩,
      fun region power => Block.isNaturallyAligned_iff.1 (natural region power)⟩
  · rintro ⟨fits, natural⟩
    exact ⟨⟨fits.nonempty, fits.limit_lt⟩,
      (Block.isAlignedTo_iff fits.nonempty).2 ⟨fits.start_dvd, fits.length_dvd⟩,
      fun region power => Block.isNaturallyAligned_iff.2 (natural region power),
      fits.min_le, fits.le_max⟩

theorem Layout.misalignedValue_spec {b : Block} {align : UInt32} (nonempty : b.length.toNat ≠ 0)
    (unaligned : b.isAlignedTo align = false) :
    (misalignedValue b align = b.start ∨ misalignedValue b align = b.length) ∧
      ¬align.toNat ∣ (misalignedValue b align).toNat := by
  rw [← Bool.not_eq_true, Block.isAlignedTo_iff nonempty, not_and] at unaligned
  rw [misalignedValue]
  split
  · rename_i odd
    refine ⟨Or.inl rfl, fun divides => bne_iff_ne.1 odd (Nat.mod_eq_zero_of_dvd ?_)⟩
    rcases Nat.eq_zero_or_pos align.toNat with zero | pos
    · rw [zero]
      exact Nat.one_dvd _
    · rwa [Nat.max_eq_left pos]
  · rename_i even
    -- of a length that is not zero, zero is no divisor
    refine ⟨Or.inr rfl, fun divides => unaligned (Nat.dvd_of_mod_eq_zero ?_) divides⟩
    have pos := Nat.pos_of_dvd_of_pos divides (Nat.pos_of_ne_zero nonempty)
    rwa [bne_iff_ne, not_not, Nat.max_eq_left pos] at even

end SeparationKernel
