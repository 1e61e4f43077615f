import SeparationKernel.Block
import SeparationKernel.Register.Mask

/-! Inclusive ranges of word-sized registers. -/
namespace SeparationKernel.Register

/-- The registers from `first` to `last`, both included, with the bits that may be read and written
in each. -/
structure Range where
  first : UInt32
  last : UInt32
  readMask : Mask
  writeMask : Mask
deriving DecidableEq, Repr

namespace Range

/-- Only a word-aligned address names a register. -/
def contains (r : Range) (address : UInt32) : Bool :=
  address.toNat % 4 == 0 && decide (r.first.toNat ≤ address.toNat) &&
    decide (address.toNat ≤ r.last.toNat)

def mask (r : Range) : Access → Mask
  | .read => r.readMask
  | .write => r.writeMask

/-- The bytes of the range, if it is not inverted and ends below the top of the address space. -/
def span? (r : Range) : Option Block :=
  if r.first.toNat ≤ r.last.toNat ∧ r.last.toNat + 4 < UInt32.size then
    some ⟨r.first, UInt32.ofNat (r.last.toNat - r.first.toNat + 4)⟩
  else none

/-- How many registers the range holds, in word arithmetic. -/
def count (r : Range) : UInt32 := (r.last - r.first) / 4 + 1

@[simp] theorem contains_iff {r : Range} {a : UInt32} :
    r.contains a = true ↔
      a.toNat % 4 = 0 ∧ r.first.toNat ≤ a.toNat ∧ a.toNat ≤ r.last.toNat := by
  simp [contains, and_assoc]

@[simp] theorem mask_read (r : Range) : r.mask .read = r.readMask := rfl

@[simp] theorem mask_write (r : Range) : r.mask .write = r.writeMask := rfl

theorem span?_isSome_iff {r : Range} :
    r.span?.isSome = true ↔
      r.first.toNat ≤ r.last.toNat ∧ r.last.toNat + 4 < UInt32.size := by
  unfold span?
  split <;> simp_all

theorem span?_eq_some_iff {r : Range} {s : Block} :
    r.span? = some s ↔
      s.start = r.first ∧ s.limit = r.last.toNat + 4 ∧ r.first.toNat ≤ r.last.toNat ∧
        s.limit < UInt32.size := by
  obtain ⟨start, length⟩ := s
  have size : UInt32.size = 4294967296 := rfl
  unfold span?
  split
  · rename_i h
    have hl : r.last.toNat - r.first.toNat + 4 < UInt32.size := by omega
    simp only [Option.some.injEq, Block.mk.injEq, Block.limit, ← UInt32.toNat_inj,
      UInt32.toNat_ofNat_of_lt' hl]
    omega
  · rename_i h
    simp only [reduceCtorEq, Block.limit, false_iff]
    omega

end Range
end SeparationKernel.Register
