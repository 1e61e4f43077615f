/-! Masks over the 32 bits of a register, and the two directions of access. -/
namespace SeparationKernel

inductive Access where
  | read
  | write
deriving DecidableEq, Repr

namespace Register

/-- The bits of a register that may be touched. -/
structure Mask where
  bits : UInt32
deriving DecidableEq, Repr

namespace Mask

def none : Mask := ⟨0⟩

def all : Mask := ⟨0xFFFFFFFF⟩

/-- No bit of `bits` lies outside the mask. -/
def permits (m : Mask) (bits : UInt32) : Bool := bits &&& ~~~m.bits == 0

def Includes (m : Mask) (bits : UInt32) : Prop :=
  ∀ i, bits.toNat.testBit i = true → m.bits.toNat.testBit i = true

/-- The other mask is part of this one. -/
def covers (m other : Mask) : Bool := m.permits other.bits

@[simp] theorem permits_iff {m : Mask} {bits : UInt32} :
    m.permits bits = true ↔ bits &&& ~~~m.bits = 0 := by
  simp [permits]

theorem permits_iff_includes {m : Mask} {bits : UInt32} :
    m.permits bits = true ↔ m.Includes bits := by
  rw [permits_iff, ← UInt32.toBitVec_inj]
  constructor
  · intro outside i held
    have lt : i < 32 := by
      refine Nat.lt_of_not_le fun le => ?_
      have small : bits.toNat < 2 ^ i :=
        Nat.lt_of_lt_of_le bits.toNat_lt (Nat.pow_le_pow_right (by decide) le)
      rw [Nat.testBit_lt_two_pow small] at held
      cases held
    have bit := congrArg (·.getLsbD i) outside
    simp only [UInt32.toBitVec_and, UInt32.toBitVec_not, BitVec.getLsbD_and, BitVec.getLsbD_not,
      lt, decide_true, Bool.true_and, UInt32.toBitVec_ofNat, BitVec.getLsbD_zero,
      Bool.and_eq_false_imp, Bool.not_eq_false'] at bit
    exact bit held
  · intro inside
    refine BitVec.eq_of_getLsbD_eq fun i lt => ?_
    simp only [UInt32.toBitVec_and, UInt32.toBitVec_not, BitVec.getLsbD_and, BitVec.getLsbD_not,
      lt, decide_true, Bool.true_and, UInt32.toBitVec_ofNat, BitVec.getLsbD_zero,
      Bool.and_eq_false_imp, Bool.not_eq_false']
    exact inside i

@[simp] theorem permits_zero (m : Mask) : m.permits 0 = true := by
  simp [permits]

end Mask
end Register
end SeparationKernel
