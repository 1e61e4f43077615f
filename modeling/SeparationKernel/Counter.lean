/-! Counters of systicks. They stand still at their ends. -/
namespace SeparationKernel.Counter

def up (n : UInt32) : UInt32 := if n = 0xFFFFFFFF then n else n + 1

def down (n : UInt32) : UInt32 := if n = 0 then n else n - 1

@[simp] theorem toNat_up (n : UInt32) : (up n).toNat = min (n.toNat + 1) (UInt32.size - 1) := by
  have hn := n.toNat_lt
  have size : UInt32.size = 4294967296 := rfl
  have last : (0xFFFFFFFF : UInt32).toNat = UInt32.size - 1 := rfl
  unfold up
  split
  · rename_i h
    rw [h, last]
    rfl
  · rename_i h
    have : n.toNat ≠ UInt32.size - 1 := fun e => h (UInt32.toNat_inj.1 (e.trans last.symm))
    have one : (1 : UInt32).toNat = 1 := rfl
    rw [UInt32.toNat_add, one, Nat.mod_eq_of_lt (by omega)]
    omega

@[simp] theorem toNat_down (n : UInt32) : (down n).toNat = n.toNat - 1 := by
  unfold down
  split
  · simp_all
  · rename_i h
    have : n.toNat ≠ 0 := fun e => h (UInt32.toNat_inj.1 (by simpa using e))
    have one : (1 : UInt32).toNat = 1 := rfl
    rw [UInt32.toNat_sub_of_le, one]
    rw [UInt32.le_iff_toNat_le, one]
    omega

end SeparationKernel.Counter
