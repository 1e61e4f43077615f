/-! Kernel time. It counts systicks from the start of the session and stands still at its last
value. -/
namespace SeparationKernel

structure Timestamp where
  ticks : UInt64
deriving DecidableEq, Repr

namespace Timestamp

def zero : Timestamp := ⟨0⟩

/-- The time `n` systicks later, or the last one there is. -/
def after (t : Timestamp) (n : UInt32) : Timestamp :=
  ⟨UInt64.ofNat (min (t.ticks.toNat + n.toNat) (UInt64.size - 1))⟩

def next (t : Timestamp) : Timestamp := t.after 1

def hasCome (t now : Timestamp) : Bool := decide (t.ticks.toNat ≤ now.ticks.toNat)

@[simp] theorem toNat_after (t : Timestamp) (n : UInt32) :
    (t.after n).ticks.toNat = min (t.ticks.toNat + n.toNat) (UInt64.size - 1) := by
  rw [after, UInt64.toNat_ofNat_of_lt']
  exact Nat.lt_of_le_of_lt (Nat.min_le_right _ _) (by decide)

@[simp] theorem toNat_next (t : Timestamp) :
    t.next.ticks.toNat = min (t.ticks.toNat + 1) (UInt64.size - 1) := by
  simp [next]

@[simp] theorem hasCome_iff {t now : Timestamp} :
    t.hasCome now = true ↔ t.ticks.toNat ≤ now.ticks.toNat := by
  simp [hasCome]

end Timestamp
end SeparationKernel
