/-! Scheduling priorities. Zero is the most important one. -/
namespace SeparationKernel

structure Priority where
  level : UInt8
deriving DecidableEq, Repr

namespace Priority

/-- Strictly: no priority is more important than itself. -/
def isMoreImportantThan (p q : Priority) : Bool := decide (p.level.toNat < q.level.toNat)

@[simp] theorem isMoreImportantThan_iff {p q : Priority} :
    p.isMoreImportantThan q = true ↔ p.level.toNat < q.level.toNat := by
  simp [isMoreImportantThan]

theorem level_inj {p q : Priority} : p.level.toNat = q.level.toNat ↔ p = q := by
  cases p; cases q; simp [UInt8.toNat_inj]

end Priority
end SeparationKernel
