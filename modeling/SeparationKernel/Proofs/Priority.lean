import Mathlib
import SeparationKernel.Priority

/-! Importance orders the priorities, of which there are finitely many. -/
namespace SeparationKernel
namespace Priority

def all : List Priority := (List.range 256).map fun n => ⟨UInt8.ofNat n⟩

theorem mem_all (p : Priority) : p ∈ all := by
  refine List.mem_map.2 ⟨p.level.toNat, List.mem_range.2 p.level.toNat_lt, ?_⟩
  simp

theorem pairwise_all : all.Pairwise fun p q => p.isMoreImportantThan q = true := by
  rw [all, List.pairwise_map]
  refine List.pairwise_lt_range.imp_of_mem fun {m n} hm hn lt => ?_
  have small := List.mem_range.1 hm
  have small' := List.mem_range.1 hn
  simp [Nat.mod_eq_of_lt small, Nat.mod_eq_of_lt small', lt]

theorem not_isMoreImportantThan_self (p : Priority) : p.isMoreImportantThan p = false := by
  simp [isMoreImportantThan]

theorem not_isMoreImportantThan_of_isMoreImportantThan {p q : Priority}
    (h : p.isMoreImportantThan q = true) : q.isMoreImportantThan p = false := by
  rw [← Bool.not_eq_true]
  rw [isMoreImportantThan_iff] at *
  omega

theorem eq_of_not_isMoreImportantThan {p q : Priority} (h : p.isMoreImportantThan q = false)
    (h' : q.isMoreImportantThan p = false) : p = q := by
  rw [← Bool.not_eq_true, isMoreImportantThan_iff] at h h'
  exact level_inj.1 (by omega)

end Priority

end SeparationKernel
