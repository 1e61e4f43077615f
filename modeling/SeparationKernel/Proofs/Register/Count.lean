import Mathlib
import SeparationKernel.Proofs.Register.Table

/-! The count of registers. Ranges that share no byte hold no more registers than the address space
has words, so the word arithmetic of the count never wraps, and what it counts are the addresses at
which a range is found. -/
namespace SeparationKernel.Register

theorem toNat_foldr_add {words : List UInt32} (fits : (words.map (·.toNat)).sum < UInt32.size) :
    (words.foldr (· + ·) 0).toNat = (words.map (·.toNat)).sum := by
  induction words with
  | nil => rfl
  | cons word words ih =>
    rw [List.map_cons, List.sum_cons] at fits ⊢
    rw [List.foldr_cons, UInt32.toNat_add, ih (by omega)]
    exact Nat.mod_eq_of_lt fits

namespace Range

def registers (r : Range) : Set UInt32 := {a | r.contains a = true}

variable {r s : Range}

theorem mem_registers {a : UInt32} :
    a ∈ r.registers ↔ a.toNat % 4 = 0 ∧ r.first.toNat ≤ a.toNat ∧ a.toNat ≤ r.last.toNat :=
  contains_iff

theorem toNat_count (ordered : r.first.toNat ≤ r.last.toNat) :
    r.count.toNat = (r.last.toNat - r.first.toNat) / 4 + 1 := by
  have lt := r.last.toNat_lt
  have difference : (r.last - r.first).toNat = r.last.toNat - r.first.toNat :=
    UInt32.toNat_sub_of_le _ _ ordered
  rw [count, UInt32.toNat_add, UInt32.toNat_div, difference]
  exact Nat.mod_eq_of_lt (by simp only [UInt32.reduceToNat]; omega)

theorem IsProper.four_mul_count (h : r.IsProper) :
    r.first.toNat + 4 * r.count.toNat = r.last.toNat + 4 := by
  have first_aligned := h.first_aligned
  have last_aligned := h.last_aligned
  have ordered := h.first_le_last
  rw [toNat_count ordered]
  omega

theorem IsProper.registers_eq (h : r.IsProper) :
    r.registers = (fun k => UInt32.ofNat (r.first.toNat + 4 * k)) '' Set.Iio r.count.toNat := by
  have aligned := h.first_aligned
  have total := h.four_mul_count
  have last_lt := h.last_lt
  ext a
  rw [mem_registers, Set.mem_image]
  constructor
  · rintro ⟨word, above, below⟩
    refine ⟨(a.toNat - r.first.toNat) / 4, Set.mem_Iio.2 (by omega), ?_⟩
    have place : r.first.toNat + 4 * ((a.toNat - r.first.toNat) / 4) = a.toNat := by omega
    rw [place, UInt32.ofNat_toNat]
  · rintro ⟨k, lt, rfl⟩
    have lt : k < r.count.toNat := lt
    rw [UInt32.toNat_ofNat_of_lt' (by omega)]
    omega

theorem IsProper.encard_registers (h : r.IsProper) : r.registers.encard = r.count.toNat := by
  have total := h.four_mul_count
  have last_lt := h.last_lt
  have apart : Set.InjOn (fun k => UInt32.ofNat (r.first.toNat + 4 * k))
      (Set.Iio r.count.toNat) := by
    intro j j_lt k k_lt same
    have j_lt : j < r.count.toNat := j_lt
    have k_lt : k < r.count.toNat := k_lt
    have same := congrArg UInt32.toNat same
    rw [UInt32.toNat_ofNat_of_lt' (by omega), UInt32.toNat_ofNat_of_lt' (by omega)] at same
    omega
  rw [h.registers_eq, apart.encard_image, ← Finset.coe_range, Set.encard_coe_eq_coe_finsetCard,
    Finset.card_range]

theorem Precedes.disjoint_registers (h : r.Precedes s) : Disjoint r.registers s.registers :=
  Set.disjoint_left.2 fun _ left right => h.not_contains ⟨left, right⟩

end Range

namespace Table

open Range (Precedes IsProper)

variable {t : Table} {ranges : List Range}

/-- Ranges in order that start at `bound` or later have the words from there on to share. -/
theorem four_mul_sum_count_le (bound : Nat) (proper : ∀ r ∈ ranges, r.IsProper)
    (sorted : ranges.Pairwise Precedes) (above : ∀ r ∈ ranges, bound ≤ r.first.toNat)
    (bound_le : bound ≤ UInt32.size) :
    bound + 4 * (ranges.map (·.count.toNat)).sum ≤ UInt32.size := by
  induction ranges generalizing bound with
  | nil => exact bound_le
  | cons r ranges ih =>
    obtain ⟨r_proper, proper⟩ := List.forall_mem_cons.1 proper
    obtain ⟨precedes, sorted⟩ := List.pairwise_cons.1 sorted
    have starts := above r (by simp)
    have total := r_proper.four_mul_count
    -- the next whole word after `r` is the bound of the others
    have rest := ih (r.last.toNat + 4) proper sorted
      (fun s mem => by
        have aligned := (proper s mem).first_aligned
        have last_aligned := r_proper.last_aligned
        have later : r.last.toNat < s.first.toNat := precedes s mem
        omega)
      r_proper.last_lt.le
    rw [List.map_cons, List.sum_cons]
    omega

/-- Ranges in order hold as many registers as their counts add up to. -/
theorem encard_iUnion_registers (proper : ∀ r ∈ ranges, r.IsProper)
    (sorted : ranges.Pairwise Precedes) :
    {a | ∃ r ∈ ranges, r.contains a = true}.encard = ((ranges.map (·.count.toNat)).sum : Nat) := by
  induction ranges with
  | nil => simp
  | cons r ranges ih =>
    obtain ⟨r_proper, proper⟩ := List.forall_mem_cons.1 proper
    obtain ⟨precedes, sorted⟩ := List.pairwise_cons.1 sorted
    have parts : {a | ∃ s ∈ r :: ranges, s.contains a = true} =
        r.registers ∪ {a | ∃ s ∈ ranges, s.contains a = true} := by
      ext a
      simp [Range.registers]
    have apart : Disjoint r.registers {a | ∃ s ∈ ranges, s.contains a = true} :=
      Set.disjoint_left.2 fun a left ⟨s, mem, right⟩ =>
        Set.disjoint_left.1 (precedes s mem).disjoint_registers left right
    rw [parts, Set.encard_union_eq apart, r_proper.encard_registers, ih proper sorted,
      List.map_cons, List.sum_cons, Nat.cast_add]

theorem Lawful.sum_count_lt (h : t.Lawful) :
    (t.ranges.toList.map (·.count.toNat)).sum < UInt32.size := by
  have le := four_mul_sum_count_le 0 h.proper h.sorted (fun _ _ => Nat.zero_le _)
    (Nat.zero_le _)
  have size : UInt32.size = 4294967296 := rfl
  omega

theorem Lawful.toNat_registerCount (h : t.Lawful) :
    t.registerCount.toNat = (t.ranges.toList.map (·.count.toNat)).sum := by
  have fits := h.sum_count_lt
  have each : (t.ranges.toList.map (·.count)).map (·.toNat) =
      t.ranges.toList.map (·.count.toNat) := List.map_map
  rw [← each] at fits ⊢
  exact toNat_foldr_add fits

theorem Lawful.isSome_lookup_iff (h : t.Lawful) {a : UInt32} :
    (t.lookup a).isSome = true ↔ ∃ r ∈ t.ranges.toList, r.contains a = true := by
  rw [h.lookup_eq, List.find?_isSome]

/-- Whatever ranges have been offered to a table, under whatever layouts: the count of each range
and the sum of the counts fit in a word, so that the word arithmetic of the register count gives
the sum itself, and this is how many of all addresses a range is found for. -/
theorem built_count_exact (offers : List (Layout × Range)) :
    (∀ r ∈ (built offers).ranges,
        r.count.toNat = (r.last.toNat - r.first.toNat) / 4 + 1) ∧
      ((built offers).ranges.toList.map (·.count.toNat)).sum < UInt32.size ∧
      (built offers).registerCount.toNat =
        ((built offers).ranges.toList.map (·.count.toNat)).sum ∧
      {a | ((built offers).lookup a).isSome = true}.encard =
        ((built offers).registerCount.toNat : ℕ∞) := by
  have lawful : (built offers).Lawful := lawful_empty.after offers
  refine ⟨fun r mem => ?_, lawful.sum_count_lt, lawful.toNat_registerCount, ?_⟩
  · exact Range.toNat_count (lawful.proper r (Array.mem_toList_iff.2 mem)).first_le_last
  · simp only [lawful.isSome_lookup_iff]
    rw [encard_iUnion_registers lawful.proper lawful.sorted, lawful.toNat_registerCount]

/-- Three registers and two below them. The range in between shares one with the first. -/
example :
    let t := built [({}, ⟨0x40000010, 0x40000018, .all, .none⟩),
      ({}, ⟨0x40000000, 0x40000004, .all, .all⟩), ({}, ⟨0x40000008, 0x40000010, .all, .none⟩)]
    t.ranges.toList.map (·.count) = [2, 3] ∧ t.registerCount = 5 ∧
      (t.lookup 0x40000004).isSome = true ∧ (t.lookup 0x4000000C).isSome = false := by
  decide +kernel

end Table
end SeparationKernel.Register
