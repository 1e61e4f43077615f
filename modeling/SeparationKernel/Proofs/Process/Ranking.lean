import Mathlib
import SeparationKernel.Proofs.Process.Table

/-! Elections as choices of a least element. The process that is elected comes first by priority,
place in the queue and slot, and repeated elections put all processes in this order. -/
namespace SeparationKernel
namespace Process

/-- What a process in a slot is elected by: its priority, its place in the queue, then its slot. -/
def rank (c : Nat × Process) : ℕ ×ₗ ℕ ×ₗ ℕ :=
  toLex (c.2.priority.level.toNat, toLex (c.2.queuedAt, c.1))

variable {c d : Nat × Process}

theorem rank_lt_iff :
    rank c < rank d ↔ c.2.precedes d.2 = true ∨ d.2.precedes c.2 = false ∧ c.1 < d.1 := by
  rw [rank, rank, Prod.Lex.toLex_lt_toLex, Prod.Lex.toLex_lt_toLex, ← Bool.not_eq_true,
    precedes_iff_level, precedes_iff_level]
  omega

/-- Where processes are listed by slots, the one that goes first comes before all others. -/
theorem rank_foremost_lt {cs : List (Nat × Process)} (slots : cs.Pairwise fun x y => x.1 < y.1)
    (first : foremost cs = some c) : ∀ d ∈ cs, d ≠ c → rank c < rank d := by
  induction cs generalizing c with
  | nil => simp
  | cons a cs ih =>
    obtain ⟨before, slots⟩ := List.pairwise_cons.1 slots
    simp only [foremost_cons] at first
    split at first
    · rename_i nobody
      obtain rfl : a = c := Option.some.inj first
      simp [foremost_eq_none_iff.1 nobody]
    · rename_i b found
      have rest := ih slots found
      have b_mem := mem_of_foremost found
      split at first
      · rename_i earlier
        obtain rfl : b = c := Option.some.inj first
        have leads : rank b < rank a := rank_lt_iff.2 (Or.inl earlier)
        intro d mem other
        rcases List.mem_cons.1 mem with rfl | mem
        · exact leads
        · exact rest d mem other
      · -- the head keeps its place against the best of the rest, and against a tie by its slot
        rename_i later
        obtain rfl : a = c := Option.some.inj first
        have leads : rank a < rank b :=
          rank_lt_iff.2 (Or.inr ⟨by simpa using later, before b b_mem⟩)
        intro d mem other
        rcases List.mem_cons.1 mem with rfl | mem
        · exact absurd rfl other
        · by_cases same : d = b
          · exact same ▸ leads
          · exact leads.trans (rest d mem same)

end Process

namespace ProcessTable

open Process (rank)

variable {t : ProcessTable} {eligible : Nat → Process → Bool} {i : Nat} {p : Process}

theorem rank_elect_lt (elected : t.elect eligible = some (i, p)) {j : Nat} {q : Process}
    (held : t.get? j = some q) (able : eligible j q = true) (other : (j, q) ≠ (i, p)) :
    rank (i, p) < rank (j, q) := by
  refine Process.rank_foremost_lt (t.pairwise_occupied.filter _) elected (j, q) ?_ other
  exact List.mem_filter.2 ⟨mem_occupied.2 held, able⟩

/-- Who is elected is the least of those that are eligible. -/
theorem elect_eq_some_iff :
    t.elect eligible = some (i, p) ↔ t.get? i = some p ∧ eligible i p = true ∧
      ∀ j q, t.get? j = some q → eligible j q = true → rank (i, p) ≤ rank (j, q) := by
  constructor
  · intro elected
    obtain ⟨held, able, _⟩ := elect_eq_some elected
    refine ⟨held, able, fun j q held' able' => ?_⟩
    by_cases same : (j, q) = (i, p)
    · rw [same]
    · exact (rank_elect_lt elected held' able' same).le
  · rintro ⟨held, able, least⟩
    cases elected : t.elect eligible with
    | none => simp [elect_eq_none_iff.1 elected i p held] at able
    | some c =>
      obtain ⟨j, q⟩ := c
      obtain ⟨held', able', _⟩ := elect_eq_some elected
      by_contra other
      have lt := rank_elect_lt elected held able fun same => other (by rw [same])
      exact absurd (least j q held' able') (not_le_of_gt lt)

def remaining (t : ProcessTable) (eligible : Nat → Process → Bool) (found : List Nat) :
    List (Nat × Process) :=
  t.occupied.filter fun (i, p) => eligible i p && !found.contains i

variable {found : List Nat}

theorem mem_remaining :
    (i, p) ∈ t.remaining eligible found ↔
      t.get? i = some p ∧ eligible i p = true ∧ i ∉ found := by
  simp [remaining, mem_occupied]

theorem remaining_perm (mem : (i, p) ∈ t.remaining eligible found) :
    (t.remaining eligible found).Perm ((i, p) :: t.remaining eligible (i :: found)) := by
  have held := (mem_remaining.1 mem).1
  have single : (t.remaining eligible found).filter (·.1 == i) = [(i, p)] := by
    have slots : ((t.remaining eligible found).filter (·.1 == i)).Pairwise fun c d => c.1 < d.1 :=
      (t.pairwise_occupied.filter _).filter _
    refine eq_of_pairwise_lt slots (List.pairwise_singleton _ _) fun ⟨j, q⟩ => ?_
    rw [List.mem_filter, beq_iff_eq, List.mem_singleton, Prod.mk.injEq]
    constructor
    · rintro ⟨mem', rfl⟩
      exact ⟨rfl, Option.some.inj ((mem_remaining.1 mem').1.symm.trans held)⟩
    · rintro ⟨rfl, rfl⟩
      exact ⟨mem, rfl⟩
  have others : (t.remaining eligible found).filter (fun c => !(c.1 == i)) =
      t.remaining eligible (i :: found) := by
    rw [remaining, remaining, List.filter_filter]
    refine List.filter_congr fun ⟨j, q⟩ _ => ?_
    simp [Bool.and_left_comm, Bool.beq_eq_decide_eq]
  have split := List.filter_append_perm (·.1 == i) (t.remaining eligible found)
  rw [single, others] at split
  exact split.symm

theorem ranking_go_spec (t : ProcessTable) (eligible : Nat → Process → Bool) {n : Nat}
    (enough : (t.remaining eligible found).length ≤ n) :
    (ranking.go t eligible n found).Perm (t.remaining eligible found) ∧
      (ranking.go t eligible n found).Pairwise fun c d => rank c < rank d := by
  induction n generalizing found with
  | zero =>
    rw [List.length_eq_zero_iff.1 (Nat.le_zero.1 enough), ranking.go]
    exact ⟨.nil, .nil⟩
  | succ n ih =>
    rw [ranking.go]
    split
    · rename_i nobody
      have empty : t.remaining eligible found = [] := Process.foremost_eq_none_iff.1 nobody
      rw [empty]
      exact ⟨.nil, .nil⟩
    · rename_i i p elected
      have mem : (i, p) ∈ t.remaining eligible found := Process.mem_of_foremost elected
      have perm := remaining_perm mem
      have fewer : (t.remaining eligible (i :: found)).length ≤ n := by
        have length := perm.length_eq
        rw [List.length_cons] at length
        omega
      obtain ⟨rest, sorted⟩ := ih fewer
      refine ⟨(rest.cons _).trans perm.symm, List.pairwise_cons.2 ⟨fun ⟨j, q⟩ later => ?_, sorted⟩⟩
      obtain ⟨held, able, fresh⟩ := mem_remaining.1 (rest.mem_iff.1 later)
      rw [List.mem_cons, not_or] at fresh
      refine rank_elect_lt elected held (by simp [able, fresh.2]) fun same => ?_
      exact fresh.1 (Prod.mk.inj same).1

theorem length_occupied_le (t : ProcessTable) : t.occupied.length ≤ t.slots.length := by
  have le : t.occupied.length ≤ t.slots.zipIdx.length := List.length_filterMap_le _ _
  rwa [List.length_zipIdx] at le

theorem ranking_spec (t : ProcessTable) (eligible : Nat → Process → Bool) :
    (t.ranking eligible).Perm (t.occupied.filter fun (i, p) => eligible i p) ∧
      (t.ranking eligible).Pairwise fun c d => rank c < rank d := by
  have all : t.remaining eligible [] = t.occupied.filter fun (i, p) => eligible i p := by
    simp [remaining]
  have enough : (t.remaining eligible []).length ≤ t.slots.length :=
    (List.length_filter_le _ _).trans t.length_occupied_le
  rw [← all]
  exact ranking_go_spec t eligible enough

/-- An election finds nobody if nobody is eligible, and else the one that is least by priority,
place in the queue and slot, whether or not places are distinct. So elections that are repeated,
each leaving out the slots found before, list every eligible process once, in this order. -/
theorem elections_rank_all (t : ProcessTable) (eligible : Nat → Process → Bool) :
    (t.elect eligible = none ↔ ∀ i p, t.get? i = some p → eligible i p = false) ∧
      (∀ i p, t.elect eligible = some (i, p) ↔ t.get? i = some p ∧ eligible i p = true ∧
        ∀ j q, t.get? j = some q → eligible j q = true → rank (i, p) ≤ rank (j, q)) ∧
      ((t.ranking eligible).Pairwise fun c d => rank c < rank d) ∧
      ∀ i p, (t.ranking eligible).count (i, p) =
        if t.get? i = some p ∧ eligible i p = true then 1 else 0 := by
  obtain ⟨perm, sorted⟩ := t.ranking_spec eligible
  refine ⟨elect_eq_none_iff, fun i p => elect_eq_some_iff, sorted, fun i p => ?_⟩
  have nodup : (t.ranking eligible).Nodup := sorted.imp fun lt same => (same ▸ lt).false
  have mem : (i, p) ∈ t.ranking eligible ↔ t.get? i = some p ∧ eligible i p = true := by
    rw [perm.mem_iff, List.mem_filter, mem_occupied]
  split
  · rename_i listed
    exact List.count_eq_one_of_mem nodup (mem.2 listed)
  · rename_i missing
    exact List.count_eq_zero.2 fun found => missing (mem.1 found)

end ProcessTable
end SeparationKernel
