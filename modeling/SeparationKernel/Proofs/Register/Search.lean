import Mathlib
import SeparationKernel.Register.Table

/-! Search by halves: on an array that a predicate cuts in two, it finds the cut. -/
namespace SeparationKernel.Register

variable {α : Type} {p : α → Bool}

theorem partitionBetween_eq {xs : Array α} {cut lo hi : Nat}
    (turns : ∀ (i : Nat) x, xs[i]? = some x → (p x = true ↔ i < cut)) (lo_le : lo ≤ cut)
    (le_hi : cut ≤ hi) (hi_le : hi ≤ xs.size) : partitionBetween p xs lo hi = cut := by
  -- the cut stays between the bounds
  fun_induction partitionBetween p xs lo hi with
  | case1 lo hi lt mid x found holds ih =>
    have below : mid < cut := (turns mid x found).1 holds
    exact ih (by omega) le_hi hi_le
  | case2 lo hi lt mid x found fails ih =>
    have above : ¬mid < cut := fun below => fails ((turns mid x found).2 below)
    exact ih lo_le (by omega) (by omega)
  | case3 lo hi lt mid missing ih =>
    have inside : mid < xs.size := by omega
    rw [Array.getElem?_eq_getElem inside] at missing
    cases missing
  | case4 lo hi done => omega

theorem partitionPoint_eq {xs : Array α} {pre post : List α} (parts : xs.toList = pre ++ post)
    (holds : ∀ x ∈ pre, p x = true) (fails : ∀ x ∈ post, p x = false) :
    partitionPoint p xs = pre.length := by
  have size : xs.size = pre.length + post.length := by
    rw [← Array.length_toList, parts, List.length_append]
  refine partitionBetween_eq (fun i x found => ?_) (Nat.zero_le _) (by omega) le_rfl
  rw [← Array.getElem?_toList, parts] at found
  by_cases before : i < pre.length
  · rw [List.getElem?_append_left before] at found
    exact iff_of_true (holds x (List.mem_of_getElem? found)) before
  · rw [List.getElem?_append_right (by omega)] at found
    have fails := fails x (List.mem_of_getElem? found)
    exact iff_of_false (by simp [fails]) before

/-- A predicate that never comes back cuts a list in two. -/
theorem exists_cut {R : α → α → Prop} {xs : List α} (sorted : xs.Pairwise R)
    (stays : ∀ x y, R x y → p y = true → p x = true) :
    ∃ pre post, xs = pre ++ post ∧ (∀ x ∈ pre, p x = true) ∧ ∀ x ∈ post, p x = false := by
  induction xs with
  | nil => exact ⟨[], [], rfl, by simp, by simp⟩
  | cons x xs ih =>
    obtain ⟨head, tail⟩ := List.pairwise_cons.1 sorted
    by_cases holds : p x = true
    · obtain ⟨pre, post, rfl, all, none⟩ := ih tail
      refine ⟨x :: pre, post, rfl, fun y mem => ?_, none⟩
      rcases List.mem_cons.1 mem with rfl | mem
      · exact holds
      · exact all y mem
    · refine ⟨[], x :: xs, rfl, by simp, fun y mem => Bool.eq_false_iff.2 fun held => ?_⟩
      rcases List.mem_cons.1 mem with rfl | mem
      · exact holds held
      · exact holds (stays x y (head y mem) held)

end SeparationKernel.Register
