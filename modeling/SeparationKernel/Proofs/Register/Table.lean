import Mathlib
import SeparationKernel.Proofs.Block
import SeparationKernel.Proofs.Register.Search

/-! The register table at any time: its ranges stand in order and share no byte, so comparing
neighbours finds every overlap, and a search by halves every range. -/
namespace SeparationKernel.Register
namespace Range

def Holds (r : Range) (x : UInt32) : Prop :=
  ∃ span, r.span? = some span ∧ span.containsAddress x = true

/-- Whole words, first to last, that end below the top of the address space. -/
structure IsProper (r : Range) : Prop where
  first_aligned : r.first.toNat % 4 = 0
  last_aligned : r.last.toNat % 4 = 0
  first_le_last : r.first.toNat ≤ r.last.toNat
  last_lt : r.last.toNat + 4 < UInt32.size

def Precedes (r s : Range) : Prop := r.last.toNat < s.first.toNat

/-- What a range has to pass, whatever the table holds. -/
structure IsAdmitted (l : Layout) (r : Range) (span : Block) : Prop where
  first_aligned : r.first.toNat % 4 = 0
  last_aligned : r.last.toNat % 4 = 0
  spans : r.span? = some span
  space : ∃ space ∈ l.registerSpaces, space.contains span = true
  clear : ∀ window ∈ l.kernelRegisters, window.overlaps span = false

variable {r s : Range} {span : Block} {l : Layout}

theorem IsProper.exists_span (h : r.IsProper) : ∃ span, r.span? = some span :=
  Option.isSome_iff_exists.1 (span?_isSome_iff.2 ⟨h.first_le_last, h.last_lt⟩)

theorem isProper_of_span (first_aligned : r.first.toNat % 4 = 0)
    (last_aligned : r.last.toNat % 4 = 0) (found : r.span? = some span) : r.IsProper := by
  obtain ⟨_, limit, ordered, lt⟩ := span?_eq_some_iff.1 found
  exact ⟨first_aligned, last_aligned, ordered, limit ▸ lt⟩

theorem IsAdmitted.isProper (h : r.IsAdmitted l span) : r.IsProper :=
  isProper_of_span h.first_aligned h.last_aligned h.spans

theorem length_span_ne_zero (found : r.span? = some span) : span.length.toNat ≠ 0 := by
  obtain ⟨start, limit, ordered, _⟩ := span?_eq_some_iff.1 found
  rw [Block.limit, start] at limit
  omega

theorem overlaps_span_iff {other : Block} (r_proper : r.IsProper) (s_proper : s.IsProper)
    (r_span : r.span? = some span) (s_span : s.span? = some other) :
    span.overlaps other = false ↔ r.Precedes s ∨ s.Precedes r := by
  obtain ⟨r_start, r_limit, _, _⟩ := span?_eq_some_iff.1 r_span
  obtain ⟨s_start, s_limit, _, _⟩ := span?_eq_some_iff.1 s_span
  have r_first := r_proper.first_aligned
  have r_last := r_proper.last_aligned
  have s_first := s_proper.first_aligned
  have s_last := s_proper.last_aligned
  rw [← Bool.not_eq_true, Block.overlaps_iff, r_start, r_limit, s_start, s_limit, Precedes,
    Precedes]
  omega

theorem shares_iff (r_proper : r.IsProper) (s_proper : s.IsProper) :
    (∃ x, r.Holds x ∧ s.Holds x) ↔ ¬(r.Precedes s ∨ s.Precedes r) := by
  obtain ⟨span, r_span⟩ := r_proper.exists_span
  obtain ⟨other, s_span⟩ := s_proper.exists_span
  rw [← overlaps_span_iff r_proper s_proper r_span s_span, Bool.not_eq_false,
    Block.overlaps_iff_shares (length_span_ne_zero r_span) (length_span_ne_zero s_span)]
  simp [Holds, r_span, s_span, Block.Shares]

theorem Precedes.not_contains (h : r.Precedes s) {a : UInt32}
    (both : r.contains a = true ∧ s.contains a = true) : False := by
  have bounds := contains_iff.1 both.1
  have bounds' := contains_iff.1 both.2
  rw [Precedes] at h
  omega

end Range

namespace Table

open Range (Precedes IsProper IsAdmitted Holds)

/-- The ranges are proper, and stand in order. -/
structure Lawful (t : Table) : Prop where
  proper : ∀ r ∈ t.ranges.toList, r.IsProper
  sorted : t.ranges.toList.Pairwise Precedes

/-- The table after ranges have been offered, each under the layout of its time. -/
def after (t : Table) (offers : List (Layout × Range)) : Table :=
  offers.foldl (fun t (l, r) => (t.authorize l r).2) t

def built (offers : List (Layout × Range)) : Table := after {} offers

variable {t : Table} {l : Layout} {r : Range} {span : Block} {a : UInt32}

theorem checkSpan_eq_ok :
    checkSpan l r span = .ok () ↔ (∃ space ∈ l.registerSpaces, space.contains span = true) ∧
      ∀ window ∈ l.kernelRegisters, window.overlaps span = false := by
  simp only [checkSpan, Verdict.all_cons_eq_ok, Verdict.all_nil_eq_ok, and_true,
    Verdict.require_eq_ok, List.any_eq_true, Verdict.each_eq_ok, Bool.not_eq_true']

theorem check_eq (admitted : r.IsAdmitted l span) : t.check l r = t.checkNeighbours r span := by
  have spaces : checkSpan l r span = .ok () := checkSpan_eq_ok.2 ⟨admitted.space, admitted.clear⟩
  simp [check, admitted.first_aligned, admitted.last_aligned, admitted.spans, spaces,
    Verdict.require, Verdict.andThen]

theorem check_eq_ok :
    t.check l r = .ok () ↔ ∃ span, r.IsAdmitted l span ∧ t.checkNeighbours r span = .ok () := by
  constructor
  · intro accepted
    cases spans : r.span? with
    | none => simp [check, spans] at accepted
    | some span =>
      simp only [check, spans, Verdict.andThen_eq_ok, Verdict.require_eq_ok, Bool.and_eq_true,
        beq_iff_eq, checkSpan_eq_ok] at accepted
      obtain ⟨⟨first, last⟩, ⟨space, clear⟩, neighbours⟩ := accepted
      exact ⟨span, ⟨first, last, spans, space, clear⟩, neighbours⟩
  · rintro ⟨span, admitted, neighbours⟩
    rw [check_eq admitted, neighbours]

theorem neighbours_eq {pre post : List Range} (parts : t.ranges.toList = pre ++ post) :
    t.neighbours pre.length = pre.getLast?.toList ++ post.head?.toList := by
  have after : t.ranges[pre.length]? = post.head? := by
    rw [← Array.getElem?_toList, parts, List.getElem?_append_right le_rfl, Nat.sub_self,
      List.head?_eq_getElem?]
  rw [neighbours, after]
  by_cases empty : pre.length = 0
  · rw [if_pos empty, List.length_eq_zero_iff.1 empty]
    rfl
  · have before : t.ranges[pre.length - 1]? = pre.getLast? := by
      rw [← Array.getElem?_toList, parts, List.getElem?_append_left (by omega),
        List.getLast?_eq_getElem?]
    rw [if_neg empty, before]

theorem Lawful.firsts (h : t.Lawful) :
    t.ranges.toList.Pairwise fun r s => r.first.toNat < s.first.toNat := by
  refine h.sorted.imp_of_mem fun {r s} r_mem _ precedes => ?_
  exact Nat.lt_of_le_of_lt (h.proper r r_mem).first_le_last precedes

theorem Lawful.exists_place (h : t.Lawful) (a : UInt32) :
    ∃ pre post, t.ranges.toList = pre ++ post ∧ (∀ q ∈ pre, q.first.toNat < a.toNat) ∧
      (∀ q ∈ post, a.toNat ≤ q.first.toNat) ∧ t.place a = pre.length := by
  obtain ⟨pre, post, parts, below, above⟩ := exists_cut
    (p := fun r : Range => decide (r.first.toNat < a.toNat)) h.firsts fun x y lt held => by
      rw [decide_eq_true_eq] at held ⊢
      exact lt.trans held
  refine ⟨pre, post, parts, fun q mem => of_decide_eq_true (below q mem), fun q mem => ?_,
    partitionPoint_eq parts below above⟩
  exact Nat.le_of_not_lt (of_decide_eq_false (above q mem))

theorem precedes_of_last {pre : List Range} (sorted : pre.Pairwise Precedes) (proper : r.IsProper)
    (below : ∀ q ∈ pre, q.first.toNat < r.first.toNat)
    (clear : ∀ q ∈ pre.getLast?.toList, q.Precedes r ∨ r.Precedes q) : ∀ q ∈ pre, q.Precedes r := by
  have ordered := proper.first_le_last
  rcases List.eq_nil_or_concat pre with rfl | ⟨init, z, rfl⟩
  · simp
  · rw [List.concat_eq_append] at *
    have z_below := below z (by simp)
    have last : z.Precedes r := by
      rcases clear z (by simp) with before | after
      · exact before
      · rw [Precedes] at after
        omega
    intro q mem
    rcases List.mem_append.1 mem with earlier | same
    · have precedes := (List.pairwise_append.1 sorted).2.2 q earlier z (by simp)
      rw [Precedes] at precedes ⊢
      omega
    · obtain rfl := List.mem_singleton.1 same
      exact last

theorem precedes_of_head {post : List Range} (sorted : post.Pairwise Precedes)
    (proper : ∀ q ∈ post, q.IsProper) (above : ∀ q ∈ post, r.first.toNat ≤ q.first.toNat)
    (clear : ∀ q ∈ post.head?.toList, q.Precedes r ∨ r.Precedes q) : ∀ q ∈ post, r.Precedes q := by
  cases post with
  | nil => simp
  | cons y post =>
    have y_ordered := (proper y (by simp)).first_le_last
    have y_above := above y (by simp)
    have first : r.Precedes y := by
      rcases clear y (by simp) with before | after
      · rw [Precedes] at before
        omega
      · exact after
    intro q mem
    rcases List.mem_cons.1 mem with rfl | later
    · exact first
    · have precedes := (List.pairwise_cons.1 sorted).1 q later
      rw [Precedes] at *
      omega

/-- A range that is clear of its neighbours stands between all others. -/
theorem Lawful.exists_between (h : t.Lawful) (proper : r.IsProper)
    (clear : ∀ q ∈ t.neighbours (t.place r.first), q.Precedes r ∨ r.Precedes q) :
    ∃ pre post, t.ranges.toList = pre ++ post ∧ t.place r.first = pre.length ∧
      (∀ q ∈ pre, q.Precedes r) ∧ ∀ q ∈ post, r.Precedes q := by
  obtain ⟨pre, post, parts, below, above, place⟩ := h.exists_place r.first
  have sorted := h.sorted
  rw [parts] at sorted
  obtain ⟨pre_sorted, post_sorted, _⟩ := List.pairwise_append.1 sorted
  rw [place, neighbours_eq parts] at clear
  refine ⟨pre, post, parts, place, precedes_of_last pre_sorted proper below fun q mem =>
    clear q (List.mem_append_left _ mem), precedes_of_head post_sorted (fun q mem => ?_) above
    fun q mem => clear q (List.mem_append_right _ mem)⟩
  exact h.proper q (by rw [parts]; exact List.mem_append_right _ mem)

theorem mem_of_mem_neighbours {i : Nat} {q : Range} (mem : q ∈ t.neighbours i) :
    q ∈ t.ranges.toList := by
  simp only [neighbours, List.mem_append, Option.mem_toList] at mem
  rcases mem with before | after
  · split at before
    · cases before
    · exact Array.mem_toList_iff.2 (Array.mem_of_getElem? (Option.mem_toList.1 before))
  · exact Array.mem_toList_iff.2 (Array.mem_of_getElem? after)

/-- Comparing the neighbours is as good as comparing all. -/
theorem Lawful.checkNeighbours_eq_ok_iff (h : t.Lawful) (proper : r.IsProper)
    (spans : r.span? = some span) :
    t.checkNeighbours r span = .ok () ↔ ∀ q ∈ t.ranges.toList, q.Precedes r ∨ r.Precedes q := by
  have near : t.checkNeighbours r span = .ok () ↔
      ∀ q ∈ t.neighbours (t.place r.first), q.Precedes r ∨ r.Precedes q := by
    simp only [checkNeighbours, Verdict.each_eq_ok, List.mem_filterMap, Verdict.require_eq_ok,
      Bool.not_eq_true']
    constructor
    · intro clear q mem
      have q_proper := h.proper q (mem_of_mem_neighbours mem)
      obtain ⟨other, q_spans⟩ := q_proper.exists_span
      exact (Range.overlaps_span_iff q_proper proper q_spans spans).1
        (clear other ⟨q, mem, q_spans⟩)
    · rintro clear other ⟨q, mem, q_spans⟩
      have q_proper := h.proper q (mem_of_mem_neighbours mem)
      exact (Range.overlaps_span_iff q_proper proper q_spans spans).2 (clear q mem)
  rw [near]
  constructor
  · intro clear q mem
    obtain ⟨pre, post, parts, _, before, after⟩ := h.exists_between proper clear
    rw [parts] at mem
    rcases List.mem_append.1 mem with mem | mem
    · exact Or.inl (before q mem)
    · exact Or.inr (after q mem)
  · intro clear q mem
    exact clear q (mem_of_mem_neighbours mem)

theorem toList_insert {pre post : List Range} (parts : t.ranges.toList = pre ++ post)
    (place : t.place r.first = pre.length) : (t.insert r).ranges.toList = pre ++ r :: post := by
  have le : pre.length ≤ t.ranges.size := by
    rw [← Array.length_toList, parts, List.length_append]
    omega
  rw [insert, place, Array.insertIdxIfInBounds, dif_pos le, Array.toList_insertIdx, parts]
  clear parts place le
  induction pre with
  | nil => rfl
  | cons q pre ih => rw [List.cons_append, List.length_cons, List.insertIdx_succ_cons, ih]; rfl

theorem Lawful.insert (h : t.Lawful) (proper : r.IsProper)
    (clear : ∀ q ∈ t.ranges.toList, q.Precedes r ∨ r.Precedes q) : (t.insert r).Lawful := by
  obtain ⟨pre, post, parts, place, before, after⟩ := h.exists_between proper
    fun q mem => clear q (mem_of_mem_neighbours mem)
  have sorted := h.sorted
  rw [parts] at sorted
  obtain ⟨pre_sorted, post_sorted, across⟩ := List.pairwise_append.1 sorted
  have old : ∀ q ∈ pre ++ post, q.IsProper := parts ▸ h.proper
  refine ⟨?_, ?_⟩ <;> rw [toList_insert parts place]
  · intro q mem
    rcases List.mem_append.1 mem with mem | mem
    · exact old q (List.mem_append_left _ mem)
    · rcases List.mem_cons.1 mem with rfl | mem
      · exact proper
      · exact old q (List.mem_append_right _ mem)
  · refine List.pairwise_append.2 ⟨pre_sorted, List.pairwise_cons.2 ⟨after, post_sorted⟩, ?_⟩
    intro q q_mem s s_mem
    rcases List.mem_cons.1 s_mem with rfl | s_mem
    · exact before q q_mem
    · exact across q q_mem s s_mem

theorem Lawful.authorize (h : t.Lawful) (l : Layout) (r : Range) : (t.authorize l r).2.Lawful := by
  rw [Table.authorize_eq]
  cases verdict : t.check l r with
  | error e => exact h
  | ok =>
    obtain ⟨span, admitted, clear⟩ := check_eq_ok.1 verdict
    have clear := (h.checkNeighbours_eq_ok_iff admitted.isProper admitted.spans).1 clear
    exact h.insert admitted.isProper clear

theorem lawful_empty : Lawful {} := ⟨fun _ mem => absurd mem List.not_mem_nil, .nil⟩

theorem Lawful.after (h : t.Lawful) (offers : List (Layout × Range)) : (t.after offers).Lawful := by
  induction offers generalizing t with
  | nil => exact h
  | cons offer offers ih => exact ih (h.authorize offer.1 offer.2)

/-- The range found by halving is the one that a search from end to end finds. -/
theorem Lawful.lookup_eq (h : t.Lawful) (a : UInt32) :
    t.lookup a = t.ranges.toList.find? (·.contains a) := by
  by_cases aligned : a.toNat % 4 = 0
  · obtain ⟨pre, post, parts, below, above⟩ := exists_cut
      (p := fun r : Range => decide (r.first.toNat ≤ a.toNat)) h.firsts fun x y lt held => by
        rw [decide_eq_true_eq] at held ⊢
        exact lt.le.trans held
    have beyond : post.find? (·.contains a) = none := by
      refine List.find?_eq_none.2 fun q mem found => ?_
      have starts : ¬q.first.toNat ≤ a.toNat := of_decide_eq_false (above q mem)
      exact starts (Range.contains_iff.1 found).2.1
    rw [lookup, if_pos aligned, partitionPoint_eq parts below above, parts, List.find?_append,
      beyond, Option.or_none]
    rcases List.eq_nil_or_concat pre with rfl | ⟨init, z, rfl⟩
    · rfl
    · -- what comes before the last range ends before it starts
      have z_starts : z.first.toNat ≤ a.toNat := of_decide_eq_true (below z (by simp))
      have earlier : init.find? (·.contains a) = none := by
        refine List.find?_eq_none.2 fun q mem found => ?_
        have sorted := h.sorted
        rw [parts, List.concat_eq_append] at sorted
        have precedes := (List.pairwise_append.1 (List.pairwise_append.1 sorted).1).2.2 q mem z
          (by simp)
        have bounds := Range.contains_iff.1 found
        rw [Precedes] at precedes
        omega
      have last : t.ranges[init.length]? = some z := by
        rw [← Array.getElem?_toList, parts]
        simp
      rw [List.concat_eq_append, List.length_append, List.length_singleton, List.find?_append,
        earlier, Option.none_or]
      show t.ranges[init.length]?.filter (·.contains a) = _
      rw [last, Option.filter_some, List.find?_singleton]
  · have none : t.ranges.toList.find? (·.contains a) = none :=
      List.find?_eq_none.2 fun q _ found => aligned (Range.contains_iff.1 found).1
    rw [lookup, if_neg aligned, none]

theorem Lawful.exclusive (h : t.Lawful) (a : UInt32) :
    t.ranges.toList.Pairwise fun r s => ¬(r.contains a = true ∧ s.contains a = true) :=
  h.sorted.imp fun precedes both => precedes.not_contains both

theorem Lawful.eq_of_contains (h : t.Lawful) {s : Range} (r_mem : r ∈ t.ranges.toList)
    (s_mem : s ∈ t.ranges.toList) (r_contains : r.contains a = true)
    (s_contains : s.contains a = true) : r = s := by
  by_contra other
  have symm : Std.Symm fun r s : Range => ¬(r.contains a = true ∧ s.contains a = true) :=
    ⟨fun _ _ apart both => apart both.symm⟩
  exact (h.exclusive a).forall r_mem s_mem other ⟨r_contains, s_contains⟩

theorem Lawful.lookup_eq_some_iff (h : t.Lawful) :
    t.lookup a = some r ↔ r ∈ t.ranges.toList ∧ r.contains a = true := by
  rw [h.lookup_eq]
  constructor
  · intro found
    have contains := List.find?_some (p := fun q : Range => q.contains a) found
    exact ⟨List.mem_of_find?_eq_some found, contains⟩
  · rintro ⟨mem, contains⟩
    cases found : t.ranges.toList.find? (·.contains a) with
    | none => exact absurd contains (List.find?_eq_none.1 found r mem)
    | some q =>
      have q_contains := List.find?_some (p := fun q : Range => q.contains a) found
      rw [h.eq_of_contains (List.mem_of_find?_eq_some found) mem q_contains contains]

theorem Lawful.permits_iff (h : t.Lawful) {op : Access} {bits : UInt32} :
    t.permits a op bits = true ↔
      ∃ r ∈ t.ranges.toList, r.contains a = true ∧ (r.mask op).Includes bits := by
  rw [permits, Option.any_eq_true]
  constructor
  · rintro ⟨r, found, allowed⟩
    obtain ⟨mem, contains⟩ := h.lookup_eq_some_iff.1 found
    exact ⟨r, mem, contains, Mask.permits_iff_includes.1 allowed⟩
  · rintro ⟨r, mem, contains, included⟩
    exact ⟨r, h.lookup_eq_some_iff.2 ⟨mem, contains⟩, Mask.permits_iff_includes.2 included⟩

theorem exists_overlap_of_ne_ok (admitted : r.IsAdmitted l span)
    (refused : t.check l r ≠ .ok ()) :
    ∃ entry block other, t.check l r = .error (.overlap entry block other) := by
  rw [check_eq admitted] at refused ⊢
  cases verdict : t.checkNeighbours r span with
  | ok => exact absurd verdict refused
  | error e =>
    obtain ⟨other, _, fault⟩ := Verdict.exists_of_each_eq_error verdict
    obtain ⟨_, rfl⟩ := Verdict.require_eq_error.1 fault
    exact ⟨_, _, _, rfl⟩

/-- An admitted range is accepted if it shares no byte with any range of the table. -/
theorem Lawful.check_eq_ok_iff (h : t.Lawful) (admitted : r.IsAdmitted l span) :
    t.check l r = .ok () ↔
      ∀ q ∈ t.ranges.toList, ¬∃ x, q.Holds x ∧ span.containsAddress x = true := by
  rw [check_eq admitted, h.checkNeighbours_eq_ok_iff admitted.isProper admitted.spans]
  have holds : ∀ x, r.Holds x ↔ span.containsAddress x = true := by
    simp [Holds, admitted.spans]
  refine forall₂_congr fun q mem => ?_
  simp only [← holds]
  rw [Range.shares_iff (h.proper q mem) admitted.isProper, not_not]

/-- Whatever ranges have been offered to a table: its ranges are of whole words, in order and share
no byte. A further range that passes its own checks is refused for an overlap if it shares a byte
with any of them. A search by halves finds what a search from end to end finds, at most one range
holds a register, and access to bits is granted as far as the mask of that range goes. -/
theorem built_search_exact (offers : List (Layout × Range)) :
    (∀ r ∈ (built offers).ranges, r.first.toNat % 4 = 0 ∧ r.last.toNat % 4 = 0 ∧
        ∃ span, r.span? = some span) ∧
      ((built offers).ranges.toList.Pairwise fun r s => r.first.toNat < s.first.toNat) ∧
      ((built offers).ranges.toList.Pairwise fun r s => ¬∃ x, r.Holds x ∧ s.Holds x) ∧
      (∀ l r span, r.IsAdmitted l span →
        ((∃ entry block other,
            ((built offers).authorize l r).1 = .error (.overlap entry block other)) ↔
          ∃ q ∈ (built offers).ranges, ∃ x, q.Holds x ∧ span.containsAddress x = true)) ∧
      ∀ a, (built offers).lookup a = (built offers).ranges.toList.find? (·.contains a) ∧
        (built offers).ranges.toList.countP (·.contains a) ≤ 1 ∧
        ∀ op bits, (built offers).permits a op bits = true ↔ a.toNat % 4 = 0 ∧
          ∃ r ∈ (built offers).ranges, r.contains a = true ∧ (r.mask op).Includes bits := by
  have lawful : (built offers).Lawful := lawful_empty.after offers
  refine ⟨fun r mem => ?_, lawful.firsts, ?_, fun l r span admitted => ?_, fun a => ?_⟩
  · have proper := lawful.proper r (Array.mem_toList_iff.2 mem)
    exact ⟨proper.first_aligned, proper.last_aligned, proper.exists_span⟩
  · refine lawful.sorted.imp_of_mem fun {r s} r_mem s_mem precedes => ?_
    rw [Range.shares_iff (lawful.proper r r_mem) (lawful.proper s s_mem), not_not]
    exact Or.inl precedes
  · have accepted := lawful.check_eq_ok_iff admitted
    simp only [Array.mem_toList_iff] at accepted
    rw [authorize_fst]
    constructor
    · rintro ⟨entry, block, other, refused⟩
      by_contra clear
      push Not at clear
      rw [accepted.2 fun q mem ⟨x, held⟩ => clear q mem x held.1 held.2] at refused
      cases refused
    · rintro ⟨q, mem, shared⟩
      exact exists_overlap_of_ne_ok admitted fun ok => accepted.1 ok q mem shared
  · refine ⟨lawful.lookup_eq a, countP_le_one (lawful.exclusive a), fun op bits => ?_⟩
    rw [lawful.permits_iff]
    simp only [Array.mem_toList_iff]
    constructor
    · rintro ⟨r, mem, contains, included⟩
      exact ⟨(Range.contains_iff.1 contains).1, r, mem, contains, included⟩
    · rintro ⟨_, found⟩
      exact found

/-- A range that starts between two others and runs into the later one. -/
theorem built_search_exact_timers :
    let timers := built [({}, ⟨0x40000020, 0x4000002C, .all, .none⟩),
      ({}, ⟨0x40000000, 0x4000000C, .all, .all⟩)]
    timers.lookup 0x40000024 = some ⟨0x40000020, 0x4000002C, .all, .none⟩ ∧
      ∃ entry block other, (timers.authorize {} ⟨0x40000010, 0x40000020, .all, .all⟩).1 =
        .error (.overlap entry block other) := by
  intro timers
  have ranges : timers.ranges = #[⟨0x40000000, 0x4000000C, .all, .all⟩,
      ⟨0x40000020, 0x4000002C, .all, .none⟩] := by decide +kernel
  have facts := built_search_exact [({}, ⟨0x40000020, 0x4000002C, .all, .none⟩),
    ({}, ⟨0x40000000, 0x4000000C, .all, .all⟩)]
  constructor
  · have found := (facts.2.2.2.2 0x40000024).1
    rw [found, show (built _).ranges = _ from ranges]
    decide
  · have admitted : Range.IsAdmitted {} ⟨0x40000010, 0x40000020, .all, .all⟩ ⟨0x40000010, 0x14⟩ :=
      ⟨by decide, by decide, by decide, by decide, by decide⟩
    have mem : ⟨0x40000020, 0x4000002C, .all, .none⟩ ∈ timers.ranges := by
      rw [ranges]
      simp
    exact (facts.2.2.2.1 _ _ _ admitted).2
      ⟨_, mem, 0x40000020, ⟨⟨0x40000020, 0x10⟩, by decide, by decide⟩, by decide⟩

end Table
end SeparationKernel.Register
