import Mathlib
import SeparationKernel.Proofs.Register.Table
import SeparationKernel.Proofs.Session.Start

/-! The register table that a list of ranges fills, one by one. The order of the list makes no
difference: whether a range is clear of another is the same both ways, and a sorted table is known
by what is in it. -/
namespace SeparationKernel
namespace Register

def Range.IsApart (r s : Range) : Prop := r.Precedes s ∨ s.Precedes r

theorem Range.IsApart.symm {r s : Range} (h : r.IsApart s) : s.IsApart r := Or.symm h

namespace Table

open Range (Precedes IsApart IsAdmitted)

variable {l : Layout} {t u : Table} {r : Range} {rs : List Range}

/-- The second table is lawful, and has these ranges more than the first. -/
structure Extends (l : Layout) (t : Table) (rs : List Range) (u : Table) : Prop where
  lawful : u.Lawful
  perm : u.ranges.toList.Perm (t.ranges.toList ++ rs)
  admitted : ∀ r ∈ rs, ∃ span, r.IsAdmitted l span
  declaredRegisters : u.declaredRegisters = t.declaredRegisters
  declaredRanges : u.declaredRanges = t.declaredRanges

theorem Lawful.apart (h : t.Lawful) : t.ranges.toList.Pairwise IsApart := h.sorted.imp Or.inl

theorem Lawful.toList_eq (h : t.Lawful) (h' : u.Lawful)
    (perm : t.ranges.toList.Perm u.ranges.toList) : t.ranges.toList = u.ranges.toList := by
  refine perm.eq_of_pairwise (fun r s r_mem s_mem before after => ?_) h.sorted h'.sorted
  have r_ordered := (h.proper r r_mem).first_le_last
  have s_ordered := (h'.proper s s_mem).first_le_last
  rw [Precedes] at before after
  omega

theorem Lawful.eq_of_extends (h : t.Lawful) (extends_nil : Extends l t [] u) : t = u := by
  have perm := extends_nil.perm
  rw [List.append_nil] at perm
  have same := h.toList_eq extends_nil.lawful perm.symm
  obtain ⟨_, _, _⟩ := t
  obtain ⟨_, _, _⟩ := u
  rw [Table.mk.injEq]
  exact ⟨Array.toList_inj.1 same, extends_nil.declaredRegisters.symm,
    extends_nil.declaredRanges.symm⟩

theorem Lawful.perm_insert (h : t.Lawful) (proper : r.IsProper)
    (clear : ∀ q ∈ t.ranges.toList, q.IsApart r) (rs : List Range) :
    ((t.insert r).ranges.toList ++ rs).Perm (t.ranges.toList ++ r :: rs) := by
  obtain ⟨pre, post, parts, place, _, _⟩ := h.exists_between proper
    fun q mem => clear q (mem_of_mem_neighbours mem)
  rw [toList_insert parts place, parts]
  exact (List.perm_middle.append_right rs).trans List.perm_middle.symm

/-- A first range more: it is clear of the old ones, and the others come after it. -/
theorem Lawful.extends_cons_iff (h : t.Lawful) :
    Extends l t (r :: rs) u ↔ t.check l r = .ok () ∧ Extends l (t.insert r) rs u := by
  constructor
  · intro filled
    obtain ⟨span, admitted⟩ := filled.admitted r (List.mem_cons_self ..)
    have apart := filled.perm.pairwise filled.lawful.apart IsApart.symm
    have clear : ∀ q ∈ t.ranges.toList, q.IsApart r := fun q mem =>
      (List.pairwise_append.1 apart).2.2 q mem r (List.mem_cons_self ..)
    have neighbours := (h.checkNeighbours_eq_ok_iff admitted.isProper admitted.spans).2 clear
    exact ⟨check_eq_ok.2 ⟨span, admitted, neighbours⟩, {
      lawful := filled.lawful
      perm := filled.perm.trans (h.perm_insert admitted.isProper clear rs).symm
      admitted := fun q mem => filled.admitted q (List.mem_cons_of_mem _ mem)
      declaredRegisters := filled.declaredRegisters
      declaredRanges := filled.declaredRanges }⟩
  · rintro ⟨accepted, filled⟩
    obtain ⟨span, admitted, neighbours⟩ := check_eq_ok.1 accepted
    have clear := (h.checkNeighbours_eq_ok_iff admitted.isProper admitted.spans).1 neighbours
    refine {
      lawful := filled.lawful
      perm := filled.perm.trans (h.perm_insert admitted.isProper clear rs)
      admitted := fun q mem => ?_
      declaredRegisters := filled.declaredRegisters
      declaredRanges := filled.declaredRanges }
    rcases List.mem_cons.1 mem with rfl | mem
    · exact ⟨span, admitted⟩
    · exact filled.admitted q mem

theorem Extends.of_perm {rs' : List Range} (filled : Extends l t rs u) (perm : rs'.Perm rs) :
    Extends l t rs' u :=
  { filled with
    perm := filled.perm.trans (perm.symm.append_left _)
    admitted := fun r mem => filled.admitted r (perm.mem_iff.1 mem) }

end Table
end Register

namespace Session

open Register

variable {l : Layout} {t u : Register.Table} {rs rs' : List Register.Range}

/-- Ranges are taken one by one, and together they are taken if the table with all of them is
lawful. -/
theorem authorizeAll_eq_ok_iff (h : t.Lawful) :
    authorizeAll l t rs = .ok u ↔ Table.Extends l t rs u := by
  induction rs generalizing t with
  | nil =>
    rw [authorizeAll, Except.ok.injEq]
    constructor
    · rintro rfl
      exact ⟨h, by rw [List.append_nil], fun _ mem => absurd mem List.not_mem_nil, rfl, rfl⟩
    · exact h.eq_of_extends
  | cons r rs ih =>
    rw [h.extends_cons_iff, authorizeAll]
    cases verdict : t.check l r with
    | error e => simp [Except.bind, verdict]
    | ok =>
      have extended : t.authorize l r = (.ok (), t.insert r) := by
        rw [Table.authorize_eq, verdict, Verdict.commit_ok]
      have lawful := h.authorize l r
      rw [extended] at lawful ⊢
      exact (ih lawful).trans (and_iff_right rfl).symm

theorem authorizeAll_perm (h : t.Lawful) (perm : rs'.Perm rs) :
    authorizeAll l t rs' = .ok u ↔ authorizeAll l t rs = .ok u := by
  rw [authorizeAll_eq_ok_iff h, authorizeAll_eq_ok_iff h]
  exact ⟨fun filled => filled.of_perm perm.symm, fun filled => filled.of_perm perm⟩

end Session
end SeparationKernel
