import Mathlib
import SeparationKernel.Options.Check
import SeparationKernel.Store

/-! What is known of a store whose descriptors were accepted, and of options that are supported. -/
namespace SeparationKernel

/-- The store holds descriptors that were accepted under the options, on some platform. -/
def Store.IsLoaded (o : Options) (s : Store) : Prop :=
  ∃ (earlier : Store) (p : Platform) (apps : List App), earlier.load o p apps = (.ok (), s)

theorem Store.mem_entries_iff {s : Store} {a : Asid} {app : App} (exact_numbers : s.size ≤ 256) :
    (a, app) ∈ s.entries ↔ s.get? a = some app := by
  simp only [entries, List.mem_map, Prod.exists, Prod.mk.injEq, List.mk_mem_zipIdx_iff_getElem?]
  constructor
  · rintro ⟨_, i, at_i, rfl, rfl⟩
    have lt : i < s.size := (List.getElem?_eq_some_iff.1 at_i).1
    rwa [get?, Asid.index_ofIndex_of_lt (lt.trans_le exact_numbers)]
  · intro described
    exact ⟨app, a.index, described, a.ofIndex_index, rfl⟩

theorem Store.pairwise_entries {s : Store} (exact_numbers : s.size ≤ 256) :
    s.entries.Pairwise fun x y => x.1.index < y.1.index := by
  have indices : s.apps.zipIdx.Pairwise fun x y => x.2 < y.2 := by
    rw [← List.pairwise_map, List.zipIdx_map_snd]
    exact List.pairwise_lt_range'
  have exact_index : ∀ x ∈ s.apps.zipIdx, (Asid.ofIndex x.2).index = x.2 := by
    rintro ⟨app, i⟩ mem
    have lt : i < s.size :=
      (List.getElem?_eq_some_iff.1 (List.mk_mem_zipIdx_iff_getElem?.1 mem)).1
    exact Asid.index_ofIndex_of_lt (lt.trans_le exact_numbers)
  rw [entries, List.pairwise_map]
  refine indices.imp_of_mem fun {x y} mem mem' lt => ?_
  rw [exact_index x mem, exact_index y mem']
  exact lt

namespace Store.IsLoaded

variable {o : Options} {s : Store}

theorem check_eq_ok (h : s.IsLoaded o) : ∃ p, check o p s.apps = .ok () := by
  obtain ⟨earlier, p, apps, loaded⟩ := h
  have accepted : check o p apps = .ok () := by
    rw [← load_fst earlier, loaded]
  rw [load_eq, accepted, Verdict.commit_ok] at loaded
  exact ⟨p, by rw [← (Prod.mk.inj loaded).2]; exact accepted⟩

theorem app_check_eq_ok (h : s.IsLoaded o) {app : App} (mem : app ∈ s.apps) :
    ∃ p index, app.check o p index s.apps.length = .ok () := by
  obtain ⟨p, accepted⟩ := h.check_eq_ok
  obtain ⟨before, after, split⟩ := List.append_of_mem mem
  simp only [check, Verdict.all_eq_ok, List.mem_cons, List.not_mem_nil, or_false,
    forall_eq_or_imp, forall_eq, Verdict.eachAfter_eq_ok] at accepted
  have next := accepted.2 before app after split
  simp only [checkNext, Verdict.all_eq_ok, List.mem_cons, forall_eq_or_imp] at next
  exact ⟨p, _, next.1⟩

theorem quantum_pos (h : s.IsLoaded o) {app : App} (mem : app ∈ s.apps) :
    1 ≤ app.quantum.toNat := by
  obtain ⟨p, index, accepted⟩ := h.app_check_eq_ok mem
  simp only [App.check, Verdict.all_eq_ok, List.mem_cons, forall_eq_or_imp] at accepted
  have identity := accepted.1
  simp only [App.checkIdentity, Verdict.all_eq_ok, List.mem_cons, List.not_mem_nil, or_false,
    forall_eq_or_imp, forall_eq, Verdict.require_eq_ok, Bool.and_eq_true,
    decide_eq_true_eq] at identity
  exact identity.2.2.1

end Store.IsLoaded

namespace Options

variable {o : Options}

theorem bounds_of_check (h : o.check = .ok ()) {k : Key} (nonzero : k.allowsZero = false) :
    k.bounds.1 ≤ o.get k ∧ o.get k ≤ k.bounds.2 := by
  have supported := isInBounds_iff.1 ((check_eq_ok.1 h).1 k)
  simpa [nonzero] using supported

/-- Idle systicks can be counted one past the limit. -/
theorem succ_idleDurationMax_lt (h : o.check = .ok ()) :
    o.idleDurationMax.toNat + 1 < UInt32.size := by
  have bounds := isInBounds_iff.1 ((check_eq_ok.1 h).1 .idleDurationMax)
  have size : UInt32.size = 4294967296 := rfl
  simp only [Key.bounds, get] at bounds
  omega

end Options
end SeparationKernel
