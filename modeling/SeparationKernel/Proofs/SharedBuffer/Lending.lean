import Mathlib
import SeparationKernel.SharedBuffer.Table

/-! What holds of a shared buffer at any time: whom it is granted to, who manages it, and whom it has
reached so far. -/
namespace SeparationKernel
namespace SharedBuffer

def grantees (b : SharedBuffer) : List Asid := b.grants.map (·.1)

/-- `limit` bounds those whom the buffer may ever reach, `count` is the number of applications. -/
structure Lawful (limit : UInt32) (count : Nat) (b : SharedBuffer) : Prop where
  manager : b.manager = b.owner ∨ b.manager ∈ b.grantees
  nodup_grantees : b.grantees.Nodup
  owner_not_mem_grantees : b.owner ∉ b.grantees
  grantees_subset : b.grantees ⊆ b.reached
  nodup_reached : b.reached.Nodup
  owner_not_mem_reached : b.owner ∉ b.reached
  index_lt : ∀ a ∈ b.reached, a.index < count
  length_le : b.reached.length ≤ limit.toNat

/-- What a request may do to a buffer, and what has been checked before. -/
inductive Step (limit : UInt32) (count : Nat) (b : SharedBuffer) : SharedBuffer → Prop where
  | keep : Step limit count b b
  | grant {caller target : Asid} (app : target.index < count)
      (accepted : b.checkGrant limit caller target = .ok ()) (credentials : Credentials) :
      Step limit count b (b.grant target credentials)
  | reset {caller : Asid} (accepted : b.checkReset caller = .ok ()) : Step limit count b b.reset
  | handTo {source target : Asid} (accepted : b.checkTransfer source target = .ok ()) :
      Step limit count b (b.handTo target)
  | reclaim : Step limit count b b.reclaim

variable {limit : UInt32} {count : Nat} {b c : SharedBuffer} {a : Asid}

theorem lookup_isSome_iff : (b.grants.lookup a).isSome = true ↔ a ∈ b.grantees := by
  simp [grantees]

theorem checkGrant_eq_ok {caller target : Asid} (h : b.checkGrant limit caller target = .ok ()) :
    target ≠ b.owner ∧ target ∉ b.grantees ∧
      (target ∈ b.reached ∨ b.reached.length < limit.toNat) := by
  simp only [checkGrant, checkGrantable, Verdict.andThen_eq_ok, Verdict.all_eq_ok, List.mem_cons,
    List.not_mem_nil, or_false, forall_eq_or_imp, forall_eq, Verdict.require_eq_ok] at h
  obtain ⟨⟨_, fixed, fresh⟩, room⟩ := h
  refine ⟨?_, ?_, ?_⟩
  · simp only [Bool.and_eq_true, bne_iff_ne] at fixed
    exact fixed.1
  · intro mem
    have granted := lookup_isSome_iff.2 mem
    rw [Option.isNone_iff_eq_none.1 fresh] at granted
    cases granted
  · by_cases known : target ∈ b.reached
    · exact Or.inl known
    · exact Or.inr (by simpa [checkRoom, known] using room)

theorem checkReset_eq_ok {caller : Asid} (h : b.checkReset caller = .ok ()) :
    b.manager = b.owner := by
  simp only [checkReset, Verdict.all_eq_ok, List.mem_cons, List.not_mem_nil, or_false,
    forall_eq_or_imp, forall_eq, Verdict.require_eq_ok] at h
  simpa using h.2

theorem checkTransfer_eq_ok {source target : Asid} (h : b.checkTransfer source target = .ok ()) :
    target = b.owner ∨ target ∈ b.grantees := by
  by_cases own : target = b.owner
  · exact Or.inl own
  · have checked : (b.credentials? target).isSome = true := by
      simp only [checkTransfer, own, if_false, Verdict.all_eq_ok, List.mem_cons, List.not_mem_nil,
        or_false, forall_eq_or_imp, forall_eq, Verdict.require_eq_ok] at h
      exact h.2.2.2
    rw [credentials?, if_neg own] at checked
    exact Or.inr (lookup_isSome_iff.1 checked)

theorem grantees_grant (b : SharedBuffer) (target : Asid) (credentials : Credentials) :
    (b.grant target credentials).grantees = b.grantees ++ [target] := by
  simp [grantees, grant]

theorem mem_reached_grant {target : Asid} {credentials : Credentials} :
    a ∈ (b.grant target credentials).reached ↔ a ∈ b.reached ∨ a = target := by
  by_cases known : target ∈ b.reached
  · have same : (b.grant target credentials).reached = b.reached := by simp [grant, known]
    rw [same]
    constructor
    · exact Or.inl
    · rintro (mem | rfl)
      · exact mem
      · exact known
  · simp [grant, known]

namespace Lawful

/-- A grant reaches one more application at most, and only while there is room. -/
theorem grant (h : b.Lawful limit count) {caller target : Asid} (app : target.index < count)
    (accepted : b.checkGrant limit caller target = .ok ()) (credentials : Credentials) :
    (b.grant target credentials).Lawful limit count := by
  obtain ⟨foreign, fresh, room⟩ := checkGrant_eq_ok accepted
  refine ⟨?_, ?_, ?_, ?_, ?_, ?_, ?_, ?_⟩
  · rw [grantees_grant]
    exact h.manager.imp_right (List.mem_append_left _)
  · rw [grantees_grant, ← List.concat_eq_append]
    exact h.nodup_grantees.concat fresh
  · rw [grantees_grant, List.mem_append, List.mem_singleton]
    rintro (mem | same)
    · exact h.owner_not_mem_grantees mem
    · exact foreign same.symm
  · intro a mem
    rw [grantees_grant, List.mem_append, List.mem_singleton] at mem
    exact mem_reached_grant.2 (mem.imp_left fun old => h.grantees_subset old)
  · by_cases known : target ∈ b.reached
    · simpa [SharedBuffer.grant, known] using h.nodup_reached
    · have apart := h.nodup_reached.concat known
      rw [List.concat_eq_append] at apart
      simpa [SharedBuffer.grant, known] using apart
  · intro mem
    rcases mem_reached_grant.1 mem with old | same
    · exact h.owner_not_mem_reached old
    · exact foreign same.symm
  · intro a mem
    rcases mem_reached_grant.1 mem with old | rfl
    · exact h.index_lt a old
    · exact app
  · by_cases known : target ∈ b.reached
    · simpa [SharedBuffer.grant, known] using h.length_le
    · have lt : b.reached.length < limit.toNat := room.resolve_left known
      simpa [SharedBuffer.grant, known] using lt

theorem cleared (h : b.Lawful limit count) (c : SharedBuffer) (owner : c.owner = b.owner)
    (manager : c.manager = b.owner) (grants : c.grants = []) (reached : c.reached = b.reached) :
    c.Lawful limit count where
  manager := Or.inl (manager.trans owner.symm)
  nodup_grantees := by simp [grantees, grants]
  owner_not_mem_grantees := by simp [grantees, grants]
  grantees_subset := by simp [grantees, grants]
  nodup_reached := reached ▸ h.nodup_reached
  owner_not_mem_reached := by
    rw [owner, reached]
    exact h.owner_not_mem_reached
  index_lt := reached ▸ h.index_lt
  length_le := reached ▸ h.length_le

theorem step (h : b.Lawful limit count) (step : b.Step limit count c) : c.Lawful limit count := by
  cases step with
  | keep => exact h
  | grant app accepted credentials => exact h.grant app accepted credentials
  | reset accepted => exact h.cleared _ rfl (checkReset_eq_ok accepted) rfl rfl
  | @handTo source target accepted =>
    have manager : target = b.owner ∨ target ∈ b.grantees := checkTransfer_eq_ok accepted
    exact { h with manager := manager }
  | reclaim => exact h.cleared _ rfl rfl rfl rfl

end Lawful

theorem Step.owner (step : b.Step limit count c) : c.owner = b.owner := by
  cases step <;> rfl

theorem Step.isPrefix_reached (step : b.Step limit count c) : b.reached <+: c.reached := by
  cases step with
  | @grant caller target app accepted credentials =>
    by_cases known : target ∈ b.reached
    · simp [SharedBuffer.grant, known]
    · simp [SharedBuffer.grant, known]
  | _ => exact List.prefix_refl _

end SharedBuffer
end SeparationKernel
