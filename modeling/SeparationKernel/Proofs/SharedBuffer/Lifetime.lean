import Mathlib
import SeparationKernel.Proofs.SharedBuffer.Lending

/-! Buffer tables over their whole life: however much is asked of one, a buffer gets to a bounded
number of applications. -/
namespace SeparationKernel

open SharedBuffer (Step)

/-- Does the application manage the buffer or reach its contents, without being the owner? -/
def SharedBuffer.IsUsedBy (b : SharedBuffer) (a : Asid) : Prop :=
  a ≠ b.owner ∧ (b.manager = a ∨ ∃ op, b.permits a op = true)

theorem SharedBuffer.IsUsedBy.manager_eq {b : SharedBuffer} {a : Asid} (h : b.IsUsedBy a) :
    b.manager = a := by
  obtain ⟨foreign, manages | ⟨op, permitted⟩⟩ := h
  · exact manages
  · have other : (b.owner == a) = false := beq_eq_false_iff_ne.2 foreign.symm
    simp only [permits, other, Bool.false_or, Bool.and_eq_true, beq_iff_eq] at permitted
    exact permitted.1

namespace BufferTable

def Lawful (t : BufferTable) : Prop := ∀ b ∈ t.buffers, b.Lawful t.grantLimit t.appCount

/-- Everyone whom the buffer in place `k` has reached so far. -/
def targets (t : BufferTable) (k : Nat) : List Asid := (t.buffers[k]?.map (·.reached)).getD []

def owner? (t : BufferTable) (k : Nat) : Option Asid := t.buffers[k]?.map (·.owner)

def IsUser (t : BufferTable) (k : Nat) (a : Asid) : Prop :=
  ∃ b, t.buffers[k]? = some b ∧ b.IsUsedBy a

/-- The table after the first `n` of endlessly many requests. -/
def life (t : BufferTable) (requests : ℕ → Request) (n : ℕ) : BufferTable :=
  t.run ((List.range n).map requests)

/-- Each buffer takes a step, and the bounds stay. -/
structure Steps (t u : BufferTable) : Prop where
  grantLimit : u.grantLimit = t.grantLimit
  appCount : u.appCount = t.appCount
  buffers : ∀ k : Nat, Option.Rel (Step t.grantLimit t.appCount) t.buffers[k]? u.buffers[k]?

variable {t u : BufferTable} {k : Nat} {a : Asid}

theorem rel_keep (t : BufferTable) (k : Nat) :
    Option.Rel (Step t.grantLimit t.appCount) t.buffers[k]? t.buffers[k]? := by
  cases t.buffers[k]? with
  | none => exact .none
  | some b => exact .some .keep

theorem Steps.refl (t : BufferTable) : Steps t t := ⟨rfl, rfl, rel_keep t⟩

theorem change_cases (t : BufferTable) (id : BufferId)
    (check : SharedBuffer → Verdict TransferError) (f : SharedBuffer → SharedBuffer) :
    (∃ e, t.change id check f = (.error e, t)) ∨
      ∃ b, t.get? id = some b ∧ check b = .ok () ∧
        t.change id check f = (.ok (), { t with buffers := t.buffers.set id.index (f b) }) := by
  rw [change]
  cases found : t.get? id with
  | none => exact Or.inl ⟨_, rfl⟩
  | some b =>
    cases verdict : check b with
    | error e =>
      refine Or.inl ⟨e, ?_⟩
      simp only [verdict, Verdict.commit_error]
    | ok =>
      refine Or.inr ⟨b, rfl, verdict, ?_⟩
      simp only [verdict]
      rfl

theorem steps_change (t : BufferTable) (id : BufferId)
    {check : SharedBuffer → Verdict TransferError} {f : SharedBuffer → SharedBuffer}
    (step : ∀ b, check b = .ok () → Step t.grantLimit t.appCount b (f b)) :
    Steps t (t.change id check f).2 := by
  rcases change_cases t id check f with ⟨e, refused⟩ | ⟨b, found, accepted, done⟩
  · rw [refused]
    exact .refl t
  · rw [done]
    refine ⟨rfl, rfl, fun k => ?_⟩
    have lt : id.index < t.buffers.length := (List.getElem?_eq_some_iff.1 found).1
    show Option.Rel _ t.buffers[k]? (t.buffers.set id.index (f b))[k]?
    by_cases same : id.index = k
    · subst k
      have found' : t.buffers[id.index]? = some b := found
      rw [List.getElem?_set_self lt, found']
      exact .some (step b accepted)
    · rw [List.getElem?_set_ne same]
      exact rel_keep t k

theorem steps_release (t : BufferTable) (asid : Asid) : Steps t (t.release asid) := by
  refine ⟨rfl, rfl, fun k => ?_⟩
  rw [release, List.getElem?_map]
  cases t.buffers[k]? with
  | none => exact .none
  | some b =>
    apply Option.Rel.some
    show Step t.grantLimit t.appCount b (if b.isLentTo asid then b.reclaim else b)
    split
    · exact .reclaim
    · exact .keep

theorem checkApp_eq_ok {asid : Asid} (h : t.checkApp asid = .ok ()) : asid.index < t.appCount := by
  simpa [checkApp] using h

theorem steps_perform (t : BufferTable) (r : Request) : Steps t (t.perform r).2 := by
  cases r with
  | addCredentials id caller target credentials =>
    rw [perform, addCredentials_eq]
    split
    · exact .refl t
    · rename_i known
      exact steps_change t id fun b accepted => .grant (checkApp_eq_ok known) accepted credentials
  | resetCredentials id caller =>
    rw [perform, resetCredentials_eq]
    exact steps_change t id fun b accepted => .reset accepted
  | transfer id source target =>
    rw [perform, transfer_eq]
    split
    · exact .refl t
    · exact steps_change t id fun b accepted => .handTo accepted
  | release asid => exact steps_release t asid

namespace Steps

theorem lawful (steps : Steps t u) (h : t.Lawful) : u.Lawful := by
  intro c mem
  obtain ⟨k, found⟩ := List.mem_iff_getElem?.1 mem
  have step := steps.buffers k
  rw [found] at step
  cases before : t.buffers[k]? with
  | none =>
    rw [before] at step
    cases step
  | some b =>
    rw [before] at step
    obtain ⟨step⟩ := step
    rw [steps.grantLimit, steps.appCount]
    exact (h b (List.mem_of_getElem? before)).step step

theorem isPrefix_targets (steps : Steps t u) (k : Nat) : t.targets k <+: u.targets k := by
  have step := steps.buffers k
  rw [targets, targets]
  generalize t.buffers[k]? = before at step ⊢
  generalize u.buffers[k]? = after at step ⊢
  cases step with
  | none => exact List.prefix_refl _
  | some step => exact step.isPrefix_reached

theorem map_buffers {α : Type} {f : SharedBuffer → α} (steps : Steps t u)
    (kept : ∀ {b c}, Step t.grantLimit t.appCount b c → f c = f b) :
    u.buffers.map f = t.buffers.map f := by
  refine List.ext_getElem? fun k => ?_
  have step := steps.buffers k
  rw [List.getElem?_map, List.getElem?_map]
  generalize t.buffers[k]? = before at step ⊢
  generalize u.buffers[k]? = after at step ⊢
  cases step with
  | none => rfl
  | some step => exact congrArg some (kept step)

end Steps

theorem bounds_run (t : BufferTable) (rs : List Request) :
    (t.run rs).grantLimit = t.grantLimit ∧ (t.run rs).appCount = t.appCount := by
  induction rs generalizing t with
  | nil => exact ⟨rfl, rfl⟩
  | cons r rs ih =>
    have steps := steps_perform t r
    obtain ⟨limit, count⟩ := ih (t.perform r).2
    exact ⟨limit.trans steps.grantLimit, count.trans steps.appCount⟩

theorem Lawful.run (h : t.Lawful) (rs : List Request) : (t.run rs).Lawful := by
  induction rs generalizing t with
  | nil => exact h
  | cons r rs ih => exact ih ((steps_perform t r).lawful h)

theorem map_buffers_run {α : Type} {f : SharedBuffer → α}
    (kept : ∀ {limit count b c}, Step limit count b c → f c = f b) (t : BufferTable)
    (rs : List Request) : (t.run rs).buffers.map f = t.buffers.map f := by
  induction rs generalizing t with
  | nil => rfl
  | cons r rs ih => exact (ih (t.perform r).2).trans ((steps_perform t r).map_buffers kept)

theorem owner?_run (t : BufferTable) (rs : List Request) (k : Nat) :
    (t.run rs).owner? k = t.owner? k := by
  rw [owner?, owner?, ← List.getElem?_map, ← List.getElem?_map,
    map_buffers_run (fun step => step.owner)]

theorem isPrefix_targets_run (t : BufferTable) (rs : List Request) (k : Nat) :
    t.targets k <+: (t.run rs).targets k := by
  induction rs generalizing t with
  | nil => exact List.prefix_refl _
  | cons r rs ih => exact ((steps_perform t r).isPrefix_targets k).trans (ih (t.perform r).2)

theorem isPrefix_targets_life (t : BufferTable) (requests : ℕ → Request) {m n : ℕ} (le : m ≤ n)
    (k : Nat) : (t.life requests m).targets k <+: (t.life requests n).targets k := by
  obtain ⟨d, rfl⟩ := Nat.exists_eq_add_of_le le
  rw [life, life, List.range_add, List.map_append, run_append]
  exact isPrefix_targets_run _ _ k

theorem Lawful.length_targets_le (h : t.Lawful) (k : Nat) :
    (t.targets k).length ≤ t.grantLimit.toNat := by
  rw [targets]
  cases found : t.buffers[k]? with
  | none => exact Nat.zero_le _
  | some b => exact (h b (List.mem_of_getElem? found)).length_le

theorem Lawful.mem_targets (h : t.Lawful) (user : t.IsUser k a) : a ∈ t.targets k := by
  obtain ⟨b, found, uses⟩ := user
  have lawful := h b (List.mem_of_getElem? found)
  have manager := uses.manager_eq
  rw [targets, found]
  rcases lawful.manager with own | granted
  · exact absurd (manager.symm.trans own) uses.1
  · exact manager ▸ lawful.grantees_subset granted

theorem IsUser.unique {a' : Asid} (h : t.IsUser k a) (h' : t.IsUser k a') : a = a' := by
  obtain ⟨b, found, uses⟩ := h
  obtain ⟨b', found', uses'⟩ := h'
  obtain rfl : b = b' := Option.some.inj (found.symm.trans found')
  exact uses.manager_eq.symm.trans uses'.manager_eq

/-- There is a time after which the buffer reaches nobody new. -/
theorem Lawful.exists_last_targets (h : t.Lawful) (requests : ℕ → Request) (k : Nat) :
    ∃ m, ∀ n, (t.life requests n).targets k ⊆ (t.life requests m).targets k := by
  have bounded : ∀ n, ((t.life requests n).targets k).length ≤ t.grantLimit.toNat := by
    intro n
    have bound := (h.run ((List.range n).map requests)).length_targets_le k
    rwa [(bounds_run t _).1] at bound
  -- the list is longest when the least room is left
  obtain ⟨m, least⟩ : ∃ m, ∀ n, t.grantLimit.toNat - ((t.life requests m).targets k).length ≤
      t.grantLimit.toNat - ((t.life requests n).targets k).length :=
    ⟨_, fun n => Function.argmin_le
      (fun n => t.grantLimit.toNat - ((t.life requests n).targets k).length) n⟩
  refine ⟨m, fun n a mem => ?_⟩
  have kept := isPrefix_targets_life t requests (le_max_left n m) k
  have grown := isPrefix_targets_life t requests (le_max_right n m) k
  have same := grown.eq_of_length_le (by
    have room := least (max n m)
    have bound := bounded (max n m)
    omega)
  rw [same]
  exact kept.subset mem

/-- Over its whole life, no more applications use a buffer than it may ever reach. -/
theorem Lawful.encard_users_le (h : t.Lawful) (requests : ℕ → Request) (k : Nat) :
    {a | ∃ n, (t.life requests n).IsUser k a}.encard ≤ t.grantLimit.toNat := by
  obtain ⟨m, last⟩ := h.exists_last_targets requests k
  have lawful : ∀ n, (t.life requests n).Lawful := fun n => h.run _
  have reached : {a | ∃ n, (t.life requests n).IsUser k a} ⊆
      (((t.life requests m).targets k).toFinset : Set Asid) := by
    intro a ⟨n, user⟩
    exact List.mem_toFinset.2 (last n ((lawful n).mem_targets user))
  have bound := (lawful m).length_targets_le k
  have limit : (t.life requests m).grantLimit = t.grantLimit := (bounds_run t _).1
  rw [limit] at bound
  calc {a | ∃ n, (t.life requests n).IsUser k a}.encard
      ≤ (((t.life requests m).targets k).toFinset : Set Asid).encard := Set.encard_le_encard reached
    _ = ((t.life requests m).targets k).toFinset.card := Set.encard_coe_eq_coe_finsetCard _
    _ ≤ ((t.life requests m).targets k).length := by exact_mod_cast List.toFinset_card_le _
    _ ≤ t.grantLimit.toNat := by exact_mod_cast bound

theorem lawful_ofStore (store : Store) (o : Options) : (ofStore store o).Lawful := by
  intro b mem
  obtain ⟨⟨owner, app⟩, _, declared⟩ := List.mem_flatMap.1 mem
  obtain ⟨block, _, rfl⟩ := List.mem_map.1 declared
  exact {
    manager := Or.inl rfl
    nodup_grantees := List.nodup_nil
    owner_not_mem_grantees := List.not_mem_nil
    grantees_subset := List.nil_subset _
    nodup_reached := List.nodup_nil
    owner_not_mem_reached := List.not_mem_nil
    index_lt := fun _ mem => absurd mem List.not_mem_nil
    length_le := Nat.zero_le _ }

/-- Whatever is asked of the buffers of a store: each stays as it should be, with its owner, and
reaches applications one by one, for good. No more of them ever use it than the options allow, and
one at a time. -/
theorem lending_invariant (store : Store) (o : Options) :
    (∀ rs, ∀ b ∈ ((ofStore store o).run rs).buffers, b.Lawful o.transferTargetMax store.size) ∧
      (∀ rs k, ((ofStore store o).run rs).owner? k = (ofStore store o).owner? k) ∧
      (∀ rs ss k, ((ofStore store o).run rs).targets k <+:
        ((ofStore store o).run (rs ++ ss)).targets k) ∧
      (∀ requests k, {a | ∃ n, ((ofStore store o).life requests n).IsUser k a}.encard ≤
        o.transferTargetMax.toNat) ∧
      (∀ rs k a a', ((ofStore store o).run rs).IsUser k a →
        ((ofStore store o).run rs).IsUser k a' → a = a') := by
  have lawful := lawful_ofStore store o
  refine ⟨fun rs b mem => ?_, owner?_run _, fun rs ss k => ?_, lawful.encard_users_le, ?_⟩
  · have kept := lawful.run rs b mem
    rwa [(bounds_run _ rs).1, (bounds_run _ rs).2] at kept
  · rw [run_append]
    exact isPrefix_targets_run _ ss k
  · intro rs k a a' user user'
    exact user.unique user'

end BufferTable
end SeparationKernel
