import Mathlib
import SeparationKernel.Proofs.SharedBuffer.History

/-! Confinement of a buffer. As long as its owner lets nobody else grant credentials, whoever has
any has them from the owner, and has what the owner granted last. -/
namespace SeparationKernel
namespace SharedBuffer

/-- The last that `owner` granted to `a` is `c`, and no grants have been cleared since. -/
def IsLastGrant (log : List Event) (owner a : Asid) (c : Credentials) : Prop :=
  ∃ before since, log = before ++ .granted owner a c :: since ∧
    ∀ e ∈ since, e.clears = false ∧ ∀ c', e ≠ .granted owner a c'

def NeverDelegates (log : List Event) (owner : Asid) : Prop :=
  ∀ a c, .granted owner a c ∈ log → c.addCredentials = false

def Confined (b : SharedBuffer) (log : List Event) : Prop :=
  ∀ a c, (a, c) ∈ b.grants → IsLastGrant log b.owner a c

variable {b : SharedBuffer} {limit : UInt32} {log : List Event} {e : Event} {a owner : Asid}
  {c : Credentials}

theorem IsLastGrant.mem (h : IsLastGrant log owner a c) : .granted owner a c ∈ log := by
  obtain ⟨before, since, rfl, _⟩ := h
  simp

theorem IsLastGrant.concat (h : IsLastGrant log owner a c) (keeps : e.clears = false)
    (other : ∀ c', e ≠ .granted owner a c') : IsLastGrant (log ++ [e]) owner a c := by
  obtain ⟨before, since, rfl, later⟩ := h
  refine ⟨before, since ++ [e], by simp, fun e' mem => ?_⟩
  rcases List.mem_append.1 mem with old | new
  · exact later e' old
  · obtain rfl : e' = e := List.mem_singleton.1 new
    exact ⟨keeps, other⟩

theorem isLastGrant_concat (log : List Event) (owner a : Asid) (c : Credentials) :
    IsLastGrant (log ++ [.granted owner a c]) owner a c :=
  ⟨log, [], rfl, fun _ mem => absurd mem List.not_mem_nil⟩

theorem credentials?_of_ne (foreign : a ≠ b.owner) : b.credentials? a = b.grants.lookup a :=
  if_neg foreign

theorem mem_grants_of_credentials? (foreign : a ≠ b.owner) (held : b.credentials? a = some c) :
    (a, c) ∈ b.grants := by
  rw [credentials?_of_ne foreign] at held
  obtain ⟨before, since, split, _⟩ := List.lookup_eq_some_iff.1 held
  simp [split]

theorem exists_grant_of_checkManager {needed : Credentials} (foreign : a ≠ b.owner)
    (accepted : b.checkManager a needed = .ok ()) :
    b.manager = a ∧ ∃ c, (a, c) ∈ b.grants ∧ c.contains needed = true := by
  simp only [checkManager, Verdict.all_cons_eq_ok, Verdict.all_nil_eq_ok, and_true,
    Verdict.require_eq_ok, beq_iff_eq] at accepted
  obtain ⟨manages, holds⟩ := accepted
  obtain ⟨c, held, enough⟩ := (Option.any_eq_true _ _).1 holds
  exact ⟨manages, c, mem_grants_of_credentials? foreign held, enough⟩

theorem caller_of_checkGrant {caller target : Asid}
    (accepted : b.checkGrant limit caller target = .ok ()) :
    caller = b.owner ∨ b.checkManager caller { addCredentials := true } = .ok () := by
  by_cases own : caller = b.owner
  · exact Or.inl own
  · simp only [checkGrant, checkGrantable, own, if_false, Verdict.andThen_eq_ok,
      Verdict.all_cons_eq_ok] at accepted
    exact Or.inr accepted.1.1

/-- Nobody but the owner can have granted anything. -/
theorem caller_eq_owner {caller target : Asid} (h : b.Confined log)
    (keeps : NeverDelegates log b.owner)
    (accepted : b.checkGrant limit caller target = .ok ()) : caller = b.owner := by
  by_contra foreign
  have manages := (caller_of_checkGrant accepted).resolve_left foreign
  obtain ⟨_, c, granted, enough⟩ := exists_grant_of_checkManager foreign manages
  have never : c.addCredentials = false := keeps caller c (h caller c granted).mem
  simp [Credentials.contains, never] at enough

namespace Confined

theorem concat (h : b.Confined log) (allowed : b.Allows limit e)
    (keeps : NeverDelegates (log ++ [e]) b.owner) : (b.after e).Confined (log ++ [e]) := by
  have kept : NeverDelegates log b.owner := fun a c mem => keeps a c (List.mem_append_left _ mem)
  intro a c mem
  rw [owner_after]
  cases e with
  | granted caller target credentials =>
    obtain rfl : caller = b.owner := caller_eq_owner h kept allowed
    have fresh : target ∉ b.grantees := (checkGrant_eq_ok allowed).2.1
    rcases List.mem_append.1 mem with old | new
    · refine (h a c old).concat rfl fun c' same => ?_
      -- nobody who holds credentials is granted any
      obtain rfl : target = a := by injection same
      exact fresh (List.mem_map_of_mem old)
    · obtain ⟨rfl, rfl⟩ : a = target ∧ c = credentials := by simpa using new
      exact isLastGrant_concat log b.owner a c
  | handed source target => exact (h a c mem).concat rfl fun c' => by simp
  | reset caller => exact absurd mem List.not_mem_nil
  | released asid => exact absurd mem List.not_mem_nil

end Confined

/-- A manager that may not hand the buffer on loses it to the owner only. -/
theorem manager_after (lacks : b.holds b.manager { transfer := true } = false)
    (allowed : b.Allows limit e) :
    (b.after e).manager = b.manager ∨ (b.after e).manager = b.owner := by
  cases e with
  | granted caller target credentials => exact Or.inl rfl
  | reset caller => exact Or.inl rfl
  | released asid => exact Or.inr rfl
  | handed source target =>
    by_cases own : target = b.owner
    · exact Or.inr own
    · have accepted : b.checkTransfer source target = .ok () := allowed
      simp only [checkTransfer, checkManager, own, if_false, Verdict.all_cons_eq_ok,
        Verdict.all_nil_eq_ok, and_true, Verdict.require_eq_ok, beq_iff_eq] at accepted
      obtain ⟨manages, _, ⟨_, may⟩, _⟩ := accepted
      rw [← manages, lacks] at may
      cases may

theorem credentials?_after (held : b.credentials? a = some c) (keeps : e.clears = false) :
    (b.after e).credentials? a = some c := by
  by_cases own : a = b.owner
  · rw [credentials?, owner_after, if_pos own]
    rwa [credentials?, if_pos own] at held
  · rw [credentials?_of_ne own] at held
    rw [credentials?_of_ne (by rwa [owner_after])]
    cases e with
    | granted caller target credentials =>
      show (b.grants ++ [(target, credentials)]).lookup a = some c
      rw [List.lookup_append, held]
      rfl
    | handed source target => exact held
    | reset | released => cases keeps

theorem eq_of_clears (allowed : b.Allows limit e) (clears : e.clears = true) :
    e = .reset b.owner ∨ e = .released b.manager := by
  cases e with
  | reset caller =>
    have accepted : b.checkReset caller = .ok () := allowed
    simp only [checkReset, Verdict.all_cons_eq_ok, Verdict.all_nil_eq_ok, and_true,
      Verdict.require_eq_ok, beq_iff_eq] at accepted
    exact Or.inl (by rw [accepted.1])
  | released asid =>
    have lent : b.isLentTo asid = true := allowed
    simp only [isLentTo, Bool.and_eq_true, beq_iff_eq] at lent
    exact Or.inr (by rw [lent.1])
  | granted | handed => cases clears

end SharedBuffer

open SharedBuffer (Event IsLastGrant NeverDelegates)

namespace BufferTable

variable {t : BufferTable} {k : Nat} {b : SharedBuffer} {a : Asid} {c : Credentials}

theorem confined_run (found : t.buffers[k]? = some b) (fresh : b.grants = []) (rs : List Request) :
    ∃ d, (t.run rs).buffers[k]? = some d ∧ d.owner = b.owner ∧
      (NeverDelegates (t.history k rs) b.owner → d.Confined (t.history k rs)) := by
  refine history_induction (P := fun d log => d.owner = b.owner ∧
    (NeverDelegates log b.owner → d.Confined log)) ⟨rfl, fun _ a c mem => ?_⟩ ?_ found rs
  · rw [fresh] at mem
    exact absurd mem List.not_mem_nil
  · intro limit d log e ⟨owner, confined⟩ allowed
    refine ⟨(d.owner_after e).trans owner, fun keeps => ?_⟩
    have before : NeverDelegates log b.owner := fun a c mem =>
      keeps a c (List.mem_append_left _ mem)
    exact (confined before).concat allowed (owner ▸ keeps)

theorem credentials?_run (found : t.buffers[k]? = some b) (held : b.credentials? a = some c)
    {rs : List Request} (keeps : ∀ e ∈ t.history k rs, e.clears = false) :
    ∃ d, (t.run rs).buffers[k]? = some d ∧ d.credentials? a = some c := by
  obtain ⟨d, there, holds⟩ := history_induction
    (P := fun d log => (∀ e ∈ log, e.clears = false) → d.credentials? a = some c)
    (fun _ => held)
    (fun _ d log e before _ all =>
      SharedBuffer.credentials?_after (before fun e' mem => all e' (List.mem_append_left _ mem))
        (all e (by simp)))
    found rs
  exact ⟨d, there, holds keeps⟩

theorem grants_ofStore {store : Store} {o : Options}
    (found : (ofStore store o).buffers[k]? = some b) : b.grants = [] := by
  obtain ⟨⟨owner, app⟩, _, declared⟩ := List.mem_flatMap.1 (List.mem_of_getElem? found)
  obtain ⟨block, _, rfl⟩ := List.mem_map.1 declared
  rfl

theorem confined_ofStore {store : Store} {o : Options} {rs : List Request}
    (found : ((ofStore store o).run rs).buffers[k]? = some b)
    (keeps : NeverDelegates ((ofStore store o).history k rs) b.owner) :
    b.Confined ((ofStore store o).history k rs) := by
  have owner := owner?_run (ofStore store o) rs k
  rw [owner?, owner?, found] at owner
  cases first : (ofStore store o).buffers[k]? with
  | none => simp [first] at owner
  | some b₀ =>
    obtain ⟨d, there, same, confined⟩ := confined_run first (grants_ofStore first) rs
    obtain rfl : b = d := Option.some.inj (found.symm.trans there)
    exact confined (same ▸ keeps)

/-- Whatever has been asked of the buffers of a store, and by whom. As long as the owner of one lets
nobody else grant credentials, whoever else holds any, manages the buffer or reaches its contents
has exactly what the owner granted last. In any case a manager that may not hand the buffer on can
lose it to the owner only, and credentials last until the owner resets the grants or the manager is
released, when all of them go. -/
theorem confined_by_owner {store : Store} {o : Options} {rs : List Request}
    (found : ((ofStore store o).run rs).buffers[k]? = some b) :
    (NeverDelegates ((ofStore store o).history k rs) b.owner →
      ∀ a, a ≠ b.owner → (b.credentials? a).isSome = true ∨ b.IsUsedBy a →
        ∃ c, b.credentials? a = some c ∧
          IsLastGrant ((ofStore store o).history k rs) b.owner a c) ∧
      (b.holds b.manager { transfer := true } = false →
        ∀ r, ∃ d, ((ofStore store o).run (rs ++ [r])).buffers[k]? = some d ∧
          (d.manager = b.manager ∨ d.manager = b.owner)) ∧
      (∀ a c, b.credentials? a = some c →
        ∀ ss, (∀ e ∈ ((ofStore store o).run rs).history k ss, e.clears = false) →
          ∃ d, ((ofStore store o).run (rs ++ ss)).buffers[k]? = some d ∧
            d.credentials? a = some c) ∧
      ∀ r e, ((ofStore store o).run rs).event? k r = some e → e.clears = true →
        (e = .reset b.owner ∨ e = .released b.manager) ∧
          ∃ d, ((ofStore store o).run (rs ++ [r])).buffers[k]? = some d ∧ d.grants = [] := by
  refine ⟨fun keeps a foreign holds => ?_, fun lacks r => ?_, fun a c held ss kept => ?_,
    fun r e happens clears => ?_⟩
  · have granted : a ∈ b.grantees := by
      rcases holds with held | used
      · rw [SharedBuffer.credentials?_of_ne foreign] at held
        exact SharedBuffer.lookup_isSome_iff.1 held
      · have lawful := (lawful_ofStore store o).run rs b (List.mem_of_getElem? found)
        rw [← used.manager_eq] at foreign ⊢
        exact lawful.manager.resolve_left foreign
    obtain ⟨c, held⟩ := Option.isSome_iff_exists.1 (SharedBuffer.lookup_isSome_iff.2 granted)
    rw [← SharedBuffer.credentials?_of_ne foreign] at held
    have mem := SharedBuffer.mem_grants_of_credentials? foreign held
    exact ⟨c, held, confined_ofStore found keeps a c mem⟩
  · obtain ⟨d, there, made⟩ := makes_perform r found
    refine ⟨d, by rwa [run_concat], ?_⟩
    cases made with
    | same => exact Or.inl rfl
    | event _ allowed => exact SharedBuffer.manager_after lacks allowed
  · rw [run_append]
    exact credentials?_run found held kept
  · obtain ⟨d, there, made⟩ := makes_perform r found
    cases made with
    | same nothing => simp [nothing] at happens
    | event happens' allowed =>
      obtain rfl := Option.some.inj (happens'.symm.trans happens)
      refine ⟨SharedBuffer.eq_of_clears allowed clears, _, by rwa [run_concat], ?_⟩
      exact SharedBuffer.grants_after_of_clears clears

def sharing : Store :=
  ⟨[{ name := "a", priority := ⟨1⟩, quantum := 2, sharedBlocks := [⟨"x", ⟨0x20000000, 0x100⟩⟩] },
    { name := "b", priority := ⟨1⟩, quantum := 2 }]⟩

/-- The buffer has been granted anew since it was reset, and is lent out. -/
theorem confined_by_owner_sharing :
    let rs : List Request := [
      .addCredentials ⟨0⟩ ⟨0⟩ ⟨1⟩ { read := true, transfer := true }, .resetCredentials ⟨0⟩ ⟨0⟩,
      .addCredentials ⟨0⟩ ⟨0⟩ ⟨1⟩ { read := true }, .transfer ⟨0⟩ ⟨0⟩ ⟨1⟩]
    ∃ b, ((ofStore sharing {}).run rs).buffers[0]? = some b ∧ b.manager = ⟨1⟩ ∧
      (∃ c, b.credentials? ⟨1⟩ = some c ∧
        IsLastGrant ((ofStore sharing {}).history 0 rs) ⟨0⟩ ⟨1⟩ c) ∧
      ∃ d, ((ofStore sharing {}).run (rs ++ [.transfer ⟨0⟩ ⟨1⟩ ⟨1⟩])).buffers[0]? = some d ∧
        (d.manager = ⟨1⟩ ∨ d.manager = ⟨0⟩) := by
  intro rs
  let b : SharedBuffer := {
    owner := ⟨0⟩, label := "x", block := ⟨0x20000000, 0x100⟩, manager := ⟨1⟩
    grants := [(⟨1⟩, { read := true })], reached := [⟨1⟩] }
  have found : ((ofStore sharing {}).run rs).buffers[0]? = some b := by decide
  have keeps : NeverDelegates ((ofStore sharing {}).history 0 rs) ⟨0⟩ := by
    have log : (ofStore sharing {}).history 0 rs = [
        .granted ⟨0⟩ ⟨1⟩ { read := true, transfer := true }, .reset ⟨0⟩,
        .granted ⟨0⟩ ⟨1⟩ { read := true }, .handed ⟨0⟩ ⟨1⟩] := by decide
    intro a c mem
    rw [log] at mem
    simp only [List.mem_cons, Event.granted.injEq, reduceCtorEq, List.not_mem_nil, or_false,
      false_or] at mem
    rcases mem with ⟨_, _, rfl⟩ | ⟨_, _, rfl⟩ <;> rfl
  have facts := confined_by_owner found
  refine ⟨b, found, rfl, ?_, facts.2.1 (by decide) _⟩
  exact facts.1 keeps ⟨1⟩ (by decide) (Or.inl (by decide))

end BufferTable
end SeparationKernel
