import Mathlib
import SeparationKernel.Proofs.Scheduler.Course

/-! Free slots. A scheduler with as many slots as there are descriptors always has one for an
application without a live process. -/
namespace SeparationKernel
namespace ProcessTable

variable {t : ProcessTable} {i j : Nat}

theorem exists_live_of_not_isFree (lt : i < t.slots.length)
    (taken : t.slots[i].isFree = false) : ∃ p, t.get? i = some p ∧ p.isTerminated = false := by
  cases occupied : t.slots[i].occupant with
  | none => simp [Slot.isFree, occupied] at taken
  | some p =>
    have alive : p.isTerminated = false := by simpa [Slot.isFree, occupied] using taken
    exact ⟨p, by simp [get?, List.getElem?_eq_getElem lt, occupied], alive⟩

theorem exists_live_of_lt_freeSlot? (free : t.freeSlot? = some j) (before : i < j) :
    ∃ p, t.get? i = some p ∧ p.isTerminated = false := by
  obtain ⟨lt, _, taken⟩ := List.findIdx?_eq_some_iff_getElem.1 free
  exact exists_live_of_not_isFree (before.trans lt) (by simpa using taken i before)

theorem exists_live_of_freeSlot?_eq_none (full : t.freeSlot? = none) (lt : i < t.slots.length) :
    ∃ p, t.get? i = some p ∧ p.isTerminated = false :=
  exists_live_of_not_isFree lt (List.findIdx?_eq_none_iff.1 full _ (List.getElem_mem lt))

end ProcessTable

namespace Scheduler

variable {s t : Scheduler} {asid : Asid} {app : App}

theorem Move.length_slots (m : Move s t) :
    t.processes.slots.length = s.processes.slots.length := by
  cases m with
  | clock | lend => rfl
  | install => exact ProcessTable.length_slots_install _ _ _
  | retire =>
    rw [processes_retire]
    exact ProcessTable.length_slots_modify _ _ _
  | preempt holder =>
    rw [withdraw_eq holder]
    exact ProcessTable.length_slots_modify _ _ _
  | _ => exact ProcessTable.length_slots_modify _ _ _

theorem Moves.length_slots (m : Moves s t) :
    t.processes.slots.length = s.processes.slots.length := by
  induction m with
  | refl => rfl
  | tail _ last ih => exact last.length_slots.trans ih

theorem length_slots_run (h : s.Consistent) (rs : List Request) :
    (s.run rs).processes.slots.length = s.processes.slots.length := by
  induction rs generalizing s with
  | nil => rfl
  | cons r rs ih => exact (ih (consistent_after h r)).trans (moves_after h r).length_slots

/-- Live processes are of different applications, so if all slots had one, so would every
application. -/
theorem freeSlot?_ne_none (h : s.Consistent)
    (room : s.store.size ≤ s.processes.slots.length) (described : s.store.get? asid = some app)
    (fresh : s.processes.ofApp? asid = none) : s.processes.freeSlot? ≠ none := by
  intro full
  have taken : ∀ i < s.processes.slots.length,
      ∃ p, s.processes.get? i = some p ∧ p.isTerminated = false :=
    fun i lt => ProcessTable.exists_live_of_freeSlot?_eq_none full lt
  have number_lt : ∀ a b, s.store.get? a = some b → a.index < s.store.size :=
    fun a b described' => (List.getElem?_eq_some_iff.1 described').1
  let others := (Finset.range s.store.size).erase asid.index
  have fewer : others.card < (Finset.range s.processes.slots.length).card := by
    have mem := Finset.mem_range.2 (number_lt asid app described)
    rw [Finset.card_erase_of_mem mem, Finset.card_range, Finset.card_range]
    have some_app := number_lt asid app described
    omega
  have maps : Set.MapsTo (fun i => ((s.processes.get? i).map (·.asid.index)).getD 0)
      (Finset.range s.processes.slots.length) others := by
    intro i lt
    obtain ⟨p, held, alive⟩ := taken i (by simpa using lt)
    have other := ProcessTable.ofApp?_eq_none_iff.1 fresh i p held alive
    have index_lt := number_lt p.asid p.app (h.described i p held)
    have index_ne : p.asid.index ≠ asid.index := fun e => other (Asid.index_inj.1 e)
    simp [others, held, index_lt, index_ne]
  -- The slots are more than the other applications, so two of them have the same one.
  obtain ⟨i, lt, j, lt', apart, same⟩ :=
    Finset.exists_ne_map_eq_of_card_lt_of_maps_to fewer maps
  obtain ⟨p, held, alive⟩ := taken i (Finset.mem_range.1 lt)
  obtain ⟨q, held', alive'⟩ := taken j (Finset.mem_range.1 lt')
  have index : p.asid.index = q.asid.index := by simpa [held, held'] using same
  exact apart (h.single i j p q held held' alive alive' (Asid.index_inj.1 index))

/-- With slots enough, an application of a descriptor gets its process unless it has one. -/
theorem instantiate_eq_error_iff (h : s.Consistent)
    (room : s.store.size ≤ s.processes.slots.length) (asid : Asid) (e : SpawnError) :
    (s.instantiate asid).1 = .error e ↔
      e = .unknownApp asid ∧ s.store.get? asid = none ∨
        e = .alreadyLive asid ∧ ∃ p ∈ s.processes.live, p.asid = asid := by
  have running : (s.ofApp? asid).isSome = true ↔ ∃ p ∈ s.processes.live, p.asid = asid := by
    simp [ofApp?, ProcessTable.ofApp?]
  rw [← running, instantiate_eq]
  split
  · rename_i unknown
    have nobody : ¬ (s.ofApp? asid).isSome = true := by
      rw [running]
      rintro ⟨p, live, rfl⟩
      obtain ⟨i, held, _⟩ := ProcessTable.mem_live.1 live
      simp [h.described i p held] at unknown
    simp [nobody, unknown, eq_comm (a := e)]
  · rename_i app described
    split
    · rename_i live
      simp [live, described, eq_comm (a := e)]
    · rename_i fresh
      have alone : s.processes.ofApp? asid = none := by simpa [ofApp?] using fresh
      split
      · rename_i full
        exact absurd full (freeSlot?_ne_none h room described alone)
      · simp [fresh, described]

end Scheduler
end SeparationKernel
