import Mathlib
import SeparationKernel.Proofs.Scheduler.Overrun
import SeparationKernel.Proofs.SharedBuffer.Confinement

/-! What the end of a process means for shared buffers. Whichever way it comes, what the application
has borrowed goes back to the owners. Besides requests about them, nothing else changes buffers. -/
namespace SeparationKernel

theorem SharedBuffer.isLentTo_iff {b : SharedBuffer} {a : Asid} :
    b.isLentTo a = true ↔ b.manager = a ∧ b.owner ≠ a := by
  simp [isLentTo]

theorem SharedBuffer.eq_of_isLentTo_eq_false {b : SharedBuffer} {a : Asid}
    (kept : b.isLentTo a = false) (manages : b.manager = a) : b.owner = a := by
  by_contra foreign
  have lent := isLentTo_iff.2 ⟨manages, foreign⟩
  simp [kept] at lent

namespace BufferTable

/-- From one table to the other everything that `a` has borrowed has gone back, and nothing else has
happened. -/
structure Returns (t u : BufferTable) (a : Asid) : Prop where
  grantLimit : u.grantLimit = t.grantLimit
  appCount : u.appCount = t.appCount
  /-- What `a` manages without being the owner is with its owner again, and not granted to anybody. -/
  lent : ∀ (k : Nat) b, t.buffers[k]? = some b → b.manager = a → b.owner ≠ a →
    u.buffers[k]? = some { b with manager := b.owner, grants := [] }
  kept : ∀ k : Nat, (∀ b, t.buffers[k]? = some b → b.manager = a → b.owner = a) →
    u.buffers[k]? = t.buffers[k]?
  managed : ∀ b ∈ u.buffers, b.manager = a → b.owner = a
  permitted : ∀ id op, u.permits a id op = true → ∃ b, u.get? id = some b ∧ b.owner = a

variable {t : BufferTable} {a : Asid} {k : Nat} {b : SharedBuffer}

theorem getElem?_release (t : BufferTable) (a : Asid) (k : Nat) :
    (t.release a).buffers[k]? =
      t.buffers[k]?.map fun b => if b.isLentTo a then b.reclaim else b := by
  rw [release, List.getElem?_map]

theorem isLentTo_of_mem_release (mem : b ∈ (t.release a).buffers) : b.isLentTo a = false := by
  obtain ⟨c, _, rfl⟩ := List.mem_map.1 mem
  show (if c.isLentTo a then c.reclaim else c).isLentTo a = false
  split
  · simp [SharedBuffer.reclaim, SharedBuffer.isLentTo]
  · rename_i own
    exact Bool.eq_false_iff.2 own

theorem owner_eq_of_mem_release (mem : b ∈ (t.release a).buffers) (manages : b.manager = a) :
    b.owner = a :=
  SharedBuffer.eq_of_isLentTo_eq_false (isLentTo_of_mem_release mem) manages

theorem returns_release (t : BufferTable) (a : Asid) : t.Returns (t.release a) a where
  grantLimit := rfl
  appCount := rfl
  lent k b found manages foreign := by
    rw [getElem?_release, found, Option.map_some,
      if_pos (SharedBuffer.isLentTo_iff.2 ⟨manages, foreign⟩)]
    rfl
  kept k own := by
    rw [getElem?_release]
    cases found : t.buffers[k]? with
    | none => rfl
    | some b =>
      have kept : ¬ b.isLentTo a = true := by
        intro lent
        obtain ⟨manages, foreign⟩ := SharedBuffer.isLentTo_iff.1 lent
        exact foreign (own b found manages)
      rw [Option.map_some, if_neg kept]
  managed b mem manages := owner_eq_of_mem_release mem manages
  permitted id op permitted := by
    rw [permits, Option.any_eq_true] at permitted
    obtain ⟨b, found, permits⟩ := permitted
    refine ⟨b, found, ?_⟩
    by_contra foreign
    -- Who is not the owner reaches the contents as the manager only.
    have used : b.IsUsedBy a := ⟨fun same => foreign same.symm, Or.inr ⟨op, permits⟩⟩
    exact foreign (owner_eq_of_mem_release (List.mem_of_getElem? found) used.manager_eq)

end BufferTable

namespace Scheduler

variable {s : Scheduler} {i : Nat} {p q : Process} {r : Request}

def Ends (s : Scheduler) (r : Request) (p : Process) : Prop :=
  p ∈ s.processes.live ∧ ∃ outcome, (s.after r).stateOf? p.id = some (.terminated outcome)

/-- The process that a request ends: one that has given back what it held, or one that has used up
its cleanup quantum. -/
def ended? (s : Scheduler) : Request → Option Process
  | .cleanupDone id => (s.processes.live? id).filter (·.state.isCleanup)
  | .tick => s.currentProcess?.filter (·.charge == .cleanupOverrun)
  | _ => none

theorem isTerminated_obey_iff (granted : r.isGrantedTo p = true) :
    (s.obey p r).isTerminated = true ↔ r = .cleanupDone p.id := by
  cases r with
  | yield id delay =>
    rw [obey]
    split <;> simp [Process.makeReady, Process.block, Process.isTerminated,
      ProcessState.isTerminated]
  | cleanupDone id =>
    obtain ⟨rfl, _⟩ := (isGrantedTo_iff rfl).1 granted
    simp [obey, Process.terminate, Process.isTerminated, ProcessState.isTerminated]
  | waitIpc | waitIo | deliverIpc | completeIo | requestTermination =>
    simp [obey, Process.makeReady, Process.block, Process.beginCleanup, Process.isTerminated,
      ProcessState.isTerminated]
  | instantiate | schedule | tick | buffer => cases granted

theorem Becomes.isTerminated_iff (becomes : s.Becomes i p r q) (alive : p.isTerminated = false) :
    q.isTerminated = true ↔
      r = .cleanupDone p.id ∧ p.state.isCleanup = true ∨
        r = .tick ∧ s.current = some i ∧ p.charge = .cleanupOverrun := by
  cases becomes with
  | stays refused still =>
    have undone : ¬ (r = .cleanupDone p.id ∧ p.state.isCleanup = true) := by
      rintro ⟨rfl, cleans⟩
      have granted : (Request.cleanupDone p.id).isGrantedTo p = true :=
        (isGrantedTo_iff rfl).2 ⟨rfl, cleans⟩
      simp [granted] at refused
    simp [alive, undone, still.2]
  | obeys granted =>
    rw [isTerminated_obey_iff granted]
    constructor
    · rintro rfl
      exact Or.inl ⟨rfl, ((isGrantedTo_iff rfl).1 granted).2⟩
    · rintro (⟨done, _⟩ | ⟨rfl, _⟩)
      · exact done
      · cases granted
  | settles => simp [alive]
  | elapses place =>
    rw [(Becomes.elapses place).isTerminated_iff_of_tick alive]
    simp

theorem ends_iff_of_held (h : s.Consistent) (held : s.processes.get? i = some p)
    (alive : p.isTerminated = false) (becomes : s.Becomes i p r q)
    (held' : (s.after r).processes.get? i = some q) :
    s.Ends r p ↔ q.isTerminated = true := by
  simp only [Ends, stateOf?_after_eq_some_iff h held held' becomes.sameAs.id,
    Process.isTerminated_iff]
  exact and_iff_right (ProcessTable.mem_live.2 ⟨i, held, alive⟩)

theorem ended?_eq_some_iff (h : s.Consistent) (held : s.processes.get? i = some p)
    (alive : p.isTerminated = false) :
    s.ended? r = some p ↔
      r = .cleanupDone p.id ∧ p.state.isCleanup = true ∨
        r = .tick ∧ s.current = some i ∧ p.charge = .cleanupOverrun := by
  cases r with
  | cleanupDone id =>
    have live : s.processes.live? id = some p ↔ id = p.id := by
      rw [ProcessTable.live?_eq_some_iff]
      constructor
      · rintro ⟨_, named, _⟩
        exact named.symm
      · rintro rfl
        exact ⟨(h.named i p held).1 ▸ held, rfl, alive⟩
    simp [ended?, Option.filter_eq_some_iff, live]
  | tick =>
    have current : s.currentProcess? = some p ↔ s.current = some i := by
      rw [currentProcess?_eq_some_iff]
      constructor
      · rintro ⟨j, holder, held'⟩
        rw [holder, ← (h.named j p held').1, (h.named i p held).1]
      · intro holder
        exact ⟨i, holder, held⟩
    simp [ended?, Option.filter_eq_some_iff, current]
  | _ => simp [ended?]

theorem mem_live_of_ended? (h : s.Consistent) (ended : s.ended? r = some p) :
    p ∈ s.processes.live := by
  cases r with
  | cleanupDone id =>
    obtain ⟨held, _, alive⟩ :=
      ProcessTable.live?_eq_some_iff.1 (Option.filter_eq_some_iff.1 ended).1
    exact ProcessTable.mem_live.2 ⟨id.index, held, alive⟩
  | tick =>
    obtain ⟨i, holder, held⟩ := currentProcess?_eq_some_iff.1 (Option.filter_eq_some_iff.1 ended).1
    have alive := Process.not_isTerminated_of_isSchedulable (h.alive_of_holder holder held)
    exact ProcessTable.mem_live.2 ⟨i, held, alive⟩
  | _ => cases ended

theorem ends_iff (h : s.Consistent) : s.Ends r p ↔ s.ended? r = some p := by
  have same : p ∈ s.processes.live → (s.Ends r p ↔ s.ended? r = some p) := by
    intro live
    obtain ⟨i, held, alive⟩ := ProcessTable.mem_live.1 live
    obtain ⟨q, held', becomes⟩ := exists_after h (not_fills h held alive r) held
    rw [ends_iff_of_held h held alive becomes held', becomes.isTerminated_iff alive,
      ended?_eq_some_iff h held alive]
  constructor
  · intro ends
    exact (same ends.1).1 ends
  · intro ended
    exact (same (mem_live_of_ended? h ended)).2 ended

theorem asid_ne_of_ends (h : s.Consistent) (ends : s.Ends r p)
    (live : q ∈ (s.after r).processes.live) : q.asid ≠ p.asid := by
  intro same
  obtain ⟨i, held, alive⟩ := ProcessTable.mem_live.1 ends.1
  obtain ⟨j, held', alive'⟩ := ProcessTable.mem_live.1 live
  obtain ⟨p', dead, becomes⟩ := exists_after h (not_fills h held alive r) held
  have ended := (ends_iff_of_held h held alive becomes dead).1 ends
  have unfilled : ¬ s.Fills j r := by
    intro fills
    obtain ⟨asid, _, rfl, _⟩ := get?_after_of_fills h fills
    have none := (ends_iff h).1 ends
    cases none
  obtain ⟨q', before, becomes'⟩ := exists_before h unfilled held'
  have alive'' : q'.isTerminated = false := by
    by_contra dead'
    rw [becomes'.eq_of_isTerminated h before (by simpa using dead')] at alive'
    exact dead' alive'
  have one : i = j := h.single i j p q' held before alive alive''
    (same.symm.trans becomes'.sameAs.asid)
  rw [one, held'] at dead
  rw [← Option.some.inj dead, alive'] at ended
  cases ended

def loans (s : Scheduler) : Request → List BufferTable.Request
  | .buffer request => [request]
  | r => (s.ended? r).toList.map fun p => .release p.asid

def loansOf (s : Scheduler) : List Request → List BufferTable.Request
  | [] => []
  | r :: rs => s.loans r ++ (s.after r).loansOf rs

theorem loans_of_ended? (ended : s.ended? r = some p) : s.loans r = [.release p.asid] := by
  cases r with
  | buffer => cases ended
  | _ =>
    show (s.ended? _).toList.map _ = _
    rw [ended]
    rfl

theorem loans_of_not_buffer (others : ∀ request, r ≠ .buffer request)
    (nobody : s.ended? r = none) : s.loans r = [] := by
  cases r with
  | buffer request => exact absurd rfl (others request)
  | _ =>
    show (s.ended? _).toList.map _ = _
    rw [nobody]
    rfl

theorem buffers_retire (s : Scheduler) (i : Nat) (p : Process) (outcome : CleanupOutcome) :
    (s.retire i p outcome).buffers = s.buffers.release p.asid := by
  rw [retire]
  split <;> rfl

theorem buffers_schedule (s : Scheduler) : s.schedule.buffers = s.buffers := by
  obtain ⟨processes, current, decided⟩ := schedule_eq s
  rw [decided]

theorem buffers_commit {ε : Type} {v : Verdict ε} {t : Scheduler} (same : t.buffers = s.buffers) :
    (Verdict.commit v s t).2.buffers = s.buffers := by
  cases v with
  | error e => rfl
  | ok => exact same

theorem buffers_instantiate (s : Scheduler) (asid : Asid) :
    (s.instantiate asid).2.buffers = s.buffers := by
  rcases instantiate_cases s asid with ⟨e, refused⟩ | ⟨j, app, _, _, _, made⟩
  · rw [refused]
  · rw [made]
    rfl

theorem buffers_cleanupDone (s : Scheduler) (id : ProcessId) :
    (s.cleanupDone id).2.buffers = s.buffers.run (s.loans (.cleanupDone id)) := by
  cases verdict : s.checkState id (·.isCleanup) (.notTerminating id) with
  | error e =>
    have nobody : s.ended? (.cleanupDone id) = none := by
      rw [ended?, Option.filter_eq_none_iff]
      intro p live cleans
      rw [checkState_eq_ok.2 ⟨p, live, cleans⟩] at verdict
      cases verdict
    rw [cleanupDone_eq, verdict, loans_of_not_buffer (by simp) nobody]
    rfl
  | ok =>
    obtain ⟨p, live, cleans⟩ := checkState_eq_ok.1 verdict
    have ended : s.ended? (.cleanupDone id) = some p := Option.filter_eq_some_iff.2 ⟨live, cleans⟩
    rw [cleanupDone_eq, verdict, live, loans_of_ended? ended]
    exact buffers_retire s _ p .completed

theorem buffers_chargeCurrent (s : Scheduler) :
    s.chargeCurrent.2.buffers = s.buffers.run (s.loans .tick) := by
  cases current : s.currentProcess? with
  | none =>
    have nobody : s.ended? .tick = none := by rw [ended?, current, Option.filter_none]
    rw [chargeCurrent, current, loans_of_not_buffer (by simp) nobody]
    cases s.current <;> rfl
  | some p =>
    obtain ⟨i, holder, _⟩ := currentProcess?_eq_some_iff.1 current
    rw [chargeCurrent, holder, current]
    cases charge : p.charge with
    | cleanupOverrun =>
      have ended : s.ended? .tick = some p := by simp [ended?, current, charge]
      simp only [charge, loans_of_ended? ended]
      exact buffers_retire s i p .overrun
    | goesOn | quantumExpired =>
      have nobody : s.ended? .tick = none := by simp [ended?, current, charge]
      simp only [charge, loans_of_not_buffer (by simp) nobody]
      rfl

theorem buffers_tick (s : Scheduler) : s.tick.2.buffers = s.buffers.run (s.loans .tick) :=
  calc s.tick.2.buffers = s.beforeDecision.buffers := buffers_schedule s.beforeDecision
    _ = s.buffers.run (s.loans .tick) := buffers_chargeCurrent s.advance

theorem buffers_after (s : Scheduler) (r : Request) :
    (s.after r).buffers = s.buffers.run (s.loans r) := by
  cases r with
  | instantiate asid => exact buffers_instantiate s asid
  | schedule => exact buffers_schedule s
  | yield id delay =>
    rw [after_eq_commit rfl]
    refine buffers_commit ?_
    rw [accept]
    split <;> rfl
  | waitIpc | waitIo | deliverIpc | completeIo =>
    rw [after_eq_commit rfl]
    exact buffers_commit rfl
  | requestTermination id =>
    rw [after_eq_commit rfl]
    refine buffers_commit ?_
    rw [accept]
    split <;> rfl
  | cleanupDone id => exact buffers_cleanupDone s id
  | tick => exact buffers_tick s
  | buffer request => rfl

/-- What becomes of the buffers in a run is told by the requests about them and the processes that
end. -/
theorem buffers_run (s : Scheduler) (rs : List Request) :
    (s.run rs).buffers = s.buffers.run (s.loansOf rs) := by
  induction rs generalizing s with
  | nil => rfl
  | cons r rs ih => rw [run_cons, ih, buffers_after, loansOf, BufferTable.run_append]

/-- After any requests to a new scheduler with supported options, a request that is not about shared
buffers changes none unless it ends a process, which is done with its cleanup or overruns it. Then
what its application has borrowed goes back to the owners, and the application, which has no other
process, is left with its own buffers. -/
theorem buffers_go_back {o o' : Options} {store : Store} (supported : o.check = .ok ())
    (loaded : store.IsLoaded o') (rs : List Request) :
    let s := (ofStore store o).run rs
    (∀ r, (∀ request, r ≠ .buffer request) →
      ((∀ p, ¬ s.Ends r p) → (s.after r).buffers = s.buffers) ∧
        ∀ p, s.Ends r p →
          (r = .cleanupDone p.id ∨ r = .tick ∧ s.Overruns r p) ∧ (∀ q, s.Ends r q → q = p) ∧
            (∀ q ∈ (s.after r).processes.live, q.asid ≠ p.asid) ∧
            s.buffers.Returns (s.after r).buffers p.asid) ∧
      ∀ ss, (s.run ss).buffers = s.buffers.run (s.loansOf ss) := by
  intro s
  have consistent : s.Consistent := consistent_run (consistent_ofStore supported loaded) rs
  refine ⟨fun r others => ⟨fun nobody => ?_, fun p ends => ?_⟩, fun ss => buffers_run s ss⟩
  · have none : s.ended? r = none := by
      rw [Option.eq_none_iff_forall_ne_some]
      intro p ended
      exact nobody p ((ends_iff consistent).2 ended)
    rw [buffers_after, loans_of_not_buffer others none]
    rfl
  · have ended := (ends_iff consistent).1 ends
    obtain ⟨i, held, alive⟩ := ProcessTable.mem_live.1 ends.1
    refine ⟨?_, fun q ends' => ?_, fun q live => asid_ne_of_ends consistent ends live, ?_⟩
    · rcases (ended?_eq_some_iff consistent held alive).1 ended with ⟨done, _⟩ | overrun
      · exact Or.inl done
      · exact Or.inr ⟨overrun.1, (overruns_iff_of_held consistent held alive).2 overrun⟩
    · have ended' := (ends_iff consistent).1 ends'
      exact Option.some.inj (ended'.symm.trans ended)
    · rw [buffers_after, loans_of_ended? ended]
      exact BufferTable.returns_release s.buffers p.asid

/-- An application manages the buffer of another one when it overruns its cleanup. -/
theorem buffers_go_back_sharing :
    let s := (ofStore BufferTable.sharing { cleanupQuantum := 2 }).run [
      .instantiate ⟨1⟩, .schedule, .buffer (.addCredentials ⟨0⟩ ⟨0⟩ ⟨1⟩ { write := true }),
      .buffer (.transfer ⟨0⟩ ⟨0⟩ ⟨1⟩), .requestTermination ⟨0, 0⟩, .tick]
    (∃ p, s.Ends .tick p ∧ p.asid = ⟨1⟩) ∧
      s.buffers.permits ⟨1⟩ ⟨0⟩ .write = true ∧ s.buffers.Returns s.tick.2.buffers ⟨1⟩ ∧
      s.tick.2.buffers.permits ⟨1⟩ ⟨0⟩ .write = false ∧
      s.schedule.buffers = s.buffers := by
  intro s
  have loaded : BufferTable.sharing.IsLoaded {} :=
    ⟨{}, {}, BufferTable.sharing.apps, by decide +kernel⟩
  obtain ⟨changes, _⟩ := buffers_go_back (o := { cleanupQuantum := 2 }) (by decide) loaded [
      .instantiate ⟨1⟩, .schedule, .buffer (.addCredentials ⟨0⟩ ⟨0⟩ ⟨1⟩ { write := true }),
      .buffer (.transfer ⟨0⟩ ⟨0⟩ ⟨1⟩), .requestTermination ⟨0, 0⟩, .tick]
  have consistent : s.Consistent := consistent_run (consistent_ofStore (by decide) loaded) _
  obtain ⟨p, ended, asid⟩ : ∃ p, s.ended? .tick = some p ∧ p.asid = ⟨1⟩ :=
    ⟨_, rfl, by decide +kernel⟩
  have ends := (ends_iff consistent).2 ended
  have back := ((changes .tick (by simp)).2 p ends).2.2.2
  rw [asid] at back
  refine ⟨⟨p, ends, asid⟩, by decide +kernel, back, by decide +kernel, ?_⟩
  apply (changes .schedule (by simp)).1
  intro q ends'
  have none := (ends_iff consistent).1 ends'
  cases none

end Scheduler
end SeparationKernel
