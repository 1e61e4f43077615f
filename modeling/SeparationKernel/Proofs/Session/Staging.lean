import Mathlib
import SeparationKernel.Proofs.Session.Boot

/-! A session before the first systick, while processes are only made and asked to terminate. All of
them live, and none waits for anything but the processor. -/
namespace SeparationKernel
namespace Scheduler

/-- The order of those that clean up. Who holds the processor keeps its place in the queue; the
others have queued up behind everyone when their termination was asked for. -/
structure Queued (s : Scheduler) (holder : Option Asid) (condemned : List Asid) : Prop where
  behind : condemned.Pairwise fun a b => holder ≠ some b → ∀ i j p q,
    s.processes.get? i = some p → s.processes.get? j = some q → p.asid = a → q.asid = b →
      p.queuedAt < q.queuedAt
  first : ∀ i j p q, s.processes.get? i = some p → s.processes.get? j = some q →
    holder = some p.asid → q.asid ∈ condemned → q.asid ≠ p.asid → p.queuedAt < q.queuedAt

variable {s : Scheduler} {asids : List Asid} {i : Nat} {p : Process}

theorem still_run (s : Scheduler) {rs : List Request} (timeless : .tick ∉ rs) :
    Still s (s.run rs) := by
  induction rs generalizing s with
  | nil => exact {}
  | cons r rs ih =>
    have first := still_after s (r := r) fun tick => timeless (tick ▸ List.mem_cons_self)
    have rest := ih (s.after r) fun mem => timeless (List.mem_cons_of_mem _ mem)
    exact ⟨rest.store.trans first.store, rest.policy.trans first.policy,
      rest.now.trans first.now, rest.idleRun.trans first.idleRun⟩

theorem get?_condemn (h : s.Consistent) (held : s.processes.get? i = some p)
    (healthy : p.CanRun) (j : Nat) :
    (s.requestTermination p.id).2.processes.get? j = (s.processes.get? j).map fun q =>
      if j = i then p.beginCleanup s.policy.cleanupQuantum
        (if s.current = some i then none else some s.nextPlace)
      else q := by
  have index : p.id.index = i := (h.named i p held).1
  have table := get?_after_of_addressee? h (r := .requestTermination p.id) rfl j
  rw [after] at table
  rw [table]
  cases at_j : s.processes.get? j with
  | none => rfl
  | some q =>
    rw [Option.map_some, Option.map_some]
    by_cases same : j = i
    · subst j
      obtain rfl := Option.some.inj (held.symm.trans at_j)
      have suits : (Request.requestTermination p.id).isGrantedTo p = true := by
        rw [isGrantedTo_iff rfl]
        rcases healthy with state | state <;>
          simp [Request.suits, state, ProcessState.isTerminated, ProcessState.isCleanup]
      simp [suits, obey, isCurrent, index]
    · have refused := not_isGrantedTo_of_index_ne h (r := .requestTermination p.id) rfl at_j
        (index ▸ Ne.symm same)
      simp [refused, same]

theorem requestTermination_eq_ok (h : s.Consistent) (held : s.processes.get? i = some p)
    (healthy : p.CanRun) : (s.requestTermination p.id).1 = .ok () := by
  have index : p.id.index = i := (h.named i p held).1
  have alive := Process.not_isTerminated_of_isSchedulable (Process.canRun_iff.1 healthy).1
  rw [requestTermination_eq, Verdict.commit_fst, checkState_eq_ok]
  refine ⟨p, ProcessTable.live?_eq_some_iff.2 ⟨index ▸ held, rfl, alive⟩, ?_⟩
  rw [(Process.canRun_iff.1 healthy).2, Bool.not_false]

theorem requestTermination_eq_error (h : s.Consistent) (held : s.processes.get? i = some p)
    {n : UInt32} (cleanup : p.state = .cleanup n) :
    (s.requestTermination p.id).1 = .error (.terminating p.id) := by
  have index : p.id.index = i := (h.named i p held).1
  have alive := Process.not_isTerminated_of_isSchedulable (Process.isSchedulable_of_cleanup cleanup)
  have live : s.processes.live? p.id = some p :=
    ProcessTable.live?_eq_some_iff.2 ⟨index ▸ held, rfl, alive⟩
  simp [requestTermination_eq, checkState, checkLive, live, cleanup, ProcessState.isCleanup,
    Verdict.require, Verdict.all, Verdict.andThen]

theorem current_requestTermination (s : Scheduler) (id : ProcessId) :
    (s.requestTermination id).2.current = s.current := by
  rw [requestTermination_eq]
  cases s.checkState id (!·.isCleanup) (.terminating id) with
  | error e => rfl
  | ok =>
    rw [Verdict.commit_ok]
    split <;> rfl

namespace Listed

theorem holder (listed : s.Listed asids) :
    s.currentProcess?.map (·.asid) = s.current.bind fun i => asids[i]? := by
  cases current : s.current with
  | none => simp [currentProcess?, current]
  | some i => simp [currentProcess?, current, listed.asid i]

theorem ofApp? (listed : s.Listed asids) (asid : Asid) :
    (asid ∉ asids ∧ s.ofApp? asid = none) ∨
      ∃ i p, s.processes.get? i = some p ∧ p.asid = asid ∧ s.ofApp? asid = some p.id := by
  cases found : s.processes.ofApp? asid with
  | none =>
    refine Or.inl ⟨fun mem => ?_, by rw [Scheduler.ofApp?, found, Option.map_none]⟩
    obtain ⟨i, p, held, same⟩ := ProcessTable.exists_get?_of_mem listed.asid mem
    exact ProcessTable.ofApp?_eq_none_iff.1 found i p held (listed.alive i p held) same
  | some p =>
    obtain ⟨i, held, _⟩ := ProcessTable.mem_live.1 (List.mem_of_find?_eq_some found)
    have same : p.asid = asid := by simpa using List.find?_some found
    exact Or.inr ⟨i, p, held, same, by rw [Scheduler.ofApp?, found, Option.map_some]⟩

end Listed

end Scheduler

namespace Session

open Scheduler (Queued)

variable {session : Session} {s : Scheduler} {holder : Option Asid}
  {started condemned : List Asid} {a : Asid} {i j : Nat} {p q : Process}

def Early (session : Session) (s : Scheduler) : Prop :=
  ∃ rs, .tick ∉ rs ∧ (Scheduler.ofStore session.store session.options).run rs = s

namespace Early

theorem after (early : session.Early s) {r : Scheduler.Request} (other : r ≠ .tick) :
    session.Early (s.after r) := by
  obtain ⟨rs, timeless, rfl⟩ := early
  refine ⟨rs ++ [r], ?_, Scheduler.run_concat _ rs r⟩
  rw [List.mem_append, List.mem_singleton]
  rintro (mem | tick)
  · exact timeless mem
  · exact other tick.symm

theorem consistent (early : session.Early s) (sound : session.Sound) : s.Consistent := by
  obtain ⟨rs, _, rfl⟩ := early
  exact Scheduler.consistent_run sound.consistent rs

theorem still (early : session.Early s) :
    Scheduler.Still (Scheduler.ofStore session.store session.options) s := by
  obtain ⟨rs, timeless, rfl⟩ := early
  exact Scheduler.still_run _ timeless

theorem room (early : session.Early s) (sound : session.Sound) :
    s.store.size ≤ s.processes.slots.length := by
  obtain ⟨rs, _, rfl⟩ := early
  exact sound.room_run rs

end Early

/-- The applications `started` have their processes, and the termination of those of `condemned` has
been asked for since `holder` got the processor. -/
structure Stage (session : Session) (holder : Option Asid) (started condemned : List Asid)
    (s : Scheduler) : Prop where
  early : session.Early s
  listed : s.Listed started
  healthy : ∀ i p, s.processes.get? i = some p → p.asid ∉ condemned → p.CanRun
  cleans : ∀ i p, s.processes.get? i = some p → p.asid ∈ condemned →
    p.state = .cleanup session.options.cleanupQuantum
  holds : s.currentProcess?.map (·.asid) = holder
  queued : s.Queued holder condemned

namespace Stage

theorem current_iff (stage : session.Stage holder started condemned s) (sound : session.Sound)
    (held : s.processes.get? i = some p) : s.current = some i ↔ holder = some p.asid := by
  have consistent := stage.early.consistent sound
  rw [← stage.holds]
  constructor
  · intro current
    rw [stage.listed.holder, current, Option.bind_some, stage.listed.getElem? held]
  · intro same
    obtain ⟨q, current, asid⟩ := Option.map_eq_some_iff.1 same
    obtain ⟨j, current, held'⟩ := Scheduler.currentProcess?_eq_some_iff.1 current
    have alive := stage.listed.alive
    rw [current, consistent.single j i q p held' held (alive j q held') (alive i p held) asid]

theorem instantiate (stage : session.Stage holder started [] s) (sound : session.Sound)
    {app : App} (described : session.store.get? a = some app) (fresh : a ∉ started) :
    ∃ id, (s.instantiate a).1 = .ok id ∧
      session.Stage holder (started ++ [a]) [] (s.instantiate a).2 := by
  have consistent := stage.early.consistent sound
  have store : s.store = session.store := stage.early.still.store
  obtain ⟨id, made, put⟩ := stage.listed.instantiate consistent (stage.early.room sound)
    (store ▸ described) fresh
  have early := stage.early.after (r := .instantiate a) (by simp)
  rw [Scheduler.after] at early
  rw [made] at early ⊢
  have listed := stage.listed.put put rfl
  refine ⟨id, rfl, early, listed, fun i p held _ => ?_, fun i p _ mem => absurd mem (by simp), ?_,
    .nil, fun i j p q _ _ _ mem => absurd mem (by simp)⟩
  · rcases put.get?_cases held with ⟨_, rfl⟩ | ⟨_, held⟩
    · exact Or.inl rfl
    · exact stage.healthy i p held (by simp)
  · rw [← stage.holds, listed.holder, stage.listed.holder]
    show (s.current.bind fun i => (started ++ [a])[i]?) = _
    cases current : s.current with
    | none => rfl
    | some i =>
      obtain ⟨p, held, _⟩ := consistent.holder i current
      have lt := (List.getElem?_eq_some_iff.1 (stage.listed.getElem? held)).1
      rw [Option.bind_some, Option.bind_some, List.getElem?_append_left lt]

theorem instantiate_eq_error (stage : session.Stage holder started condemned s)
    (sound : session.Sound) (mem : a ∈ started) :
    (s.instantiate a).1 = .error (.alreadyLive a) :=
  (Scheduler.instantiate_eq_error_iff (stage.early.consistent sound) (stage.early.room sound) a
    _).2 (Or.inr ⟨rfl, stage.listed.mem_iff.1 mem⟩)

theorem get?_condemn_cases (stage : session.Stage holder started condemned s)
    (sound : session.Sound) (held : s.processes.get? i = some p) (healthy : p.CanRun)
    (held' : (s.requestTermination p.id).2.processes.get? j = some q) :
    (j = i ∧ q.asid = p.asid ∧ q.state = .cleanup session.options.cleanupQuantum ∧
        q.queuedAt = if holder = some p.asid then p.queuedAt else s.nextPlace) ∨
      q.asid ≠ p.asid ∧ s.processes.get? j = some q := by
  have consistent := stage.early.consistent sound
  have policy : s.policy = .ofOptions session.options := stage.early.still.policy
  rw [Scheduler.get?_condemn consistent held healthy, Option.map_eq_some_iff] at held'
  obtain ⟨r, held', rfl⟩ := held'
  by_cases same : j = i
  · rw [if_pos same]
    refine Or.inl ⟨same, rfl, ?_, ?_⟩
    · rw [policy]
      rfl
    · simp only [stage.current_iff sound held]
      split <;> rfl
  · rw [if_neg same]
    refine Or.inr ⟨fun asid => same ?_, held'⟩
    exact consistent.single j i r p held' held (stage.listed.alive j r held')
      (stage.listed.alive i p held) asid

theorem listed_condemn (stage : session.Stage holder started condemned s)
    (sound : session.Sound) (held : s.processes.get? i = some p) (healthy : p.CanRun) :
    (s.requestTermination p.id).2.Listed started where
  asid j := by
    rw [Scheduler.get?_condemn (stage.early.consistent sound) held healthy, ← stage.listed.asid j,
      Option.map_map]
    cases at_j : s.processes.get? j with
    | none => rfl
    | some q =>
      by_cases same : j = i
      · subst j
        obtain rfl := Option.some.inj (held.symm.trans at_j)
        simp [Process.beginCleanup]
      · simp [same]
  alive j q held' := by
    rcases stage.get?_condemn_cases sound held healthy held' with ⟨_, _, state, _⟩ | ⟨_, held'⟩
    · simp [Process.isTerminated, ProcessState.isTerminated, state]
    · exact stage.listed.alive j q held'

/-- The order of those that were asked before is kept, and the one asked now comes last, unless it
holds the processor. -/
theorem queued_condemn (stage : session.Stage holder started condemned s)
    (sound : session.Sound) (held : s.processes.get? i = some p) (fresh : p.asid ∉ condemned) :
    (s.requestTermination p.id).2.Queued holder (condemned ++ [p.asid]) := by
  have consistent := stage.early.consistent sound
  have healthy := stage.healthy i p held fresh
  have cases_of : ∀ {j q}, (s.requestTermination p.id).2.processes.get? j = some q → _ :=
    fun {j q} => stage.get?_condemn_cases sound (j := j) (q := q) held healthy
  constructor
  · refine List.pairwise_append.2 ⟨stage.queued.behind.imp_of_mem ?_, List.pairwise_singleton _ _,
      ?_⟩
    · rintro a b a_mem b_mem before other j k q r held' held'' rfl rfl
      rcases cases_of held' with ⟨_, asid, _⟩ | ⟨_, held'⟩
      · exact absurd (asid ▸ a_mem) fresh
      · rcases cases_of held'' with ⟨_, asid, _⟩ | ⟨_, held''⟩
        · exact absurd (asid ▸ b_mem) fresh
        · exact before other j k q r held' held'' rfl rfl
    · rintro a a_mem b b_mem other j k q r held' held'' rfl rfl
      obtain last := List.mem_singleton.1 b_mem
      rcases cases_of held' with ⟨_, asid, _⟩ | ⟨_, held'⟩
      · exact absurd (asid ▸ a_mem) fresh
      · rcases cases_of held'' with ⟨_, _, _, place⟩ | ⟨other', _⟩
        · rw [place, if_neg (last ▸ other)]
          exact consistent.place_lt j q held'
        · exact absurd last other'
  · intro j k q r held' held'' holds mem apart
    rcases cases_of held' with ⟨_, asid, _, place⟩ | ⟨other, held'⟩
    · rcases cases_of held'' with ⟨_, asid', _⟩ | ⟨other', held''⟩
      · exact absurd (asid'.trans asid.symm) apart
      · rw [place, if_pos (asid ▸ holds)]
        exact stage.queued.first i k p r held held'' (asid ▸ holds)
          (by simpa [other'] using mem) other'
    · rcases cases_of held'' with ⟨_, _, _, place⟩ | ⟨other', held''⟩
      · rw [place, if_neg fun same => other (Option.some.inj (holds.symm.trans same))]
        exact consistent.place_lt j q held'
      · exact stage.queued.first j k q r held' held'' holds (by simpa [other'] using mem) apart

/-- Termination is asked for of one more application's process. -/
theorem condemn (stage : session.Stage holder started condemned s) (sound : session.Sound)
    (held : s.processes.get? i = some p) (fresh : p.asid ∉ condemned) :
    session.Stage holder started (condemned ++ [p.asid]) (s.requestTermination p.id).2 := by
  have healthy := stage.healthy i p held fresh
  have listed := stage.listed_condemn sound held healthy
  refine ⟨stage.early.after (r := .requestTermination p.id) (by simp), listed,
    fun j q held' spared => ?_, fun j q held' mem => ?_, ?_, stage.queued_condemn sound held fresh⟩
  · rcases stage.get?_condemn_cases sound held healthy held' with ⟨_, asid, _⟩ | ⟨_, held'⟩
    · exact absurd (by simp [asid]) spared
    · exact stage.healthy j q held' fun mem => spared (List.mem_append_left _ mem)
  · rcases stage.get?_condemn_cases sound held healthy held' with ⟨_, _, state, _⟩ | ⟨other, held'⟩
    · exact state
    · exact stage.cleans j q held' (by simpa [other] using mem)
  · rw [← stage.holds, listed.holder, stage.listed.holder, Scheduler.current_requestTermination]

end Stage

/-- A session begins with a process of each application that starts with it. -/
theorem Sound.stage (sound : session.Sound) :
    ∃ booted, session.scheduler = .ok booted ∧
      session.Stage (booted.currentProcess?.map (·.asid)) session.startAtBoot [] booted := by
  obtain ⟨made, seated⟩ := sound.seated
  have consistent := Scheduler.consistent_run sound.consistent
    (session.startAtBoot.map .instantiate)
  have early : session.Early ((Scheduler.ofStore session.store session.options).run
      (session.startAtBoot.map .instantiate)) := ⟨_, by simp, rfl⟩
  refine ⟨_, by rw [scheduler, made]; rfl, early.after (r := .schedule) (by simp),
    seated.listed.schedule consistent, fun i p held _ => ?_, fun i p _ mem => absurd mem (by simp),
    rfl, .nil, fun i j p q _ _ _ mem => absurd mem (by simp)⟩
  rw [Scheduler.after, Scheduler.get?_schedule consistent, Option.map_eq_some_iff] at held
  obtain ⟨q, held, rfl⟩ := held
  exact Process.CanRun.settle (Or.inl (seated.ready i q held)) _

end Session
end SeparationKernel
