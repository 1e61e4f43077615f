import Mathlib
import SeparationKernel.Proofs.Scheduler.FreeSlot
import SeparationKernel.Proofs.Session.Start

/-! How a session begins: who has a process, who has the processor, and that there are processes
enough for all that may come. -/
namespace SeparationKernel

def Process.Outranks (p q : Process) : Prop :=
  p.priority.isMoreImportantThan q.priority = true ∨
    p.priority = q.priority ∧ p.asid.index < q.asid.index

theorem Process.Outranks.asymm {p q : Process} (h : p.Outranks q) : ¬ q.Outranks p := by
  rcases h with more | ⟨same, lower⟩
  · have lt := Priority.isMoreImportantThan_iff.1 more
    rintro (more' | ⟨same', _⟩)
    · have lt' := Priority.isMoreImportantThan_iff.1 more'
      omega
    · rw [same'] at lt
      exact Nat.lt_irrefl _ lt
  · rintro (more' | ⟨_, lower'⟩)
    · rw [same, Priority.not_isMoreImportantThan_self] at more'
      cases more'
    · omega

namespace Scheduler

/-- The applications have a live process each, in the slots that are their places in the list, and
there is no other process. -/
structure Listed (s : Scheduler) (asids : List Asid) : Prop where
  asid : ∀ i, (s.processes.get? i).map (·.asid) = asids[i]?
  alive : ∀ i p, s.processes.get? i = some p → p.isTerminated = false

/-- Each application has a ready process, in the slot and at the place in the queue that it has in
the list, and there is no other process. The processor has not been given away yet. -/
structure Seated (s : Scheduler) (asids : List Asid) : Prop where
  asid : ∀ i, (s.processes.get? i).map (·.asid) = asids[i]?
  ready : ∀ i p, s.processes.get? i = some p → p.state = .ready
  place : ∀ i p, s.processes.get? i = some p → p.queuedAt = i
  next : s.nextPlace = asids.length
  vacant : s.current = none

theorem seated_ofStore (store : Store) (o : Options) : (ofStore store o).Seated [] where
  asid i := by simp [get?_ofStore]
  ready i p held := by simp [get?_ofStore] at held
  place i p held := by simp [get?_ofStore] at held
  next := rfl
  vacant := rfl

variable {s : Scheduler} {asids : List Asid} {asid : Asid} {app : App} {i : Nat} {p : Process}

namespace Listed

theorem getElem? (listed : s.Listed asids) (held : s.processes.get? i = some p) :
    asids[i]? = some p.asid := by
  rw [← listed.asid i, held, Option.map_some]

theorem mem_iff (listed : s.Listed asids) :
    asid ∈ asids ↔ ∃ p ∈ s.processes.live, p.asid = asid := by
  constructor
  · intro mem
    obtain ⟨i, p, held, same⟩ := ProcessTable.exists_get?_of_mem listed.asid mem
    exact ⟨p, ProcessTable.mem_live.2 ⟨i, held, listed.alive i p held⟩, same⟩
  · rintro ⟨p, live, rfl⟩
    obtain ⟨i, held, _⟩ := ProcessTable.mem_live.1 live
    exact List.mem_of_getElem? (listed.getElem? held)

theorem schedule (listed : s.Listed asids) (h : s.Consistent) : s.schedule.Listed asids where
  asid i := by
    rw [get?_schedule h i, ← listed.asid i, Option.map_map]
    exact Option.map_congr fun p _ => (p.sameAs_settle _).asid
  alive i p held := by
    rw [get?_schedule h i, Option.map_eq_some_iff] at held
    obtain ⟨q, held, rfl⟩ := held
    rw [Process.isTerminated_settle]
    exact listed.alive i q held

theorem freeSlot?_eq (listed : s.Listed asids) {j : Nat} (free : s.processes.freeSlot? = some j) :
    j = asids.length := by
  rcases Nat.lt_trichotomy j asids.length with before | rfl | behind
  · have there := listed.asid j
    rw [List.getElem?_eq_getElem before, Option.map_eq_some_iff] at there
    obtain ⟨p, held, _⟩ := there
    have dead := (ProcessTable.freeSlot?_eq_some free).2 p held
    simp [listed.alive j p held] at dead
  · rfl
  · obtain ⟨p, held, _⟩ := ProcessTable.exists_live_of_lt_freeSlot? free behind
    have beyond := listed.getElem? held
    simp at beyond

theorem put (listed : s.Listed asids) {t : Scheduler} {p : Process}
    (put : Put s t asids.length p) (alive : p.isTerminated = false) :
    t.Listed (asids ++ [p.asid]) where
  asid i := by
    rcases Nat.lt_trichotomy i asids.length with before | rfl | behind
    · rw [put.get? i before.ne, listed.asid i, List.getElem?_append_left before]
    · rw [put.self, List.getElem?_concat_length]
      rfl
    · rw [put.get? i behind.ne', listed.asid i, List.getElem?_eq_none behind.le,
        List.getElem?_eq_none (by simpa using behind)]
  alive i q held := by
    rcases put.get?_cases held with ⟨_, rfl⟩ | ⟨_, held⟩
    · exact alive
    · exact listed.alive i q held

theorem instantiate (listed : s.Listed asids) (h : s.Consistent)
    (room : s.store.size ≤ s.processes.slots.length) (described : s.store.get? asid = some app)
    (fresh : asid ∉ asids) :
    ∃ id, s.instantiate asid =
        (.ok id, s.install asids.length (s.newProcess asids.length asid app)) ∧
      Put s (s.install asids.length (s.newProcess asids.length asid app)) asids.length
        (s.newProcess asids.length asid app) := by
  rcases instantiate_cases s asid with ⟨e, refused⟩ | ⟨j, app', described', _, free, made⟩
  · have error : (s.instantiate asid).1 = .error e := by rw [refused]
    rcases (instantiate_eq_error_iff h room asid e).1 error with ⟨_, unknown⟩ | ⟨_, live⟩
    · simp [unknown] at described
    · exact absurd (listed.mem_iff.2 live) fresh
  · obtain rfl := listed.freeSlot?_eq free
    obtain rfl := Option.some.inj (described.symm.trans described')
    exact ⟨_, made, put_install s (ProcessTable.freeSlot?_eq_some free).1 _⟩

end Listed

namespace Seated

theorem listed (seated : s.Seated asids) : s.Listed asids where
  asid := seated.asid
  alive i p held := by
    simp [Process.isTerminated, ProcessState.isTerminated, seated.ready i p held]

theorem instantiate (seated : s.Seated asids) (h : s.Consistent)
    (room : s.store.size ≤ s.processes.slots.length) (described : s.store.get? asid = some app)
    (fresh : asid ∉ asids) :
    (∃ id, (s.instantiate asid).1 = .ok id) ∧ (s.instantiate asid).2.Seated (asids ++ [asid]) := by
  obtain ⟨id, made, put⟩ := seated.listed.instantiate h room described fresh
  rw [made]
  refine ⟨⟨id, rfl⟩, ?_⟩
  exact {
    asid := (seated.listed.put put rfl).asid
    ready := fun i p held => by
      rcases put.get?_cases held with ⟨_, rfl⟩ | ⟨_, held⟩
      · rfl
      · exact seated.ready i p held
    place := fun i p held => by
      rcases put.get?_cases held with ⟨rfl, rfl⟩ | ⟨_, held⟩
      · exact seated.next
      · exact seated.place i p held
    next := by
      rw [List.length_append, List.length_singleton, ← seated.next]
      rfl
    vacant := seated.vacant }

/-- The applications of a list get their processes, first to last. -/
theorem instantiateAll (seated : s.Seated asids) (h : s.Consistent)
    (room : s.store.size ≤ s.processes.slots.length) {more : List Asid}
    (described : ∀ asid ∈ more, ∃ app, s.store.get? asid = some app)
    (nodup : (asids ++ more).Nodup) :
    Session.instantiateAll s more = .ok (s.run (more.map .instantiate)) ∧
      (s.run (more.map .instantiate)).Seated (asids ++ more) := by
  induction more generalizing s asids with
  | nil =>
    rw [List.append_nil]
    exact ⟨rfl, seated⟩
  | cons asid more ih =>
    obtain ⟨app, here⟩ := described asid (by simp)
    have fresh : asid ∉ asids := fun mem =>
      (List.nodup_append.1 nodup).2.2 asid mem asid (by simp) rfl
    obtain ⟨⟨id, made⟩, seated'⟩ := seated.instantiate h room here fresh
    have store : (s.instantiate asid).2.store = s.store :=
      (still_after s (r := .instantiate asid) (by simp)).store
    have slots := (moves_instantiate s asid).length_slots
    have consistent := consistent_after h (.instantiate asid)
    have later : ∀ other ∈ more, ∃ app, (s.instantiate asid).2.store.get? other = some app := by
      intro other mem
      rw [store]
      exact described other (List.mem_cons_of_mem _ mem)
    have rest := ih seated' consistent (by rw [store, slots]; exact room) later
      (by simpa using nodup)
    rw [List.append_cons]
    refine ⟨?_, rest.2⟩
    rw [Session.instantiateAll, made]
    exact rest.1

/-- Whoever does not go after another one outranks it, since the lower number was first to queue up.
-/
theorem outranks (seated : s.Seated asids) (sorted : asids.Pairwise (·.index < ·.index)) {j : Nat}
    {q : Process} (held : s.processes.get? i = some p) (held' : s.processes.get? j = some q)
    (apart : i ≠ j) (behind : q.precedes p = false) : p.Outranks q := by
  rw [← Bool.not_eq_true, Process.precedes_iff_level, seated.place i p held,
    seated.place j q held'] at behind
  obtain ⟨_, at_i⟩ := List.getElem?_eq_some_iff.1 (seated.listed.getElem? held)
  obtain ⟨_, at_j⟩ := List.getElem?_eq_some_iff.1 (seated.listed.getElem? held')
  have numbers : i < j → p.asid.index < q.asid.index := by
    intro lt
    rw [← at_i, ← at_j]
    exact List.pairwise_iff_getElem.1 sorted i j _ _ lt
  rw [Process.Outranks, Priority.isMoreImportantThan_iff, ← Priority.level_inj]
  omega

/-- The processor goes to the process that outranks all others. -/
theorem schedule (seated : s.Seated asids) (sorted : asids.Pairwise (·.index < ·.index)) :
    asids = [] ∧ s.schedule.currentProcess? = none ∨
      ∃ p ∈ s.schedule.processes.live, s.schedule.currentProcess? = some p ∧
        ∀ q ∈ s.schedule.processes.live, q ≠ p → p.Outranks q := by
  have waits : ∀ i p, s.processes.get? i = some p → s.IsWaiting i p := fun i p held =>
    ⟨held, Process.isSchedulable_iff.2 (Or.inl (seated.ready i p held)), by simp [seated.vacant]⟩
  have decision := decision_schedule s
  generalize s.schedule = t at decision ⊢
  cases decision with
  | keep holder => simp [seated.vacant] at holder
  | preempt holder => simp [seated.vacant] at holder
  | @dispatch j q _ chosen first =>
    have given : (s.giveTo j).processes.get? j = some q.dispatch := by simp [get?_giveTo, chosen.1]
    have alive : q.dispatch.isTerminated = false := by
      rw [Process.isTerminated_dispatch]
      exact seated.listed.alive j q chosen.1
    refine Or.inr ⟨q.dispatch, ProcessTable.mem_live.2 ⟨j, given, alive⟩,
      currentProcess?_eq_some_iff.2 ⟨j, rfl, given⟩, fun r mem other => ?_⟩
    obtain ⟨k, held, _⟩ := ProcessTable.mem_live.1 mem
    have apart : j ≠ k := by
      rintro rfl
      exact other (Option.some.inj (held.symm.trans given))
    rw [get?_giveTo, if_neg apart] at held
    have before := seated.outranks sorted chosen.1 held apart (first k r (waits k r held))
    rw [Process.dispatch_eq]
    exact before
  | idle _ empty =>
    refine Or.inl ⟨?_, rfl⟩
    cases asids with
    | nil => rfl
    | cons asid asids =>
      have first := seated.asid 0
      cases held : s.processes.get? 0 with
      | none => simp [held] at first
      | some p => exact absurd (waits 0 p held) (empty 0 p)

end Seated

end Scheduler

namespace Session

/-- What is checked of a session before it starts, as far as processes are concerned. -/
structure Sound (session : Session) : Prop where
  supported : session.options.check = .ok ()
  loaded : session.store.IsLoaded session.options
  room : session.store.size ≤ session.options.processCountMax.toNat

theorem size_le_of_check {o : Options} {p : Platform} {store : Store}
    (h : check o p store = .ok ()) : store.size ≤ o.processCountMax.toNat := by
  simp only [check, checkBudgets, Verdict.all_cons_eq_ok, Verdict.require_eq_ok,
    decide_eq_true_eq] at h
  exact h.2.1.1

theorem sound_of_start {c : KernelConfig} {session : Session} (started : start c = .ok session) :
    session.Sound := by
  have h := start_eq_ok_iff.1 started
  have checked := h.checked
  have loaded : Store.load {} c.options session.platform c.apps = (.ok (), session.store) := by
    rw [Store.load_eq, Store.check_eq_ok_iff.2 h.accepts, Verdict.commit_ok, h.apps]
  rw [← h.options] at checked loaded
  exact ⟨h.options ▸ h.supported, ⟨{}, session.platform, c.apps, loaded⟩, size_le_of_check checked⟩

namespace Sound

variable {session : Session}

theorem size_le (sound : session.Sound) : session.store.size ≤ 256 := by
  have bounds := Options.bounds_of_check sound.supported (k := .processCountMax) rfl
  exact sound.room.trans (bounds.2.trans (by decide))

theorem mem_startAtBoot_iff (sound : session.Sound) {asid : Asid} :
    asid ∈ session.startAtBoot ↔
      ∃ app, session.store.get? asid = some app ∧ app.startAtBoot = true := by
  simp only [startAtBoot, List.mem_map, List.mem_filter, Prod.exists,
    Store.mem_entries_iff sound.size_le]
  constructor
  · rintro ⟨_, app, flagged, rfl⟩
    exact ⟨app, flagged⟩
  · rintro ⟨app, flagged⟩
    exact ⟨asid, app, flagged, rfl⟩

theorem pairwise_startAtBoot (sound : session.Sound) :
    session.startAtBoot.Pairwise (·.index < ·.index) := by
  rw [startAtBoot, List.pairwise_map]
  exact (Store.pairwise_entries sound.size_le).filter _

theorem nodup_startAtBoot (sound : session.Sound) : session.startAtBoot.Nodup := by
  refine sound.pairwise_startAtBoot.imp ?_
  rintro a _ lt rfl
  exact Nat.lt_irrefl _ lt

theorem consistent (sound : session.Sound) :
    (Scheduler.ofStore session.store session.options).Consistent :=
  Scheduler.consistent_ofStore sound.supported sound.loaded

theorem store_run (sound : session.Sound) (rs : List Scheduler.Request) :
    ((Scheduler.ofStore session.store session.options).run rs).store = session.store :=
  (Scheduler.store_policy_run sound.consistent rs).1

/-- There are slots for all applications, at any time. -/
theorem room_run (sound : session.Sound) (rs : List Scheduler.Request) :
    ((Scheduler.ofStore session.store session.options).run rs).store.size ≤
      ((Scheduler.ofStore session.store session.options).run rs).processes.slots.length := by
  have slots : (Scheduler.ofStore session.store session.options).processes.slots.length =
      session.options.processCountMax.toNat := by
    simp [Scheduler.ofStore, ProcessTable.ofSize]
  rw [sound.store_run, Scheduler.length_slots_run sound.consistent, slots]
  exact sound.room

theorem instantiate_eq_error_iff (sound : session.Sound) (rs : List Scheduler.Request)
    (asid : Asid) (e : SpawnError) :
    (((Scheduler.ofStore session.store session.options).run rs).instantiate asid).1 = .error e ↔
      e = .unknownApp asid ∧ session.store.get? asid = none ∨
        e = .alreadyLive asid ∧
          ∃ p ∈ ((Scheduler.ofStore session.store session.options).run rs).processes.live,
            p.asid = asid := by
  have refused := Scheduler.instantiate_eq_error_iff
    (Scheduler.consistent_run sound.consistent rs) (sound.room_run rs) asid e
  rwa [sound.store_run] at refused

/-- The applications that start with the session get their processes. -/
theorem seated (sound : session.Sound) :
    instantiateAll (.ofStore session.store session.options) session.startAtBoot =
        .ok ((Scheduler.ofStore session.store session.options).run
          (session.startAtBoot.map .instantiate)) ∧
      ((Scheduler.ofStore session.store session.options).run
        (session.startAtBoot.map .instantiate)).Seated session.startAtBoot := by
  have described : ∀ asid ∈ session.startAtBoot,
      ∃ app, session.store.get? asid = some app := by
    intro asid mem
    obtain ⟨app, described, _⟩ := sound.mem_startAtBoot_iff.1 mem
    exact ⟨app, described⟩
  exact (Scheduler.seated_ofStore session.store session.options).instantiateAll
    sound.consistent (sound.room_run []) described sound.nodup_startAtBoot

end Sound

/-- What the scheduler is like when a session begins. -/
structure Booted (session : Session) (s : Scheduler) : Prop where
  /-- The applications that start with the session, in the order of their numbers, -/
  listed : ∀ asid, asid ∈ session.startAtBoot ↔
    ∃ app, session.store.get? asid = some app ∧ app.startAtBoot = true
  sorted : session.startAtBoot.Pairwise (·.index < ·.index)
  /-- have one live process each, in the first slots, and there is no other process. -/
  asid : ∀ i, (s.processes.get? i).map (·.asid) = session.startAtBoot[i]?
  live : ∀ i p, s.processes.get? i = some p → p.id.index = i ∧ p.isTerminated = false
  /-- The processor is with the one that outranks all others, -/
  holder : ∀ p, s.currentProcess? = some p ↔
    p ∈ s.processes.live ∧ ∀ q ∈ s.processes.live, q ≠ p → p.Outranks q
  /-- and with nobody if no application starts with the session. -/
  vacant : s.currentProcess? = none ↔
    ∀ asid app, session.store.get? asid = some app → app.startAtBoot = false

theorem Sound.booted {session : Session} (sound : session.Sound) {s : Scheduler}
    (h : s.Consistent) (seated : s.Seated session.startAtBoot) : session.Booted s.schedule := by
  have listed : ∀ asid, asid ∈ session.startAtBoot ↔
      ∃ app, session.store.get? asid = some app ∧ app.startAtBoot = true :=
    fun asid => sound.mem_startAtBoot_iff
  have nobody : session.startAtBoot = [] ↔
      ∀ asid app, session.store.get? asid = some app → app.startAtBoot = false := by
    rw [List.eq_nil_iff_forall_not_mem]
    simp [listed]
  obtain ⟨asid, alive⟩ := seated.listed.schedule h
  have live : ∀ i p, s.schedule.processes.get? i = some p →
      p.id.index = i ∧ p.isTerminated = false := fun i p held =>
    ⟨((Scheduler.consistent_after h .schedule).named i p held).1, alive i p held⟩
  rcases seated.schedule sound.pairwise_startAtBoot with
    ⟨empty, vacant⟩ | ⟨first, mem, holder, outranks⟩
  · refine ⟨listed, sound.pairwise_startAtBoot, asid, live, fun p => ?_, ?_⟩
    · have absent : p ∉ s.schedule.processes.live := by
        intro mem
        obtain ⟨i, held, _⟩ := ProcessTable.mem_live.1 mem
        have listed' := asid i
        simp [held, empty] at listed'
      simp [vacant, absent]
    · exact ⟨fun _ => nobody.1 empty, fun _ => vacant⟩
  · refine ⟨listed, sound.pairwise_startAtBoot, asid, live, fun p => ?_, ?_⟩
    · rw [holder, Option.some.injEq]
      constructor
      · rintro rfl
        exact ⟨mem, outranks⟩
      · rintro ⟨mem', outranks'⟩
        by_contra other
        exact (outranks p mem' (Ne.symm other)).asymm (outranks' first mem other)
    · obtain ⟨i, held, _⟩ := ProcessTable.mem_live.1 mem
      have some_app : session.startAtBoot ≠ [] := by
        intro empty
        have listed' := asid i
        simp [held, empty] at listed'
      simp [holder, ← nobody, some_app]

/-- A session that has started gets its scheduler, and never runs out of slots. Whatever is asked of
that scheduler, a process is refused only for a number that no application has, or for an
application that has a live process. -/
theorem scheduler_never_full {c : KernelConfig} {session : Session}
    (started : start c = .ok session) :
    ∃ s, session.scheduler = .ok s ∧ session.Booted s ∧ ∀ requests asid,
      ((s.run requests).instantiate asid).1 ≠ .error .noFreeSlot ∧
        ∀ e, ((s.run requests).instantiate asid).1 = .error e ↔
          e = .unknownApp asid ∧ session.store.get? asid = none ∨
            e = .alreadyLive asid ∧ ∃ p ∈ (s.run requests).processes.live, p.asid = asid := by
  have sound := sound_of_start started
  obtain ⟨made, seated⟩ := sound.seated
  have boots := Scheduler.consistent_run sound.consistent (session.startAtBoot.map .instantiate)
  refine ⟨_, by rw [scheduler, made]; rfl, sound.booted boots seated, fun requests asid => ?_⟩
  -- The requests go on the run that made the processes and decided for the first time.
  rw [← Scheduler.after, ← Scheduler.run_cons, ← Scheduler.run_append]
  generalize session.startAtBoot.map .instantiate ++ .schedule :: requests = rs
  refine ⟨fun full => ?_, sound.instantiate_eq_error_iff rs asid⟩
  rcases (sound.instantiate_eq_error_iff rs asid _).1 full with ⟨other, _⟩ | ⟨other, _⟩
  · cases other
  · cases other

/-- Of two applications that start with the session the second goes first. The third may come. -/
theorem scheduler_never_full_three :
    let c : KernelConfig := {
      apps := [
        { name := "a", priority := ⟨3⟩, quantum := 2, startAtBoot := true },
        { name := "b", priority := ⟨1⟩, quantum := 2, startAtBoot := true },
        { name := "c", priority := ⟨1⟩, quantum := 2 }] }
    ∃ session s, start c = .ok session ∧ session.scheduler = .ok s ∧ s.currentId? = some ⟨1, 0⟩ ∧
      ∀ requests, ((s.run requests).instantiate ⟨2⟩).1 ≠ .error .noFreeSlot := by
  intro c
  have started : start c = .ok { options := {}, platform := {}, store := ⟨c.apps⟩ } := by
    decide +kernel
  obtain ⟨s, made, _, refused⟩ := scheduler_never_full started
  have first : (scheduler { options := {}, platform := {}, store := ⟨c.apps⟩ }).map
      (·.currentId?) = .ok (some ⟨1, 0⟩) := by decide +kernel
  rw [made] at first
  exact ⟨_, s, started, made, Except.ok.inj first, fun requests => (refused requests ⟨2⟩).1⟩

end Session
end SeparationKernel
