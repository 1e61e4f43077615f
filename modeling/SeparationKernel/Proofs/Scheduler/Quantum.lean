import Mathlib
import SeparationKernel.Proofs.Scheduler.Band
import SeparationKernel.Proofs.Scheduler.StateMachine

/-! Quanta. A process has its quantum less the systicks that it has run for, counted from when it
was made or last queued up at the back. -/
namespace SeparationKernel

theorem Process.quantumLeft_charged {p : Process} (idle : p.state ≠ .running) (place : Nat) :
    (p.charged place).quantumLeft = p.quantumLeft := by
  rw [charged]
  cases charge : p.charge with
  | goesOn left =>
    rcases charge_goesOn charge with ⟨running, _⟩ | ⟨_, _, _, rfl⟩ | ⟨_, _, rfl⟩
    · exact absurd running idle
    · rfl
    · rfl
  | quantumExpired => exact absurd (charge_quantumExpired charge).1 idle
  | cleanupOverrun => rfl

namespace Scheduler

variable {s : Scheduler} {i : Nat} {p q : Process} {r : Request} {id : ProcessId}

def isRunning (s : Scheduler) (id : ProcessId) : Bool :=
  s.currentProcess?.any fun p => p.id == id && p.state == .running

def runningTicks (s : Scheduler) (id : ProcessId) : List Request → Nat
  | [] => 0
  | r :: rs =>
    (if r = .tick ∧ s.isRunning id = true then 1 else 0) + (s.after r).runningTicks id rs

/-- The request puts the process at the back of its queue: it yields without a delay, its event or
the end of its time limit wakes it, or it runs for the last systick of its quantum. -/
def Requeues (s : Scheduler) (p : Process) : Request → Prop
  | .yield id delay => id = p.id ∧ p.state = .running ∧ delay.filter (· != 0) = none
  | .deliverIpc id => id = p.id ∧ p.state = .blocked .ipc
  | .completeIo id => id = p.id ∧ p.state = .blocked .io
  | .tick => p.isBlocked = true ∧ p.isDue s.now.next = true ∨
      s.isRunning p.id = true ∧ p.quantumLeft.toNat = 1
  | _ => False

def Renews (s : Scheduler) (id : ProcessId) (r : Request) : Prop :=
  s.makes? r = some id ∨ ∃ p, s.processes.find? id = some p ∧ s.Requeues p r

/-- Of all requests of a run, `r` is the last that makes the process or puts it at the back. -/
structure LastRenewal (s : Scheduler) (id : ProcessId) (rs before : List Request) (r : Request)
    (since : List Request) : Prop where
  split : rs = before ++ r :: since
  renews : (s.run before).Renews id r
  last : ∀ first r' rest, since = first ++ r' :: rest →
    ¬ (s.run (before ++ r :: first)).Renews id r'

theorem runningTicks_append (s : Scheduler) (id : ProcessId) (rs ss : List Request) :
    s.runningTicks id (rs ++ ss) = s.runningTicks id rs + (s.run rs).runningTicks id ss := by
  induction rs generalizing s with
  | nil => simp [runningTicks]
  | cons r rs ih => simp [runningTicks, ih, Nat.add_assoc]

theorem runningTicks_concat (s : Scheduler) (id : ProcessId) (rs : List Request) (r : Request) :
    s.runningTicks id (rs ++ [r]) =
      s.runningTicks id rs + if r = .tick ∧ (s.run rs).isRunning id = true then 1 else 0 := by
  simp [runningTicks_append, runningTicks]

theorem isRunning_iff (h : s.Consistent) (held : s.processes.get? i = some p) :
    s.isRunning p.id = true ↔ p.state = .running := by
  simp only [isRunning, Option.any_eq_true, Bool.and_eq_true, beq_iff_eq]
  constructor
  · rintro ⟨u, current, named, running⟩
    obtain ⟨j, _, held'⟩ := currentProcess?_eq_some_iff.1 current
    have same : j = i := by rw [← (h.named j u held').1, named, (h.named i p held).1]
    rw [same, held] at held'
    exact Option.some.inj held' ▸ running
  · intro running
    exact ⟨p, currentProcess?_eq_some_iff.2 ⟨i, h.running i p held running, held⟩, rfl, running⟩

theorem isGrantedTo_of_requeues (requeues : s.Requeues p r) (other : r ≠ .tick) :
    r.isGrantedTo p = true := by
  cases r with
  | yield id delay =>
    obtain ⟨rfl, running, _⟩ := requeues
    exact (isGrantedTo_iff rfl).2 ⟨rfl, by simp [Request.suits, running]⟩
  | deliverIpc id | completeIo id =>
    obtain ⟨rfl, blocked⟩ := requeues
    exact (isGrantedTo_iff rfl).2 ⟨rfl, by simp [Request.suits, blocked]⟩
  | tick => exact absurd rfl other
  | instantiate | schedule | waitIpc | waitIo | requestTermination | cleanupDone | buffer =>
    cases requeues

theorem quantumLeft_obey (granted : r.isGrantedTo p = true) :
    s.Requeues p r ∧ (s.obey p r).quantumLeft = p.app.quantum ∨
      ¬ s.Requeues p r ∧ (s.obey p r).quantumLeft = p.quantumLeft := by
  have suits := suits_of_isGrantedTo granted
  cases r with
  | yield id delay =>
    obtain ⟨rfl, _⟩ := (isGrantedTo_iff rfl).1 granted
    cases limit : delay.filter (· != 0) with
    | none => exact Or.inl ⟨⟨rfl, beq_iff_eq.1 suits, limit⟩, by simp only [obey, limit]; rfl⟩
    | some d =>
      refine Or.inr ⟨fun requeues => ?_, by simp only [obey, limit]; rfl⟩
      cases limit.symm.trans requeues.2.2
  | deliverIpc id | completeIo id =>
    obtain ⟨rfl, _⟩ := (isGrantedTo_iff rfl).1 granted
    exact Or.inl ⟨⟨rfl, beq_iff_eq.1 suits⟩, rfl⟩
  | waitIpc | waitIo | requestTermination | cleanupDone => exact Or.inr ⟨id, rfl⟩
  | instantiate | schedule | tick | buffer => cases suits

theorem quantumLeft_elapse (h : s.Consistent) (held : s.processes.get? i = some p) (place : Nat) :
    s.Requeues p .tick ∧
        (p.elapse (s.current == some i) s.now.next place).quantumLeft = p.app.quantum ∨
      ¬ s.Requeues p .tick ∧
        (p.elapse (s.current == some i) s.now.next place).quantumLeft.toNat +
          (if s.isRunning p.id = true then 1 else 0) = p.quantumLeft.toNat := by
  have quantum := h.quantum i p held
  simp only [Requeues, isRunning_iff h held]
  by_cases holder : s.current = some i
  · have unlimited := h.deadline_eq_none held (h.alive_of_holder holder held)
    have early : p.isDue s.now.next = false := by simp [Process.isDue, unlimited]
    rw [Process.elapse, holder, beq_self_eq_true, if_pos rfl]
    by_cases running : p.state = .running
    · rw [Process.charged_of_running running]
      by_cases last : p.quantumLeft.toNat ≤ 1
      · rw [if_pos last]
        exact Or.inl ⟨Or.inr ⟨running, by omega⟩, rfl⟩
      · rw [if_neg last, if_pos running]
        refine Or.inr ⟨by simp [early]; omega, ?_⟩
        rw [Counter.toNat_down]
        omega
    · rw [if_neg running, Process.quantumLeft_charged running]
      exact Or.inr ⟨by simp [early, running], rfl⟩
  · have idle := not_running_of_not_current h held holder
    rw [Process.elapse, beq_eq_false_iff_ne.2 holder, if_neg Bool.false_ne_true, if_neg idle]
    by_cases due : p.isDue s.now.next = true
    · rw [if_pos due]
      exact Or.inl ⟨Or.inl ⟨isBlocked_of_isDue (consistent_advance h) held due, due⟩, rfl⟩
    · rw [if_neg due]
      exact Or.inr ⟨by simp [due, idle], rfl⟩

theorem Becomes.quantumLeft (becomes : s.Becomes i p r q) (h : s.Consistent)
    (held : s.processes.get? i = some p) :
    s.Requeues p r ∧ q.quantumLeft = p.app.quantum ∨
      ¬ s.Requeues p r ∧ q.quantumLeft.toNat +
        (if r = .tick ∧ s.isRunning p.id = true then 1 else 0) = p.quantumLeft.toNat := by
  cases becomes with
  | stays refused still =>
    refine Or.inr ⟨fun requeues => ?_, by simp [still.2]⟩
    simp [isGrantedTo_of_requeues requeues still.2] at refused
  | obeys granted =>
    have other : r ≠ .tick := by
      rintro rfl
      cases granted
    rcases quantumLeft_obey granted with whole | ⟨kept, same⟩
    · exact Or.inl whole
    · exact Or.inr ⟨kept, by simp [other, same]⟩
  | settles => exact Or.inr ⟨id, by simp⟩
  | elapses place =>
    rw [Process.quantumLeft_settle]
    simpa using quantumLeft_elapse h held place

/-- The systick that a process runs for last of its quantum puts it at the back of its band, before
all who wake up with it. -/
theorem band_tick_of_last (h : s.Consistent) (held : s.processes.get? i = some p)
    (running : s.isRunning p.id = true) (last : p.quantumLeft.toNat = 1) :
    s.tick.2.band p.priority = s.queue p.priority ++ p.id :: s.woken p.priority := by
  have runs := (isRunning_iff h held).1 running
  have expired : p.charge = .quantumExpired := by
    rw [Process.charge_of_running runs, if_pos (by omega)]
  rw [band_tick_of_quantumExpired h (h.running i p held runs) held expired, if_pos rfl,
    List.append_assoc, List.singleton_append]

theorem LastRenewal.concat {rs before since : List Request} {last : Request}
    (h : LastRenewal s id rs before last since) (kept : ¬ (s.run rs).Renews id r) :
    LastRenewal s id (rs ++ [r]) before last (since ++ [r]) where
  split := by rw [h.split, List.append_assoc, List.cons_append]
  renews := h.renews
  last first r' rest split := by
    rcases List.eq_nil_or_concat rest with rfl | ⟨rest, end', rfl⟩
    · obtain ⟨rfl, same⟩ := List.append_inj' split rfl
      obtain rfl := (List.cons.inj same).1
      rwa [← h.split]
    · rw [List.concat_eq_append, ← List.cons_append, ← List.append_assoc] at split
      exact h.last first r' rest (List.append_inj' split rfl).1

theorem lastRenewal_concat {rs : List Request} (renews : (s.run rs).Renews id r) :
    LastRenewal s id (rs ++ [r]) rs r [] where
  split := rfl
  renews := renews
  last first r' rest split := by
    cases first <;> cases split

/-- What a process has left of its quantum, and what it has run for since it had it all. -/
theorem exists_lastRenewal (h : s.Consistent) (new : ∀ i, s.processes.get? i = none)
    (rs : List Request) (held : (s.run rs).processes.get? i = some p) :
    ∃ before r since, LastRenewal s p.id rs before r since ∧
      p.quantumLeft.toNat + (s.run (before ++ [r])).runningTicks p.id since =
        p.app.quantum.toNat := by
  induction rs using List.reverseRecOn generalizing p with
  | nil => cases (new i).symm.trans held
  | append_singleton rs r ih =>
    have consistent := consistent_run h rs
    rw [run_concat] at held
    by_cases fills : (s.run rs).Fills i r
    · obtain ⟨asid, app, rfl, _, made, _, after⟩ := get?_after_of_fills consistent fills
      obtain rfl := Option.some.inj (after.symm.trans held)
      have makes : (s.run rs).makes? (.instantiate asid) =
          some ((s.run rs).processes.nextId i) := by
        rw [makes?, made]
        rfl
      exact ⟨rs, .instantiate asid, [], lastRenewal_concat (Or.inl makes), rfl⟩
    · obtain ⟨u, held', becomes⟩ := exists_before consistent fills held
      have same := becomes.sameAs
      have index := (consistent.named i u held').1
      have found : (s.run rs).processes.find? p.id = some u := by
        rw [same.id]
        exact ProcessTable.find?_eq_some_iff.2 ⟨index ▸ held', rfl⟩
      rcases becomes.quantumLeft consistent held' with ⟨requeues, whole⟩ | ⟨kept, left⟩
      · refine ⟨rs, r, [], lastRenewal_concat (Or.inr ⟨u, found, requeues⟩), ?_⟩
        rw [whole, ← same.app]
        rfl
      · have unrenewed : ¬ (s.run rs).Renews p.id r := by
          rintro (makes | ⟨u', found', requeues⟩)
          · exact fills ⟨p.id, makes, by rw [same.id, index]⟩
          · obtain rfl := Option.some.inj (found.symm.trans found')
            exact kept requeues
        obtain ⟨before, first, since, last, spent⟩ := ih held'
        rw [← same.id] at last spent left
        refine ⟨before, first, since ++ [r], last.concat unrenewed, ?_⟩
        have run : (s.run (before ++ [first])).run since = s.run rs := by
          rw [← run_append, List.append_assoc, List.singleton_append, ← last.split]
        rw [runningTicks_concat, run, same.app]
        omega

structure Charges (s : Scheduler) (r : Request) (p q : Process) : Prop extends
    Process.SameAs p q where
  /-- It is whole when the process is put at the back of its queue, -/
  whole : s.Requeues p r → q.quantumLeft = p.app.quantum
  /-- otherwise a systick for which the process runs is taken off, -/
  less : ¬ s.Requeues p r → r = .tick → s.isRunning p.id = true →
    q.quantumLeft.toNat + 1 = p.quantumLeft.toNat
  /-- and nothing else. -/
  same : ¬ s.Requeues p r → ¬ (r = .tick ∧ s.isRunning p.id = true) →
    q.quantumLeft = p.quantumLeft

theorem Becomes.charges (becomes : s.Becomes i p r q) (h : s.Consistent)
    (held : s.processes.get? i = some p) : s.Charges r p q := by
  rcases becomes.quantumLeft h held with ⟨requeues, whole⟩ | ⟨kept, left⟩
  · exact { becomes.sameAs with
      whole := fun _ => whole
      less := fun kept => absurd requeues kept
      same := fun kept => absurd requeues kept }
  · exact { becomes.sameAs with
      whole := fun requeues => absurd requeues kept
      less := fun _ tick running => by rwa [if_pos ⟨tick, running⟩] at left
      same := fun _ other => UInt32.toNat_inj.1 (by rwa [if_neg other] at left) }

/-- After any requests to a new scheduler, a process has its quantum less the systicks that it has
run for since it was made or last put at the back of its queue. The next request takes nothing from
that unless it is a systick for which the process runs; and the last such systick of a quantum puts
the process at the back of its band at once, with a whole quantum. -/
theorem quantum_accounted {o : Options} {store : Store} (supported : o.check = .ok ())
    (loaded : store.IsLoaded o) (rs : List Request) {p : Process}
    (held : ((ofStore store o).run rs).processes.get? i = some p) :
    let new := ofStore store o
    let s := new.run rs
    store.get? p.asid = some p.app ∧
      (∃ before r since, LastRenewal new p.id rs before r since ∧ p.quantumLeft.toNat +
        (new.run (before ++ [r])).runningTicks p.id since = p.app.quantum.toNat) ∧
      (∀ r, ¬ s.Fills i r → ∃ q, (s.after r).processes.get? i = some q ∧ s.Charges r p q) ∧
      (s.isRunning p.id = true → p.quantumLeft.toNat = 1 → s.Requeues p .tick ∧
        s.tick.2.band p.priority = s.queue p.priority ++ p.id :: s.woken p.priority) := by
  intro new s
  have begins : new.Consistent := consistent_ofStore supported loaded
  have consistent : s.Consistent := consistent_run begins rs
  have described := consistent.described i p held
  rw [(store_policy_run begins rs).1] at described
  refine ⟨described, exists_lastRenewal begins (get?_ofStore store o) rs held, fun r kept => ?_,
    fun running last => ⟨Or.inr ⟨running, last⟩, band_tick_of_last consistent held running last⟩⟩
  obtain ⟨q, held', becomes⟩ := exists_after consistent kept held
  exact ⟨q, held', becomes.charges consistent held⟩

/-- The less important application loses the processor with one systick left, and has it again when
the other one waits for a message. The next systick is its last. -/
theorem quantum_accounted_duo :
    let rs : List Request := [.instantiate ⟨1⟩, .schedule, .tick, .instantiate ⟨0⟩, .schedule, .tick,
      .waitIpc ⟨1, 0⟩ (some 1), .schedule]
    let s := (ofStore duo {}).run rs
    ∃ p, s.processes.get? 0 = some p ∧ s.isRunning p.id = true ∧ p.quantumLeft.toNat = 1 ∧
      (∃ before r since, LastRenewal (ofStore duo {}) p.id rs before r since ∧
        1 + ((ofStore duo {}).run (before ++ [r])).runningTicks p.id since = 2) ∧
      s.tick.2.band ⟨3⟩ = [⟨0, 0⟩] ∧ s.tick.2.band ⟨1⟩ = [⟨1, 0⟩] := by
  intro rs s
  have loaded : duo.IsLoaded {} := ⟨{}, {}, duo.apps, by decide +kernel⟩
  obtain ⟨p, held, running, last, app⟩ : ∃ p, s.processes.get? 0 = some p ∧
      s.isRunning p.id = true ∧ p.quantumLeft.toNat = 1 ∧ p.app.quantum.toNat = 2 :=
    ⟨_, rfl, by decide +kernel, by decide +kernel, by decide +kernel⟩
  obtain ⟨_, ⟨before, r, since, renewal, spent⟩, _, _⟩ :=
    quantum_accounted (o := {}) (by decide) loaded rs held
  rw [last, app] at spent
  exact ⟨p, held, running, last, ⟨before, r, since, renewal, spent⟩, by decide +kernel,
    by decide +kernel⟩

end Scheduler
end SeparationKernel
