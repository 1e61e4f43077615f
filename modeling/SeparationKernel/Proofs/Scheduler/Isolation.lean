import Mathlib
import SeparationKernel.Proofs.Scheduler.Lockstep

/-! Less important processes do not count. Schedulers that agree on the important processes go on
agreeing when the same is asked about these, whatever is asked about the others in between. -/
namespace SeparationKernel

namespace Process

variable {a b : Process}

theorem Alike.obey (h : a.Alike b) {s t : Scheduler} (now : t.now = s.now)
    (policy : t.policy = s.policy) {r : Scheduler.Request} {id : ProcessId}
    (about : r.addressee? = some id) (current : t.isCurrent id = s.isCurrent id) :
    ChangeAlike s.nextPlace t.nextPlace a b (s.obey a r) (t.obey b r) := by
  obtain ⟨place, rfl⟩ := alike_iff.1 h
  cases r with
  | yield id' delay =>
    simp only [Scheduler.obey, Scheduler.deadlineAfter, now]
    cases delay.filter (· != 0) with
    | none => exact ⟨rfl, Or.inr ⟨le_rfl, le_rfl⟩⟩
    | some d => exact ⟨rfl, Or.inl ⟨rfl, rfl⟩⟩
  | waitIpc id' timeout | waitIo id' timeout =>
    have deadlineAfter : t.deadlineAfter = s.deadlineAfter := by
      funext d
      rw [Scheduler.deadlineAfter, now, Scheduler.deadlineAfter]
    rw [Scheduler.obey, Scheduler.obey, deadlineAfter]
    exact ⟨rfl, Or.inl ⟨rfl, rfl⟩⟩
  | deliverIpc | completeIo => exact ⟨rfl, Or.inr ⟨le_rfl, le_rfl⟩⟩
  | requestTermination id' =>
    obtain rfl := Option.some.inj about
    simp only [Scheduler.obey, policy, current]
    cases s.isCurrent id' with
    | true => exact ⟨rfl, Or.inl ⟨rfl, rfl⟩⟩
    | false => exact ⟨rfl, Or.inr ⟨le_rfl, le_rfl⟩⟩
  | cleanupDone => exact ⟨rfl, Or.inl ⟨rfl, rfl⟩⟩
  | instantiate | schedule | tick | buffer => cases about

theorem Alike.isGrantedTo (h : a.Alike b) (r : Scheduler.Request) :
    r.isGrantedTo b = r.isGrantedTo a := by
  obtain ⟨place, rfl⟩ := alike_iff.1 h
  rfl

end Process

namespace Scheduler

variable {p : Priority} {s t : Scheduler} {i j : Nat} {a b : Process} {r : Request}
  {id : ProcessId}

def namesUpTo (s : Scheduler) (p : Priority) (id : ProcessId) : Bool :=
  (s.processes.find? id).any (·.priority.isUpTo p)

theorem namesUpTo_iff :
    s.namesUpTo p id = true ↔ ∃ a, s.upTo? p id.index = some a ∧ a.id = id := by
  simp only [namesUpTo, Option.any_eq_true, ProcessTable.find?, Option.filter_eq_some_iff,
    upTo?_eq_some_iff, Priority.isUpTo_iff, beq_iff_eq]
  constructor
  · rintro ⟨a, ⟨held, named⟩, important⟩
    exact ⟨a, ⟨held, important⟩, named⟩
  · rintro ⟨a, ⟨held, important⟩, named⟩
    exact ⟨a, ⟨held, named⟩, important⟩

def answer? (s : Scheduler) : Request → Option (Verdict ProcessError)
  | .yield id delay => some (s.yield id delay).1
  | .waitIpc id timeout => some (s.waitIpc id timeout).1
  | .waitIo id timeout => some (s.waitIo id timeout).1
  | .deliverIpc id => some (s.deliverIpc id).1
  | .completeIo id => some (s.completeIo id).1
  | .requestTermination id => some (s.requestTermination id).1
  | .cleanupDone id => some (s.cleanupDone id).1
  | _ => none

theorem answer?_eq_none (about : r.addressee? = none) : s.answer? r = none := by
  cases r with
  | instantiate | schedule | tick | buffer => rfl
  | _ => cases about

theorem answer?_eq (about : r.addressee? = some id) : s.answer? r = some (s.findings r) := by
  cases r with
  | yield => rw [answer?, yield_eq, Verdict.commit_fst, findings]
  | waitIpc => rw [answer?, waitIpc, wait_eq, Verdict.commit_fst, findings]
  | waitIo => rw [answer?, waitIo, wait_eq, Verdict.commit_fst, findings]
  | deliverIpc => rw [answer?, deliverIpc, wake_eq, Verdict.commit_fst, findings]
  | completeIo => rw [answer?, completeIo, wake_eq, Verdict.commit_fst, findings]
  | requestTermination => rw [answer?, requestTermination_eq, Verdict.commit_fst, findings]
  | cleanupDone => rw [answer?, cleanupDone_eq, Verdict.commit_fst, findings]
  | instantiate | schedule | tick | buffer => cases about

theorem AgreeUpTo.checkState (h : AgreeUpTo p s t) (important : s.namesUpTo p id = true)
    (f : ProcessState → Bool) (fault : ProcessError) :
    t.checkState id f fault = s.checkState id f fault := by
  obtain ⟨a, held, named⟩ := namesUpTo_iff.1 important
  obtain ⟨b, held', alike⟩ := h.exists_right held
  obtain ⟨place, rfl⟩ := Process.alike_iff.1 alike
  have same : (t.processes.live? id).map (·.state) = (s.processes.live? id).map (·.state) := by
    simp only [ProcessTable.live?, ProcessTable.find?, get?_of_upTo? held, get?_of_upTo? held',
      Option.filter_some, named, beq_self_eq_true, if_true, Process.isTerminated]
    split <;> rfl
  have known : (t.processes.live? id).isSome = (s.processes.live? id).isSome := by
    simpa using congrArg Option.isSome same
  have suits : ((t.processes.live? id).any fun q => f q.state) =
      (s.processes.live? id).any fun q => f q.state := by
    simpa [Option.any_map, Function.comp_def] using congrArg (Option.any f) same
  rw [Scheduler.checkState, checkLive, known, suits, Scheduler.checkState, checkLive]

theorem AgreeUpTo.isCurrent (h : AgreeUpTo p s t) (important : s.namesUpTo p id = true) :
    t.isCurrent id = s.isCurrent id := by
  obtain ⟨a, held, _⟩ := namesUpTo_iff.1 important
  rw [Bool.eq_iff_iff, Scheduler.isCurrent, Scheduler.isCurrent, beq_iff_eq, beq_iff_eq,
    h.holder held]

theorem AgreeUpTo.checkRunning (h : AgreeUpTo p s t) (important : s.namesUpTo p id = true) :
    t.checkRunning id = s.checkRunning id := by
  rw [Scheduler.checkRunning, h.checkState important, h.isCurrent important, Scheduler.checkRunning]

theorem AgreeUpTo.answer? (h : AgreeUpTo p s t) (about : r.addressee? = some id)
    (important : s.namesUpTo p id = true) : t.answer? r = s.answer? r := by
  rw [answer?_eq about, answer?_eq about]
  cases r with
  | yield | waitIpc | waitIo =>
    obtain rfl := Option.some.inj about
    exact congrArg some (h.checkRunning important)
  | deliverIpc | completeIo | requestTermination | cleanupDone =>
    obtain rfl := Option.some.inj about
    rw [findings, findings, h.checkState important]
  | instantiate | schedule | tick | buffer => cases about

theorem now_after (about : r.addressee? = some id) : (s.after r).now = s.now :=
  (still_after s (by rintro rfl; cases about)).now

theorem changes_after (h : s.Consistent) (about : r.addressee? = some id) (p : Priority) :
    Changes p s (s.after r) fun _ a => if r.isGrantedTo a then s.obey a r else a where
  upTo? i := by
    refine upTo?_of_get? (get?_after_of_addressee? h about i) (fun a => ?_) p
    split
    · exact (sameAs_obey s a r).app
    · rfl
  increasing {i j a b} before held held' place place' := by
    have lt := h.place_lt i a (get?_of_upTo? held)
    have lt' := h.place_lt j b (get?_of_upTo? held')
    -- at most one process gets a new place, since the request names one
    by_cases at_i : id.index = i
    · have refused := not_isGrantedTo_of_index_ne h about (get?_of_upTo? held') (by omega)
      rw [refused] at place'
      exact absurd place' (Nat.not_le.2 lt')
    · have refused := not_isGrantedTo_of_index_ne h about (get?_of_upTo? held) at_i
      rw [refused] at place
      exact absurd place (Nat.not_le.2 lt)

theorem AgreeUpTo.after_of_addressee? (h : AgreeUpTo p s t) (hs : s.Consistent)
    (ht : t.Consistent) (policy : t.policy = s.policy) (about : r.addressee? = some id) :
    AgreeUpTo p (s.after r) (t.after r) := by
  have now : (t.after r).now = (s.after r).now := by
    rw [now_after about, now_after about, h.now]
  refine h.change hs ht (changes_after hs about p) (changes_after ht about p) now
    (fun {i a b} held held' alike => ?_) (fun {i a} held => ?_)
  · rw [alike.isGrantedTo]
    cases granted : r.isGrantedTo a with
    | false => exact alike.unchanged _ _
    | true =>
      obtain ⟨rfl, _⟩ := (isGrantedTo_iff about).1 granted
      have at_i := (hs.named i a (get?_of_upTo? held)).1
      exact alike.obey h.now policy about
        (h.isCurrent (namesUpTo_iff.2 ⟨a, by rw [at_i]; exact held, rfl⟩))
  · obtain ⟨b, held', alike⟩ := h.exists_right held
    rw [current_after_of_addressee? hs about (get?_of_upTo? held),
      current_after_of_addressee? ht about (get?_of_upTo? held'), alike.isGrantedTo, h.holder held]

/-- The request is about one of the processes whose priority is `p` or a more important one, or it
is a decision or a systick, which are about everybody. -/
def involves (s : Scheduler) (p : Priority) (r : Request) : Bool :=
  r == .schedule || r == .tick || r.addressee?.any (s.namesUpTo p)

theorem namesUpTo_of_involves (about : r.addressee? = some id) (involved : s.involves p r = true) :
    s.namesUpTo p id = true := by
  have other : r ≠ .schedule ∧ r ≠ .tick := by
    constructor <;> rintro rfl <;> cases about
  simpa [involves, about, other] using involved

def Request.instantiates : Request → Bool
  | .instantiate _ => true
  | _ => false

theorem not_isGrantedTo_of_not_involves (h : s.Consistent) (less : s.involves p r = false)
    (held : s.upTo? p i = some a) : r.isGrantedTo a = false := by
  cases about : r.addressee? with
  | none => simp [Request.isGrantedTo, about]
  | some id =>
    by_contra granted
    obtain ⟨rfl, _⟩ := (isGrantedTo_iff about).1 (by simpa using granted)
    have at_i := (h.named i a (get?_of_upTo? held)).1
    have important : s.namesUpTo p a.id = true :=
      namesUpTo_iff.2 ⟨a, by rw [at_i]; exact held, rfl⟩
    simp [involves, about, important] at less

/-- What is asked about others leaves the important processes as they are. -/
theorem agreeUpTo_after (h : s.Consistent) (old : r.instantiates = false)
    (less : s.involves p r = false) : AgreeUpTo p s (s.after r) := by
  cases about : r.addressee? with
  | some id =>
    refine .of_upTo?_eq (now_after about) (fun i => ?_) (fun i a held => ?_)
    · rw [(changes_after h about p).upTo? i]
      cases held : s.upTo? p i with
      | none => rfl
      | some a => simp [not_isGrantedTo_of_not_involves h less held]
    · rw [current_after_of_addressee? h about (get?_of_upTo? held),
        not_isGrantedTo_of_not_involves h less held]
      simp
  | none =>
    cases r with
    | buffer r => exact (AgreeUpTo.refl p s).congr rfl rfl rfl rfl rfl
    | instantiate => cases old
    | schedule | tick => simp [involves] at less
    | yield | waitIpc | waitIo | deliverIpc | completeIo | requestTermination | cleanupDone =>
      cases about

theorem AgreeUpTo.after (h : AgreeUpTo p s t) (hs : s.Consistent) (ht : t.Consistent)
    (policy : t.policy = s.policy) (involved : s.involves p r = true) :
    AgreeUpTo p (s.after r) (t.after r) := by
  cases about : r.addressee? with
  | some id => exact h.after_of_addressee? hs ht policy about
  | none =>
    cases r with
    | schedule => exact h.schedule hs ht
    | tick => exact h.tick hs ht
    | instantiate | buffer => simp [involves, Request.addressee?] at involved
    | yield | waitIpc | waitIo | deliverIpc | completeIo | requestTermination | cleanupDone =>
      cases about

theorem AgreeUpTo.involves (h : AgreeUpTo p s t) (r : Request) :
    t.involves p r = s.involves p r := by
  have names : t.namesUpTo p = s.namesUpTo p := by
    funext id
    rw [Bool.eq_iff_iff, namesUpTo_iff, namesUpTo_iff]
    constructor
    · rintro ⟨b, held, named⟩
      obtain ⟨a, held', alike⟩ := h.exists_left held
      obtain ⟨place, rfl⟩ := Process.alike_iff.1 alike
      exact ⟨a, held', named⟩
    · rintro ⟨a, held, named⟩
      obtain ⟨b, held', alike⟩ := h.exists_right held
      obtain ⟨place, rfl⟩ := Process.alike_iff.1 alike
      exact ⟨_, held', named⟩
  rw [Scheduler.involves, names, Scheduler.involves]

def involving (p : Priority) (s : Scheduler) : List Request → List Request
  | [] => []
  | r :: rs => (if s.involves p r then [r] else []) ++ (s.after r).involving p rs

/-- A run can be compared with one in which nothing is asked about the less important processes. -/
theorem AgreeUpTo.run_involving (h : AgreeUpTo p s t) (hs : s.Consistent) (ht : t.Consistent)
    (policy : t.policy = s.policy) {rs : List Request}
    (old : ∀ r ∈ rs, r.instantiates = false) :
    AgreeUpTo p (s.run rs) (t.run (s.involving p rs)) := by
  induction rs generalizing s t with
  | nil => exact h
  | cons r rs ih =>
    have rest : ∀ r' ∈ rs, r'.instantiates = false := fun r' mem =>
      old r' (List.mem_cons_of_mem r mem)
    rw [run_cons, involving]
    cases involved : s.involves p r with
    | true =>
      have same : (t.after r).policy = (s.after r).policy := by
        rw [policy_after, policy_after, policy]
      exact ih (h.after hs ht policy involved) (consistent_after hs r) (consistent_after ht r) same
        rest
    | false =>
      have spared := agreeUpTo_after hs (old r List.mem_cons_self) involved
      exact ih (spared.symm.trans h) (consistent_after hs r) ht
        (policy.trans (policy_after s r).symm) rest

/-- Schedulers that agree on the processes whose priority is `p` or a more important one agree on
them after the same decision, systick or request about one of them, which is answered the same.
Whatever one of the schedulers is asked about others does not matter, so two runs in which the same
is asked about the important processes cannot be told apart by these. -/
theorem Reachable.priority_isolation {o : Options} {store store' : Store}
    (hs : Reachable o store s) (ht : Reachable o store' t) (h : AgreeUpTo p s t) :
    (∀ r, s.involves p r = true →
        AgreeUpTo p (s.after r) (t.after r) ∧ t.answer? r = s.answer? r) ∧
      (∀ r, r.instantiates = false → s.involves p r = false → AgreeUpTo p (s.after r) t) ∧
      (∀ r, r.instantiates = false → t.involves p r = false → AgreeUpTo p s (t.after r)) ∧
      ∀ rs ts, (∀ r ∈ rs ++ ts, r.instantiates = false) → s.involving p rs = t.involving p ts →
        AgreeUpTo p (s.run rs) (t.run ts) := by
  have policy : t.policy = s.policy := ht.store_policy.2.trans hs.store_policy.2.symm
  have consistent := hs.consistent
  have consistent' := ht.consistent
  refine ⟨fun r involved => ⟨h.after consistent consistent' policy involved, ?_⟩,
    fun r old less => (agreeUpTo_after consistent old less).symm.trans h,
    fun r old less => h.trans (agreeUpTo_after consistent' old less), fun rs ts old same => ?_⟩
  · cases about : r.addressee? with
    | some id => exact h.answer? about (namesUpTo_of_involves about involved)
    | none => rw [answer?_eq_none about, answer?_eq_none about]
  · have left := h.run_involving consistent consistent' policy
      fun r mem => old r (List.mem_append_left ts mem)
    have right := (AgreeUpTo.refl p t).run_involving consistent' consistent' rfl
      fun r mem => old r (List.mem_append_right rs mem)
    rw [same] at left
    exact left.trans right.symm

/-- The more important of two applications waits. Meanwhile the other one gives the processor up, or
is asked to terminate. -/
theorem priority_isolation_duo :
    let s := (ofStore duo {}).run
      [.instantiate ⟨0⟩, .instantiate ⟨1⟩, .schedule, .waitIo ⟨0, 0⟩ (some 2), .schedule]
    let t := s.after (.yield ⟨1, 0⟩ none)
    let s' := s.run [.tick, .requestTermination ⟨1, 0⟩, .tick]
    let t' := t.run [.tick, .tick]
    s.processes ≠ t.processes ∧ AgreeUpTo ⟨1⟩ s t ∧ AgreeUpTo ⟨1⟩ s' t' ∧
      s'.processes ≠ t'.processes ∧ s'.current = some 0 ∧ t'.current = some 0 := by
  intro s t s' t'
  have hs : Reachable {} duo s := reachable_duo _
  have ht : Reachable {} duo t := reachable_duo
    [.instantiate ⟨0⟩, .instantiate ⟨1⟩, .schedule, .waitIo ⟨0, 0⟩ (some 2), .schedule,
      .yield ⟨1, 0⟩ none]
  have h : AgreeUpTo ⟨1⟩ s t := agreeUpTo_after hs.consistent rfl (by decide +kernel)
  have isolated := hs.priority_isolation ht h
  refine ⟨by decide +kernel, h, ?_, by decide +kernel, by decide +kernel, by decide +kernel⟩
  exact isolated.2.2.2 _ _ (by decide) (by decide +kernel)

end Scheduler
end SeparationKernel
