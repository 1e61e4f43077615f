import Mathlib
import SeparationKernel.Proofs.Scheduler.Agreement

/-! Decisions and systicks of schedulers that agree on the important processes. They keep agreeing:
neither the election, the charge nor the scan of the deadlines lets a less important process get in
between. -/
namespace SeparationKernel
namespace Scheduler

variable {p : Priority} {s t : Scheduler} {i j : Nat} {a b : Process}

def IsFirst (s : Scheduler) (i : Nat) (a : Process) : Prop :=
  s.processes.get? i = some a ∧ a.isSchedulable = true ∧
    ∀ j b, s.processes.get? j = some b → b.isSchedulable = true → b.precedes a = false

theorem IsFirst.unique (h : s.Consistent) (first : s.IsFirst i a) (first' : s.IsFirst j b) :
    i = j := by
  have behind := first.2.2 j b first'.1 first'.2.1
  have behind' := first'.2.2 i a first.1 first.2.1
  rw [← Bool.not_eq_true, Process.precedes_iff_level] at behind behind'
  exact h.place_inj i j a b first.1 first'.1 (by omega)

theorem not_precedes_holder (h : s.Consistent) (holder : s.current = some i)
    (held : s.processes.get? i = some a) (held' : s.processes.get? j = some b)
    (schedulable : b.isSchedulable = true)
    (less : b.priority.isMoreImportantThan a.priority = false) : b.precedes a = false := by
  have longest := h.longest i j a b holder held held' schedulable
  rw [← Bool.not_eq_true, Priority.isMoreImportantThan_iff] at less
  rw [← Bool.not_eq_true, Process.precedes_iff]
  rintro (more | ⟨same, before⟩)
  · exact less more
  · exact Nat.not_lt.2 (longest same) before

theorem exists_isFirst_of_schedule (h : s.Consistent) (chosen : s.schedule.current = some i) :
    ∃ a, s.IsFirst i a := by
  have decision := decision_schedule s
  generalize s.schedule = t at decision chosen
  cases decision with
  | @keep k a holder held schedulable best =>
    obtain rfl : k = i := Option.some.inj (holder.symm.trans chosen)
    refine ⟨a, held, schedulable, fun j b held' schedulable' => ?_⟩
    refine not_precedes_holder h holder held held' schedulable' ?_
    by_cases waits : s.IsWaiting j b
    · exact best j b waits
    · have same := holder.symm.trans (holds_of_not_isWaiting held' schedulable' waits)
      obtain rfl : k = j := Option.some.inj same
      obtain rfl : a = b := Option.some.inj (held.symm.trans held')
      exact Priority.not_isMoreImportantThan_self a.priority
  | @preempt k l a b holder held schedulable waits more first =>
    obtain rfl : l = i := Option.some.inj chosen
    refine ⟨b, waits.1, waits.2.1, fun j c held' schedulable' => ?_⟩
    by_cases waits' : s.IsWaiting j c
    · exact first j c waits'
    · -- only the one that loses the processor does not wait for it
      have same := holder.symm.trans (holds_of_not_isWaiting held' schedulable' waits')
      obtain rfl : k = j := Option.some.inj same
      obtain rfl : a = c := Option.some.inj (held.symm.trans held')
      exact Process.not_precedes_of_precedes
        (Process.precedes_iff.2 (Or.inl (Priority.isMoreImportantThan_iff.1 more)))
  | @dispatch l b nobody waits first =>
    obtain rfl : l = i := Option.some.inj chosen
    refine ⟨b, waits.1, waits.2.1, fun j c held' schedulable' => first j c ⟨held', schedulable', ?_⟩⟩
    simp [current_eq_none_of_holder? h nobody]
  | idle => cases chosen

/-- The processor goes to the first of all that could use it, whoever had it before. -/
theorem schedule_current_eq_some_iff (h : s.Consistent) :
    s.schedule.current = some i ↔ ∃ a, s.IsFirst i a := by
  refine ⟨exists_isFirst_of_schedule h, ?_⟩
  rintro ⟨a, first⟩
  cases chosen : s.schedule.current with
  | some k =>
    obtain ⟨b, first'⟩ := exists_isFirst_of_schedule h chosen
    rw [first'.unique h first]
  | none =>
    have after := get?_schedule h i
    rw [first.1, Option.map_some] at after
    have idle := (settled_schedule s).idle chosen i _ after
    rw [Process.isSchedulable_settle, first.2.1] at idle
    cases idle

/-- Going first is a matter of the important processes, if an important one does. -/
theorem AgreeUpTo.isFirst (h : AgreeUpTo p s t) (held : s.upTo? p i = some a)
    (first : s.IsFirst i a) : ∃ b, t.IsFirst i b := by
  obtain ⟨b, found, alike⟩ := h.exists_right held
  obtain ⟨get?_i, important⟩ := upTo?_eq_some_iff.1 found
  refine ⟨b, get?_i, alike.isSchedulable.trans first.2.1, fun j d held' schedulable => ?_⟩
  rw [← Bool.not_eq_true, Process.precedes_iff_level]
  by_cases important' : d.priority.level.toNat ≤ p.level.toNat
  · have found' := upTo?_eq_some_iff.2 ⟨held', important'⟩
    obtain ⟨c, held'', alike'⟩ := h.exists_left found'
    have order := h.order held'' held found' found
    have behind := first.2.2 j c (get?_of_upTo? held'') (alike'.isSchedulable.symm.trans schedulable)
    rw [← Bool.not_eq_true, Process.precedes_iff_level] at behind
    rw [alike.priority, alike'.priority]
    omega
  · omega

theorem AgreeUpTo.schedule_current (h : AgreeUpTo p s t) (hs : s.Consistent) (ht : t.Consistent)
    (held : s.upTo? p i = some a) : s.schedule.current = some i ↔ t.schedule.current = some i := by
  rw [schedule_current_eq_some_iff hs, schedule_current_eq_some_iff ht]
  constructor
  · rintro ⟨c, first⟩
    obtain rfl := Option.some.inj ((get?_of_upTo? held).symm.trans first.1)
    exact h.isFirst held first
  · rintro ⟨c, first⟩
    obtain ⟨b, found, _⟩ := h.exists_right held
    obtain rfl := Option.some.inj ((get?_of_upTo? found).symm.trans first.1)
    exact h.symm.isFirst found first

theorem changes_schedule (h : s.Consistent) (p : Priority) :
    Changes p s s.schedule fun i a => a.settle (s.schedule.current == some i) where
  upTo? i := upTo?_of_get? (get?_schedule h i) (fun a => (a.sameAs_settle _).app) p
  increasing {i j a b} _ held _ place := by
    have lt := h.place_lt i a (get?_of_upTo? held)
    rw [Process.queuedAt_settle] at place
    omega

theorem AgreeUpTo.schedule (h : AgreeUpTo p s t) (hs : s.Consistent) (ht : t.Consistent) :
    AgreeUpTo p s.schedule t.schedule := by
  have now : t.schedule.now = s.schedule.now := by
    rw [(still_schedule t).now, (still_schedule s).now, h.now]
  refine h.change hs ht (changes_schedule hs p) (changes_schedule ht p) now
    (fun {i a b} held _ alike => ?_) (fun held => h.schedule_current hs ht held)
  have chosen : (t.schedule.current == some i) = (s.schedule.current == some i) := by
    rw [Bool.eq_iff_iff, beq_iff_eq, beq_iff_eq, h.schedule_current hs ht held]
  rw [chosen]
  exact ⟨alike.settle _, Or.inl ⟨Process.queuedAt_settle _ _, Process.queuedAt_settle _ _⟩⟩

theorem current_chargeCurrent (holder : s.current = some i) (held : s.processes.get? i = some a) :
    s.chargeCurrent.2.current = some i ↔ ∃ left, a.charge = .goesOn left := by
  have current : s.currentProcess? = some a := currentProcess?_eq_some_iff.2 ⟨i, holder, held⟩
  cases charge : a.charge with
  | goesOn left => simp [chargeCurrent, holder, current, charge, update]
  | quantumExpired => simp [chargeCurrent, holder, current, charge, vacate]
  | cleanupOverrun => simp [chargeCurrent, holder, current, charge, retire, vacate]

theorem current_chargeCurrent_of_ne (other : s.current ≠ some i) :
    s.chargeCurrent.2.current ≠ some i := by
  rw [chargeCurrent]
  split
  · rename_i j a holder _
    split
    · simpa [update] using other
    · simp [vacate]
    · simp [retire, holder, vacate]
  · exact other

theorem changes_chargeCurrent (h : s.Consistent) (p : Priority) :
    Changes p s s.chargeCurrent.2 fun i a =>
      if s.current = some i then a.charged s.nextPlace else a where
  upTo? i := by
    by_cases holder : s.current = some i
    · obtain ⟨a, held, _⟩ := h.holder i holder
      refine upTo?_of_get? ?_ (fun a => ?_) p
      · rw [get?_chargeCurrent holder held, held, Option.map_some, if_pos holder]
      · rw [if_pos holder]
        exact (a.sameAs_charged _).app
    · simp only [upTo?, get?_chargeCurrent_of_ne holder, if_neg holder, Option.map_id']
  increasing {i j a b} before held held' place place' := by
    have lt := h.place_lt i a (get?_of_upTo? held)
    have lt' := h.place_lt j b (get?_of_upTo? held')
    split at place
    · rename_i holder
      have other : s.current ≠ some j := fun same =>
        Nat.ne_of_lt before (Option.some.inj (holder.symm.trans same))
      rw [if_neg other] at place'
      omega
    · omega

theorem AgreeUpTo.chargeCurrent (h : AgreeUpTo p s t) (hs : s.Consistent) (ht : t.Consistent) :
    AgreeUpTo p s.chargeCurrent.2 t.chargeCurrent.2 := by
  have now : t.chargeCurrent.2.now = s.chargeCurrent.2.now := by
    rw [(still_chargeCurrent t).now, (still_chargeCurrent s).now, h.now]
  refine h.change hs ht (changes_chargeCurrent hs p) (changes_chargeCurrent ht p) now
    (fun {i a b} held _ alike => ?_) (fun {i a} held => ?_)
  · by_cases holder : s.current = some i
    · rw [if_pos holder, if_pos ((h.holder held).1 holder)]
      exact alike.charged _ _
    · rw [if_neg holder, if_neg fun same => holder ((h.holder held).2 same)]
      exact alike.unchanged _ _
  · by_cases holder : s.current = some i
    · obtain ⟨b, found, alike⟩ := h.exists_right held
      rw [current_chargeCurrent holder (get?_of_upTo? held),
        current_chargeCurrent ((h.holder held).1 holder) (get?_of_upTo? found)]
      exact alike.goesOn_iff
    · have holder' : t.current ≠ some i := fun same => holder ((h.holder held).2 same)
      simp [current_chargeCurrent_of_ne holder, current_chargeCurrent_of_ne holder']

theorem dueBelow_lt (h : s.Consistent) (before : i < j) (held : s.processes.get? i = some a)
    (come : a.isDue s.now = true) : s.dueBelow i < s.dueBelow j := by
  obtain ⟨slot, at_i, occupied⟩ := Option.bind_eq_some_iff.1 held
  have lt : i < s.processes.slots.length := (List.getElem?_eq_some_iff.1 at_i).1
  have wakes : (slot.isDue s.now && slot.isBlocked) = true := by
    simp [Slot.isDue, Slot.isBlocked, occupied, come, isBlocked_of_isDue h held come]
  have up_to : s.processes.slots.take (i + 1) = s.processes.slots.take i ++ [slot] := by
    rw [List.take_add_one, at_i, Option.toList_some]
  have counted : s.dueBelow (i + 1) = s.dueBelow i + 1 := by
    rw [dueBelow, up_to, List.countP_append, List.countP_singleton, if_pos wakes, dueBelow]
  have sub : (s.processes.slots.take (i + 1)).Sublist (s.processes.slots.take j) :=
    (List.take_prefix_take_left before).sublist
  have le : s.dueBelow (i + 1) ≤ s.dueBelow j := sub.countP_le
  omega

theorem changes_wakeExpired (h : s.Consistent) (p : Priority) :
    Changes p s s.wakeExpired fun i a =>
      if a.isDue s.now then a.makeReady (s.nextPlace + s.dueBelow i) else a where
  upTo? i := by
    refine upTo?_of_get? (get?_wakeExpired h i) (fun a => ?_) p
    split <;> rfl
  increasing {i j a b} before held held' place place' := by
    have lt := h.place_lt i a (get?_of_upTo? held)
    have lt' := h.place_lt j b (get?_of_upTo? held')
    by_cases come : a.isDue s.now = true
    · by_cases come' : b.isDue s.now = true
      · rw [if_pos come, if_pos come']
        exact Nat.add_lt_add_left (dueBelow_lt h before (get?_of_upTo? held) come) _
      · rw [if_neg come'] at place'
        omega
    · rw [if_neg come] at place
      omega

theorem AgreeUpTo.wakeExpired (h : AgreeUpTo p s t) (hs : s.Consistent) (ht : t.Consistent) :
    AgreeUpTo p s.wakeExpired t.wakeExpired := by
  refine h.change hs ht (changes_wakeExpired hs p) (changes_wakeExpired ht p) h.now
    (fun {i a b} held _ alike => ?_) (fun held => h.holder held)
  have due : b.isDue t.now = a.isDue s.now := by
    obtain ⟨place, rfl⟩ := Process.alike_iff.1 alike
    rw [h.now]
    rfl
  rw [due]
  by_cases come : a.isDue s.now = true
  · rw [if_pos come, if_pos come]
    exact ⟨alike.makeReady _ _, Or.inr ⟨Nat.le_add_right _ _, Nat.le_add_right _ _⟩⟩
  · rw [if_neg come, if_neg come]
    exact alike.unchanged _ _

theorem AgreeUpTo.tick (h : AgreeUpTo p s t) (hs : s.Consistent) (ht : t.Consistent) :
    AgreeUpTo p s.tick.2 t.tick.2 := by
  have now : t.now.next = s.now.next := by rw [h.now]
  have begun : AgreeUpTo p s.advance t.advance := h.congr now rfl rfl rfl rfl
  have charged := begun.chargeCurrent (consistent_advance hs) (consistent_advance ht)
  have woken := charged.wakeExpired (consistent_charged hs) (consistent_charged ht)
  have decided := woken.schedule (consistent_beforeDecision hs) (consistent_beforeDecision ht)
  exact decided.congr decided.now rfl rfl rfl rfl

end Scheduler
end SeparationKernel
