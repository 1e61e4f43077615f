import Mathlib
import SeparationKernel.Proofs.Scheduler.Course

/-! Schedulers that cannot be told apart by the processes down to some priority. A place in the queue
is a number that depends on everybody who ever queued up, so only the order of places counts. -/
namespace SeparationKernel

def Priority.isUpTo (q p : Priority) : Bool := decide (q.level.toNat ≤ p.level.toNat)

@[simp] theorem Priority.isUpTo_iff {q p : Priority} :
    q.isUpTo p = true ↔ q.level.toNat ≤ p.level.toNat := by
  simp [isUpTo]

namespace Process

def unplaced (a : Process) : Process := { a with queuedAt := 0 }

/-- The same in everything but the place in the queue. -/
def Alike (a b : Process) : Prop := a.unplaced = b.unplaced

variable {a b : Process}

theorem alike_iff : a.Alike b ↔ ∃ place, b = { a with queuedAt := place } := by
  constructor
  · intro same
    refine ⟨b.queuedAt, ?_⟩
    cases a
    cases b
    simp_all [Alike, unplaced]
  · rintro ⟨place, rfl⟩
    rfl

theorem Alike.symm (h : a.Alike b) : b.Alike a := Eq.symm h

theorem Alike.priority (h : a.Alike b) : b.priority = a.priority := by
  obtain ⟨place, rfl⟩ := alike_iff.1 h
  rfl

theorem Alike.isSchedulable (h : a.Alike b) : b.isSchedulable = a.isSchedulable := by
  obtain ⟨place, rfl⟩ := alike_iff.1 h
  rfl

theorem Alike.makeReady (h : a.Alike b) (m n : Nat) : (a.makeReady m).Alike (b.makeReady n) := by
  obtain ⟨place, rfl⟩ := alike_iff.1 h
  rfl

theorem Alike.settle (h : a.Alike b) (chosen : Bool) : (a.settle chosen).Alike (b.settle chosen) := by
  obtain ⟨place, rfl⟩ := alike_iff.1 h
  cases chosen with
  | false => simp only [Alike, unplaced, Process.settle, Bool.false_eq_true, if_false, preempt_eq]
  | true => simp only [Alike, unplaced, Process.settle, if_true, dispatch_eq]

theorem charge_queuedAt (a : Process) (place : Nat) :
    ({ a with queuedAt := place } : Process).charge =
      match a.charge with
      | .goesOn left => .goesOn { left with queuedAt := place }
      | .quantumExpired => .quantumExpired
      | .cleanupOverrun => .cleanupOverrun := by
  obtain ⟨id, asid, app, state, quantumLeft, deadline, queuedAt⟩ := a
  rcases state with (_ | _ | reason) | remaining | outcome
  · rfl
  · -- running
    simp only [charge]
    split <;> rfl
  · rfl
  · -- in cleanup
    simp only [charge]
    split <;> rfl
  · rfl

@[simp] theorem queuedAt_settle (a : Process) (chosen : Bool) :
    (a.settle chosen).queuedAt = a.queuedAt := by
  cases chosen with
  | false => simp only [settle, Bool.false_eq_true, if_false, preempt_eq]
  | true => simp only [settle, if_true, dispatch_eq]

@[simp] theorem isSchedulable_settle (a : Process) (chosen : Bool) :
    (a.settle chosen).isSchedulable = a.isSchedulable := by
  cases chosen with
  | false => exact isSchedulable_preempt a
  | true => exact isSchedulable_dispatch a

/-- Two processes that were alike have changed in the same way: they still are, and both have kept
their places or both have got new ones, from `m` and from `n` on. -/
structure ChangeAlike (m n : Nat) (a b a' b' : Process) : Prop where
  alike : a'.Alike b'
  place : a'.queuedAt = a.queuedAt ∧ b'.queuedAt = b.queuedAt ∨ m ≤ a'.queuedAt ∧ n ≤ b'.queuedAt

theorem Alike.unchanged (h : a.Alike b) (m n : Nat) : ChangeAlike m n a b a b :=
  ⟨h, Or.inl ⟨rfl, rfl⟩⟩

theorem Alike.goesOn_iff (h : a.Alike b) :
    (∃ left, a.charge = .goesOn left) ↔ ∃ left, b.charge = .goesOn left := by
  obtain ⟨place, rfl⟩ := alike_iff.1 h
  rw [charge_queuedAt a place]
  cases a.charge <;> simp

theorem Alike.charged (h : a.Alike b) (m n : Nat) :
    ChangeAlike m n a b (a.charged m) (b.charged n) := by
  obtain ⟨place, rfl⟩ := alike_iff.1 h
  simp only [Process.charged, charge_queuedAt]
  cases charge : a.charge with
  | goesOn left =>
    have kept : left.queuedAt = a.queuedAt := by
      rcases charge_goesOn charge with ⟨_, _, rfl⟩ | ⟨_, _, _, rfl⟩ | ⟨_, _, rfl⟩ <;> rfl
    exact ⟨rfl, Or.inl ⟨kept, rfl⟩⟩
  | quantumExpired => exact ⟨rfl, Or.inr ⟨le_rfl, le_rfl⟩⟩
  | cleanupOverrun => exact ⟨rfl, Or.inl ⟨rfl, rfl⟩⟩

end Process

namespace Scheduler

def upTo? (s : Scheduler) (p : Priority) (i : Nat) : Option Process :=
  (s.processes.get? i).filter (·.priority.isUpTo p)

/-- Two schedulers agree on the processes whose priority is `p` or a more important one. -/
structure AgreeUpTo (p : Priority) (s t : Scheduler) : Prop where
  now : t.now = s.now
  /-- The same ones are in the same slots, -/
  process : ∀ i, (s.upTo? p i).map (·.unplaced) = (t.upTo? p i).map (·.unplaced)
  /-- queued up in the same order, -/
  order : ∀ {i j : Nat} {a b c d : Process}, s.upTo? p i = some a → s.upTo? p j = some b →
    t.upTo? p i = some c → t.upTo? p j = some d →
    (a.queuedAt < b.queuedAt ↔ c.queuedAt < d.queuedAt)
  /-- and the same one has the processor in both, or none of them has it in either. -/
  holder : ∀ {i : Nat} {a : Process}, s.upTo? p i = some a →
    (s.current = some i ↔ t.current = some i)

variable {p : Priority} {s t u s' t' : Scheduler} {i j : Nat} {a b : Process}

theorem upTo?_eq_some_iff :
    s.upTo? p i = some a ↔ s.processes.get? i = some a ∧ a.priority.level.toNat ≤ p.level.toNat := by
  simp [upTo?, Option.filter_eq_some_iff]

theorem get?_of_upTo? (h : s.upTo? p i = some a) : s.processes.get? i = some a :=
  (upTo?_eq_some_iff.1 h).1

theorem upTo?_of_get? {f : Process → Process}
    (changed : s'.processes.get? i = (s.processes.get? i).map f) (app : ∀ a, (f a).app = a.app)
    (p : Priority) : s'.upTo? p i = (s.upTo? p i).map f := by
  have priority : ∀ a, (f a).priority = a.priority := fun a => congrArg App.priority (app a)
  rw [upTo?, upTo?, changed]
  cases s.processes.get? i with
  | none => rfl
  | some a =>
    by_cases important : a.priority.isUpTo p = true
    · simp [priority, important, Option.filter]
    · simp [priority, important, Option.filter]

namespace AgreeUpTo

theorem refl (p : Priority) (s : Scheduler) : AgreeUpTo p s s where
  now := rfl
  process _ := rfl
  order held held' held'' held''' := by
    obtain rfl := Option.some.inj (held.symm.trans held'')
    obtain rfl := Option.some.inj (held'.symm.trans held''')
    exact Iff.rfl
  holder _ := Iff.rfl

theorem exists_right (h : AgreeUpTo p s t) (held : s.upTo? p i = some a) :
    ∃ b, t.upTo? p i = some b ∧ a.Alike b := by
  have same := h.process i
  rw [held, Option.map_some] at same
  obtain ⟨b, found, alike⟩ := Option.map_eq_some_iff.1 same.symm
  exact ⟨b, found, alike.symm⟩

theorem alike (h : AgreeUpTo p s t) (held : s.upTo? p i = some a) (held' : t.upTo? p i = some b) :
    a.Alike b := by
  obtain ⟨c, found, alike⟩ := h.exists_right held
  obtain rfl := Option.some.inj (held'.symm.trans found)
  exact alike

theorem exists_left (h : AgreeUpTo p s t) (held : t.upTo? p i = some b) :
    ∃ a, s.upTo? p i = some a ∧ a.Alike b := by
  have same := h.process i
  rw [held, Option.map_some] at same
  exact Option.map_eq_some_iff.1 same

theorem symm (h : AgreeUpTo p s t) : AgreeUpTo p t s where
  now := h.now.symm
  process i := (h.process i).symm
  order held held' held'' held''' := (h.order held'' held''' held held').symm
  holder held := by
    obtain ⟨a, found, _⟩ := h.exists_left held
    exact (h.holder found).symm

theorem trans (h : AgreeUpTo p s t) (h' : AgreeUpTo p t u) : AgreeUpTo p s u where
  now := h'.now.trans h.now
  process i := (h.process i).trans (h'.process i)
  order held held' held'' held''' := by
    obtain ⟨b, found, _⟩ := h.exists_right held
    obtain ⟨c, found', _⟩ := h.exists_right held'
    exact (h.order held held' found found').trans (h'.order found found' held'' held''')
  holder held := by
    obtain ⟨b, found, _⟩ := h.exists_right held
    exact (h.holder held).trans (h'.holder found)

theorem congr (h : AgreeUpTo p s t) (now : t'.now = s'.now) (left : s'.processes = s.processes)
    (right : t'.processes = t.processes) (current : s'.current = s.current)
    (current' : t'.current = t.current) : AgreeUpTo p s' t' := by
  have same : ∀ i, s'.upTo? p i = s.upTo? p i := fun i => by rw [upTo?, left, upTo?]
  have same' : ∀ i, t'.upTo? p i = t.upTo? p i := fun i => by rw [upTo?, right, upTo?]
  refine ⟨now, fun i => ?_, fun {i j a b c d} held held' held'' held''' => ?_,
    fun {i a} held => ?_⟩
  · rw [same, same']
    exact h.process i
  · rw [same] at held held'
    rw [same'] at held'' held'''
    exact h.order held held' held'' held'''
  · rw [same] at held
    rw [current, current']
    exact h.holder held

theorem of_upTo?_eq (now : t.now = s.now) (same : ∀ i, t.upTo? p i = s.upTo? p i)
    (holder : ∀ i a, s.upTo? p i = some a → (s.current = some i ↔ t.current = some i)) :
    AgreeUpTo p s t where
  now := now
  process i := by
    rw [same]
  order held held' held'' held''' := by
    rw [same] at held'' held'''
    exact (refl p s).order held held' held'' held'''
  holder held := holder _ _ held

end AgreeUpTo

/-- Each of the important processes is changed in its slot, and those who get new places get them
in slot order. -/
structure Changes (p : Priority) (s s' : Scheduler) (f : Nat → Process → Process) : Prop where
  upTo? : ∀ i, s'.upTo? p i = (s.upTo? p i).map (f i)
  increasing : ∀ {i j : Nat} {a b : Process}, i < j → s.upTo? p i = some a → s.upTo? p j = some b →
    s.nextPlace ≤ (f i a).queuedAt → s.nextPlace ≤ (f j b).queuedAt →
    (f i a).queuedAt < (f j b).queuedAt

/-- Of two processes one of which gets a new place, it is behind; if both do, the slots decide. -/
theorem Changes.order_iff {f : Nat → Process → Process} (c : Changes p s s' f) (h : s.Consistent)
    (held : s.upTo? p i = some a) (held' : s.upTo? p j = some b)
    (place : (f i a).queuedAt = a.queuedAt ∨ s.nextPlace ≤ (f i a).queuedAt)
    (place' : (f j b).queuedAt = b.queuedAt ∨ s.nextPlace ≤ (f j b).queuedAt) :
    (f i a).queuedAt < (f j b).queuedAt ↔
      s.nextPlace ≤ (f j b).queuedAt ∧ (s.nextPlace ≤ (f i a).queuedAt → i < j) ∨
        (f j b).queuedAt = b.queuedAt ∧ (f i a).queuedAt = a.queuedAt ∧
          a.queuedAt < b.queuedAt := by
  have lt := h.place_lt i a (get?_of_upTo? held)
  have lt' := h.place_lt j b (get?_of_upTo? held')
  rcases Nat.lt_trichotomy i j with before | rfl | behind
  · have increasing := c.increasing before held held'
    omega
  · obtain rfl := Option.some.inj (held.symm.trans held')
    omega
  · have increasing := c.increasing behind held' held
    omega

/-- Schedulers that agree still do when the same is done to the important processes of both. -/
theorem AgreeUpTo.change {f g : Nat → Process → Process} (h : AgreeUpTo p s t)
    (hs : s.Consistent) (ht : t.Consistent) (left : Changes p s s' f) (right : Changes p t t' g)
    (now : t'.now = s'.now)
    (alike : ∀ {i : Nat} {a b : Process}, s.upTo? p i = some a → t.upTo? p i = some b →
      a.Alike b → Process.ChangeAlike s.nextPlace t.nextPlace a b (f i a) (g i b))
    (holder : ∀ {i : Nat} {a : Process}, s.upTo? p i = some a →
      (s'.current = some i ↔ t'.current = some i)) : AgreeUpTo p s' t' where
  now := now
  process i := by
    rw [left.upTo?, right.upTo?]
    cases held : s.upTo? p i with
    | none =>
      have same := h.process i
      rw [held, Option.map_none, eq_comm, Option.map_eq_none_iff] at same
      rw [same]
      rfl
    | some a =>
      obtain ⟨b, found, same⟩ := h.exists_right held
      rw [found]
      exact congrArg some (alike held found same).alike
  order {i j a b c d} held held' held'' held''' := by
    rw [left.upTo?, Option.map_eq_some_iff] at held held'
    rw [right.upTo?, Option.map_eq_some_iff] at held'' held'''
    obtain ⟨a, held, rfl⟩ := held
    obtain ⟨b, held', rfl⟩ := held'
    obtain ⟨c, held'', rfl⟩ := held''
    obtain ⟨d, held''', rfl⟩ := held'''
    have at_i := (alike held held'' (h.alike held held'')).place
    have at_j := (alike held' held''' (h.alike held' held''')).place
    have order := h.order held held' held'' held'''
    have place := hs.place_lt i a (get?_of_upTo? held)
    have place' := hs.place_lt j b (get?_of_upTo? held')
    have place'' := ht.place_lt i c (get?_of_upTo? held'')
    have place''' := ht.place_lt j d (get?_of_upTo? held''')
    rw [left.order_iff hs held held' (by omega) (by omega),
      right.order_iff ht held'' held''' (by omega) (by omega)]
    omega
  holder held := by
    rw [left.upTo?, Option.map_eq_some_iff] at held
    obtain ⟨a, held, rfl⟩ := held
    exact holder held

end Scheduler
end SeparationKernel
