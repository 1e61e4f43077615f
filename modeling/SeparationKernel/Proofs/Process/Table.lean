import Mathlib
import SeparationKernel.Process.Table

/-! What the process table answers, in terms of the processes in its slots. -/
namespace SeparationKernel

/-- Lists in the order of a number of their members are the same if they have the same members. -/
theorem eq_of_pairwise_lt {α : Type} {key : α → Nat} {xs ys : List α}
    (sorted : xs.Pairwise fun a b => key a < key b) (sorted' : ys.Pairwise fun a b => key a < key b)
    (mem : ∀ a, a ∈ xs ↔ a ∈ ys) : xs = ys := by
  have irrefl : Std.Irrefl fun a b => key a < key b := ⟨fun _ => Nat.lt_irrefl _⟩
  have antisymm : Std.Antisymm fun a b => key a < key b :=
    ⟨fun _ _ lt gt => absurd gt (Nat.lt_asymm lt)⟩
  exact sorted.eq_of_mem_iff sorted' mem

namespace Process

theorem precedes_iff_level {p q : Process} :
    p.precedes q = true ↔
      p.priority.level.toNat < q.priority.level.toNat ∨
        p.priority.level.toNat = q.priority.level.toNat ∧ p.queuedAt < q.queuedAt := by
  rw [precedes_iff, Priority.level_inj]

theorem queuedAt_le_of_not_precedes {p q : Process} (h : q.precedes p = false)
    (same : q.priority = p.priority) : p.queuedAt ≤ q.queuedAt := by
  by_contra lt
  have first : q.precedes p = true := precedes_iff.2 (Or.inr ⟨same, by omega⟩)
  simp [h] at first

theorem not_moreImportant_of_not_precedes {p q : Process} (h : q.precedes p = false) :
    q.priority.isMoreImportantThan p.priority = false := by
  by_contra more
  have lt := Priority.isMoreImportantThan_iff.1 (Bool.not_eq_false _ ▸ more)
  have first : q.precedes p = true := precedes_iff.2 (Or.inl lt)
  simp [h] at first

theorem not_precedes_trans {p q r : Process} (hpq : p.precedes q = false)
    (hqr : q.precedes r = false) : p.precedes r = false := by
  rw [← Bool.not_eq_true, precedes_iff_level] at *
  omega

theorem not_precedes_of_precedes {p q : Process} (h : p.precedes q = true) :
    q.precedes p = false := by
  rw [← Bool.not_eq_true]
  rw [precedes_iff_level] at *
  omega

@[simp] theorem precedes_self (p : Process) : p.precedes p = false := by
  rw [← Bool.not_eq_true, precedes_iff_level]
  omega

theorem precedes_trans {p q r : Process} (hpq : p.precedes q = true) (hqr : q.precedes r = true) :
    p.precedes r = true := by
  rw [precedes_iff_level] at *
  omega

/-- A scan that has found `c` already finds what it would find without, or `c` if that does not
precede it. -/
theorem foldl_preferred_some (c : Nat × Process) (cs : List (Nat × Process)) :
    cs.foldl preferred (some c) =
      match foremost cs with
      | none => some c
      | some d => if d.2.precedes c.2 then some d else some c := by
  induction cs generalizing c with
  | nil => rfl
  | cons e es ih =>
    have begin_here : foremost (e :: es) = es.foldl preferred (some e) := rfl
    rw [begin_here, ih e, List.foldl_cons, preferred]
    -- Of `c`, `e` and the best of the rest, both sides choose the same.
    by_cases first : e.2.precedes c.2 = true
    · rw [if_pos first, ih e]
      cases foremost es with
      | none => simp [first]
      | some d =>
        by_cases better : d.2.precedes e.2 = true
        · simp [better, precedes_trans better first]
        · simp [better, first]
    · rw [if_neg first, ih c]
      cases foremost es with
      | none => simp [first]
      | some d =>
        by_cases better : d.2.precedes e.2 = true
        · simp [better]
        · have later : d.2.precedes c.2 = false :=
            not_precedes_trans (Bool.not_eq_true _ ▸ better) (Bool.not_eq_true _ ▸ first)
          simp [better, first, later]

@[simp] theorem foremost_nil : foremost [] = none := rfl

theorem foremost_cons (c : Nat × Process) (cs : List (Nat × Process)) :
    foremost (c :: cs) =
      match foremost cs with
      | none => some c
      | some d => if d.2.precedes c.2 then some d else some c :=
  foldl_preferred_some c cs

theorem foremost_eq_none_iff {cs : List (Nat × Process)} : foremost cs = none ↔ cs = [] := by
  cases cs with
  | nil => simp
  | cons c cs =>
    simp only [foremost_cons]
    split
    · simp
    · split <;> simp

theorem mem_of_foremost {cs : List (Nat × Process)} {c : Nat × Process}
    (h : foremost cs = some c) : c ∈ cs := by
  induction cs generalizing c with
  | nil => cases h
  | cons d ds ih =>
    simp only [foremost_cons] at h
    split at h
    · simp_all
    · rename_i e he
      split at h
      · exact List.mem_cons_of_mem _ (ih (he.trans h))
      · simp_all

theorem not_precedes_foremost {cs : List (Nat × Process)} {c : Nat × Process}
    (h : foremost cs = some c) : ∀ d ∈ cs, d.2.precedes c.2 = false := by
  induction cs generalizing c with
  | nil => simp
  | cons a cs ih =>
    simp only [foremost_cons] at h
    split at h
    · rename_i nobody
      have empty := foremost_eq_none_iff.1 nobody
      simp_all
    · rename_i b hb
      have rest := ih hb
      split at h
      · rename_i first
        obtain rfl : b = c := by simpa using h
        intro d hd
        rcases List.mem_cons.1 hd with rfl | hd
        · exact not_precedes_of_precedes first
        · exact rest d hd
      · rename_i last
        obtain rfl : a = c := by simpa using h
        intro d hd
        rcases List.mem_cons.1 hd with rfl | hd
        · exact precedes_self d.2
        · exact not_precedes_trans (rest d hd) (by simpa using last)

end Process

namespace ProcessTable

/-- How often a slot was used again, modulo 256. -/
def generation? (t : ProcessTable) (i : Nat) : Option UInt8 := t.slots[i]?.map (·.generation)

@[simp] theorem generation?_modify (t : ProcessTable) (i j : Nat) (f : Process → Process) :
    (t.modify i f).generation? j = t.generation? j := by
  simp only [generation?, modify, List.getElem?_modify]
  split <;> cases t.slots[j]? <;> simp

theorem generation?_install (t : ProcessTable) {i : Nat} (p : Process) (j : Nat)
    (h : i < t.slots.length) :
    (t.install i p).generation? j = if i = j then some p.id.generation else t.generation? j := by
  simp only [generation?, install, List.getElem?_set]
  split <;> simp_all

@[simp] theorem get?_modify_self (t : ProcessTable) (i : Nat) (f : Process → Process) :
    (t.modify i f).get? i = (t.get? i).map f := by
  simp [get?_modify]

theorem get?_modify_of_ne (t : ProcessTable) {i j : Nat} (f : Process → Process) (h : j ≠ i) :
    (t.modify i f).get? j = t.get? j := by
  simp [get?_modify, h.symm]

theorem modify_eq_of_get? {t : ProcessTable} {i : Nat} {p : Process} (f : Process → Process)
    (h : t.get? i = some p) : t.modify i f = t.modify i fun _ => f p := by
  simp only [modify, mk.injEq]
  apply List.ext_getElem?
  intro j
  simp only [List.getElem?_modify]
  by_cases same : i = j
  · subst j
    cases at_i : t.slots[i]? with
    | none => rfl
    | some slot =>
      have held : slot.occupant = some p := by simpa [get?, at_i] using h
      simp [held]
  · simp [same]

theorem index_nextId {t : ProcessTable} {i : Nat} (h : i < 256) : (t.nextId i).index = i := by
  simp [nextId, ProcessId.index, Nat.mod_eq_of_lt h]

theorem mem_occupied {t : ProcessTable} {i : Nat} {p : Process} :
    (i, p) ∈ t.occupied ↔ t.get? i = some p := by
  simp only [occupied, List.mem_filterMap, Prod.exists, List.mk_mem_zipIdx_iff_getElem?,
    Option.map_eq_some_iff, get?, Option.bind_eq_some_iff]
  constructor
  · rintro ⟨slot, j, at_j, q, held, same⟩
    obtain ⟨rfl, rfl⟩ := Prod.mk.inj same
    exact ⟨slot, at_j, held⟩
  · rintro ⟨slot, at_i, held⟩
    exact ⟨slot, i, at_i, p, held, rfl⟩

theorem mem_live {t : ProcessTable} {p : Process} :
    p ∈ t.live ↔ ∃ i, t.get? i = some p ∧ p.isTerminated = false := by
  have held : p ∈ t.slots.filterMap (·.occupant) ↔ ∃ i, t.get? i = some p := by
    simp only [List.mem_filterMap, get?, Option.bind_eq_some_iff]
    constructor
    · rintro ⟨slot, mem, occupied⟩
      obtain ⟨i, at_i⟩ := List.mem_iff_getElem?.1 mem
      exact ⟨i, slot, at_i, occupied⟩
    · rintro ⟨i, slot, at_i, occupied⟩
      exact ⟨slot, List.mem_of_getElem? at_i, occupied⟩
  rw [live, List.mem_filter, held]
  simp

theorem exists_get?_of_mem {t : ProcessTable} {asids : List Asid} {asid : Asid}
    (listed : ∀ i, (t.get? i).map (·.asid) = asids[i]?) (mem : asid ∈ asids) :
    ∃ i p, t.get? i = some p ∧ p.asid = asid := by
  obtain ⟨i, at_i⟩ := List.mem_iff_getElem?.1 mem
  rw [← listed i, Option.map_eq_some_iff] at at_i
  exact ⟨i, at_i⟩

theorem ofApp?_eq_none_iff {t : ProcessTable} {asid : Asid} :
    t.ofApp? asid = none ↔
      ∀ i p, t.get? i = some p → p.isTerminated = false → p.asid ≠ asid := by
  simp only [ofApp?, List.find?_eq_none, mem_live, beq_iff_eq]
  constructor
  · intro h i p held alive
    exact h p ⟨i, held, alive⟩
  · rintro h p ⟨i, held, alive⟩
    exact h i p held alive

theorem freeSlot?_eq_some {t : ProcessTable} {i : Nat} (h : t.freeSlot? = some i) :
    i < t.slots.length ∧ ∀ p, t.get? i = some p → p.isTerminated = true := by
  obtain ⟨lt, free, _⟩ := List.findIdx?_eq_some_iff_getElem.1 h
  refine ⟨lt, fun p held => ?_⟩
  have occupied : t.slots[i].occupant = some p := by
    simpa [get?, List.getElem?_eq_getElem lt] using held
  simpa [Slot.isFree, occupied] using free

theorem find?_eq_some_iff {t : ProcessTable} {id : ProcessId} {p : Process} :
    t.find? id = some p ↔ t.get? id.index = some p ∧ p.id = id := by
  rw [find?, Option.filter_eq_some_iff, beq_iff_eq]

theorem find?_of_get? {t : ProcessTable} {id : ProcessId} {p : Process}
    (held : t.get? id.index = some p) : t.find? id = if p.id = id then some p else none := by
  rw [find?, held, Option.filter_some]
  simp only [beq_iff_eq]

theorem live?_eq_some_iff {t : ProcessTable} {id : ProcessId} {p : Process} :
    t.live? id = some p ↔
      t.get? id.index = some p ∧ p.id = id ∧ p.isTerminated = false := by
  rw [live?, Option.filter_eq_some_iff, find?_eq_some_iff, and_assoc, Bool.not_eq_true']

theorem live?_eq_none_iff {t : ProcessTable} {id : ProcessId} :
    t.live? id = none ↔ ∀ p, t.find? id = some p → p.isTerminated = true := by
  simp only [live?, Option.filter_eq_none_iff, Bool.not_eq_true', Bool.not_eq_false]

theorem pairwise_occupied (t : ProcessTable) : t.occupied.Pairwise fun x y => x.1 < y.1 := by
  have slots : t.slots.zipIdx.Pairwise fun x y => x.2 < y.2 := by
    rw [← List.pairwise_map, List.zipIdx_map_snd]
    exact List.pairwise_lt_range'
  rw [occupied, List.pairwise_filterMap]
  refine slots.imp fun {x y} lt a ha b hb => ?_
  obtain ⟨p, _, rfl⟩ := Option.map_eq_some_iff.1 ha
  obtain ⟨q, _, rfl⟩ := Option.map_eq_some_iff.1 hb
  exact lt

def due (t : ProcessTable) (now : Timestamp) : List (Nat × Process) :=
  t.occupied.filter fun (_, p) => p.isDue now

theorem mem_due {t : ProcessTable} {now : Timestamp} {i : Nat} {p : Process} :
    (i, p) ∈ t.due now ↔ t.get? i = some p ∧ p.isDue now = true := by
  rw [due, List.mem_filter, mem_occupied]

theorem filter_occupied_eq {t u : ProcessTable} {eligible : Nat → Process → Bool}
    (same : ∀ i p, eligible i p = true → (t.get? i = some p ↔ u.get? i = some p)) :
    (t.occupied.filter fun (i, p) => eligible i p) =
      u.occupied.filter fun (i, p) => eligible i p := by
  refine eq_of_pairwise_lt (t.pairwise_occupied.filter _) (u.pairwise_occupied.filter _)
    fun ⟨i, p⟩ => ?_
  simp only [List.mem_filter, mem_occupied]
  exact and_congr_left fun ok => same i p ok

theorem due_eq {t u : ProcessTable} {now : Timestamp}
    (same : ∀ i p, p.isDue now = true → (t.get? i = some p ↔ u.get? i = some p)) :
    t.due now = u.due now :=
  filter_occupied_eq same

/-- Only the processes that are eligible matter. -/
theorem elect_congr {t u : ProcessTable} {eligible : Nat → Process → Bool}
    (same : ∀ i p, eligible i p = true → (t.get? i = some p ↔ u.get? i = some p)) :
    t.elect eligible = u.elect eligible :=
  congrArg Process.foremost (filter_occupied_eq same)

theorem nodup_due (t : ProcessTable) (now : Timestamp) : ((t.due now).map (·.1)).Nodup := by
  have sorted : (t.due now).Pairwise fun x y => x.1 < y.1 := t.pairwise_occupied.filter _
  exact List.pairwise_map.2 (sorted.imp fun lt => Nat.ne_of_lt lt)

theorem elect_eq_some {t : ProcessTable} {eligible : Nat → Process → Bool} {i : Nat} {p : Process}
    (h : t.elect eligible = some (i, p)) :
    t.get? i = some p ∧ eligible i p = true ∧
      ∀ j q, t.get? j = some q → eligible j q = true → q.precedes p = false := by
  have mem := List.mem_filter.1 (Process.mem_of_foremost h)
  refine ⟨mem_occupied.1 mem.1, mem.2, fun j q held ok => ?_⟩
  exact Process.not_precedes_foremost h (j, q)
    (List.mem_filter.2 ⟨mem_occupied.2 held, ok⟩)

theorem elect_eq_none_iff {t : ProcessTable} {eligible : Nat → Process → Bool} :
    t.elect eligible = none ↔ ∀ i p, t.get? i = some p → eligible i p = false := by
  rw [elect, Process.foremost_eq_none_iff, List.filter_eq_nil_iff]
  constructor
  · intro h i p held
    simpa using h (i, p) (mem_occupied.2 held)
  · rintro h ⟨i, p⟩ mem
    simpa using h i p (mem_occupied.1 mem)

end ProcessTable
end SeparationKernel
