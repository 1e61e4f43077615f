import Mathlib
import SeparationKernel.Proofs.Refusal

/-! Identifiers of processes over a whole run. The next process in a slot has the next generation, of
which there are 256, so an old identifier names nobody until its slot has been filled that often. -/
namespace SeparationKernel

namespace ProcessId

/-- The identifier of the process in the same slot after `n` more. -/
def later (id : ProcessId) (n : Nat) : ProcessId :=
  ⟨id.slot, id.generation + UInt8.ofNat n⟩

variable {id : ProcessId} {n : Nat}

@[simp] theorem later_zero (id : ProcessId) : id.later 0 = id := by
  simp [later]

theorem later_later (id : ProcessId) (m n : Nat) : (id.later m).later n = id.later (m + n) := by
  simp [later, UInt8.ofNat_add, UInt8.add_assoc]

/-- The same identifier comes back every 256 processes. -/
theorem later_eq_self_iff : id.later n = id ↔ 256 ∣ n := by
  have lt := id.generation.toNat_lt
  have same : id.later n = id ↔ id.generation + UInt8.ofNat n = id.generation := by
    cases id
    simp [later]
  rw [same, ← UInt8.toNat_inj, UInt8.toNat_add, UInt8.toNat_ofNat']
  omega

end ProcessId

namespace Scheduler

variable {s : Scheduler} {i j : Nat} {p q : Process} {r : Request} {id : ProcessId}

structure Creates (s : Scheduler) (asid : Asid) (i : Nat) (p : Process) : Prop where
  answer : (s.instantiate asid).1 = .ok p.id
  held : (s.after (.instantiate asid)).processes.get? i = some p

theorem exists_creates (h : s.Consistent) {asid : Asid} (made : (s.instantiate asid).1 = .ok id) :
    ∃ p, p.id = id ∧ s.Creates asid id.index p := by
  have fills : s.Fills id.index (.instantiate asid) := ⟨id, by rw [makes?, made]; rfl, rfl⟩
  obtain ⟨asid', app, asked, _, answer, _, held⟩ := get?_after_of_fills h fills
  obtain rfl := Request.instantiate.inj asked
  have named : s.processes.nextId id.index = id := Except.ok.inj (answer.symm.trans made)
  exact ⟨_, named, made.trans (congrArg Except.ok named.symm), held⟩

theorem exists_later_after (h : s.Consistent) (held : s.processes.get? i = some p) (r : Request) :
    ∃ q, (s.after r).processes.get? i = some q ∧
      q.id = p.id.later (if s.Fills i r then 1 else 0) := by
  by_cases fills : s.Fills i r
  · obtain ⟨asid, app, _, _, _, _, made⟩ := get?_after_of_fills h fills
    refine ⟨_, made, ?_⟩
    rw [if_pos fills]
    exact nextId_of_held h held
  · obtain ⟨q, held', becomes⟩ := exists_after h fills held
    refine ⟨q, held', ?_⟩
    rw [if_neg fills, ProcessId.later_zero]
    exact becomes.sameAs.id

/-- A slot never becomes empty, and its generation tells how often it has been filled. -/
theorem exists_later_run (h : s.Consistent) (held : s.processes.get? i = some p)
    (rs : List Request) :
    ∃ q, (s.run rs).processes.get? i = some q ∧ q.id = p.id.later (s.fillings i rs) := by
  induction rs generalizing s p with
  | nil => exact ⟨p, held, (ProcessId.later_zero p.id).symm⟩
  | cons r rs ih =>
    obtain ⟨q, held', named⟩ := exists_later_after h held r
    obtain ⟨u, held'', named'⟩ := ih (consistent_after h r) held'
    refine ⟨u, held'', ?_⟩
    rw [named', named, ProcessId.later_later, fillings]

theorem id_eq_iff (h : s.Consistent) {a b : Asid} {between : List Request}
    (first : s.Creates a i p) (second : (s.run (.instantiate a :: between)).Creates b j q) :
    p.id = q.id ↔ i = j ∧
      256 ∣ (s.after (.instantiate a)).fillings i (between ++ [.instantiate b]) := by
  have made := consistent_after h (.instantiate a)
  have index := (made.named i p first.held).1
  have held := second.held
  rw [run_cons, ← run_concat] at held
  have index' := ((consistent_run made _).named j q held).1
  obtain ⟨u, held', named⟩ := exists_later_run made first.held (between ++ [.instantiate b])
  constructor
  · intro same
    obtain rfl : i = j := by rw [← index, same, index']
    obtain rfl := Option.some.inj (held'.symm.trans held)
    exact ⟨rfl, ProcessId.later_eq_self_iff.1 (named.symm.trans same.symm)⟩
  · rintro ⟨rfl, divides⟩
    obtain rfl := Option.some.inj (held'.symm.trans held)
    rw [named, ProcessId.later_eq_self_iff.2 divides]

theorem answer?_of_live?_eq_none (about : r.addressee? = some id)
    (nobody : s.processes.live? id = none) : s.answer? r = some (.error (.stale id)) := by
  have stale : ∀ f fault, s.checkState id f fault = .error (.stale id) := by
    intro f fault
    rw [checkState, checkLive, nobody]
    rfl
  have unknown : s.checkRunning id = .error (.stale id) := by
    rw [checkRunning, stale]
    rfl
  rw [answer?_eq about]
  cases r with
  | yield | waitIpc | waitIo =>
    obtain rfl := Option.some.inj about
    exact congrArg some unknown
  | deliverIpc | completeIo | requestTermination | cleanupDone =>
    obtain rfl := Option.some.inj about
    rw [findings, stale]
  | instantiate | schedule | tick | buffer => cases about

/-- What the identifier `id` of a process that has terminated, `p`, comes to when the slot of the
process has been filled `n` times since. -/
structure NamesAfter (s : Scheduler) (id : ProcessId) (p : Process) (n : Nat) : Prop where
  /-- It names the process until the slot is filled, -/
  last : n = 0 → s.processes.find? id = some p
  /-- then nobody, until there are no more generations. -/
  nobody : 0 < n → n < 256 → s.processes.find? id = none
  again : (s.processes.find? id).isSome = true ↔ 256 ∣ n
  stale : n < 256 → ∀ r, Request.addressee? r = some id →
    s.answer? r = some (.error (.stale id)) ∧ s.after r = s

theorem namesAfter_run (h : s.Consistent) (found : s.processes.find? id = some p)
    (dead : p.isTerminated = true) (rs : List Request) :
    (s.run rs).NamesAfter id p (s.fillings id.index rs) := by
  obtain ⟨held, rfl⟩ := ProcessTable.find?_eq_some_iff.1 found
  obtain ⟨q, held', named⟩ := exists_later_run h held rs
  have same : s.fillings p.id.index rs = 0 → q = p := by
    intro kept
    obtain ⟨u, held'', _, _, final⟩ := exists_run h kept held
    exact (Option.some.inj (held'.symm.trans held'')).trans (final dead)
  generalize s.fillings p.id.index rs = n at named same ⊢
  have found' : (s.run rs).processes.find? p.id = if 256 ∣ n then some q else none := by
    rw [ProcessTable.find?_of_get? held', named]
    simp only [ProcessId.later_eq_self_iff]
  have nobody : 0 < n → n < 256 → (s.run rs).processes.find? p.id = none := by
    intro some_more few
    rw [found', if_neg (Nat.not_dvd_of_pos_of_lt some_more few)]
  refine ⟨fun none => ?_, nobody, ?_, fun few r about => ?_⟩
  · rw [found', none, if_pos (dvd_zero 256), same none]
  · rw [found']
    split <;> simp [*]
  · have gone : (s.run rs).processes.live? p.id = none := by
      rw [ProcessTable.live?_eq_none_iff]
      intro u names
      rcases Nat.eq_zero_or_pos n with none | some_more
      · rw [found', none, if_pos (dvd_zero 256), same none] at names
        rwa [← Option.some.inj names]
      · rw [nobody some_more few] at names
        cases names
    have answer := answer?_of_live?_eq_none about gone
    exact ⟨answer, (refused_iff (consistent_run h rs) about).1 ⟨_, answer⟩⟩

/-- After any requests to a new scheduler with supported options: of two processes that are made
from then on, the second has the identifier of the first if and only if it is in the same slot, which
has been filled some multiple of 256 times since. The identifier of a process that has terminated
shows it until its slot is filled, then nobody for the next 255 processes, and all along nothing
that is asked with it is granted. -/
theorem identifiers_go_stale {o o' : Options} {store : Store} (supported : o.check = .ok ())
    (loaded : store.IsLoaded o') (rs : List Request) :
    let s := (ofStore store o).run rs
    (∀ a id, (s.instantiate a).1 = .ok id → ∃ p, p.id = id ∧ s.Creates a id.index p) ∧
      (∀ a b between i j p q, s.Creates a i p →
        (s.run (.instantiate a :: between)).Creates b j q →
          (p.id = q.id ↔ i = j ∧
            256 ∣ (s.after (.instantiate a)).fillings i (between ++ [.instantiate b]))) ∧
      ∀ id p, s.processes.find? id = some p → p.isTerminated = true →
        ∀ ss, (s.run ss).NamesAfter id p (s.fillings id.index ss) := by
  intro s
  have consistent : s.Consistent := consistent_run (consistent_ofStore supported loaded) rs
  refine ⟨fun a id made => exists_creates consistent made, ?_, ?_⟩
  · intro a b between i j p q first second
    exact id_eq_iff consistent first second
  · intro id p found dead ss
    exact namesAfter_run consistent found dead ss

/-- The identifier of a process that has terminated names nobody when its slot is filled, and names
the process that has filled the slot as the 256th. -/
theorem identifiers_go_stale_round :
    let ends (g : Nat) : List Request :=
      [.requestTermination ⟨0, UInt8.ofNat g⟩, .cleanupDone ⟨0, UInt8.ofNat g⟩]
    let s := (ofStore duo {}).run (.instantiate ⟨0⟩ :: ends 0)
    let refills := (List.range 256).flatMap fun g => .instantiate ⟨0⟩ :: ends (g + 1)
    (∃ p q, (ofStore duo {}).Creates ⟨0⟩ 0 p ∧ s.Creates ⟨1⟩ 0 q ∧ p.id ≠ q.id) ∧
      (s.processes.find? ⟨0, 0⟩).isSome = true ∧
      (s.after (.instantiate ⟨1⟩)).processes.find? ⟨0, 0⟩ = none ∧
      (s.after (.instantiate ⟨1⟩)).answer? (.requestTermination ⟨0, 0⟩) =
        some (.error (.stale ⟨0, 0⟩)) ∧
      ((s.run refills).processes.find? ⟨0, 0⟩).isSome = true := by
  intro ends s refills
  have loaded : duo.IsLoaded {} := ⟨{}, {}, duo.apps, by decide +kernel⟩
  obtain ⟨made, recur, _⟩ := identifiers_go_stale (o := {}) (by decide) loaded []
  obtain ⟨made', _, stale⟩ := identifiers_go_stale (o := {}) (by decide) loaded
    (.instantiate ⟨0⟩ :: ends 0)
  obtain ⟨p, _, first⟩ := made ⟨0⟩ ⟨0, 0⟩ (by decide +kernel)
  obtain ⟨q, _, second⟩ := made' ⟨1⟩ ⟨0, 1⟩ (by decide +kernel)
  have apart : p.id ≠ q.id := by
    intro same
    have divides := ((recur ⟨0⟩ ⟨1⟩ (ends 0) 0 0 p q first second).1 same).2
    exact absurd divides (by decide +kernel)
  obtain ⟨u, found, dead⟩ : ∃ u, s.processes.find? ⟨0, 0⟩ = some u ∧ u.isTerminated = true :=
    ⟨_, rfl, by decide +kernel⟩
  have once : s.fillings 0 [.instantiate ⟨1⟩] = 1 := by decide +kernel
  have names : (s.after (.instantiate ⟨1⟩)).NamesAfter ⟨0, 0⟩ u 1 :=
    once ▸ stale ⟨0, 0⟩ u found dead [.instantiate ⟨1⟩]
  have often : s.fillings 0 refills = 256 := by decide +kernel
  have names' : (s.run refills).NamesAfter ⟨0, 0⟩ u 256 :=
    often ▸ stale ⟨0, 0⟩ u found dead refills
  refine ⟨⟨p, q, first, second, apart⟩, by rw [found]; rfl, ?_, ?_, ?_⟩
  · exact names.nobody (by decide) (by decide)
  · exact (names.stale (by decide) _ rfl).1
  · exact names'.again.2 (dvd_refl 256)

end Scheduler
end SeparationKernel
