/-! Verdicts on configurations. A verdict is a first fault or none; the combinators below run checks
in a fixed order, so which of several faults is reported is part of what they say. -/
namespace SeparationKernel

/-- The outcome of a check: nothing to say, or the first fault found. -/
abbrev Verdict (ε : Type) := Except ε Unit

namespace Verdict

variable {ε α σ : Type}

def require (holds : Bool) (fault : ε) : Verdict ε :=
  if holds then .ok () else .error fault

@[simp] theorem require_eq_ok {holds : Bool} {fault : ε} :
    require holds fault = .ok () ↔ holds = true := by
  cases holds <;> simp [require]

@[simp] theorem require_eq_error {holds : Bool} {fault e : ε} :
    require holds fault = .error e ↔ holds = false ∧ fault = e := by
  cases holds <;> simp [require]

def andThen : Verdict ε → Verdict ε → Verdict ε
  | .ok (), v => v
  | .error e, _ => .error e

@[simp] theorem andThen_eq_ok {v w : Verdict ε} :
    v.andThen w = .ok () ↔ v = .ok () ∧ w = .ok () := by
  cases v <;> simp [andThen]

@[simp] theorem andThen_eq_error {v w : Verdict ε} {e : ε} :
    v.andThen w = .error e ↔ v = .error e ∨ v = .ok () ∧ w = .error e := by
  cases v <;> simp [andThen]

def all : List (Verdict ε) → Verdict ε
  | [] => .ok ()
  | v :: vs => v.andThen (all vs)

@[simp] theorem all_eq_ok {vs : List (Verdict ε)} : all vs = .ok () ↔ ∀ v ∈ vs, v = .ok () := by
  induction vs with
  | nil => simp [all]
  | cons v vs ih => simp [all, ih]

theorem all_nil_eq_ok : all ([] : List (Verdict ε)) = .ok () ↔ True := Iff.of_eq (eq_self _)

theorem all_cons_eq_ok {v : Verdict ε} {vs : List (Verdict ε)} :
    all (v :: vs) = .ok () ↔ v = .ok () ∧ all vs = .ok () := andThen_eq_ok

theorem all_nil_eq_error {e : ε} : all ([] : List (Verdict ε)) = .error e ↔ False := by simp [all]

theorem all_cons_eq_error {v : Verdict ε} {vs : List (Verdict ε)} {e : ε} :
    all (v :: vs) = .error e ↔ v = .error e ∨ v = .ok () ∧ all vs = .error e := andThen_eq_error

theorem mem_of_all_eq_error {vs : List (Verdict ε)} {e : ε} (h : all vs = .error e) :
    .error e ∈ vs := by
  induction vs with
  | nil => simp [all] at h
  | cons v vs ih =>
    simp only [all, andThen_eq_error] at h
    rcases h with h | ⟨_, h⟩
    · simp [h]
    · exact List.mem_cons_of_mem _ (ih h)

def each (check : α → Verdict ε) (xs : List α) : Verdict ε := all (xs.map check)

@[simp] theorem each_eq_ok {check : α → Verdict ε} {xs : List α} :
    each check xs = .ok () ↔ ∀ x ∈ xs, check x = .ok () := by
  simp [each]

theorem exists_of_each_eq_error {check : α → Verdict ε} {xs : List α} {e : ε}
    (h : each check xs = .error e) : ∃ x ∈ xs, check x = .error e :=
  List.mem_map.1 (mem_of_all_eq_error h)

/-- Checks every element in turn, given the elements before it. -/
def eachAfter (check : List α → α → Verdict ε) (before : List α) : List α → Verdict ε
  | [] => .ok ()
  | x :: xs => (check before x).andThen (eachAfter check (before ++ [x]) xs)

theorem eachAfter_eq_ok {check : List α → α → Verdict ε} {before xs : List α} :
    eachAfter check before xs = .ok () ↔
      ∀ pre x post, xs = pre ++ x :: post → check (before ++ pre) x = .ok () := by
  induction xs generalizing before with
  | nil => simp [eachAfter]
  | cons y ys ih =>
    rw [eachAfter, andThen_eq_ok, ih]
    constructor
    · rintro ⟨h, hs⟩ pre x post e
      cases pre with
      | nil => simp_all
      | cons p pre =>
        simp only [List.cons_append, List.cons.injEq] at e
        obtain ⟨rfl, e⟩ := e
        simpa using hs pre x post e
    · intro h
      refine ⟨by simpa using h [] y ys rfl, fun pre x post e => ?_⟩
      simpa using h (y :: pre) x post (by simp [e])

theorem exists_of_eachAfter_eq_error {check : List α → α → Verdict ε} {before xs : List α} {e : ε}
    (failed : eachAfter check before xs = .error e) :
    ∃ pre x post, xs = pre ++ x :: post ∧ eachAfter check before pre = .ok () ∧
      check (before ++ pre) x = .error e := by
  induction xs generalizing before with
  | nil => cases failed
  | cons x xs ih =>
    rw [eachAfter, andThen_eq_error] at failed
    rcases failed with here | ⟨passed, later⟩
    · exact ⟨[], x, xs, rfl, rfl, by rwa [List.append_nil]⟩
    · obtain ⟨pre, y, post, rfl, accepted, refused⟩ := ih later
      refine ⟨x :: pre, y, post, rfl, ?_, ?_⟩
      · rw [eachAfter, passed, andThen, accepted]
      · rwa [List.append_assoc] at refused

/-- When each check asks something of the element by itself, at its place, and something of it beside
every element before it. -/
theorem eachAfter_eq_ok_iff {check : List α → α → Verdict ε} {P : Nat → α → Prop}
    {R : α → α → Prop}
    (asks : ∀ before x, check before x = .ok () ↔ P before.length x ∧ ∀ y ∈ before, R y x)
    {before xs : List α} :
    eachAfter check before xs = .ok () ↔
      (∀ i x, xs[i]? = some x → P (before.length + i) x) ∧ xs.Pairwise R ∧
        ∀ y ∈ before, ∀ x ∈ xs, R y x := by
  induction xs generalizing before with
  | nil => simp [eachAfter]
  | cons x xs ih =>
    rw [eachAfter, andThen_eq_ok, asks, ih, List.pairwise_cons]
    constructor
    · rintro ⟨⟨here, old⟩, later, apart, beside⟩
      refine ⟨fun i y at_i => ?_, ⟨fun y mem => beside x (by simp) y mem, apart⟩,
        fun y y_mem z z_mem => ?_⟩
      · cases i with
        | zero =>
          obtain rfl : x = y := by simpa using at_i
          exact here
        | succ i =>
          have next := later i y (by simpa using at_i)
          rw [List.length_append, List.length_singleton] at next
          rwa [Nat.add_right_comm, Nat.add_assoc] at next
      · rcases List.mem_cons.1 z_mem with rfl | tail
        · exact old y y_mem
        · exact beside y (List.mem_append_left _ y_mem) z tail
    · rintro ⟨each, ⟨head, apart⟩, beside⟩
      refine ⟨⟨each 0 x rfl, fun y mem => beside y mem x (by simp)⟩, fun i y at_i => ?_,
        apart, fun y y_mem z z_mem => ?_⟩
      · have next := each (i + 1) y (by simpa using at_i)
        rw [List.length_append, List.length_singleton]
        rwa [Nat.add_right_comm, Nat.add_assoc]
      · rcases List.mem_append.1 y_mem with old | new
        · exact beside y old z (List.mem_cons_of_mem _ z_mem)
        · obtain rfl : y = x := by simpa using new
          exact head z z_mem

theorem eachAfter_nil_eq_ok_iff {check : List α → α → Verdict ε} {P : α → Prop} {R : α → α → Prop}
    (asks : ∀ before x, check before x = .ok () ↔ P x ∧ ∀ y ∈ before, R y x) {xs : List α} :
    eachAfter check [] xs = .ok () ↔ (∀ x ∈ xs, P x) ∧ xs.Pairwise R := by
  have each : (∀ x ∈ xs, P x) ↔ ∀ (i : Nat) x, xs[i]? = some x → P x :=
    ⟨fun h _ x at_i => h x (List.mem_of_getElem? at_i), fun h x mem =>
      (List.mem_iff_getElem?.1 mem).elim fun i at_i => h i x at_i⟩
  rw [eachAfter_eq_ok_iff (P := fun _ => P) asks, each]
  simp

/-- A change that takes effect only if nothing speaks against it: the answer, and the state after.
-/
def commit (verdict : Verdict ε) (before after : σ) : Verdict ε × σ :=
  match verdict with
  | .ok () => (.ok (), after)
  | .error e => (.error e, before)

@[simp] theorem commit_fst (v : Verdict ε) (before after : σ) :
    (commit v before after).1 = v := by
  rcases v with _ | ⟨⟩ <;> rfl

@[simp] theorem commit_error (e : ε) (before after : σ) :
    commit (.error e) before after = (.error e, before) := rfl

@[simp] theorem commit_ok (before after : σ) :
    commit (.ok () : Verdict ε) before after = (.ok (), after) := rfl

theorem commit_snd_of_ne_ok {v : Verdict ε} {before after : σ} (refused : v ≠ .ok ()) :
    (commit v before after).2 = before := by
  cases v with
  | error e => rfl
  | ok => exact absurd rfl refused

end Verdict
end SeparationKernel
