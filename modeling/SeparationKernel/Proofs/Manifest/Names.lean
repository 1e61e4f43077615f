import Mathlib
import SeparationKernel.Manifest
import SeparationKernel.Proofs.Session.Start
import SeparationKernel.Proofs.Store.Loaded

/-! Names in a manifest. A name is resolved to the place of the application that has it, and the
same application is found there in the manifest, in the configuration made from it and in the store
of a session that starts from that. -/
namespace SeparationKernel

section Lists

variable {α β ε : Type} {f : α → Except ε β} {xs : List α} {ys : List β}

theorem mapM_eq_ok : xs.mapM f = .ok ys ↔ List.Forall₂ (fun x y => f x = .ok y) xs ys := by
  induction xs generalizing ys with
  | nil =>
    rw [List.mapM_nil, List.forall₂_nil_left_iff]
    exact ⟨fun mapped => (Except.ok.inj mapped).symm, fun none_left => none_left ▸ rfl⟩
  | cons x xs ih =>
    rw [List.mapM_cons, List.forall₂_cons_left_iff]
    constructor
    · intro mapped
      obtain ⟨y, made, rest⟩ := bind_eq_ok.1 mapped
      obtain ⟨tail, made_tail, same⟩ := bind_eq_ok.1 rest
      exact ⟨y, tail, made, ih.1 made_tail, (Except.ok.inj same).symm⟩
    · rintro ⟨y, tail, made, made_tail, rfl⟩
      exact bind_eq_ok.2 ⟨y, made, bind_eq_ok.2 ⟨tail, ih.2 made_tail, rfl⟩⟩

theorem exists_mapM_eq_ok : (∃ ys, xs.mapM f = .ok ys) ↔ ∀ x ∈ xs, ∃ y, f x = .ok y := by
  simp only [mapM_eq_ok]
  induction xs with
  | nil => simp
  | cons x xs ih =>
    rw [List.forall_mem_cons, ← ih]
    constructor
    · rintro ⟨_, _ | ⟨made, rest⟩⟩
      exact ⟨⟨_, made⟩, ⟨_, rest⟩⟩
    · rintro ⟨⟨y, made⟩, ⟨ys, rest⟩⟩
      exact ⟨y :: ys, .cons made rest⟩

theorem exists_mem_iff_of_forall₂ {R : α → β → Prop} {P : α → Prop} {Q : β → Prop}
    (related : List.Forall₂ R xs ys) (same : ∀ x y, R x y → (Q y ↔ P x)) :
    (∃ y ∈ ys, Q y) ↔ ∃ x ∈ xs, P x := by
  induction related with
  | nil => simp
  | cons here _ ih => simp [same _ _ here, ih]

end Lists

namespace Store

variable {s : Store} {name : String} {a : Asid} {app : App}

theorem find?_eq_some_iff (exact_numbers : s.size ≤ 256)
    (distinct : (s.apps.map (·.name)).Nodup) :
    s.find? name = some (a, app) ↔ s.get? a = some app ∧ app.name = name := by
  constructor
  · intro found
    refine ⟨(mem_entries_iff exact_numbers).1 (List.mem_of_find?_eq_some found), ?_⟩
    simpa using List.find?_some found
  · rintro ⟨described, rfl⟩
    have named : (s.find? app.name).isSome = true := List.find?_isSome.2
      ⟨(a, app), (mem_entries_iff exact_numbers).2 described, by simp⟩
    obtain ⟨⟨b, other⟩, found⟩ := Option.isSome_iff_exists.1 named
    have other_described := (mem_entries_iff exact_numbers).1 (List.mem_of_find?_eq_some found)
    have same_name : other.name = app.name := by simpa using List.find?_some found
    have same_place : b.index = a.index := by
      have lt := (List.getElem?_eq_some_iff.1 other_described).1
      refine (List.getElem?_inj (by simpa using lt) distinct).1 ?_
      rw [get?] at described other_described
      rw [List.getElem?_map, List.getElem?_map, described, other_described, Option.map_some,
        Option.map_some, same_name]
    obtain rfl := Asid.index_inj.1 same_place
    rw [found, Option.some.inj (other_described.symm.trans described)]

end Store

namespace Manifest

variable {m : Manifest} {e : Entry} {name other : String} {a : Asid} {app : App}
  {c : KernelConfig}

theorem exists_asid_eq_ok : (∃ a, m.asid name = .ok a) ↔ name ∈ m.appNames.take 256 := by
  rw [asid]
  cases found : m.appNames.idxOf? name with
  | none =>
    have absent := List.idxOf?_eq_none_iff.1 found
    simpa using fun mem => absent (List.mem_of_mem_take mem)
  | some i =>
    obtain ⟨lt, here, first⟩ := List.idxOf?_eq_some_iff.1 found
    rw [List.mem_take_iff_getElem]
    by_cases reached : i < 256
    · simpa [reached] using ⟨i, ⟨reached, lt⟩, here⟩
    · simp only [reached, if_false, reduceCtorEq, exists_false, false_iff, not_exists]
      intro j bounds
      exact first j (by omega)

/-- The number of an application is its place, as long as a number can say it. -/
theorem asid_eq_ok_iff (distinct : m.appNames.Nodup) :
    m.asid name = .ok a ↔ m.appNames[a.index]? = some name := by
  rw [asid]
  constructor
  · intro resolved
    cases found : m.appNames.idxOf? name with
    | none => simp [found] at resolved
    | some i =>
      obtain ⟨lt, here, _⟩ := List.idxOf?_eq_some_iff.1 found
      rw [found] at resolved
      dsimp only at resolved
      split at resolved
      · rename_i reached
        rw [← Except.ok.inj resolved, Asid.index_ofIndex_of_lt reached]
        exact List.getElem?_eq_some_iff.2 ⟨lt, here⟩
      · simp at resolved
  · intro named
    obtain ⟨lt, here⟩ := List.getElem?_eq_some_iff.1 named
    have found : m.appNames.idxOf? name = some a.index := by
      refine List.idxOf?_eq_some_iff.2 ⟨lt, here, fun j before same => ?_⟩
      exact before.ne (distinct.getElem_inj_iff.1 (same.trans here.symm))
    simp [found, a.index_lt]

theorem exists_target_eq_ok :
    (∃ t, m.target name = .ok t) ↔ name = "*" ∨ name ∈ m.appNames.take 256 := by
  rw [target, ← exists_asid_eq_ok]
  by_cases star : name = "*"
  · simp [star]
  · simp [star, map_eq_ok]

theorem admits_iff_of_target (distinct : m.appNames.Nodup) {t : IpcTarget}
    (resolved : m.target name = .ok t) (named : m.appNames[a.index]? = some other) :
    t.admits a = true ↔ name = "*" ∨ name = other := by
  rw [target] at resolved
  split at resolved
  · rename_i star
    obtain rfl := Except.ok.inj resolved
    simp [IpcTarget.admits, star]
  · rename_i star
    obtain ⟨b, found, rfl⟩ := map_eq_ok.1 resolved
    rw [IpcTarget.admits, beq_iff_eq, ← Except.ok.injEq (ε := NameError), ← found,
      asid_eq_ok_iff distinct, named, Option.some.injEq, eq_comm]
    simp [star]

theorem lowerEntry_eq_ok :
    m.lowerEntry e = .ok app ↔
      ∃ ts, e.sendsTo.mapM m.target = .ok ts ∧ app = { e.app with ipcTargets := ts } := by
  rw [lowerEntry]
  cases e.sendsTo.mapM m.target with
  | error fault => simp
  | ok ts => simp [eq_comm]

theorem exists_lowerEntry_eq_ok :
    (∃ app, m.lowerEntry e = .ok app) ↔
      ∀ name ∈ e.sendsTo, name = "*" ∨ name ∈ m.appNames.take 256 := by
  simp only [lowerEntry_eq_ok, ← exists_target_eq_ok, ← exists_mapM_eq_ok]
  constructor
  · rintro ⟨_, ts, resolved, _⟩
    exact ⟨ts, resolved⟩
  · rintro ⟨ts, resolved⟩
    exact ⟨_, ts, resolved, rfl⟩

theorem maySendTo_iff_of_lowerEntry (distinct : m.appNames.Nodup)
    (lowered : m.lowerEntry e = .ok app) (named : m.appNames[a.index]? = some other) :
    app.maySendTo a = true ↔ "*" ∈ e.sendsTo ∨ other ∈ e.sendsTo := by
  obtain ⟨ts, resolved, rfl⟩ := lowerEntry_eq_ok.1 lowered
  have admits := exists_mem_iff_of_forall₂ (mapM_eq_ok.1 resolved)
    fun name t made => admits_iff_of_target distinct made named
  rw [App.maySendTo, List.any_eq_true, admits]
  simp [and_or_left, exists_or]

theorem exists_kernelConfig_eq_ok :
    (∃ c, m.kernelConfig = .ok c) ↔
      ∀ e ∈ m.apps, ∀ name ∈ e.sendsTo, name = "*" ∨ name ∈ m.appNames.take 256 := by
  simp only [← exists_lowerEntry_eq_ok, ← exists_mapM_eq_ok, kernelConfig, map_eq_ok]
  exact exists_comm.trans (exists_congr fun apps => by simp)

theorem forall₂_of_kernelConfig (made : m.kernelConfig = .ok c) :
    List.Forall₂ (fun e app => m.lowerEntry e = .ok app) m.apps c.apps := by
  obtain ⟨apps, lowered, rfl⟩ := map_eq_ok.1 made
  exact mapM_eq_ok.1 lowered

/-- The configuration means the same applications by a name as the manifest does. -/
structure Faithful (m : Manifest) (c : KernelConfig) : Prop where
  /-- In the order of the manifest, and as described there. -/
  apps : List.Forall₂ (fun e app => app = { e.app with ipcTargets := app.ipcTargets }) m.apps c.apps
  names : c.apps.map (·.name) = m.appNames
  rights : ∀ (i j : Nat) (e : Entry) (app : App) (name : String), m.apps[i]? = some e →
    c.apps[i]? = some app → m.appNames[j]? = some name → j < 256 →
      (app.maySendTo (.ofIndex j) = true ↔ "*" ∈ e.sendsTo ∨ name ∈ e.sendsTo)
  /-- The store of a session has each application under the number that its name stands for. -/
  numbers : ∀ session, Session.start c = .ok session → ∀ name a,
    m.asid name = .ok a ↔ ∃ app, session.store.find? name = some (a, app)

theorem map_name_of_forall₂ {entries : List Entry} {apps : List App}
    (lowered : List.Forall₂ (fun e app => m.lowerEntry e = .ok app) entries apps) :
    apps.map (·.name) = entries.map (·.app.name) := by
  induction lowered with
  | nil => rfl
  | cons made _ ih =>
    obtain ⟨ts, _, rfl⟩ := lowerEntry_eq_ok.1 made
    rw [List.map_cons, List.map_cons, ih]

/-- The numbers of a session that starts are those that names are resolved to. -/
theorem asid_eq_ok_iff_find? (names : c.apps.map (·.name) = m.appNames) {session : Session}
    (started : Session.start c = .ok session) :
    m.asid name = .ok a ↔ ∃ app, session.store.find? name = some (a, app) := by
  have from_config := Session.start_eq_ok_iff.1 started
  have distinct : m.appNames.Nodup := names ▸ from_config.accepts.nodup_names
  have exact_numbers : session.store.size ≤ 256 := by
    have bounds := Options.bounds_of_check from_config.supported (k := .appCountMax) rfl
    rw [from_config.apps]
    exact from_config.accepts.length_le.trans (bounds.2.trans (by decide))
  have store_names : session.store.apps.map (·.name) = m.appNames := by
    rw [from_config.apps, names]
  have store_distinct : (session.store.apps.map (·.name)).Nodup := store_names ▸ distinct
  simp only [asid_eq_ok_iff distinct, Store.find?_eq_some_iff exact_numbers store_distinct,
    ← store_names, List.getElem?_map, Option.map_eq_some_iff, Store.get?]

/-- A manifest can be lowered if and only if every target in it is a star or names one of the first
256 applications, wherever that comes in the file. The configuration is then faithful to it. -/
theorem names_resolved_faithfully (distinct : m.appNames.Nodup) :
    ((∃ c, m.kernelConfig = .ok c) ↔
        ∀ e ∈ m.apps, ∀ name ∈ e.sendsTo, name = "*" ∨ name ∈ m.appNames.take 256) ∧
      ∀ c, m.kernelConfig = .ok c → m.Faithful c := by
  refine ⟨exists_kernelConfig_eq_ok, fun c made => ?_⟩
  have lowered := forall₂_of_kernelConfig made
  have names : c.apps.map (·.name) = m.appNames := map_name_of_forall₂ lowered
  refine {
    apps := lowered.imp fun e app from_entry => ?_
    names
    rights := fun i j e app name at_i lowered_at_i at_j reached => ?_
    numbers := fun session started name a => asid_eq_ok_iff_find? names started }
  · obtain ⟨ts, _, rfl⟩ := lowerEntry_eq_ok.1 from_entry
    rfl
  · obtain ⟨lt, rfl⟩ := List.getElem?_eq_some_iff.1 at_i
    obtain ⟨lt', rfl⟩ := List.getElem?_eq_some_iff.1 lowered_at_i
    refine maySendTo_iff_of_lowerEntry distinct (lowered.get lt lt') ?_
    rwa [Asid.index_ofIndex_of_lt reached]

/-- The first application names one that comes after it, and another one is called like the star. -/
def switchboard : Manifest where
  name := "switchboard"
  apps := [
    ⟨{ name := "front", priority := ⟨3⟩, quantum := 10 }, ["back"]⟩,
    ⟨{ name := "*", priority := ⟨3⟩, quantum := 10 }, []⟩,
    ⟨{ name := "back", priority := ⟨4⟩, quantum := 5 }, ["*"]⟩]

def switchboardConfig : KernelConfig where
  apps := [
    { name := "front", priority := ⟨3⟩, quantum := 10, ipcTargets := [.app ⟨2⟩] },
    { name := "*", priority := ⟨3⟩, quantum := 10 },
    { name := "back", priority := ⟨4⟩, quantum := 5, ipcTargets := [.any] }]

theorem names_resolved_faithfully_switchboard :
    switchboard.appNames.Nodup ∧ switchboard.kernelConfig = .ok switchboardConfig ∧
      switchboard.Faithful switchboardConfig ∧
      (∀ e ∈ switchboard.apps, ∀ name ∈ e.sendsTo,
        name = "*" ∨ name ∈ switchboard.appNames.take 256) ∧
      ∃ session, Session.start switchboardConfig = .ok session ∧
        ∃ app, session.store.find? "back" = some (⟨2⟩, app) := by
  have distinct : switchboard.appNames.Nodup := by decide +kernel
  have made : switchboard.kernelConfig = .ok switchboardConfig := by decide +kernel
  have faithful := (names_resolved_faithfully distinct).2 _ made
  let session : Session :=
    { options := {}, platform := {}, store := ⟨switchboardConfig.apps⟩ }
  have started : Session.start switchboardConfig = .ok session := by decide +kernel
  have resolved : switchboard.asid "back" = .ok ⟨2⟩ := by decide +kernel
  exact ⟨distinct, made, faithful, (names_resolved_faithfully distinct).1.1 ⟨_, made⟩,
    session, started, (faithful.numbers _ started _ _).1 resolved⟩

end Manifest
end SeparationKernel
