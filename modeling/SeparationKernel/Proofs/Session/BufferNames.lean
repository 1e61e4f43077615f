import Mathlib
import SeparationKernel.Proofs.Scheduler.Handback
import SeparationKernel.Proofs.Session.Contents

/-! Numbers and names of shared buffers. A buffer is numbered by its place in the table, which is
that of its declaration among all declarations, and no request moves it. A search for the first
buffer of an owner and a label finds the only one, since an application has each label once. -/
namespace SeparationKernel

namespace Store

/-- The shared buffers that the applications declare, each with its owner. -/
def declarations (s : Store) : List (Asid × App.SharedBlock) :=
  s.entries.flatMap fun (owner, app) => app.sharedBlocks.map (owner, ·)

def Before (s : Store) (x y : Asid × App.SharedBlock) : Prop :=
  x.1.index < y.1.index ∨ x.1 = y.1 ∧ ∃ app, s.get? x.1 = some app ∧
    ∃ i j : Nat, i < j ∧ app.sharedBlocks[i]? = some x.2 ∧ app.sharedBlocks[j]? = some y.2

def LabelsApart (s : Store) : Prop := ∀ app ∈ s.apps, (app.sharedBlocks.map (·.label)).Nodup

variable {s : Store} {x y : Asid × App.SharedBlock}

theorem mem_declarations {o : Asid} {d : App.SharedBlock} (exact_numbers : s.size ≤ 256) :
    (o, d) ∈ s.declarations ↔ ∃ app, s.get? o = some app ∧ d ∈ app.sharedBlocks := by
  simp only [declarations, List.mem_flatMap, List.mem_map, Prod.exists,
    mem_entries_iff exact_numbers, Prod.mk.injEq]
  constructor
  · rintro ⟨_, app, described, _, mem, rfl, rfl⟩
    exact ⟨app, described, mem⟩
  · rintro ⟨app, described, mem⟩
    exact ⟨o, app, described, d, mem, rfl, rfl⟩

theorem pairwise_declarations (exact_numbers : s.size ≤ 256) :
    s.declarations.Pairwise s.Before := by
  refine List.pairwise_flatMap.2 ⟨fun ⟨owner, app⟩ entry => ?_, ?_⟩
  · refine List.pairwise_map.2 (List.pairwise_iff_getElem.2 fun i j i_lt j_lt lt => ?_)
    exact Or.inr ⟨rfl, app, (mem_entries_iff exact_numbers).1 entry, i, j, lt,
      List.getElem?_eq_getElem i_lt, List.getElem?_eq_getElem j_lt⟩
  · refine (pairwise_entries exact_numbers).imp fun {a b} lt x x_mem y y_mem => ?_
    obtain ⟨_, _, rfl⟩ := List.mem_map.1 x_mem
    obtain ⟨_, _, rfl⟩ := List.mem_map.1 y_mem
    exact Or.inl lt

theorem place_inj {app : App} {i j : Nat} {d e : App.SharedBlock}
    (nodup : (app.sharedBlocks.map (·.label)).Nodup) (at_i : app.sharedBlocks[i]? = some d)
    (at_j : app.sharedBlocks[j]? = some e) (same : d.label = e.label) : i = j := by
  have lt : i < (app.sharedBlocks.map (·.label)).length := by
    rw [List.length_map]
    exact (List.getElem?_eq_some_iff.1 at_i).1
  refine (List.getElem?_inj lt nodup).1 ?_
  rw [List.getElem?_map, List.getElem?_map, at_i, at_j, Option.map_some, Option.map_some, same]

theorem Before.name_ne (apart : s.LabelsApart) (h : s.Before x y) :
    (x.1, x.2.label) ≠ (y.1, y.2.label) := by
  intro same
  obtain ⟨owner, label⟩ := Prod.mk.inj same
  rcases h with lt | ⟨_, app, described, i, j, lt, at_i, at_j⟩
  · exact lt.ne (congrArg Asid.index owner)
  · exact lt.ne (place_inj (apart app (List.mem_of_getElem? described)) at_i at_j label)

theorem Before.asymm (apart : s.LabelsApart) (h : s.Before x y) : ¬s.Before y x := by
  rintro (lt' | ⟨owner, app', described', i', j', lt', at_i', at_j'⟩)
  · rcases h with lt | ⟨same, _⟩
    · exact lt.asymm lt'
    · exact lt'.ne (congrArg Asid.index same.symm)
  · rcases h with lt | ⟨_, app, described, i, j, lt, at_i, at_j⟩
    · exact lt.ne (congrArg Asid.index owner.symm)
    · obtain rfl : app = app' := by
        rw [owner, described] at described'
        exact Option.some.inj described'
      have nodup := apart app (List.mem_of_getElem? described)
      have i_eq : i = j' := place_inj nodup at_i at_j' rfl
      have j_eq : j = i' := place_inj nodup at_j at_i' rfl
      omega

theorem nodup_names (exact_numbers : s.size ≤ 256) (apart : s.LabelsApart) :
    (s.declarations.map fun x => (x.1, x.2.label)).Nodup :=
  List.pairwise_map.2 ((pairwise_declarations exact_numbers).imp fun before => before.name_ne apart)

/-- The order of the declarations is that of their places. -/
theorem lt_iff_before (exact_numbers : s.size ≤ 256) (apart : s.LabelsApart) {i j : Nat}
    (at_i : s.declarations[i]? = some x) (at_j : s.declarations[j]? = some y) :
    i < j ↔ s.Before x y := by
  have ordered : ∀ {i j : Nat} {x y}, s.declarations[i]? = some x → s.declarations[j]? = some y →
      i < j → s.Before x y := by
    intro i j x y at_i at_j lt
    obtain ⟨i_lt, rfl⟩ := List.getElem?_eq_some_iff.1 at_i
    obtain ⟨j_lt, rfl⟩ := List.getElem?_eq_some_iff.1 at_j
    exact List.pairwise_iff_getElem.1 (pairwise_declarations exact_numbers) i j i_lt j_lt lt
  refine ⟨ordered at_i at_j, fun before => ?_⟩
  rcases Nat.lt_trichotomy i j with lt | rfl | gt
  · exact lt
  · rw [at_i, Option.some.injEq] at at_j
    subst at_j
    exact absurd before (before.asymm apart)
  · exact absurd before ((ordered at_j at_i gt).asymm apart)

end Store

namespace SharedBuffer

def declaration (b : SharedBuffer) : Asid × App.SharedBlock := (b.owner, ⟨b.label, b.block⟩)

theorem Step.declaration {limit : UInt32} {count : Nat} {b c : SharedBuffer}
    (step : b.Step limit count c) : c.declaration = b.declaration := by
  cases step <;> rfl

end SharedBuffer

theorem BufferId.ofIndex_index (id : BufferId) : BufferId.ofIndex id.index = id := by
  simp [index, ofIndex]

namespace BufferTable

def declaration? (t : BufferTable) (id : BufferId) : Option (Asid × App.SharedBlock) :=
  (t.get? id).map (·.declaration)

/-- The numbers of the table are those of the declarations of the store. -/
structure Numbers (t : BufferTable) (s : Store) : Prop where
  /-- What an application declares is found, and under the number that is found there is nothing
  else. -/
  declared : ∀ o app d, s.get? o = some app → d ∈ app.sharedBlocks →
    ∃ id, t.find? o d.label = some id ∧ t.declaration? id = some (o, d)
  /-- What is found an application declares. -/
  found : ∀ o l id, t.find? o l = some id → ∃ app d, s.get? o = some app ∧ d ∈ app.sharedBlocks ∧
    d.label = l ∧ t.declaration? id = some (o, d)
  unlike : ∀ o o' l l' id, t.find? o l = some id → t.find? o' l' = some id → o = o' ∧ l = l'
  /-- The numbers below the size of the table are in use, and no others. -/
  used : ∀ id, (t.declaration? id).isSome = true ↔ id.index < t.buffers.length
  named : ∀ id, (∃ o l, t.find? o l = some id) ↔ id.index < t.buffers.length
  ordered : ∀ id id' x y, t.declaration? id = some x → t.declaration? id' = some y →
    (id.index < id'.index ↔ s.Before x y)
  exact_ids : ∀ i < t.buffers.length, (BufferId.ofIndex i).index = i
  exact_asids : ∀ i < s.size, (Asid.ofIndex i).index = i

variable {t : BufferTable} {s : Store} {o : Asid} {l : String} {id : BufferId}

theorem declarations_ofStore (s : Store) (options : Options) :
    (ofStore s options).buffers.map (·.declaration) = s.declarations := by
  simp only [ofStore, Store.declarations, List.map_flatMap, List.map_map, Function.comp_def,
    SharedBuffer.declaration]

theorem declaration?_eq (kept : t.buffers.map (·.declaration) = s.declarations) (id : BufferId) :
    t.declaration? id = s.declarations[id.index]? := by
  rw [declaration?, get?, ← kept, List.getElem?_map]

theorem find?_eq_some_iff (kept : t.buffers.map (·.declaration) = s.declarations)
    (exact_numbers : s.size ≤ 256) (apart : s.LabelsApart) (length_le : t.buffers.length ≤ 256) :
    t.find? o l = some id ↔ ∃ d, t.declaration? id = some (o, d) ∧ d.label = l := by
  have names : t.buffers.map (fun b => (b.owner, b.label)) =
      s.declarations.map fun x => (x.1, x.2.label) := by
    rw [← kept, List.map_map]
    rfl
  have nodup := Store.nodup_names exact_numbers apart
  rw [← names] at nodup
  constructor
  · intro found
    obtain ⟨i, first, rfl⟩ := Option.map_eq_some_iff.1 found
    obtain ⟨lt, holds, _⟩ := List.findIdx?_eq_some_iff_getElem.1 first
    rw [Bool.and_eq_true, beq_iff_eq, beq_iff_eq] at holds
    refine ⟨⟨l, t.buffers[i].block⟩, ?_, rfl⟩
    rw [declaration?, get?, index_ofIndex (lt.trans_le length_le), List.getElem?_eq_getElem lt,
      Option.map_some, SharedBuffer.declaration, holds.1, holds.2]
  · rintro ⟨d, declared, rfl⟩
    obtain ⟨b, found, same⟩ := Option.map_eq_some_iff.1 declared
    obtain ⟨lt, rfl⟩ := List.getElem?_eq_some_iff.1 found
    obtain ⟨rfl, rfl⟩ := Prod.mk.inj same
    refine Option.map_eq_some_iff.2 ⟨id.index, List.findIdx?_eq_some_iff_getElem.2
      ⟨lt, by simp, fun j before holds => ?_⟩, id.ofIndex_index⟩
    -- an earlier buffer of the same name would be this one
    rw [Bool.and_eq_true, beq_iff_eq, beq_iff_eq] at holds
    have j_lt : j < (t.buffers.map fun b => (b.owner, b.label)).length := by
      rw [List.length_map]
      exact before.trans lt
    refine before.ne ((List.getElem?_inj j_lt nodup).1 ?_)
    rw [List.getElem?_map, List.getElem?_map, List.getElem?_eq_getElem (before.trans lt),
      List.getElem?_eq_getElem lt, Option.map_some, Option.map_some, holds.1, holds.2]

theorem numbers_of_declarations (kept : t.buffers.map (·.declaration) = s.declarations)
    (exact_numbers : s.size ≤ 256) (apart : s.LabelsApart) (length_le : t.buffers.length ≤ 256) :
    t.Numbers s := by
  have found_iff : ∀ {o l id}, t.find? o l = some id ↔
      ∃ d, t.declaration? id = some (o, d) ∧ d.label = l :=
    find?_eq_some_iff kept exact_numbers apart length_le
  have length : s.declarations.length = t.buffers.length := by
    rw [← kept, List.length_map]
  have used : ∀ id, (t.declaration? id).isSome = true ↔ id.index < t.buffers.length := by
    intro id
    rw [declaration?_eq kept, Option.isSome_iff_ne_none, ne_eq, List.getElem?_eq_none_iff, length,
      Nat.not_le]
  refine ⟨fun o app d described mem => ?_, fun o l id found => ?_, fun o o' l l' id found found' =>
    ?_, used, fun id => ?_, fun id id' x y declared declared' => ?_, fun i lt =>
    index_ofIndex (lt.trans_le length_le), fun i lt =>
    Asid.index_ofIndex_of_lt (lt.trans_le exact_numbers)⟩
  · obtain ⟨i, at_i⟩ := List.mem_iff_getElem?.1
      ((Store.mem_declarations exact_numbers).2 ⟨app, described, mem⟩)
    have lt : i < t.buffers.length := length ▸ (List.getElem?_eq_some_iff.1 at_i).1
    have declared : t.declaration? (.ofIndex i) = some (o, d) := by
      rw [declaration?_eq kept, index_ofIndex (lt.trans_le length_le), at_i]
    exact ⟨.ofIndex i, found_iff.2 ⟨d, declared, rfl⟩, declared⟩
  · obtain ⟨d, declared, label⟩ := found_iff.1 found
    have mem := List.mem_of_getElem? ((declaration?_eq kept id).symm.trans declared)
    obtain ⟨app, described, d_mem⟩ := (Store.mem_declarations exact_numbers).1 mem
    exact ⟨app, d, described, d_mem, label, declared⟩
  · obtain ⟨d, declared, rfl⟩ := found_iff.1 found
    obtain ⟨d', declared', rfl⟩ := found_iff.1 found'
    rw [declared, Option.some.injEq, Prod.mk.injEq] at declared'
    exact ⟨declared'.1, congrArg _ declared'.2⟩
  · rw [← used, Option.isSome_iff_exists]
    constructor
    · rintro ⟨o, l, found⟩
      obtain ⟨d, declared, _⟩ := found_iff.1 found
      exact ⟨_, declared⟩
    · rintro ⟨⟨o, d⟩, declared⟩
      exact ⟨o, d.label, found_iff.2 ⟨d, declared, rfl⟩⟩
  · rw [declaration?_eq kept] at declared declared'
    exact Store.lt_iff_before exact_numbers apart declared declared'

end BufferTable

namespace Session

variable {c : KernelConfig} {session : Session}

theorem labelsApart_of_start (started : start c = .ok session) : session.store.LabelsApart := by
  intro app mem
  obtain ⟨index, acceptable⟩ := (start_eq_ok_iff.1 started).isAcceptable mem
  exact (List.nodup_append.1 acceptable.nodup_labels).1

/-- Whatever is asked of its shared buffers or of its scheduler, a session that has started has the
number of a buffer for each owner and label that is declared and for no other, and the buffer of
that number is as declared. Different declarations have different numbers, the numbers start at
zero without a gap and follow the declarations, and no number is too great for its type. -/
theorem buffers_numbered (started : start c = .ok session) :
    (∀ rs, ((BufferTable.ofStore session.store session.options).run rs).Numbers session.store) ∧
      ∀ rs, ((Scheduler.ofStore session.store session.options).run rs).buffers.Numbers
        session.store := by
  have asked : ∀ rs, ((BufferTable.ofStore session.store session.options).run rs).Numbers
      session.store := by
    intro rs
    have kept := BufferTable.map_buffers_run (fun step => step.declaration)
      (BufferTable.ofStore session.store session.options) rs
    have length := congrArg List.length kept
    rw [List.length_map, List.length_map] at length
    exact BufferTable.numbers_of_declarations
      (kept.trans (BufferTable.declarations_ofStore session.store session.options))
      (sound_of_start started).size_le (labelsApart_of_start started)
      (length ▸ (isFresh_ofStore started).length_le)
  refine ⟨asked, fun rs => ?_⟩
  rw [Scheduler.buffers_run]
  exact asked _

def stationConfig : KernelConfig where
  apps := [
    { name := "sensor", priority := ⟨1⟩, quantum := 10, startAtBoot := true
      sharedBlocks := [⟨"samples", ⟨0x20040000, 0x400⟩⟩, ⟨"status", ⟨0x20040400, 0x100⟩⟩] },
    { name := "logger", priority := ⟨2⟩, quantum := 10
      sharedBlocks := [⟨"status", ⟨0x20040800, 0x100⟩⟩] }]

def station : Session where
  options := {}
  platform := {}
  store := ⟨stationConfig.apps⟩

theorem buffers_numbered_station :
    start stationConfig = .ok station ∧
      let buffers := (BufferTable.ofStore station.store station.options).run
        [.addCredentials ⟨1⟩ ⟨0⟩ ⟨1⟩ .all, .transfer ⟨1⟩ ⟨0⟩ ⟨1⟩]
      buffers.Numbers station.store ∧
        ∃ id, buffers.find? ⟨1⟩ "status" = some id ∧
          buffers.declaration? id = some (⟨1⟩, ⟨"status", ⟨0x20040800, 0x100⟩⟩) := by
  have started : start stationConfig = .ok station := by decide +kernel
  have numbers := (buffers_numbered started).1
    [.addCredentials ⟨1⟩ ⟨0⟩ ⟨1⟩ .all, .transfer ⟨1⟩ ⟨0⟩ ⟨1⟩]
  exact ⟨started, numbers, numbers.declared ⟨1⟩ _ ⟨"status", ⟨0x20040800, 0x100⟩⟩ rfl (by decide)⟩

end Session
end SeparationKernel
