import Mathlib
import SeparationKernel.Datum.Forms

/-! The written forms of the types that cross the kernel's interface are read back, however the
fields of their records are ordered. Options that are left out have their defaults, and closed
records have no other fields. -/
namespace SeparationKernel
namespace Datum

mutual

/-- The same value but for the order of the fields in its records. -/
inductive Reordered : Datum → Datum → Prop where
  | refl (d : Datum) : Reordered d d
  | record {es fs gs : List (String × Datum)} (fields : ReorderedFields es fs)
      (perm : fs.Perm gs) : Reordered (.record es) (.record gs)

inductive ReorderedFields : List (String × Datum) → List (String × Datum) → Prop where
  | nil : ReorderedFields [] []
  | cons {name : String} {d e : Datum} {es fs : List (String × Datum)} (value : Reordered d e)
      (rest : ReorderedFields es fs) : ReorderedFields ((name, d) :: es) ((name, e) :: fs)

end

variable {d e : Datum} {es fs : List (String × Datum)} {name : String} {n : Int}

@[simp] theorem reordered_int : (int n).Reordered d ↔ d = int n := by
  constructor
  · rintro ⟨⟩
    rfl
  · rintro rfl
    exact .refl _

@[simp] theorem reordered_text : (text name).Reordered d ↔ d = text name := by
  constructor
  · rintro ⟨⟩
    rfl
  · rintro rfl
    exact .refl _

@[simp] theorem reordered_singleton :
    (record [(name, d)]).Reordered e ↔ ∃ c, d.Reordered c ∧ e = record [(name, c)] := by
  constructor
  · intro reordered
    cases reordered with
    | refl => exact ⟨d, .refl d, rfl⟩
    | record fields perm =>
      obtain _ | ⟨value, ⟨⟩⟩ := fields
      rw [← List.singleton_perm.1 perm]
      exact ⟨_, value, rfl⟩
  · rintro ⟨c, value, rfl⟩
    exact .record (.cons value .nil) (.refl _)

theorem ReorderedFields.eq_of_int (fields : ReorderedFields es fs)
    (numbers : ∀ e ∈ es, ∃ n, e.2 = int n) : fs = es := by
  induction es generalizing fs with
  | nil =>
    cases fields
    rfl
  | cons e es ih =>
    obtain ⟨⟨n, here⟩, later⟩ := List.forall_mem_cons.1 numbers
    obtain _ | ⟨value, rest⟩ := fields
    obtain rfl : _ = int n := here
    rw [reordered_int.1 value, ih rest later]

theorem reordered_record_of_int (numbers : ∀ e ∈ es, ∃ n, e.2 = int n)
    (reordered : (record es).Reordered d) : ∃ gs, es.Perm gs ∧ d = record gs := by
  cases reordered with
  | refl => exact ⟨es, .refl es, rfl⟩
  | record fields perm => exact ⟨_, fields.eq_of_int numbers ▸ perm, rfl⟩

theorem lookup_eq_some_of_mem {κ α : Type} [DecidableEq κ] {xs : List (κ × α)} {x : κ × α}
    (nodup : (xs.map (·.1)).Nodup) (mem : x ∈ xs) : xs.lookup x.1 = some x.2 := by
  obtain ⟨before, after, rfl⟩ := List.append_of_mem mem
  refine List.lookup_eq_some_iff.2 ⟨before, after, rfl, fun e earlier => ?_⟩
  rw [List.map_append, List.map_cons, List.nodup_append] at nodup
  have other := nodup.2.2 e.1 (List.mem_map_of_mem earlier) x.1 (by simp)
  simpa using Ne.symm other

theorem mapM_eq_some_map {α β : Type} {f : α → Option β} {g : α → β} {xs : List α}
    (each : ∀ x ∈ xs, f x = some (g x)) : xs.mapM f = some (xs.map g) := by
  induction xs with
  | nil => rfl
  | cons x xs ih =>
    obtain ⟨here, later⟩ := List.forall_mem_cons.1 each
    rw [List.mapM_cons, here, ih later]
    rfl

theorem mapM_id_map_some {α : Type} (xs : List α) : (xs.map some).mapM id = some xs := by
  induction xs with
  | nil => rfl
  | cons x xs ih =>
    rw [List.map_cons, List.mapM_cons, ih]
    rfl

theorem mem_of_lookup_eq_some {κ α : Type} [DecidableEq κ] {xs : List (κ × α)} {k : κ} {a : α}
    (found : xs.lookup k = some a) : (k, a) ∈ xs := by
  obtain ⟨before, after, rfl, _⟩ := List.lookup_eq_some_iff.1 found
  simp

variable {shape : Shape}

theorem isRepeatedIn_eq_false (nodup : (es.map (·.1)).Nodup) :
    shape.isRepeatedIn es = false := by
  rw [Shape.isRepeatedIn, List.any_eq_false]
  intro f _
  have once := List.nodup_iff_count_le_one.1 nodup f.1
  simpa using once

/-- A record of the shape's fields, none of the required ones missing, in any order. -/
theorem arrange?_record (nodup : (es.map (·.1)).Nodup)
    (known : ∀ e ∈ es, (shape.fields.lookup e.1).isSome = true)
    (present : ∀ f ∈ shape.fields, f.2 = .required → (es.lookup f.1).isSome = true) :
    (record es).arrange? shape = some (shape.fields.map fun f => es.lookup f.1) := by
  have closed : (shape.isClosed && es.any fun e => (shape.fields.lookup e.1).isNone) = false := by
    rw [Bool.and_eq_false_imp]
    intro _
    rw [List.any_eq_false]
    intro e mem
    have found := known e mem
    rw [← Option.not_isNone] at found
    simpa using found
  rw [arrange?, closed, isRepeatedIn_eq_false nodup]
  refine mapM_eq_some_map fun f mem => ?_
  cases found : es.lookup f.1 with
  | some d => simp only [found]
  | none =>
    have optional : f.2 ≠ .required := fun required => by
      simpa [found] using present f mem required
    simp only [found, if_neg optional]

theorem arrange?_eq_none_of_repeated {presence : Presence}
    (field : (name, presence) ∈ shape.fields) (twice : 2 ≤ (es.map (·.1)).count name) :
    (record es).arrange? shape = none := by
  have repeated : shape.isRepeatedIn es = true :=
    List.any_eq_true.2 ⟨_, field, decide_eq_true twice⟩
  rw [arrange?, repeated]
  split <;> rfl

theorem arrange?_eq_none (closed : shape.isClosed = true) (mem : (name, d) ∈ es)
    (unknown : shape.fields.lookup name = none) : (record es).arrange? shape = none := by
  have found : (shape.isClosed && es.any fun e => (shape.fields.lookup e.1).isNone) = true := by
    rw [closed, Bool.true_and, List.any_eq_true]
    exact ⟨(name, d), mem, by rw [unknown]; rfl⟩
  rw [arrange?, found]
  rfl

theorem require?_eq_none {names : List String} (unknown : name ∉ names) (mem : (name, d) ∈ es) :
    (record es).require? (.ofNames names) = none := by
  have absent : (Shape.ofNames names).fields.lookup name = none := by
    rw [List.lookup_eq_none_iff]
    rintro _ field_mem
    obtain ⟨known, known_mem, rfl⟩ := List.mem_map.1 field_mem
    exact bne_iff_ne.2 fun same => unknown (same ▸ known_mem)
  rw [require?, arrange?_eq_none rfl mem absent, Option.bind_none]

theorem require?_record (names : List String) {values : List Datum}
    (fields : shape.fields = names.map (·, .required)) (nodup : names.Nodup)
    (length : values.length = names.length) (perm : (names.zip values).Perm es) :
    (record es).require? shape = some values := by
  have keys : (names.zip values).map (·.1) = names := List.map_fst_zip length.ge
  have es_keys : names.Perm (es.map (·.1)) := keys ▸ perm.map _
  have once : (es.map (·.1)).Nodup := es_keys.nodup_iff.1 nodup
  have found : ∀ e ∈ names.zip values, es.lookup e.1 = some e.2 := fun e mem =>
    lookup_eq_some_of_mem once (perm.mem_iff.1 mem)
  have arranged : shape.fields.map (fun f => es.lookup f.1) = values.map some := by
    calc shape.fields.map (fun f => es.lookup f.1)
      _ = ((names.zip values).map (·.1)).map fun n => es.lookup n := by
        rw [fields, keys, List.map_map]
        rfl
      _ = (names.zip values).map (fun e => some e.2) := by
        rw [List.map_map]
        exact List.map_congr_left found
      _ = ((names.zip values).map (·.2)).map some := by
        rw [List.map_map]
        rfl
      _ = values.map some := by rw [List.map_snd_zip length.le]
  rw [require?, arrange?_record once, arranged, Option.bind_some, mapM_id_map_some]
  · intro e mem
    have known : e.1 ∈ names := es_keys.mem_iff.2 (List.mem_map_of_mem mem)
    rw [fields, List.lookup_isSome_iff]
    exact ⟨_, List.mem_map_of_mem known, beq_self_eq_true _⟩
  · intro f mem _
    rw [fields] at mem
    obtain ⟨n, n_mem, rfl⟩ := List.mem_map.1 mem
    rw [← keys] at n_mem
    obtain ⟨e, e_mem, rfl⟩ := List.mem_map.1 n_mem
    rw [found e e_mem]
    rfl

end Datum

open Datum

/-- What was written is read back, whatever the order of the fields. -/
def RoundTrips {α : Type} (toDatum : α → Datum) (ofDatum? : Datum → Option α) : Prop :=
  ∀ a d, (toDatum a).Reordered d → ofDatum? d = some a

theorem Block.roundTrips : RoundTrips toDatum ofDatum? := by
  intro b d reordered
  obtain ⟨es, perm, rfl⟩ := reordered_record_of_int (by simp [ofWord]) reordered
  have read : (record es).require? shape = some [ofWord b.start, ofWord b.length] :=
    require?_record ["start", "length"] rfl (by decide) rfl perm
  simp [ofDatum?, read]

theorem Block.ofDatum?_eq_none {es : List (String × Datum)} {name : String} {d : Datum}
    (unknown : name ∉ ["start", "length"]) (mem : (name, d) ∈ es) :
    ofDatum? (.record es) = none := by
  rw [ofDatum?, shape, require?_eq_none unknown mem]

theorem Register.Range.roundTrips : RoundTrips toDatum ofDatum? := by
  intro r d reordered
  obtain ⟨es, perm, rfl⟩ :=
    reordered_record_of_int (by simp [ofWord, Register.Mask.toDatum]) reordered
  have read : (record es).require? shape =
      some [ofWord r.first, ofWord r.last, r.readMask.toDatum, r.writeMask.toDatum] :=
    require?_record ["first-address", "last-address", "read-mask", "write-mask"] rfl
      (by decide) rfl perm
  simp [ofDatum?, read]

theorem Register.Range.ofDatum?_eq_none {es : List (String × Datum)} {name : String} {d : Datum}
    (unknown : name ∉ ["first-address", "last-address", "read-mask", "write-mask"])
    (mem : (name, d) ∈ es) : ofDatum? (.record es) = none := by
  rw [ofDatum?, shape, require?_eq_none unknown mem]

theorem ProcessId.roundTrips : RoundTrips toDatum ofDatum? := by
  intro id d reordered
  obtain ⟨es, perm, rfl⟩ := reordered_record_of_int (by simp [ofByte]) reordered
  have read : (record es).require? shape = some [ofByte id.slot, ofByte id.generation] :=
    require?_record ["slot", "generation"] rfl (by decide) rfl perm
  simp [ofDatum?, read]

theorem RoundTrips.of_plain {α : Type} {toDatum : α → Datum} {ofDatum? : Datum → Option α}
    (read : ∀ a, ofDatum? (toDatum a) = some a)
    (plain : ∀ a, (∃ n, toDatum a = .int n) ∨ ∃ name, toDatum a = .text name) :
    RoundTrips toDatum ofDatum? := by
  intro a d reordered
  rcases plain a with ⟨n, written⟩ | ⟨name, written⟩
  · rw [written] at reordered
    rw [reordered_int.1 reordered, ← written, read]
  · rw [written] at reordered
    rw [reordered_text.1 reordered, ← written, read]

theorem Register.Mask.roundTrips : RoundTrips toDatum ofDatum? :=
  .of_plain ofDatum?_toDatum fun _ => Or.inl ⟨_, rfl⟩

theorem Priority.roundTrips : RoundTrips toDatum ofDatum? :=
  .of_plain ofDatum?_toDatum fun _ => Or.inl ⟨_, rfl⟩

theorem Asid.roundTrips : RoundTrips toDatum ofDatum? :=
  .of_plain ofDatum?_toDatum fun _ => Or.inl ⟨_, rfl⟩

theorem Pirq.roundTrips : RoundTrips toDatum ofDatum? :=
  .of_plain ofDatum?_toDatum fun _ => Or.inl ⟨_, rfl⟩

theorem Access.roundTrips : RoundTrips toDatum ofDatum? :=
  .of_plain ofDatum?_toDatum fun a => by cases a <;> exact Or.inr ⟨_, rfl⟩

theorem BlockReason.roundTrips : RoundTrips toDatum ofDatum? :=
  .of_plain ofDatum?_toDatum fun r => by cases r <;> exact Or.inr ⟨_, rfl⟩

theorem CleanupOutcome.roundTrips : RoundTrips toDatum ofDatum? :=
  .of_plain ofDatum?_toDatum fun o => by cases o <;> exact Or.inr ⟨_, rfl⟩

theorem IpcTarget.roundTrips : RoundTrips toDatum ofDatum? := by
  intro target d reordered
  cases target with
  | any =>
    obtain rfl := reordered_text.1 reordered
    rfl
  | app asid =>
    obtain ⟨c, value, rfl⟩ := reordered_singleton.1 reordered
    simp [ofDatum?, choice?, Asid.roundTrips asid c value]

theorem ScheduleState.roundTrips : RoundTrips toDatum ofDatum? := by
  intro state d reordered
  cases state with
  | ready | running =>
    obtain rfl := reordered_text.1 reordered
    rfl
  | blocked reason =>
    obtain ⟨c, value, rfl⟩ := reordered_singleton.1 reordered
    simp [ofDatum?, choice?, BlockReason.roundTrips reason c value]

theorem ProcessState.roundTrips : RoundTrips toDatum ofDatum? := by
  intro state d reordered
  cases state with
  | healthy state =>
    obtain ⟨c, value, rfl⟩ := reordered_singleton.1 reordered
    simp [ofDatum?, choice?, ScheduleState.roundTrips state c value]
  | cleanup remaining =>
    obtain ⟨c, content, rfl⟩ := reordered_singleton.1 reordered
    obtain ⟨number, value, rfl⟩ := reordered_singleton.1 content
    obtain rfl := reordered_int.1 value
    exact ofDatum?_toDatum (.cleanup remaining)
  | terminated outcome =>
    obtain ⟨c, value, rfl⟩ := reordered_singleton.1 reordered
    simp [ofDatum?, choice?, CleanupOutcome.roundTrips outcome c value]

namespace Options

variable {es : List (String × Datum)} {given : Key → Option Nat}

theorem Key.nodup_all : all.Nodup := by decide

theorem Key.name_inj {j k : Key} : j.name = k.name ↔ j = k := by
  constructor
  · intro same
    exact Option.some.inj ((Key.ofName?_name j).symm.trans (same ▸ Key.ofName?_name k))
  · rintro rfl
    rfl

def written (n : Nat) : Datum := .int n

theorem update?_map {ks : List Key} (nodup : ks.Nodup)
    (fits : ∀ k n, given k = some n → n < k.size) (o : Options) :
    ∃ o', o.update? (ks.map fun k => (k, (given k).map written)) = some o' ∧
      ∀ k, o'.get k = if k ∈ ks then (given k).getD (o.get k) else o.get k := by
  induction ks generalizing o with
  | nil => exact ⟨o, rfl, fun k => rfl⟩
  | cons j ks ih =>
    obtain ⟨fresh, nodup⟩ := List.nodup_cons.1 nodup
    cases value : given j with
    | none =>
      obtain ⟨o', updated, get⟩ := ih nodup o
      refine ⟨o', ?_, fun k => ?_⟩
      · rw [List.map_cons, value]
        exact updated
      · rw [get k]
        by_cases same : k = j
        · simp [same, fresh, value]
        · simp [same]
    | some n =>
      have lt := fits j n value
      obtain ⟨o', updated, get⟩ := ih nodup (o.set j n)
      refine ⟨o', ?_, fun k => ?_⟩
      · rw [List.map_cons, value, Option.map_some, update?, written, nat?_int lt]
        exact updated
      · rw [get k, get_set o j k lt]
        by_cases same : k = j
        · simp [same, fresh, value]
        · simp [same]

theorem ofDatum?_record (given : Key → Option Nat) (nodup : (es.map (·.1)).Nodup)
    (fits : ∀ k n, given k = some n → n < k.size)
    (known : ∀ e ∈ es, ∃ k : Key, e.1 = k.name)
    (found : ∀ k : Key, es.lookup k.name = (given k).map written) :
    ∃ o, ofDatum? (.record es) = some o ∧ ∀ k, o.get k = (given k).getD (({} : Options).get k) := by
  obtain ⟨o, updated, get⟩ := update?_map Key.nodup_all fits {}
  refine ⟨o, ?_, fun k => by rw [get k, if_pos k.mem_all]⟩
  have values : Key.all.zip (shape.fields.map fun f => es.lookup f.1) =
      Key.all.map fun k => (k, (given k).map written) := by
    rw [shape, List.map_map]
    conv_lhs =>
      enter [1]
      rw [← List.map_id Key.all]
    rw [List.zip_map']
    exact List.map_congr_left fun k _ => congrArg (k, ·) (found k)
  rw [ofDatum?, arrange?_record nodup, Option.bind_some, values, updated]
  · intro e mem
    obtain ⟨k, name⟩ := known e mem
    rw [name, List.lookup_isSome_iff]
    exact ⟨_, List.mem_map_of_mem k.mem_all, beq_self_eq_true _⟩
  · intro f mem required
    obtain ⟨k, _, rfl⟩ := List.mem_map.1 mem
    cases required

theorem roundTrips : RoundTrips toDatum ofDatum? := by
  intro o d reordered
  obtain ⟨es, perm, rfl⟩ := reordered_record_of_int (by simp) reordered
  have nodup : (es.map (·.1)).Nodup := by
    rw [← (perm.map _).nodup_iff, List.map_map]
    exact Key.nodup_all.map fun _ _ => Key.name_inj.1
  have mem (k : Key) : (k.name, written (o.get k)) ∈ es :=
    perm.mem_iff.1 (List.mem_map_of_mem k.mem_all)
  obtain ⟨p, read, get⟩ := ofDatum?_record (fun k => some (o.get k)) nodup
    (by rintro k _ ⟨⟩; exact o.get_lt k)
    (fun e known => by
      obtain ⟨k, _, rfl⟩ := List.mem_map.1 (perm.mem_iff.2 known)
      exact ⟨k, rfl⟩)
    (fun k => lookup_eq_some_of_mem nodup (mem k))
  rw [read, ext_get fun k => get k]

theorem lookup_map_name (given : List (Key × Nat)) (k : Key) :
    (given.map fun e => (e.1.name, written e.2)).lookup k.name = (given.lookup k).map written := by
  induction given with
  | nil => rfl
  | cons e given ih =>
    rw [List.map_cons, List.lookup_cons, List.lookup_cons, ih]
    by_cases same : k = e.1
    · simp [same]
    · have names : k.name ≠ e.1.name := fun h => same (Key.name_inj.1 h)
      simp [beq_eq_false_iff_ne.2 same, beq_eq_false_iff_ne.2 names]

/-- Options that are left out have their defaults. -/
theorem ofDatum?_of_given {given : List (Key × Nat)} (nodup : (given.map (·.1)).Nodup)
    (fits : ∀ e ∈ given, e.2 < e.1.size) :
    ∃ o, ofDatum? (.record (given.map fun e => (e.1.name, written e.2))) = some o ∧
      (∀ e ∈ given, o.get e.1 = e.2) ∧
      ∀ k, k ∉ given.map (·.1) → o.get k = ({} : Options).get k := by
  have once : ((given.map fun e => (e.1.name, written e.2)).map (·.1)).Nodup := by
    have names : (given.map fun e => (e.1.name, written e.2)).map (·.1) =
        (given.map (·.1)).map Key.name := by simp
    rw [names]
    exact nodup.map fun _ _ => Key.name_inj.1
  obtain ⟨o, read, get⟩ := ofDatum?_record (fun k => given.lookup k) once
    (fun k n value => fits (k, n) (mem_of_lookup_eq_some value))
    (fun e mem => by
      obtain ⟨g, _, rfl⟩ := List.mem_map.1 mem
      exact ⟨g.1, rfl⟩)
    (lookup_map_name given)
  refine ⟨o, read, fun e mem => ?_, fun k absent => ?_⟩
  · rw [get, lookup_eq_some_of_mem nodup mem, Option.getD_some]
  · have none : given.lookup k = none := by
      rw [List.lookup_eq_none_iff]
      exact fun e mem => bne_iff_ne.2 fun same => absent (same ▸ List.mem_map_of_mem mem)
    rw [get, none, Option.getD_none]

theorem ofDatum?_eq_none {name : String} {d : Datum} (unknown : ∀ k : Key, k.name ≠ name)
    (mem : (name, d) ∈ es) : ofDatum? (.record es) = none := by
  have absent : shape.fields.lookup name = none := by
    rw [List.lookup_eq_none_iff]
    rintro _ field_mem
    obtain ⟨k, _, rfl⟩ := List.mem_map.1 field_mem
    exact bne_iff_ne.2 (unknown k).symm
  rw [ofDatum?, arrange?_eq_none rfl mem absent, Option.bind_none]

end Options

/-- What is written is read back, options that are left out have their defaults, and there are no
fields but the known ones in a block, a register range or options. -/
theorem forms_round_trip :
    (RoundTrips Block.toDatum Block.ofDatum? ∧
      RoundTrips Register.Mask.toDatum Register.Mask.ofDatum? ∧
      RoundTrips Access.toDatum Access.ofDatum? ∧
      RoundTrips Register.Range.toDatum Register.Range.ofDatum? ∧
      RoundTrips Priority.toDatum Priority.ofDatum? ∧
      RoundTrips Asid.toDatum Asid.ofDatum? ∧
      RoundTrips IpcTarget.toDatum IpcTarget.ofDatum? ∧
      RoundTrips Pirq.toDatum Pirq.ofDatum? ∧
      RoundTrips ProcessId.toDatum ProcessId.ofDatum? ∧
      RoundTrips BlockReason.toDatum BlockReason.ofDatum? ∧
      RoundTrips ScheduleState.toDatum ScheduleState.ofDatum? ∧
      RoundTrips CleanupOutcome.toDatum CleanupOutcome.ofDatum? ∧
      RoundTrips ProcessState.toDatum ProcessState.ofDatum? ∧
      RoundTrips Options.toDatum Options.ofDatum?) ∧
    (∀ given : List (Options.Key × Nat), (given.map (·.1)).Nodup →
      (∀ e ∈ given, e.2 < e.1.size) →
      ∃ o,
        Options.ofDatum? (.record (given.map fun e => (e.1.name, Options.written e.2))) = some o ∧
        (∀ e ∈ given, o.get e.1 = e.2) ∧
        ∀ k, k ∉ given.map (·.1) → o.get k = ({} : Options).get k) ∧
    ∀ (es : List (String × Datum)) (name : String) (d : Datum), (name, d) ∈ es →
      (name ∉ ["start", "length"] → Block.ofDatum? (.record es) = none) ∧
      (name ∉ ["first-address", "last-address", "read-mask", "write-mask"] →
        Register.Range.ofDatum? (.record es) = none) ∧
      ((∀ k : Options.Key, k.name ≠ name) → Options.ofDatum? (.record es) = none) := by
  refine ⟨?_, fun _ => Options.ofDatum?_of_given, fun es name d mem => ⟨?_, ?_, ?_⟩⟩
  · exact ⟨Block.roundTrips, Register.Mask.roundTrips, Access.roundTrips,
      Register.Range.roundTrips, Priority.roundTrips, Asid.roundTrips, IpcTarget.roundTrips,
      Pirq.roundTrips, ProcessId.roundTrips, BlockReason.roundTrips, ScheduleState.roundTrips,
      CleanupOutcome.roundTrips, ProcessState.roundTrips, Options.roundTrips⟩
  · exact fun unknown => Block.ofDatum?_eq_none unknown mem
  · exact fun unknown => Register.Range.ofDatum?_eq_none unknown mem
  · exact fun unknown => Options.ofDatum?_eq_none unknown mem

/-- A block with its fields the other way round, options of which one is given, and a block with a
field too many. -/
theorem forms_round_trip_block :
    Block.ofDatum? (.record [("length", .int 32), ("start", .int 64)]) = some ⟨64, 32⟩ ∧
      (∃ o, Options.ofDatum? (.record [("priority-max", .int 3)]) = some o ∧
        o.get .priorityMax = 3 ∧ o.get .cleanupQuantum = 20) ∧
      Block.ofDatum? (.record [("start", .int 64), ("length", .int 32), ("size", .null)]) =
        none := by
  obtain ⟨⟨block, _⟩, options, unknown⟩ := forms_round_trip
  refine ⟨block ⟨64, 32⟩ _ (.record (.cons (.refl _) (.cons (.refl _) .nil)) (.swap _ _ _)), ?_, ?_⟩
  · obtain ⟨o, read, given, others⟩ := options [(.priorityMax, 3)] (by decide) (by decide)
    exact ⟨o, read, given _ (List.mem_singleton_self _), others .cleanupQuantum (by decide)⟩
  · exact (unknown _ "size" .null (by simp)).1 (by decide)

end SeparationKernel
