import Mathlib
import SeparationKernel.Proofs.Register.Table
import SeparationKernel.Proofs.Session.Grants

/-! The tables while they are filled, in any order. Descriptors are checked against the platform's
tables once, when they are loaded; the check of the whole session looks at some of their references
again, and tells nothing of the others. -/
namespace SeparationKernel

/-- Everything that a session is started with, while it is filled. -/
structure Tables where
  registry : Registry := {}
  registers : Register.Table := {}
  store : Store := {}
deriving DecidableEq, Repr

namespace Tables

/-- What fills a table, or puts an empty one in its place. -/
inductive Filling where
  | register (l : Layout) (blocks : List RegistryBlock)
  | authorize (l : Layout) (range : Register.Range)
  | load (o : Options) (l : Layout) (apps : List App)
  | declareAuthorized (count : UInt32)
  | declareRanges (count : UInt32)
  | declareRegisters (count : UInt32)
  | replaceRegistry
  | replaceRegisters
deriving DecidableEq, Repr

def platform (t : Tables) (l : Layout) : Platform :=
  { layout := l, registry := t.registry, registers := t.registers }

def perform (t : Tables) : Filling → Tables
  | .register l blocks => { t with registry := (t.registry.register l blocks).2 }
  | .authorize l range => { t with registers := (t.registers.authorize l range).2 }
  | .load o l apps => { t with store := (t.store.load o (t.platform l) apps).2 }
  | .declareAuthorized count => { t with registry := t.registry.declareAuthorized count }
  | .declareRanges count => { t with registers := t.registers.declareRanges count }
  | .declareRegisters count => { t with registers := t.registers.declareRegisters count }
  | .replaceRegistry => { t with registry := {} }
  | .replaceRegisters => { t with registers := {} }

def run (t : Tables) (steps : List Filling) : Tables := steps.foldl perform t

def built (steps : List Filling) : Tables := run {} steps

theorem built_append (before later : List Filling) :
    built (before ++ later) = (built before).run later := List.foldl_append

end Tables

/-- The register is in the table, and the masks do not exceed those of its range. -/
def Register.Table.Allows (t : Register.Table) (g : App.RegisterGrant) : Prop :=
  ∃ r, t.lookup g.address = some r ∧
    r.readMask.Includes g.readMask.bits ∧ r.writeMask.Includes g.writeMask.bits

namespace Register.Table

variable {t : Register.Table} {l : Layout} {r q : Register.Range} {a : UInt32}

theorem mem_ranges_authorize (mem : q ∈ t.ranges) : q ∈ (t.authorize l r).2.ranges := by
  rw [authorize_eq]
  cases t.check l r with
  | error e => exact mem
  | ok =>
    show q ∈ t.ranges.insertIdxIfInBounds _ _
    rw [Array.insertIdxIfInBounds]
    split
    · exact Array.mem_insertIdx.2 (Or.inr mem)
    · exact mem

theorem Lawful.lookup_authorize (h : t.Lawful) (found : t.lookup a = some q) :
    (t.authorize l r).2.lookup a = some q := by
  obtain ⟨mem, contains⟩ := h.lookup_eq_some_iff.1 found
  refine (h.authorize l r).lookup_eq_some_iff.2 ⟨?_, contains⟩
  exact Array.mem_toList_iff.2 (mem_ranges_authorize (Array.mem_toList_iff.1 mem))

end Register.Table

namespace Registry

variable {r : Registry} {l : Layout} {batch : List RegistryBlock} {b : Block}

theorem Lawful.grants_register (h : r.Lawful) (authorized : batch.all (·.isAuthorized) = true)
    (grants : r.Grants b) : (r.register l batch).2.Grants b := by
  obtain ⟨⟨outer, mem, within⟩, clear⟩ :=
    (h.grants_iff grants.nonempty grants.limit_lt).1 grants
  refine ((h.register l batch).grants_iff grants.nonempty grants.limit_lt).2 ?_
  by_cases accepted : r.check l batch = .ok ()
  · rw [register_of_ok accepted]
    have reserved : batch.filter (·.isReserved) = [] := by
      refine List.filter_eq_nil_iff.2 fun entry entry_mem => ?_
      have kind : entry.kind = .authorized :=
        beq_iff_eq.1 (List.all_eq_true.1 authorized entry entry_mem)
      simp [RegistryBlock.isReserved, kind]
    refine ⟨⟨outer, ?_, within⟩, fun kept kept_mem => clear kept ?_⟩
    · rw [authorizedBlocks, List.filter_append, List.map_append]
      exact List.mem_append_left _ mem
    · rwa [reservedBlocks, List.filter_append, reserved, List.append_nil] at kept_mem
  · rw [register_of_ne_ok accepted]
    exact ⟨⟨outer, mem, within⟩, clear⟩

end Registry

namespace Tables

/-- What every descriptor refers to is granted by the platform's tables. -/
structure IsCovered (t : Tables) : Prop where
  blocks : ∀ app ∈ t.store.apps, ∀ b ∈ app.extraBlocks, t.registry.Grants b.block
  registers : ∀ app ∈ t.store.apps, ∀ g ∈ app.registers, t.registers.Allows g

structure Lawful (t : Tables) : Prop where
  registry : t.registry.Lawful
  registers : t.registers.Lawful
  proper : ∀ app ∈ t.store.apps, ∀ b ∈ app.extraBlocks,
    b.block.length.toNat ≠ 0 ∧ b.block.limit < UInt32.size

variable {t : Tables} {o : Options} {l : Layout} {apps : List App} {step : Filling}

theorem load_cases (t : Tables) (o : Options) (l : Layout) (apps : List App) :
    t.perform (.load o l apps) = t ∨
      Store.Accepts o (t.platform l) apps ∧
        t.perform (.load o l apps) = { t with store := ⟨apps⟩ } := by
  by_cases acceptable : Store.Accepts o (t.platform l) apps
  · exact Or.inr ⟨acceptable, by rw [perform, Store.load_of_accepts acceptable]⟩
  · exact Or.inl (by rw [perform, Store.load_of_not_accepts acceptable])

theorem isCovered_of_accepts (h : t.Lawful) (acceptable : Store.Accepts o (t.platform l) apps) :
    IsCovered { t with store := ⟨apps⟩ } where
  blocks app mem b b_mem := by
    obtain ⟨i, at_i⟩ := List.mem_iff_getElem?.1 mem
    exact (acceptable.acceptable i app at_i).grants h.registry b_mem
  registers app mem g g_mem := by
    obtain ⟨i, at_i⟩ := List.mem_iff_getElem?.1 mem
    exact (acceptable.acceptable i app at_i).registers g g_mem

theorem Lawful.perform (h : t.Lawful) (step : Filling) : (t.perform step).Lawful := by
  cases step with
  | register l blocks => exact ⟨h.registry.register l blocks, h.registers, h.proper⟩
  | authorize l range => exact ⟨h.registry, h.registers.authorize l range, h.proper⟩
  | load o l apps =>
    rcases load_cases t o l apps with kept | ⟨acceptable, taken⟩
    · rw [kept]
      exact h
    · rw [taken]
      refine ⟨h.registry, h.registers, fun app mem b b_mem => ?_⟩
      have grants := (isCovered_of_accepts h acceptable).blocks app mem b b_mem
      exact ⟨grants.nonempty, grants.limit_lt⟩
  | declareAuthorized => exact ⟨⟨h.registry.proper, h.registry.suits⟩, h.registers, h.proper⟩
  | declareRanges | declareRegisters =>
    exact ⟨h.registry, ⟨h.registers.proper, h.registers.sorted⟩, h.proper⟩
  | replaceRegistry => exact ⟨Registry.lawful_empty, h.registers, h.proper⟩
  | replaceRegisters => exact ⟨h.registry, Register.Table.lawful_empty, h.proper⟩

theorem Lawful.run (h : t.Lawful) (steps : List Filling) : (t.run steps).Lawful := by
  induction steps generalizing t with
  | nil => exact h
  | cons step steps ih => exact ih (h.perform step)

theorem lawful_built (steps : List Filling) : (built steps).Lawful := by
  refine Lawful.run ⟨Registry.lawful_empty, Register.Table.lawful_empty, ?_⟩ steps
  exact fun app mem => absurd mem List.not_mem_nil

/-- The step takes nothing away and reserves nothing. -/
def Filling.keepsReferences : Filling → Bool
  | .register _ blocks => blocks.all (·.isAuthorized)
  | .replaceRegistry | .replaceRegisters => false
  | _ => true

theorem IsCovered.perform (covered : t.IsCovered) (h : t.Lawful)
    (keeps : step.keepsReferences = true) : (t.perform step).IsCovered := by
  cases step with
  | register l blocks =>
    exact ⟨fun app mem b b_mem => h.registry.grants_register keeps (covered.blocks app mem b b_mem),
      covered.registers⟩
  | authorize l range =>
    refine ⟨covered.blocks, fun app mem g g_mem => ?_⟩
    obtain ⟨r, found, masks⟩ := covered.registers app mem g g_mem
    exact ⟨r, h.registers.lookup_authorize found, masks⟩
  | load o l apps =>
    rcases load_cases t o l apps with kept | ⟨acceptable, taken⟩
    · rw [kept]
      exact covered
    · rw [taken]
      exact isCovered_of_accepts h acceptable
  | declareAuthorized =>
    refine ⟨fun app mem b b_mem => ?_, covered.registers⟩
    obtain ⟨nonempty, limit_lt, authorized, clear⟩ := covered.blocks app mem b b_mem
    exact ⟨nonempty, limit_lt, authorized, clear⟩
  | declareRanges | declareRegisters => exact ⟨covered.blocks, covered.registers⟩
  | replaceRegistry | replaceRegisters => cases keeps

theorem IsCovered.run (covered : t.IsCovered) (h : t.Lawful) {steps : List Filling}
    (keep : steps.all (·.keepsReferences) = true) : (t.run steps).IsCovered := by
  induction steps generalizing t with
  | nil => exact covered
  | cons step steps ih =>
    rw [List.all_cons, Bool.and_eq_true] at keep
    exact ih (covered.perform h keep.1) (h.perform step) keep.2

/-- The screens that references have to pass when they are loaded and not when they are checked
again. -/
structure IsRescreened (t : Tables) : Prop where
  reserved : ∀ app ∈ t.store.apps, ∀ b ∈ app.extraBlocks,
    t.registry.reservedOverlapping? b.block = none
  masks : ∀ app ∈ t.store.apps, ∀ g ∈ app.registers, ∀ r, t.registers.lookup g.address = some r →
    r.readMask.covers g.readMask = true ∧ r.writeMask.covers g.writeMask = true

/-- What the check of the whole session finds of references. -/
structure IsRechecked (t : Tables) : Prop where
  blocks : ∀ app ∈ t.store.apps, ∀ b ∈ app.extraBlocks,
    ∃ outer ∈ t.registry.authorizedBlocks, b.block.Within outer
  registers : ∀ app ∈ t.store.apps, ∀ g ∈ app.registers,
    ∃ r, t.registers.lookup g.address = some r

theorem Lawful.isRechecked (h : t.Lawful)
    (passed : Session.check o (t.platform l) t.store = .ok ()) : t.IsRechecked := by
  have each : ∀ app ∈ t.store.apps,
      (∀ b ∈ app.extraBlocks, (t.registry.authorizedParent? b.block).isSome = true) ∧
        ∀ g ∈ app.registers, (t.registers.lookup g.address).isSome = true := by
    intro app mem
    obtain ⟨i, at_i⟩ := List.mem_iff_getElem?.1 mem
    have entry : (Asid.ofIndex i, app) ∈ t.store.entries :=
      List.mem_map.2 ⟨(app, i), List.mk_mem_zipIdx_iff_getElem?.2 at_i, rfl⟩
    simp only [Session.check, Session.checkReferences, Verdict.all_cons_eq_ok,
      Verdict.all_nil_eq_ok, and_true, Verdict.each_eq_ok, Session.checkExtraBlock,
      Session.checkRegister, Verdict.require_eq_ok] at passed
    exact passed.2.2.2 _ entry
  refine ⟨fun app mem b b_mem => ?_, fun app mem g g_mem => ?_⟩
  · obtain ⟨nonempty, limit_lt⟩ := h.proper app mem b b_mem
    have found := (each app mem).1 b b_mem
    rw [Registry.authorizedParent?, List.find?_isSome] at found
    obtain ⟨outer, outer_mem, contains⟩ := found
    exact ⟨outer, outer_mem, (Block.contains_iff_within nonempty limit_lt.le).1 contains⟩
  · exact Option.isSome_iff_exists.1 ((each app mem).2 g g_mem)

/-- References that were checked again lack the other screens, and nothing else. -/
theorem Lawful.isCovered_iff (h : t.Lawful) (rechecked : t.IsRechecked) :
    t.IsCovered ↔ t.IsRescreened := by
  have reserved : ∀ app ∈ t.store.apps, ∀ b ∈ app.extraBlocks,
      (t.registry.Grants b.block ↔ t.registry.reservedOverlapping? b.block = none) := by
    intro app mem b b_mem
    obtain ⟨nonempty, limit_lt⟩ := h.proper app mem b b_mem
    rw [h.registry.grants_iff nonempty limit_lt, h.registry.reservedOverlapping?_eq_none nonempty]
    exact and_iff_right (rechecked.blocks app mem b b_mem)
  have masks : ∀ app ∈ t.store.apps, ∀ g ∈ app.registers, (t.registers.Allows g ↔
      ∀ r, t.registers.lookup g.address = some r →
        r.readMask.covers g.readMask = true ∧ r.writeMask.covers g.writeMask = true) := by
    intro app mem g g_mem
    obtain ⟨r, found⟩ := rechecked.registers app mem g g_mem
    simp only [Register.Table.Allows, found, Option.some.injEq, exists_eq_left', forall_eq',
      Register.Mask.covers, Register.Mask.permits_iff_includes]
  constructor
  · intro covered
    exact ⟨fun app mem b b_mem => (reserved app mem b b_mem).1 (covered.blocks app mem b b_mem),
      fun app mem g g_mem => (masks app mem g g_mem).1 (covered.registers app mem g g_mem)⟩
  · intro screened
    exact ⟨fun app mem b b_mem => (reserved app mem b b_mem).2 (screened.reserved app mem b b_mem),
      fun app mem g g_mem => (masks app mem g g_mem).2 (screened.masks app mem g g_mem)⟩

/-- Tables that were filled in any order and pass the check of the whole session: extra blocks lie in
authorized blocks, and registers are found. All references are covered if they pass the other
screens of a load once more, but the check does not put them through these. It has nothing to miss
as long as no block was reserved and no table replaced since the last load that succeeded. -/
theorem recheck_exact (steps : List Filling) (o : Options) (l : Layout)
    (passed : Session.check o ((built steps).platform l) (built steps).store = .ok ()) :
    (built steps).IsRechecked ∧ ((built steps).IsCovered ↔ (built steps).IsRescreened) ∧
      ∀ before o' l' apps later, steps = before ++ .load o' l' apps :: later →
        ((built before).store.load o' ((built before).platform l') apps).1 = .ok () →
        later.all (·.keepsReferences) = true → (built steps).IsCovered := by
  have h := lawful_built steps
  have rechecked := h.isRechecked passed
  refine ⟨rechecked, h.isCovered_iff rechecked, ?_⟩
  rintro before o' l' apps later rfl accepted keep
  have acceptable := Store.load_eq_ok_iff.1 accepted
  have taken : (built before).perform (.load o' l' apps) =
      { built before with store := ⟨apps⟩ } := by
    rw [perform, Store.load_of_accepts acceptable]
  have lawful := lawful_built before
  have covered : ((built before).perform (.load o' l' apps)).IsCovered := by
    rw [taken]
    exact isCovered_of_accepts lawful acceptable
  rw [built_append]
  exact covered.run (lawful.perform _) keep

def driver : App where
  name := "driver"
  priority := ⟨1⟩
  quantum := 10
  extraBlocks := [⟨"timer", .ofBits 3, ⟨0x40000400, 0x400⟩⟩]
  registers := [⟨0x40001000, ⟨15⟩, ⟨0⟩⟩]

def driverLoaded : List Filling := [
  .register {} [⟨.authorized, ⟨0x40000000, 0x1000⟩⟩],
  .authorize {} ⟨0x40001000, 0x40001000, ⟨255⟩, ⟨255⟩⟩,
  .load {} {} [driver]]

/-- Another block is authorized after the load. -/
theorem recheck_exact_driver :
    let t := built (driverLoaded ++ [.register {} [⟨.authorized, ⟨0x40002000, 0x1000⟩⟩]])
    Session.check {} (t.platform {}) t.store = .ok () ∧ t.store = ⟨[driver]⟩ ∧ t.IsCovered ∧
      t.IsRescreened := by
  intro t
  have passed : Session.check {} (t.platform {}) t.store = .ok () := by decide +kernel
  obtain ⟨_, screens, complete⟩ := recheck_exact _ {} {} passed
  have covered : t.IsCovered :=
    complete (driverLoaded.take 2) {} {} [driver] [.register {} [⟨.authorized, ⟨0x40002000, 0x1000⟩⟩]]
      rfl (by decide +kernel) rfl
  exact ⟨passed, by decide +kernel, covered, screens.1 covered⟩

/-- A part of the timer is reserved after the load, or another table allows fewer bits of the
register. The check finds neither. -/
theorem recheck_incomplete :
    let reserved := built (driverLoaded ++ [.register {} [⟨.reserved, ⟨0x40000400, 0x20⟩⟩]])
    let narrowed := built (driverLoaded ++
      [.replaceRegisters, .authorize {} ⟨0x40001000, 0x40001000, ⟨1⟩, ⟨0⟩⟩])
    (Session.check {} (reserved.platform {}) reserved.store = .ok () ∧
        ∃ app ∈ reserved.store.apps, ∃ b ∈ app.extraBlocks,
          ∃ kept ∈ reserved.registry.reservedBlocks, kept.Shares b.block) ∧
      Session.check {} (narrowed.platform {}) narrowed.store = .ok () ∧
        ∃ app ∈ narrowed.store.apps, ∃ g ∈ app.registers, ¬narrowed.registers.Allows g := by
  intro reserved narrowed
  have shared : (Block.mk 0x40000400 0x20).Shares ⟨0x40000400, 0x400⟩ :=
    ⟨0x40000400, by decide, by decide⟩
  refine ⟨⟨by decide +kernel, driver, ?_, _, List.mem_singleton_self _, ⟨0x40000400, 0x20⟩, ?_,
    shared⟩, by decide +kernel, driver, ?_, _, List.mem_singleton_self _, ?_⟩
  · have store : reserved.store = ⟨[driver]⟩ := by decide +kernel
    rw [store]
    exact List.mem_singleton_self driver
  · have kept : reserved.registry.reservedBlocks = [⟨0x40000400, 0x20⟩] := by decide +kernel
    rw [kept]
    exact List.mem_singleton_self _
  · have store : narrowed.store = ⟨[driver]⟩ := by decide +kernel
    rw [store]
    exact List.mem_singleton_self driver
  · have found : narrowed.registers.lookup 0x40001000 =
        some ⟨0x40001000, 0x40001000, ⟨1⟩, ⟨0⟩⟩ := by decide +kernel
    rintro ⟨r, found', read, _⟩
    obtain rfl := Option.some.inj (found.symm.trans found')
    -- bit 1 was granted, and is not in the mask any more
    have bit := read 1 (by decide)
    revert bit
    decide

end Tables
end SeparationKernel
