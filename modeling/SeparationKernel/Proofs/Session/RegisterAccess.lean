import Mathlib
import SeparationKernel.Proofs.Register.Bytes
import SeparationKernel.Proofs.Session.Filling
import SeparationKernel.Proofs.Session.Recheck

/-! What applications reach through the register table. A range is screened as a span of bytes when
it is authorized, and an access is allowed word by word, through the descriptor that was loaded and
the table behind it. -/
namespace SeparationKernel

/-- The four bytes of the register lie in one register space, and the kernel keeps none of them. -/
structure Layout.Opens (l : Layout) (a : UInt32) : Prop where
  limit_le : (Register.word a).limit ≤ UInt32.size
  space : ∃ space ∈ l.registerSpaces, (Register.word a).Within space
  clear : ∀ window ∈ l.kernelRegisters, ¬window.Shares (Register.word a)

structure App.IsFirstGrant (app : App) (a : UInt32) (g : App.RegisterGrant) : Prop where
  address : g.address = a
  first : ∃ before after, app.registers = before ++ g :: after ∧
    ∀ earlier ∈ before, earlier.address ≠ a

theorem App.register?_eq_some_iff {app : App} {a : UInt32} {g : App.RegisterGrant} :
    app.register? a = some g ↔ app.IsFirstGrant a g := by
  rw [register?, List.find?_eq_some_iff_append]
  constructor
  · rintro ⟨address, before, after, parts, others⟩
    exact ⟨beq_iff_eq.1 address, before, after, parts, fun earlier mem => by
      simpa using others earlier mem⟩
  · rintro ⟨address, before, after, parts, others⟩
    exact ⟨beq_iff_eq.2 address, before, after, parts, fun earlier mem => by
      simpa using others earlier mem⟩

theorem App.IsFirstGrant.mem {app : App} {a : UInt32} {g : App.RegisterGrant}
    (first : app.IsFirstGrant a g) : g ∈ app.registers :=
  List.mem_of_find?_eq_some (App.register?_eq_some_iff.2 first)

namespace Register

variable {l : Layout} {t : Table} {q r : Range} {a : UInt32}

theorem Range.IsAdmitted.opens {span : Block} (admitted : r.IsAdmitted l span)
    (contains : r.contains a = true) : l.Opens a := by
  have inside := admitted.isProper.span_contains_word admitted.spans contains
  have fits := Range.limit_word_le admitted.spans inside
  have word_bounds := Block.contains_iff.1 inside
  refine ⟨fits, ?_, fun window mem shared => ?_⟩
  · obtain ⟨space, mem, around⟩ := admitted.space
    have bounds := Block.contains_iff.1 around
    have word_inside : space.contains (word a) = true :=
      Block.contains_iff.2 ⟨bounds.1.trans word_bounds.1, word_bounds.2.trans bounds.2⟩
    exact ⟨space, mem, (Block.contains_iff_within (length_word_ne_zero a) fits).1 word_inside⟩
  · -- a byte of both would make the window meet the whole span
    obtain ⟨x, kept, touched⟩ := shared
    have window_bounds := Block.containsAddress_iff.1 kept
    have byte_bounds := Block.containsAddress_iff.1 touched
    have meets : window.overlaps span = true := Block.overlaps_iff.2 (by omega)
    rw [admitted.clear window mem] at meets
    cases meets

namespace Table

theorem Lawful.mem_authorize (h : t.Lawful) (mem : q ∈ (t.authorize l r).2.ranges.toList) :
    q ∈ t.ranges.toList ∨ q = r ∧ ∃ span, r.IsAdmitted l span := by
  rw [Table.authorize_eq] at mem
  cases verdict : t.check l r with
  | error e =>
    rw [verdict] at mem
    exact Or.inl mem
  | ok =>
    obtain ⟨span, admitted, neighbours⟩ := check_eq_ok.1 verdict
    have clear := (h.checkNeighbours_eq_ok_iff admitted.isProper admitted.spans).1 neighbours
    have perm := h.perm_insert admitted.isProper clear []
    rw [verdict] at mem
    have either := perm.mem_iff.1 (List.mem_append_left [] mem)
    rcases List.mem_append.1 either with old | new
    · exact Or.inl old
    · exact Or.inr ⟨List.mem_singleton.1 new, span, admitted⟩

theorem Lawful.mem_after (h : t.Lawful) {offers : List (Layout × Range)}
    (mem : q ∈ (t.after offers).ranges.toList) :
    q ∈ t.ranges.toList ∨ ∃ l, (l, q) ∈ offers ∧ ∃ span, q.IsAdmitted l span := by
  induction offers generalizing t with
  | nil => exact Or.inl mem
  | cons offer offers ih =>
    obtain ⟨l, r⟩ := offer
    rcases ih (h.authorize l r) mem with old | ⟨l', offered, passed⟩
    · rcases h.mem_authorize old with old | ⟨rfl, passed⟩
      · exact Or.inl old
      · exact Or.inr ⟨l, List.mem_cons_self .., passed⟩
    · exact Or.inr ⟨l', List.mem_cons_of_mem _ offered, passed⟩

theorem opens_of_permits {offers : List (Layout × Range)} (under : ∀ offer ∈ offers, offer.1 = l)
    {op : Access} {bits : UInt32} (permits : (built offers).permits a op bits = true) :
    l.Opens a := by
  have lawful : (built offers).Lawful := lawful_empty.after offers
  obtain ⟨r, mem, contains, _⟩ := lawful.permits_iff.1 permits
  rcases lawful_empty.mem_after mem with old | ⟨l', offered, span, admitted⟩
  · exact absurd old List.not_mem_nil
  · obtain rfl : l' = l := under _ offered
    exact admitted.opens contains

theorem Allows.permits {g : App.RegisterGrant} (allows : t.Allows g) {op : Access} {bits : UInt32}
    (included : (g.mask op).Includes bits) : t.permits g.address op bits = true := by
  obtain ⟨r, found, read, write⟩ := allows
  refine (Option.any_eq_true _ _).2 ⟨r, found, Mask.permits_iff_includes.2 fun i bit => ?_⟩
  cases op with
  | read => exact read i (included i bit)
  | write => exact write i (included i bit)

end Table
end Register

namespace Session

variable {c : KernelConfig} {p : Platform} {session : Session} {store : Store} {asid : Asid}
  {app : App} {a bits : UInt32} {op : Access}

theorem StartedFrom.extends (h : session.StartedFrom c) :
    Register.Table.Extends c.layout
      { declaredRegisters := c.registerCount, declaredRanges := c.registerRangeCount }
      c.registerRanges session.platform.registers := by
  obtain ⟨registers, authorized, same⟩ := h.platform
  have filled := (authorizeAll_eq_ok_iff Register.Table.lawful_empty).1 authorized
  rw [same]
  exact ⟨⟨filled.lawful.proper, filled.lawful.sorted⟩, filled.perm, filled.admitted, rfl, rfl⟩

theorem StartedFrom.opens (h : session.StartedFrom c)
    (permits : session.platform.registers.permits a op bits = true) : c.layout.Opens a := by
  obtain ⟨r, mem, contains, _⟩ := h.extends.lawful.permits_iff.1 permits
  obtain ⟨span, admitted⟩ := h.extends.admitted r (h.extends.perm.mem_iff.1 mem)
  exact admitted.opens contains

theorem permits_iff :
    session.permits asid a op bits = true ↔
      (∃ app, session.store.get? asid = some app ∧ ∃ g, app.IsFirstGrant a g ∧
        (g.mask op).Includes bits) ∧ session.platform.registers.permits a op bits = true := by
  simp only [permits, Bool.and_eq_true, Option.any_eq_true, Option.bind_eq_some_iff,
    App.register?_eq_some_iff, Register.Mask.permits_iff_includes]
  refine and_congr_left fun _ => ⟨?_, ?_⟩
  · rintro ⟨g, ⟨app, named, first⟩, included⟩
    exact ⟨app, named, g, first, included⟩
  · rintro ⟨app, named, g, first, included⟩
    exact ⟨g, ⟨app, named, first⟩, included⟩

/-- Whatever ranges are offered to a table under one layout, in whatever order, and whichever of them
are refused: a register that the table lets anyone touch, be it with no bits, lies in one register
space with all of its bytes, and the kernel keeps none of these. So does every register that a
started session lets one of its applications touch. -/
theorem kernel_registers_closed :
    (∀ (l : Layout) (ranges : List Register.Range) (a : UInt32) (op : Access) (bits : UInt32),
        (Register.Table.built (ranges.map (l, ·))).permits a op bits = true → l.Opens a) ∧
      ∀ c session, start c = .ok session →
        ∀ asid a op bits, session.permits asid a op bits = true → c.layout.Opens a := by
  constructor
  · intro l ranges a op bits permitted
    have under : ∀ offer ∈ ranges.map (l, ·), offer.1 = l := by
      simp
    exact Register.Table.opens_of_permits under permitted
  · intro c session started asid a op bits permitted
    exact (start_eq_ok_iff.1 started).opens (permits_iff.1 permitted).2

def driverConfig : KernelConfig where
  registryBlocks := [⟨.authorized, ⟨0x40000000, 0x1000⟩⟩]
  registerRanges := [⟨0x40001000, 0x40001000, ⟨255⟩, ⟨255⟩⟩]
  apps := [Tables.driver]

def driverSession : Session where
  options := {}
  platform := {
    registry := { blocks := driverConfig.registryBlocks }
    registers := { ranges := driverConfig.registerRanges.toArray } }
  store := ⟨driverConfig.apps⟩

theorem start_driverConfig : start driverConfig = .ok driverSession := by decide +kernel

/-- A range may end right before the kernel's timer, and none reaches across the protection unit. -/
theorem kernel_registers_closed_driver :
    let beside : Register.Range := ⟨0xE000E000, 0xE000E00C, .all, .all⟩
    let across : Register.Range := ⟨0xE000E100, 0xE000EDFC, .all, .all⟩
    let table := Register.Table.built ([across, beside].map (({} : Layout), ·))
    table.ranges = #[beside] ∧ Layout.Opens {} 0xE000E00C ∧ ¬Layout.Opens {} 0xE000ED94 ∧
      driverSession.permits ⟨0⟩ 0x40001000 .read 15 = true ∧ Layout.Opens {} 0x40001000 := by
  intro beside across table
  have permits : table.permits 0xE000E00C .write 0 = true := by decide +kernel
  have driver_permits : driverSession.permits ⟨0⟩ 0x40001000 .read 15 = true := by decide +kernel
  have unit_kept : (⟨0xE000ED90, 0x38⟩ : Block) ∈ ({} : Layout).kernelRegisters := by decide
  refine ⟨by decide +kernel, kernel_registers_closed.1 _ _ _ _ _ permits, fun opens => ?_,
    driver_permits, kernel_registers_closed.2 _ _ start_driverConfig _ _ _ _ driver_permits⟩
  exact opens.clear _ unit_kept ⟨0xE000ED94, by decide, by decide⟩

/-- The table behind the descriptor refuses nothing that the descriptor allows. -/
theorem StartedFrom.permits_of_isFirstGrant (h : session.StartedFrom c)
    (named : session.store.get? asid = some app) {g : App.RegisterGrant}
    (first : app.IsFirstGrant a g) (included : (g.mask op).Includes bits) :
    session.platform.registers.permits a op bits = true := by
  obtain ⟨index, acceptable⟩ := h.isAcceptable (List.mem_of_getElem? named)
  have allows : session.platform.registers.Allows g := acceptable.registers g first.mem
  exact first.address ▸ allows.permits included

/-- References that were accepted once are found again. -/
theorem Fills.checkReferences_eq_ok (fills : Fills c p) :
    checkReferences (declareCounts c p) ⟨c.apps⟩ = .ok () := by
  simp only [checkReferences, Verdict.each_eq_ok, Verdict.all_cons_eq_ok, Verdict.all_nil_eq_ok,
    and_true, checkExtraBlock, checkRegister, Verdict.require_eq_ok]
  intro entry entry_mem
  obtain ⟨⟨app, i⟩, at_i, rfl⟩ := List.mem_map.1 entry_mem
  have acceptable := fills.accepts.acceptable i app (List.mk_mem_zipIdx_iff_getElem?.1 at_i)
  constructor
  · intro b mem
    have fits := (acceptable.extraBlocks b mem).1
    obtain ⟨outer, outer_mem, within⟩ := acceptable.authorized b mem
    exact List.find?_isSome.2
      ⟨outer, outer_mem, (Block.contains_iff_within fits.nonempty fits.limit_lt.le).2 within⟩
  · intro g mem
    obtain ⟨r, found, _⟩ := acceptable.registers g mem
    exact Option.isSome_of_mem found

/-- A started session allows exactly what the first grant for the register in the application's own
descriptor allows: the table is asked as well, but it refuses nothing of that. And once the store
has loaded, references are found again when the whole is checked, so this check comes to that of the
options, the budgets and the declared sizes. -/
theorem register_access_exact :
    (∀ c session, start c = .ok session → ∀ asid a op bits,
        session.permits asid a op bits = true ↔ ∃ app, session.store.get? asid = some app ∧
          ∃ g, app.IsFirstGrant a g ∧ (g.mask op).Includes bits) ∧
      ∀ c p store, populate c = .ok (p, store) →
        checkReferences (declareCounts c p) store = .ok () ∧
          check c.options (declareCounts c p) store = .all [c.options.check,
            checkBudgets c.options store, checkDeclared (declareCounts c p)] := by
  constructor
  · intro c session started asid a op bits
    rw [permits_iff]
    refine and_iff_left_of_imp ?_
    rintro ⟨app, named, g, first, included⟩
    exact (start_eq_ok_iff.1 started).permits_of_isFirstGrant named first included
  · intro c p store populated
    obtain ⟨fills, rfl⟩ := populate_eq_ok_iff.1 populated
    have found := fills.checkReferences_eq_ok
    exact ⟨found, by simp only [check, Verdict.all, found, Verdict.andThen]⟩

/-- The table's range allows more bits than the driver was granted. -/
theorem register_access_exact_driver :
    driverSession.permits ⟨0⟩ 0x40001000 .read 5 = true ∧
      driverSession.permits ⟨0⟩ 0x40001000 .read 16 = false ∧
      driverSession.platform.registers.permits 0x40001000 .read 16 = true ∧
      ∃ p store, populate driverConfig = .ok (p, store) ∧
        checkReferences (declareCounts driverConfig p) store = .ok () := by
  have granted : Tables.driver.IsFirstGrant 0x40001000 ⟨0x40001000, ⟨15⟩, ⟨0⟩⟩ :=
    ⟨rfl, [], [], rfl, by simp⟩
  have included : Register.Mask.Includes ⟨15⟩ 5 := Register.Mask.permits_iff_includes.1 rfl
  have populated : populate driverConfig = .ok (driverSession.platform, driverSession.store) := by
    decide +kernel
  refine ⟨(register_access_exact.1 _ _ start_driverConfig _ _ _ _).2
    ⟨_, rfl, _, granted, included⟩, by decide +kernel, by decide +kernel, _, _, populated, ?_⟩
  exact (register_access_exact.2 _ _ _ populated).1

end Session
end SeparationKernel
