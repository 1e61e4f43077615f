import Mathlib
import SeparationKernel.Proofs.Config.Defect

/-! Errors of a configuration tell the truth, whatever tables are filled with. Each check is
followed to the places where it can fail. -/
namespace SeparationKernel
namespace Tables

variable {t : Tables} {f : Filling} {l : Layout} {e : ConfigError}

theorem not_within_of_none_contains {b : Block} {spaces : List Block}
    (nonempty : b.length.toNat ≠ 0) (limit_lt : b.limit < UInt32.size)
    (none : spaces.any (·.contains b) = false) : ∀ space ∈ spaces, ¬b.Within space := by
  intro space mem within
  rw [List.any_eq_false] at none
  exact none space mem ((Block.contains_iff_within nonempty limit_lt.le).2 within)

/-- The one fault that can be told wrong is that of a region. -/
theorem checkBlock_error {entry : ConfigEntry} {b : Block} {min max : UInt32} {isRegion : Bool}
    (asks : f.AsksOf l entry b min max isRegion)
    (failed : l.checkBlock entry b min max isRegion = .error e) :
    t.BearsOut f e ∨ f.Overstates e := by
  simp only [Layout.checkBlock, Verdict.all_cons_eq_error, Verdict.all_nil_eq_error,
    Verdict.require_eq_error, Verdict.require_eq_ok, and_false, or_false] at failed
  rcases failed with ⟨malformed, rfl⟩ | ⟨proper, ⟨unaligned, rfl⟩ | ⟨_, ⟨unnatural, rfl⟩ |
    ⟨_, size, rfl⟩⟩⟩
  · refine Or.inl (.malformed asks ?_)
    rw [← Bool.not_eq_true, Block.isWellFormed_iff] at malformed
    omega
  · obtain ⟨own, odd⟩ := Layout.misalignedValue_spec (Block.isWellFormed_iff.1 proper).1 unaligned
    refine Or.inl ⟨?_, odd⟩
    rcases own with start | length
    · exact start ▸ .start asks
    · exact length ▸ .length asks
  · rw [Bool.or_eq_false_iff, Bool.not_eq_false', Bool.and_eq_true] at unnatural
    obtain ⟨⟨region, power⟩, unnatural⟩ := unnatural
    rw [← Bool.not_eq_true, Block.isNaturallyAligned_iff, Block.IsNatural, not_and] at unnatural
    by_cases even : b.naturalAlignment.toNat ∣ b.start.toNat
    · -- a length that is a power of two is the alignment itself
      subst region
      refine Or.inr (.region asks power ?_ even)
      rintro ⟨k, length⟩
      rw [Block.naturalAlignment_eq length] at even
      exact unnatural ⟨k, length⟩ even
    · exact Or.inl ⟨.start asks, even⟩
  · refine Or.inl (.length asks ?_)
    rw [Bool.and_eq_false_iff, decide_eq_false_iff_not, decide_eq_false_iff_not] at size
    omega

theorem check_registry_error {blocks : List RegistryBlock} (lawful : t.Lawful)
    (failed : t.registry.check l blocks = .error e) :
    t.BearsOut (.register l blocks) e ∨ (Filling.register l blocks).Overstates e := by
  obtain ⟨pre, b, post, rfl, accepted, refused⟩ := Verdict.exists_of_eachAfter_eq_error failed
  have place : (pre ++ b :: post)[pre.length]? = some b := by simp
  simp only [List.nil_append, Registry.checkNext, Verdict.all_cons_eq_error,
    Verdict.all_nil_eq_error, Verdict.require_eq_error, Verdict.require_eq_ok, and_false,
    or_false] at refused
  rcases refused with own | ⟨own, ⟨outside, rfl⟩ | ⟨_, beside⟩⟩
  · exact checkBlock_error (.registryBlock place) own
  · have fits := (Layout.checkBlock_eq_ok_iff.1 own).1
    exact Or.inl (.outsidePeripherals place
      (not_within_of_none_contains fits.nonempty fits.limit_lt outside))
  · have fits := (Layout.checkBlock_eq_ok_iff.1 own).1
    obtain ⟨other, mem, clash⟩ := Verdict.exists_of_each_eq_error beside
    obtain ⟨incompatible, rfl⟩ := Verdict.require_eq_error.1 clash
    -- the comparison is exact for proper blocks, and all that are compared are
    have proper : other.IsProper := by
      rcases List.mem_append.1 mem with old | new
      · exact lawful.registry.proper other old
      · exact ((Registry.check_eq_ok_iff.1 accepted).1 other new).1.isProper
    have unsuited : ¬b.Suits other := by
      rw [← RegistryBlock.isCompatible_iff ⟨fits.nonempty, fits.limit_lt⟩ proper, incompatible]
      exact Bool.false_ne_true
    refine Or.inl ⟨.registered place (by simpa using mem) unsuited, ?_⟩
    by_contra apart
    exact unsuited fun shared => absurd shared apart

theorem checkSpan_error {r : Register.Range} {span : Block} (spans : r.span? = some span)
    (failed : Register.Table.checkSpan l r span = .error e) :
    t.BearsOut (.authorize l r) e ∨ (Filling.authorize l r).Overstates e := by
  have nonempty := Register.Range.length_span_ne_zero spans
  have limit_lt := (Register.Range.span?_eq_some_iff.1 spans).2.2.2
  simp only [Register.Table.checkSpan, Verdict.all_cons_eq_error, Verdict.all_nil_eq_error,
    Verdict.require_eq_error, Verdict.require_eq_ok, and_false, or_false] at failed
  rcases failed with ⟨outside, rfl⟩ | ⟨_, touches⟩
  · exact Or.inl (.outsideRegisterSpaces spans
      (not_within_of_none_contains nonempty limit_lt outside))
  · obtain ⟨window, mem, clash⟩ := Verdict.exists_of_each_eq_error touches
    obtain ⟨overlaps, rfl⟩ := Verdict.require_eq_error.1 clash
    by_cases empty : window.length.toNat = 0
    · exact Or.inr (.emptyWindow mem empty)
    · rw [Bool.not_eq_false', Block.overlaps_iff_shares empty nonempty] at overlaps
      exact Or.inl (.kernelRegisters spans mem overlaps)

theorem checkNeighbours_error {r : Register.Range} {span : Block} (spans : r.span? = some span)
    (failed : t.registers.checkNeighbours r span = .error e) : t.BearsOut (.authorize l r) e := by
  obtain ⟨other, near, clash⟩ := Verdict.exists_of_each_eq_error failed
  obtain ⟨overlaps, rfl⟩ := Verdict.require_eq_error.1 clash
  obtain ⟨q, mem, spans'⟩ := List.mem_filterMap.1 near
  have held := Array.mem_toList_iff.1 (Register.Table.mem_of_mem_neighbours mem)
  rw [Bool.not_eq_false', Block.overlaps_iff_shares (Register.Range.length_span_ne_zero spans')
    (Register.Range.length_span_ne_zero spans)] at overlaps
  exact ⟨.authorized spans held spans', overlaps.symm⟩

theorem check_range_error {r : Register.Range} (failed : t.registers.check l r = .error e) :
    t.BearsOut (.authorize l r) e ∨ (Filling.authorize l r).Overstates e := by
  rw [Register.Table.check, Verdict.andThen_eq_error, Verdict.require_eq_error] at failed
  rcases failed with ⟨unaligned, rfl⟩ | ⟨_, failed⟩
  · left
    rw [Bool.and_eq_false_iff] at unaligned
    rw [Register.Table.misalignedValue]
    split
    · rename_i odd
      exact ⟨.first, fun divides => bne_iff_ne.1 odd (Nat.mod_eq_zero_of_dvd divides)⟩
    · rename_i even
      have last : (r.last.toNat % 4 == 0) = false := unaligned.resolve_left (by simpa using even)
      exact ⟨.last, fun divides => beq_eq_false_iff_ne.1 last (Nat.mod_eq_zero_of_dvd divides)⟩
  · cases spans : r.span? with
    | none =>
      rw [spans] at failed
      obtain rfl := Except.error.inj failed
      refine Or.inl (.inverted ?_)
      have unspanned : ¬r.span?.isSome = true := by simp [spans]
      rw [Register.Range.span?_isSome_iff] at unspanned
      omega
    | some span =>
      rw [spans, Verdict.andThen_eq_error] at failed
      rcases failed with own | ⟨_, near⟩
      · exact checkSpan_error spans own
      · exact Or.inl (checkNeighbours_error spans near)

theorem two_le_count {κ : Type} [BEq κ] [LawfulBEq κ] (name : κ → Reference) {pre post : List κ}
    {x : κ} (again : (!pre.contains x) = false) :
    2 ≤ ((pre ++ x :: post).map name).count (name x) := by
  rw [Bool.not_eq_false', List.contains_iff_mem] at again
  have once := List.count_pos_iff.2 (List.mem_map_of_mem again : name x ∈ pre.map name)
  rw [List.map_append, List.map_cons, List.count_append, List.count_cons_self]
  omega

variable {o : Options} {apps : List App} {i : Nat} {a : App}

theorem checkIdentity_error (place : apps[i]? = some a)
    (failed : App.checkIdentity o i a = .error e) : t.BearsOut (.load o l apps) e := by
  simp only [App.checkIdentity, Verdict.all_cons_eq_error, Verdict.all_nil_eq_error,
    Verdict.require_eq_error, Verdict.require_eq_ok, and_false, or_false] at failed
  rcases failed with ⟨name, rfl⟩ | ⟨_, ⟨priority, rfl⟩ | ⟨_, quantum, rfl⟩⟩
  · refine .nameLength place ?_
    rw [Bool.and_eq_false_iff, bne_eq_false_iff_eq, decide_eq_false_iff_not] at name
    omega
  · exact .priority place (Nat.lt_of_not_le (of_decide_eq_false priority))
  · refine .quantum place ?_
    have quanta : App.quantumMin.toNat = 1 ∧ App.quantumMax.toNat = 255 := ⟨rfl, rfl⟩
    rw [Bool.and_eq_false_iff, decide_eq_false_iff_not, decide_eq_false_iff_not] at quantum
    omega

theorem checkCount_error {entry : ConfigEntry} {count : Nat} {max : UInt32}
    (counts : f.Counts entry count max.toNat) (failed : App.checkCount entry count max = .error e) :
    t.BearsOut f e := by
  obtain ⟨many, rfl⟩ := Verdict.require_eq_error.1 failed
  exact ⟨counts, Nat.lt_of_not_le (of_decide_eq_false many)⟩

theorem checkCounts_error (place : apps[i]? = some a) (failed : App.checkCounts o i a = .error e) :
    t.BearsOut (.load o l apps) e := by
  have mem := Verdict.mem_of_all_eq_error failed
  simp only [List.mem_cons, List.not_mem_nil, or_false] at mem
  rcases mem with long | long | long | long | long | long
  all_goals exact checkCount_error (.part place rfl) long.symm

theorem checkIpcTarget_error {target : IpcTarget} (place : apps[i]? = some a)
    (mem : target ∈ a.ipcTargets) (failed : App.checkIpcTarget i apps.length a target = .error e) :
    t.BearsOut (.load o l apps) e ∨ (Filling.load o l apps).Overstates e := by
  cases target with
  | any => cases failed
  | app asid =>
    obtain ⟨bad, rfl⟩ := Verdict.require_eq_error.1 failed
    rw [Bool.and_eq_false_iff, decide_eq_false_iff_not, bne_eq_false_iff_eq] at bad
    rcases bad with beyond | own
    · refine Or.inl (.part place (.target mem) ?_)
      rintro ⟨lt⟩
      exact beyond lt
    · exact Or.inr (.ownTarget place mem own)

theorem checkPirqs_error (place : apps[i]? = some a)
    (failed : Verdict.eachAfter (App.checkPirq o i a) [] a.pirqs = .error e) :
    t.BearsOut (.load o l apps) e := by
  obtain ⟨pre, q, post, parts, _, refused⟩ := Verdict.exists_of_eachAfter_eq_error failed
  simp only [List.nil_append, App.checkPirq, Verdict.all_cons_eq_error, Verdict.all_nil_eq_error,
    Verdict.require_eq_error, Verdict.require_eq_ok, and_false, or_false] at refused
  rcases refused with ⟨beyond, rfl⟩ | ⟨_, again, rfl⟩
  · exact .pirq place (by simp [parts]) (Nat.le_of_not_lt (of_decide_eq_false beyond))
  · refine ⟨_, .part place, ?_⟩
    rw [App.names, parts]
    exact two_le_count (fun q => .pirq q.line.toNat) again

theorem checkLabels_error (place : apps[i]? = some a)
    (failed : Verdict.eachAfter (App.checkLabel i a) [] a.blockLabels = .error e) :
    t.BearsOut (.load o l apps) e := by
  obtain ⟨pre, label, post, parts, _, refused⟩ := Verdict.exists_of_eachAfter_eq_error failed
  obtain ⟨again, rfl⟩ := Verdict.require_eq_error.1 refused
  refine ⟨_, .part place, ?_⟩
  rw [App.names, ← App.blockLabels_eq, parts]
  exact two_le_count .label again

theorem checkExtraBlock_error (lawful : t.Lawful) {b : App.ExtraBlock} (place : apps[i]? = some a)
    (mem : b ∈ a.extraBlocks) (failed : App.checkExtraBlock (t.platform l) i a b = .error e) :
    t.BearsOut (.load o l apps) e ∨ (Filling.load o l apps).Overstates e := by
  simp only [App.checkExtraBlock, Verdict.all_cons_eq_error, Verdict.all_nil_eq_error,
    Verdict.require_eq_error, Verdict.require_eq_ok, and_false, or_false] at failed
  rcases failed with own | ⟨own, ⟨outside, rfl⟩ | ⟨_, beside⟩⟩
  · exact checkBlock_error (.extraBlock place mem) own
  · have fits := (Layout.checkBlock_eq_ok_iff.1 own).1
    refine Or.inl (.unauthorized place mem fun outer outer_mem within => ?_)
    have found : ((t.platform l).registry.authorizedParent? b.block).isSome = true :=
      List.find?_isSome.2 ⟨outer, outer_mem,
        (Block.contains_iff_within fits.nonempty fits.limit_lt.le).2 within⟩
    rw [found] at outside
    cases outside
  · have fits := (Layout.checkBlock_eq_ok_iff.1 own).1
    obtain ⟨kept, kept_mem, clash⟩ := Verdict.exists_of_each_eq_error beside
    obtain ⟨overlaps, rfl⟩ := Verdict.require_eq_error.1 clash
    obtain ⟨entry, entry_mem, rfl⟩ := List.mem_map.1 kept_mem
    have proper := lawful.registry.proper entry (List.mem_filter.1 entry_mem).1
    rw [Bool.not_eq_false', Block.overlaps_iff_shares proper.1 fits.nonempty] at overlaps
    exact Or.inl ⟨.reserved place mem kept_mem, overlaps.symm⟩

theorem checkBlocks_error (lawful : t.Lawful) (place : apps[i]? = some a)
    (failed : App.checkBlocks (t.platform l) i a = .error e) :
    t.BearsOut (.load o l apps) e ∨ (Filling.load o l apps).Overstates e := by
  simp only [App.checkBlocks, Verdict.all_cons_eq_error, Verdict.all_nil_eq_error, and_false,
    or_false] at failed
  rcases failed with labels | ⟨_, shared | ⟨_, extra⟩⟩
  · exact Or.inl (checkLabels_error place labels)
  · obtain ⟨b, mem, wrong⟩ := Verdict.exists_of_each_eq_error shared
    exact checkBlock_error (.sharedBuffer place mem) wrong
  · obtain ⟨b, mem, wrong⟩ := Verdict.exists_of_each_eq_error extra
    exact checkExtraBlock_error lawful place mem wrong

theorem checkRegister_error (lawful : t.Lawful) {g : App.RegisterGrant} (place : apps[i]? = some a)
    (mem : g ∈ a.registers) (failed : App.checkRegister (t.platform l) i a g = .error e) :
    t.BearsOut (.load o l apps) e := by
  rw [App.checkRegister] at failed
  cases found : (t.platform l).registers.lookup g.address with
  | none =>
    rw [found] at failed
    obtain rfl := Except.error.inj failed
    refine .part place (.register mem) ?_
    rintro (_ | ⟨range_mem, contains⟩)
    have held := lawful.registers.lookup_eq_some_iff.2 ⟨Array.mem_toList_iff.2 range_mem, contains⟩
    exact absurd (found.symm.trans held) (by simp)
  | some r =>
    rw [found] at failed
    obtain ⟨wrong, rfl⟩ := Verdict.require_eq_error.1 failed
    obtain ⟨range_mem, contains⟩ := lawful.registers.lookup_eq_some_iff.1 found
    refine .masks place mem (Array.mem_toList_iff.1 range_mem) contains ?_
    rw [← Register.Mask.permits_iff_includes, ← Register.Mask.permits_iff_includes,
      ← Bool.and_eq_true, Bool.not_eq_true]
    exact wrong

theorem checkDmaStreams_error (place : apps[i]? = some a)
    (failed : Verdict.eachAfter (App.checkDmaStream i a) [] a.dmaStreams = .error e) :
    t.BearsOut (.load o l apps) e := by
  obtain ⟨pre, s, post, parts, _, refused⟩ := Verdict.exists_of_eachAfter_eq_error failed
  have mem : s ∈ a.dmaStreams := by simp [parts]
  simp only [List.nil_append, App.checkDmaStream, Verdict.all_cons_eq_error,
    Verdict.all_nil_eq_error, Verdict.require_eq_error, Verdict.require_eq_ok, and_false,
    or_false] at refused
  have undeclared {label : String} (unknown : (a.blockLabelled? label).isSome = false) :
      ¬t.Declares apps a (.label label) := by
    rintro (_ | _ | ⟨known⟩)
    rw [App.blockLabelled?_isSome_iff.2 known] at unknown
    cases unknown
  rcases refused with ⟨again, rfl⟩ | ⟨_, ⟨source, rfl⟩ | ⟨_, destination, rfl⟩⟩
  · refine ⟨_, .part place, ?_⟩
    rw [App.names, parts, List.map_append, List.map_cons]
    exact two_le_count .label again
  · exact .part place (.source mem) (undeclared source)
  · exact .part place (.destination mem) (undeclared destination)

theorem check_app_error (lawful : t.Lawful) (place : apps[i]? = some a)
    (failed : App.check o (t.platform l) i apps.length a = .error e) :
    t.BearsOut (.load o l apps) e ∨ (Filling.load o l apps).Overstates e := by
  simp only [App.check, Verdict.all_cons_eq_error, Verdict.all_nil_eq_error, and_false,
    or_false] at failed
  rcases failed with identity | ⟨_, counts | ⟨_, targets | ⟨_, pirqs | ⟨_, blocks | ⟨_, registers |
    ⟨_, streams⟩⟩⟩⟩⟩⟩
  · exact Or.inl (checkIdentity_error place identity)
  · exact Or.inl (checkCounts_error place counts)
  · obtain ⟨target, mem, wrong⟩ := Verdict.exists_of_each_eq_error targets
    exact checkIpcTarget_error place mem wrong
  · exact Or.inl (checkPirqs_error place pirqs)
  · exact checkBlocks_error lawful place blocks
  · obtain ⟨g, mem, wrong⟩ := Verdict.exists_of_each_eq_error registers
    exact Or.inl (checkRegister_error lawful place mem wrong)
  · exact Or.inl (checkDmaStreams_error place streams)

theorem check_store_error (lawful : t.Lawful)
    (failed : Store.check o (t.platform l) apps = .error e) :
    t.BearsOut (.load o l apps) e ∨ (Filling.load o l apps).Overstates e := by
  simp only [Store.check, Verdict.all_cons_eq_error, Verdict.all_nil_eq_error, and_false,
    or_false] at failed
  rcases failed with many | ⟨_, each⟩
  · exact Or.inl (checkCount_error .apps many)
  · obtain ⟨pre, a, post, parts, _, refused⟩ := Verdict.exists_of_eachAfter_eq_error each
    have place : apps[pre.length]? = some a := by simp [parts]
    simp only [List.nil_append, Store.checkNext, Verdict.all_cons_eq_error,
      Verdict.all_nil_eq_error, Verdict.require_eq_error, and_false, or_false] at refused
    rcases refused with own | ⟨_, again, rfl⟩
    · exact check_app_error lawful place own
    · refine Or.inl ⟨_, .apps, ?_⟩
      rw [parts, List.map_append, List.map_cons]
      exact two_le_count .label again

/-- Whatever has filled the tables, and whatever is offered to them next: what an error says is so.
Its text goes beyond what is wrong in three cases only, that of a region whose length is no power of
two, of an application that names itself as a target, and of a kernel window without registers. -/
theorem errors_bear_out (steps : List Filling) (f : Filling) (e : ConfigError)
    (failed : (built steps).verdict f = .error e) :
    (built steps).BearsOut f e ∨ f.Overstates e := by
  have lawful := lawful_built steps
  cases f with
  | register l blocks => exact check_registry_error lawful (Registry.register_fst _ _ _ ▸ failed)
  | authorize l range => exact check_range_error (Register.Table.authorize_fst _ _ _ ▸ failed)
  | load o l apps => exact check_store_error lawful (Store.load_fst _ _ _ _ ▸ failed)
  | _ => cases failed

def timerReserved : List Filling :=
  [.register {} [⟨.authorized, ⟨0x40000000, 0x1000⟩⟩, ⟨.reserved, ⟨0x40000400, 0x20⟩⟩]]

/-- A driver that asks for all of the timer meets the reserved part. -/
theorem errors_bear_out_timer :
    (built timerReserved).verdict (.load {} {} [driver]) =
        .error (.overlap (.app 0 "driver" (.extraBlock "timer")) ⟨0x40000400, 0x400⟩
          ⟨0x40000400, 0x20⟩) ∧
      (Block.mk 0x40000400 0x400).Shares ⟨0x40000400, 0x20⟩ := by
  have failed : (built timerReserved).verdict (.load {} {} [driver]) =
      .error (.overlap (.app 0 "driver" (.extraBlock "timer")) ⟨0x40000400, 0x400⟩
        ⟨0x40000400, 0x20⟩) := by decide +kernel
  refine ⟨failed, ?_⟩
  rcases errors_bear_out _ _ _ failed with ⟨_, shared⟩ | overstated
  · exact shared
  · cases overstated

/-- A buffer of 768 bytes whose start is said to be no multiple of 1024. -/
def unevenBuffer : Filling :=
  .load {} { powerOfTwoRegions := true }
    [{ name := "a", priority := ⟨1⟩, quantum := 10, sharedBlocks := [⟨"b", ⟨0x20000000, 0x300⟩⟩] }]

def ownTarget : Filling :=
  .load {} {} [{ name := "a", priority := ⟨1⟩, quantum := 10, ipcTargets := [.app ⟨0⟩] }]

def emptyWindow : Filling :=
  .authorize { kernelRegisters := [⟨0x40000010, 0⟩] } ⟨0x40000000, 0x40000020, .all, .none⟩

/-- In each of the three cases the text can be wrong. -/
theorem errors_overstate :
    (∃ e, (built []).verdict unevenBuffer = .error e ∧ ¬(built []).BearsOut unevenBuffer e) ∧
      (∃ e, (built []).verdict ownTarget = .error e ∧ ¬(built []).BearsOut ownTarget e) ∧
      ∃ e, (built []).verdict emptyWindow = .error e ∧ ¬(built []).BearsOut emptyWindow e := by
  refine ⟨⟨.misaligned (.app 0 "a" (.sharedBuffer "b")) 0x20000000 0x400, by decide +kernel, ?_⟩,
    ⟨.unknownReference (.app 0 "a" .ipcTargets) (.app ⟨0⟩), by decide +kernel, ?_⟩,
    ⟨.outOfRange (.registerRange 0x40000000 0x40000020) (.kernelRegisters ⟨0x40000010, 0⟩),
      by decide +kernel, ?_⟩⟩
  · rintro ⟨_, odd⟩
    exact odd (by decide)
  · have declared : ∀ entry, ¬(built []).Misses ownTarget entry (.app ⟨0⟩) := by
      rintro entry ⟨_, _, undeclared⟩
      exact undeclared (.app (by decide))
    exact declared _
  · intro touched
    cases touched with
    | kernelRegisters _ _ shared =>
      obtain ⟨x, inside, _⟩ := shared
      have bounds : 0x40000010 ≤ x.toNat ∧ x.toNat < 0x40000010 :=
        Block.containsAddress_iff.1 inside
      omega

end Tables
end SeparationKernel
