import Mathlib
import SeparationKernel.Proofs.Register.Table

/-! Registers bit by bit. What applications write to a register stays within the write mask of the
range that holds it, and what they see of it within the read mask. -/
namespace SeparationKernel.Register

/-- A request to give some bits of a register the bits of a value. -/
structure Write where
  bits : UInt32
  value : UInt32
deriving DecidableEq, Repr

def bit (v : UInt32) (i : Nat) : Bool := v.toNat.testBit i

theorem bit_eq_getLsbD (v : UInt32) (i : Nat) : bit v i = v.toBitVec.getLsbD i :=
  BitVec.testBit_toNat _

theorem ext_bit {v w : UInt32} (same : ∀ i, bit v i = bit w i) : v = w :=
  UInt32.toNat_inj.1 (Nat.eq_of_testBit_eq same)

theorem bit_and (v w : UInt32) (i : Nat) : bit (v &&& w) i = (bit v i && bit w i) := by
  simp only [bit_eq_getLsbD, UInt32.toBitVec_and, BitVec.getLsbD_and]

theorem bit_merge (current bits value : UInt32) (i : Nat) :
    bit (current &&& ~~~bits ||| value &&& bits) i =
      if bit bits i then bit value i else bit current i := by
  simp only [bit_eq_getLsbD, UInt32.toBitVec_or, UInt32.toBitVec_and, UInt32.toBitVec_not,
    BitVec.getLsbD_or, BitVec.getLsbD_and, BitVec.getLsbD_not]
  by_cases lt : i < 32
  · cases bits.toBitVec.getLsbD i <;> simp [lt]
  · have beyond : ∀ v : UInt32, v.toBitVec.getLsbD i = false := fun v =>
      BitVec.getLsbD_of_ge _ _ (Nat.le_of_not_lt lt)
    simp [beyond]

namespace Table

/-- The range that holds the register has all bits of the request in its write mask. -/
def Admits (t : Table) (a : UInt32) (w : Write) : Prop :=
  ∃ r ∈ t.ranges, r.contains a = true ∧ r.writeMask.Includes w.bits

/-- The request is permitted, and is about bit `i` among others. -/
def Sets (t : Table) (a : UInt32) (i : Nat) (w : Write) : Prop := t.Admits a w ∧ bit w.bits i = true

/-- What a register holds after a request. One that is refused leaves it as it is. -/
def store (t : Table) (a current : UInt32) (w : Write) : UInt32 :=
  (t.writeValue a w.bits current w.value).getD current

def storeAll (t : Table) (a initial : UInt32) (ws : List Write) : UInt32 :=
  ws.foldl (t.store a) initial

variable {t : Table} {a current initial : UInt32} {w v : Write} {i : Nat}

theorem storeAll_append (t : Table) (a initial : UInt32) (ws vs : List Write) :
    t.storeAll a initial (ws ++ vs) = t.storeAll a (t.storeAll a initial ws) vs :=
  List.foldl_append

theorem Lawful.permits_write_iff (h : t.Lawful) :
    t.permits a .write w.bits = true ↔ t.Admits a w := by
  simp only [h.permits_iff, Range.mask_write, Array.mem_toList_iff, Admits]

theorem Lawful.writeValue_isSome_iff (h : t.Lawful) :
    (t.writeValue a w.bits current w.value).isSome = true ↔ t.Admits a w := by
  rw [← h.permits_write_iff, writeValue]
  split <;> simp_all

theorem Lawful.bit_store_of_sets (h : t.Lawful) (sets : t.Sets a i w) :
    bit (t.store a current w) i = bit w.value i := by
  rw [store, writeValue, if_pos (h.permits_write_iff.2 sets.1), Option.getD_some, bit_merge,
    if_pos sets.2]

theorem Lawful.bit_store_of_not_sets (h : t.Lawful) (other : ¬t.Sets a i w) :
    bit (t.store a current w) i = bit current i := by
  rw [store, writeValue]
  split
  · rename_i permitted
    have out : ¬bit w.bits i = true := fun held => other ⟨h.permits_write_iff.1 permitted, held⟩
    rw [Option.getD_some, bit_merge, if_neg out]
  · rfl

theorem Lawful.bit_storeAll_of_none (h : t.Lawful) {ws : List Write}
    (others : ∀ w ∈ ws, ¬t.Sets a i w) : bit (t.storeAll a initial ws) i = bit initial i := by
  induction ws generalizing initial with
  | nil => rfl
  | cons w ws ih =>
    obtain ⟨here, later⟩ := List.forall_mem_cons.1 others
    exact (ih later).trans (h.bit_store_of_not_sets here)

/-- The last request that is permitted and includes the bit decides on it. -/
theorem Lawful.bit_storeAll_of_last (h : t.Lawful) {pre post : List Write} (sets : t.Sets a i w)
    (last : ∀ v ∈ post, ¬t.Sets a i v) :
    bit (t.storeAll a initial (pre ++ w :: post)) i = bit w.value i := by
  rw [storeAll_append]
  exact (h.bit_storeAll_of_none last).trans (h.bit_store_of_sets sets)

theorem not_sets_of_not_masked
    (outside : ∀ r ∈ t.ranges, r.contains a = true → bit r.writeMask.bits i = false) :
    ¬t.Sets a i w := by
  rintro ⟨⟨r, mem, contains, included⟩, held⟩
  have masked : bit r.writeMask.bits i = true := included i held
  rw [outside r mem contains] at masked
  cases masked

/-- Requests about different bits do not interfere. -/
theorem Lawful.store_comm (h : t.Lawful) (w_admitted : t.Admits a w) (v_admitted : t.Admits a v)
    (disjoint : w.bits &&& v.bits = 0) :
    t.store a (t.store a current w) v = t.store a (t.store a current v) w := by
  refine ext_bit fun i => ?_
  have apart : ¬(bit w.bits i = true ∧ bit v.bits i = true) := by
    rintro ⟨held, held'⟩
    have both := bit_and w.bits v.bits i
    rw [disjoint, held, held'] at both
    simp [bit] at both
  by_cases held : bit w.bits i = true
  · have v_other : ¬t.Sets a i v := fun sets => apart ⟨held, sets.2⟩
    rw [h.bit_store_of_not_sets v_other, h.bit_store_of_sets ⟨w_admitted, held⟩,
      h.bit_store_of_sets ⟨w_admitted, held⟩]
  · have w_other : ¬t.Sets a i w := fun sets => held sets.2
    rw [h.bit_store_of_not_sets w_other]
    by_cases held' : bit v.bits i = true
    · rw [h.bit_store_of_sets ⟨v_admitted, held'⟩, h.bit_store_of_sets ⟨v_admitted, held'⟩]
    · have v_other : ¬t.Sets a i v := fun sets => held' sets.2
      rw [h.bit_store_of_not_sets v_other, h.bit_store_of_not_sets v_other,
        h.bit_store_of_not_sets w_other]

theorem Lawful.readValue_congr (h : t.Lawful) {raw raw' : UInt32}
    (agree : ∀ r ∈ t.ranges, r.contains a = true →
      raw &&& r.readMask.bits = raw' &&& r.readMask.bits)
    (bits : UInt32) : t.readValue a bits raw = t.readValue a bits raw' := by
  rw [readValue, readValue]
  split
  · rename_i permitted
    obtain ⟨r, mem, contains, included⟩ := h.permits_iff.1 permitted
    have same := agree r (Array.mem_toList_iff.1 mem) contains
    refine congrArg some (ext_bit fun i => ?_)
    rw [bit_and, bit_and]
    cases held : bit bits i with
    | false => rw [Bool.and_false, Bool.and_false]
    | true =>
      have masked : bit r.readMask.bits i = true := included i held
      have seen := congrArg (bit · i) same
      simpa only [bit_and, masked, Bool.and_true] using seen
  · rfl

/-- Whatever ranges have been offered to a table, and whatever is asked of a register: writes are
permitted as far as the write mask of its range goes. A bit outside the mask keeps its value, and
each other bit has the one that the last permitted write to it gave it. Permitted writes to
different bits can change places. Of a register that is read, only bits in the read mask are seen.
-/
theorem masked_access_confined (offers : List (Layout × Range)) (a : UInt32) :
    (∀ w current, ((built offers).writeValue a w.bits current w.value).isSome = true ↔
        (built offers).Admits a w) ∧
      (∀ initial ws i,
        (∀ r ∈ (built offers).ranges, r.contains a = true → bit r.writeMask.bits i = false) →
          bit ((built offers).storeAll a initial ws) i = bit initial i) ∧
      (∀ initial ws i, (∀ w ∈ ws, ¬(built offers).Sets a i w) →
        bit ((built offers).storeAll a initial ws) i = bit initial i) ∧
      (∀ initial pre w post i, (built offers).Sets a i w →
        (∀ v ∈ post, ¬(built offers).Sets a i v) →
          bit ((built offers).storeAll a initial (pre ++ w :: post)) i = bit w.value i) ∧
      (∀ initial w v, (built offers).Admits a w → (built offers).Admits a v →
        w.bits &&& v.bits = 0 →
          (built offers).storeAll a initial [w, v] = (built offers).storeAll a initial [v, w]) ∧
      ∀ raw raw', (∀ r ∈ (built offers).ranges, r.contains a = true →
          raw &&& r.readMask.bits = raw' &&& r.readMask.bits) →
        ∀ bits, (built offers).readValue a bits raw = (built offers).readValue a bits raw' := by
  have h : (built offers).Lawful := lawful_empty.after offers
  refine ⟨fun w current => h.writeValue_isSome_iff, fun initial ws i outside => ?_,
    fun initial ws i others => h.bit_storeAll_of_none others,
    fun initial pre w post i sets last => h.bit_storeAll_of_last sets last,
    fun initial w v w_admitted v_admitted disjoint =>
      h.store_comm w_admitted v_admitted disjoint,
    fun raw raw' agree bits => h.readValue_congr agree bits⟩
  exact h.bit_storeAll_of_none fun w _ => not_sets_of_not_masked outside

def octet : List (Layout × Range) := [({}, ⟨0x40000000, 0x40000000, .all, ⟨0xFF⟩⟩)]

/-- Of the requests to a register the first one may not write the bits it asks for. Bit 9 stays what
it is, bit 1 is as the second request has it, and the last two can change places. -/
theorem masked_access_confined_octet :
    let t := built octet
    let wide : Write := ⟨0xFFF, 0⟩
    let low : Write := ⟨0x0F, 0x3⟩
    let high : Write := ⟨0xF0, 0xA0⟩
    ¬t.Admits 0x40000000 wide ∧
      bit (t.storeAll 0x40000000 0x1200 [wide, low, high]) 9 = true ∧
      bit (t.storeAll 0x40000000 0x1200 ([wide] ++ low :: [high])) 1 = true ∧
      t.storeAll 0x40000000 0x1200 [low, high] = t.storeAll 0x40000000 0x1200 [high, low] := by
  intro t wide low high
  obtain ⟨admits, confined, _, last, swap, _⟩ := masked_access_confined octet 0x40000000
  have low_admitted : t.Admits 0x40000000 low := (admits low 0).1 (by decide +kernel)
  have high_admitted : t.Admits 0x40000000 high := (admits high 0).1 (by decide +kernel)
  have ranges : t.ranges = #[⟨0x40000000, 0x40000000, .all, ⟨0xFF⟩⟩] := by decide +kernel
  refine ⟨fun wide_admitted => ?_, ?_, ?_, ?_⟩
  · have granted := (admits wide 0).2 wide_admitted
    revert granted
    decide +kernel
  · have masked : ∀ r ∈ t.ranges, r.contains 0x40000000 = true →
        bit r.writeMask.bits 9 = false := by
      rw [ranges]
      decide
    exact (confined 0x1200 _ 9 masked).trans (by decide)
  · have outside : ∀ v ∈ [high], ¬t.Sets 0x40000000 1 v := by
      rintro v mem ⟨_, held⟩
      obtain rfl := List.mem_singleton.1 mem
      exact absurd held (by decide)
    exact (last 0x1200 _ low _ 1 ⟨low_admitted, by decide⟩ outside).trans (by decide)
  · exact swap 0x1200 low high low_admitted high_admitted (by decide)

end Table
end SeparationKernel.Register
