import Mathlib
import SeparationKernel.Proofs.Register.Table

/-! Blocks and register ranges byte by byte. A block is half open and a range names its last
register, so the span of a range ends four bytes after the address that the range ends with. In
whole words the two agree: the registers are the aligned addresses of the span, and the span is the
bytes of the registers. -/
namespace SeparationKernel
namespace Register

def word (a : UInt32) : Block := ⟨a, 4⟩

theorem limit_word (a : UInt32) : (word a).limit = a.toNat + 4 := rfl

theorem length_word_ne_zero (a : UInt32) : (word a).length.toNat ≠ 0 :=
  (by decide : (4 : UInt32).toNat ≠ 0)

theorem containsAddress_word_iff {a x : UInt32} :
    (word a).containsAddress x = true ↔ a.toNat ≤ x.toNat ∧ x.toNat < a.toNat + 4 :=
  Block.containsAddress_iff

namespace Range

variable {r : Range} {span : Block} {a x : UInt32}

theorem IsProper.contains_iff_span (h : r.IsProper) (found : r.span? = some span) :
    r.contains a = true ↔ a.toNat % 4 = 0 ∧ span.containsAddress a = true := by
  obtain ⟨start, limit, _, _⟩ := span?_eq_some_iff.1 found
  have last_aligned := h.last_aligned
  rw [contains_iff, Block.containsAddress_iff, start, limit]
  -- no multiple of four lies strictly between the last register and the limit
  omega

theorem IsProper.span_contains_word (h : r.IsProper) (found : r.span? = some span)
    (register : r.contains a = true) : span.contains (word a) = true := by
  obtain ⟨start, limit, _, _⟩ := span?_eq_some_iff.1 found
  obtain ⟨aligned, first_le, le_last⟩ := contains_iff.1 register
  have last_aligned := h.last_aligned
  refine Block.contains_iff.2 ⟨start ▸ first_le, ?_⟩
  rw [limit_word, limit]
  omega

theorem limit_word_le (found : r.span? = some span) (inside : span.contains (word a) = true) :
    (word a).limit ≤ UInt32.size := by
  obtain ⟨_, _, _, limit_lt⟩ := span?_eq_some_iff.1 found
  exact (Block.contains_iff.1 inside).2.trans limit_lt.le

/-- A byte of the span belongs to the register at the last multiple of four that is not after it. -/
theorem IsProper.exists_register (h : r.IsProper) (found : r.span? = some span)
    (inside : span.containsAddress x = true) :
    ∃ a, r.contains a = true ∧ (word a).containsAddress x = true := by
  obtain ⟨start, limit, _, _⟩ := span?_eq_some_iff.1 found
  have bounds := Block.containsAddress_iff.1 inside
  rw [start, limit] at bounds
  have first_aligned := h.first_aligned
  have last_aligned := h.last_aligned
  have x_lt := x.toNat_lt
  have place : (UInt32.ofNat (x.toNat - x.toNat % 4)).toNat = x.toNat - x.toNat % 4 :=
    UInt32.toNat_ofNat_of_lt' (by omega)
  refine ⟨UInt32.ofNat (x.toNat - x.toNat % 4), contains_iff.2 ?_, containsAddress_word_iff.2 ?_⟩
  · omega
  · omega

end Range
end Register

/-- What is asked of blocks and of register ranges is answered byte by byte, up to the very top of
the address space. The addresses in a block are counted from its start. Two blocks that are not
empty overlap exactly if they share an address; and one that is not empty and ends within the
address space is contained exactly if all its addresses are. A range has a span exactly if it is
not inverted and ends below the top. If it is one of whole words, the registers are the aligned
addresses of the span; each register has its four bytes there, and the span has no others. -/
theorem predicates_bytewise :
    (∀ (b : Block) (x : UInt32), b.containsAddress x = true ↔
        ∃ i < b.length.toNat, x.toNat = b.start.toNat + i) ∧
      (∀ a b : Block, a.length.toNat ≠ 0 → b.length.toNat ≠ 0 →
        (a.overlaps b = true ↔ a.Shares b)) ∧
      (∀ a b : Block, b.length.toNat ≠ 0 → b.limit ≤ UInt32.size →
        (a.contains b = true ↔ b.Within a)) ∧
      (∀ r : Register.Range, r.span?.isSome = true ↔
        r.first.toNat ≤ r.last.toNat ∧ r.last.toNat + 4 < UInt32.size) ∧
      ∀ (r : Register.Range) (span : Block), r.first.toNat % 4 = 0 → r.last.toNat % 4 = 0 →
        r.span? = some span →
          (∀ a, r.contains a = true ↔ a.toNat % 4 = 0 ∧ span.containsAddress a = true) ∧
          (∀ a, r.contains a = true →
            (Register.word a).limit ≤ UInt32.size ∧ (Register.word a).Within span) ∧
          ∀ x, span.containsAddress x = true →
            ∃ a, r.contains a = true ∧ (Register.word a).containsAddress x = true := by
  refine ⟨fun b x => Block.containsAddress_iff_exists,
    fun a b a_nonempty b_nonempty => Block.overlaps_iff_shares a_nonempty b_nonempty,
    fun a b nonempty fits => Block.contains_iff_within nonempty fits,
    fun r => Register.Range.span?_isSome_iff, ?_⟩
  intro r span first_aligned last_aligned found
  have proper := Register.Range.isProper_of_span first_aligned last_aligned found
  refine ⟨fun a => proper.contains_iff_span found, fun a register => ?_,
    fun x inside => proper.exists_register found inside⟩
  have inside := proper.span_contains_word found register
  have fits := Register.Range.limit_word_le found inside
  exact ⟨fits, (Block.contains_iff_within (Register.length_word_ne_zero a) fits).1 inside⟩

/-- Two blocks that reach the top of the address space, and the last registers that have a span:
with the one after them there is none. -/
theorem predicates_bytewise_top :
    let system : Block := ⟨0xE0000000, 0x20000000⟩
    let page : Block := ⟨0xFFFFFF00, 0x100⟩
    let registers : Register.Range := ⟨0xFFFFFFF0, 0xFFFFFFF8, .all, .none⟩
    (page.limit = UInt32.size ∧ system.Shares page ∧ page.Within system) ∧
      registers.span? = some ⟨0xFFFFFFF0, 12⟩ ∧ registers.contains 0xFFFFFFFC = false ∧
      (Register.word 0xFFFFFFF8).Within ⟨0xFFFFFFF0, 12⟩ ∧
      { registers with last := 0xFFFFFFFC }.span?.isSome = false := by
  intro system page registers
  obtain ⟨_, overlap, contain, spanned, ranges⟩ := predicates_bytewise
  have spans : registers.span? = some ⟨0xFFFFFFF0, 12⟩ := by decide
  obtain ⟨registers_iff, words, _⟩ := ranges registers _ (by decide) (by decide) spans
  refine ⟨⟨by decide, ?_, ?_⟩, spans, ?_, ?_, ?_⟩
  · exact (overlap system page (by decide) (by decide)).1 (by decide)
  · exact (contain system page (by decide) (by decide)).1 (by decide)
  · rw [← Bool.not_eq_true, registers_iff]
    decide
  · exact (words 0xFFFFFFF8 (by decide)).2
  · rw [← Bool.not_eq_true, spanned]
    decide

end SeparationKernel
