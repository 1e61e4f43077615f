import SeparationKernel.Text.Hex

/-! Blocks of the 32-bit address space. Bounds are compared in the natural numbers, where the end of
a block that reaches the top of the address space is an ordinary number. -/
namespace SeparationKernel

/-- The `length` bytes from `start` on. -/
structure Block where
  start : UInt32
  length : UInt32
deriving DecidableEq, Repr

namespace Block

/-- The address after the last byte. -/
def limit (b : Block) : Nat := b.start.toNat + b.length.toNat

/-- The limit as an address, if it is one. -/
def end? (b : Block) : Option UInt32 :=
  if b.limit < UInt32.size then some (UInt32.ofNat b.limit) else none

/-- Not empty, and the limit is still an address. -/
def isWellFormed (b : Block) : Bool := b.length.toNat != 0 && decide (b.limit < UInt32.size)

def containsAddress (b : Block) (address : UInt32) : Bool :=
  decide (b.start.toNat ≤ address.toNat) && decide (address.toNat < b.limit)

/-- The other block starts and ends inside. -/
def contains (b other : Block) : Bool :=
  decide (b.start.toNat ≤ other.start.toNat) && decide (other.limit ≤ b.limit)

/-- Each block starts before the other ends. -/
def overlaps (a b : Block) : Bool :=
  decide (a.start.toNat < b.limit) && decide (b.start.toNat < a.limit)

def isAlignedTo (b : Block) (align : UInt32) : Bool :=
  align.toNat != 0 && b.start.toNat % align.toNat == 0 && b.length.toNat % align.toNat == 0

def powersOfTwo : List Nat := (List.range 32).map (Nat.pow 2)

/-- The length is a power of two and the start a multiple of it. -/
def isNaturallyAligned (b : Block) : Bool :=
  powersOfTwo.contains b.length.toNat && b.start.toNat % b.length.toNat == 0

/-- The least power of two that is no shorter than the block, or zero if no word holds it. -/
def naturalAlignment (b : Block) : UInt32 :=
  UInt32.ofNat ((powersOfTwo.find? (b.length.toNat ≤ ·)).getD 0)

def text (b : Block) : String :=
  "[" ++ Text.hexWord b.start ++ ", +" ++ Text.hex b.length.toNat ++ ")"

@[simp] theorem isWellFormed_iff {b : Block} :
    b.isWellFormed = true ↔ b.length.toNat ≠ 0 ∧ b.limit < UInt32.size := by
  simp [isWellFormed]

@[simp] theorem containsAddress_iff {b : Block} {a : UInt32} :
    b.containsAddress a = true ↔ b.start.toNat ≤ a.toNat ∧ a.toNat < b.limit := by
  simp [containsAddress]

@[simp] theorem contains_iff {a b : Block} :
    a.contains b = true ↔ a.start.toNat ≤ b.start.toNat ∧ b.limit ≤ a.limit := by
  simp [contains]

@[simp] theorem overlaps_iff {a b : Block} :
    a.overlaps b = true ↔ a.start.toNat < b.limit ∧ b.start.toNat < a.limit := by
  simp [overlaps]

theorem overlaps_comm (a b : Block) : a.overlaps b = b.overlaps a := by
  rw [Bool.eq_iff_iff, overlaps_iff, overlaps_iff, and_comm]

theorem end?_eq_some_iff {b : Block} {a : UInt32} : b.end? = some a ↔ b.limit = a.toNat := by
  have ha := a.toNat_lt
  have size : UInt32.size = 4294967296 := rfl
  unfold end?
  split
  · rename_i h
    rw [Option.some.injEq, ← UInt32.toNat_inj, UInt32.toNat_ofNat_of_lt' h]
  · rename_i h
    simp
    omega

theorem end?_isSome_iff {b : Block} : b.end?.isSome = true ↔ b.limit < UInt32.size := by
  unfold end?
  split <;> simp_all

end Block
end SeparationKernel
