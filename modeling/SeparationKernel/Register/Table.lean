import SeparationKernel.Attempt
import SeparationKernel.Layout
import SeparationKernel.Register.Range

/-! The register access table. Applications touch privileged registers only through the kernel,
which asks this table. The ranges are kept sorted and apart, so a search by halves finds the only
one that can hold an address, and a new range has to be compared with its two neighbours only. -/
namespace SeparationKernel.Register

/-- The end of the leading part of `xs` between `lo` and `hi` on which `p` holds, found by halving.
-/
def partitionBetween {α : Type} (p : α → Bool) (xs : Array α) (lo hi : Nat) : Nat :=
  if _h : lo < hi then
    let mid := (lo + hi) / 2
    match xs[mid]? with
    | some x =>
      if p x then partitionBetween p xs (mid + 1) hi else partitionBetween p xs lo mid
    | none => partitionBetween p xs lo mid
  else lo
termination_by hi - lo

def partitionPoint {α : Type} (p : α → Bool) (xs : Array α) : Nat :=
  partitionBetween p xs 0 xs.size

structure Table where
  /-- Sorted by first address, no two sharing a byte. -/
  ranges : Array Range := #[]
  /-- How many registers the platform is said to have. -/
  declaredRegisters : Option UInt32 := none
  /-- How many ranges the platform is said to have. -/
  declaredRanges : Option UInt32 := none
deriving DecidableEq, Repr

namespace Table

def place (t : Table) (address : UInt32) : Nat :=
  partitionPoint (·.first.toNat < address.toNat) t.ranges

def neighbours (t : Table) (i : Nat) : List Range :=
  (if i = 0 then [] else t.ranges[i - 1]?.toList) ++ t.ranges[i]?.toList

def entry (r : Range) : ConfigEntry := .registerRange r.first r.last

def misalignedValue (r : Range) : UInt32 :=
  if r.first.toNat % 4 != 0 then r.first else r.last

def checkSpan (l : Layout) (r : Range) (span : Block) : Verdict ConfigError :=
  .all [
    .require (l.registerSpaces.any (·.contains span))
      (.outOfRange (entry r) .outsideRegisterSpaces),
    .each (fun k => .require (!k.overlaps span) (.outOfRange (entry r) (.kernelRegisters k)))
      l.kernelRegisters]

def checkNeighbours (t : Table) (r : Range) (span : Block) : Verdict ConfigError :=
  .each (fun other => .require (!other.overlaps span) (.overlap (entry r) span other))
    ((t.neighbours (t.place r.first)).filterMap (·.span?))

def check (t : Table) (l : Layout) (r : Range) : Verdict ConfigError :=
  Verdict.andThen
    (.require (r.first.toNat % 4 == 0 && r.last.toNat % 4 == 0)
      (.misaligned (entry r) (misalignedValue r) 4))
    (match r.span? with
    | none => .error (.outOfRange (entry r) .inverted)
    | some span => Verdict.andThen (checkSpan l r span) (t.checkNeighbours r span))

def insert (t : Table) (r : Range) : Table :=
  { t with ranges := t.ranges.insertIdxIfInBounds (t.place r.first) r }

/-- Adds a range, unless something speaks against it. -/
def authorize (t : Table) (l : Layout) (r : Range) : Verdict ConfigError × Table :=
  Attempt.on (do
    Attempt.check (·.check l r)
    modify (·.insert r)) t

def declareRegisters (t : Table) (count : UInt32) : Table :=
  { t with declaredRegisters := some count }

def declareRanges (t : Table) (count : UInt32) : Table :=
  { t with declaredRanges := some count }

/-- The range that holds the register. Only a word-aligned address names one. -/
def lookup (t : Table) (address : UInt32) : Option Range :=
  if address.toNat % 4 = 0 then
    match partitionPoint (·.first.toNat ≤ address.toNat) t.ranges with
    | 0 => none
    | i + 1 => t.ranges[i]?.filter (·.contains address)
  else none

def permits (t : Table) (address : UInt32) (op : Access) (bits : UInt32) : Bool :=
  (t.lookup address).any fun r => (r.mask op).permits bits

/-- What is seen of a register that holds `raw`, if it may be read. -/
def readValue (t : Table) (address bits raw : UInt32) : Option UInt32 :=
  if t.permits address .read bits then some (raw &&& bits) else none

/-- What to store in a register that holds `current`, if it may be written. Other bits stay. -/
def writeValue (t : Table) (address bits current value : UInt32) : Option UInt32 :=
  if t.permits address .write bits then some (current &&& ~~~bits ||| value &&& bits) else none

def registerCount (t : Table) : UInt32 := (t.ranges.toList.map (·.count)).foldr (· + ·) 0

theorem authorize_eq (t : Table) (l : Layout) (r : Range) :
    t.authorize l r = Verdict.commit (t.check l r) t (t.insert r) :=
  Attempt.on_check_modify _ _ t

@[simp] theorem authorize_fst (t : Table) (l : Layout) (r : Range) :
    (t.authorize l r).1 = t.check l r := by
  rw [authorize_eq, Verdict.commit_fst]

end Table
end SeparationKernel.Register
