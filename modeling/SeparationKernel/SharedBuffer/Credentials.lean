/-! Rights on a shared buffer that an application other than its owner may be granted. They take
effect while that application manages the buffer. -/
namespace SeparationKernel

structure Credentials where
  read : Bool := false
  write : Bool := false
  /-- May grant credentials to further applications. -/
  addCredentials : Bool := false
  /-- May hand the buffer to another application that holds credentials. -/
  transfer : Bool := false
deriving DecidableEq, Repr

namespace Credentials

def all : Credentials := ⟨true, true, true, true⟩

def contains (c needed : Credentials) : Bool :=
  (!needed.read || c.read) && (!needed.write || c.write) &&
    (!needed.addCredentials || c.addCredentials) && (!needed.transfer || c.transfer)

/-- Bit 0 reads, 1 writes, 2 adds credentials, 3 transfers. -/
def ofBits (bits : UInt8) : Credentials where
  read := bits.toNat.testBit 0
  write := bits.toNat.testBit 1
  addCredentials := bits.toNat.testBit 2
  transfer := bits.toNat.testBit 3

def bits (c : Credentials) : UInt8 :=
  (if c.read then 1 else 0) + (if c.write then 2 else 0) + (if c.addCredentials then 4 else 0) +
    (if c.transfer then 8 else 0)

def names (c : Credentials) : List String :=
  (if c.read then ["READ"] else []) ++ (if c.write then ["WRITE"] else []) ++
    (if c.addCredentials then ["ADD_CREDENTIALS"] else []) ++
    (if c.transfer then ["TRANSFER"] else [])

def text (c : Credentials) : String :=
  "Credentials(" ++ (if c.names.isEmpty then "0x0" else " | ".intercalate c.names) ++ ")"

@[simp] theorem contains_all (c : Credentials) : all.contains c = true := by
  simp [contains, all]

@[simp] theorem ofBits_bits (c : Credentials) : ofBits c.bits = c := by
  obtain ⟨r, w, a, t⟩ := c
  cases r <;> cases w <;> cases a <;> cases t <;> decide

end Credentials
end SeparationKernel
