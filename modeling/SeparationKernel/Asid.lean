/-! Applications by their number, and whom one may send messages to. -/
namespace SeparationKernel

/-- The place of an application in the descriptor store. -/
structure Asid where
  number : UInt8
deriving DecidableEq, Repr

namespace Asid

def index (a : Asid) : Nat := a.number.toNat

/-- An identifier has eight bits; the index of an entry beyond them is cut off. -/
def ofIndex (i : Nat) : Asid := ⟨UInt8.ofNat i⟩

def text (a : Asid) : String := "ASID " ++ toString a.index

@[simp] theorem index_ofIndex (i : Nat) : (ofIndex i).index = i % 256 := by
  simp [index, ofIndex]

theorem index_ofIndex_of_lt {i : Nat} (h : i < 256) : (ofIndex i).index = i := by
  rw [index_ofIndex, Nat.mod_eq_of_lt h]

@[simp] theorem ofIndex_index (a : Asid) : ofIndex a.index = a := by
  simp [index, ofIndex]

theorem index_lt (a : Asid) : a.index < 256 := a.number.toNat_lt

theorem index_inj {a b : Asid} : a.index = b.index ↔ a = b := by
  cases a; cases b; simp [index, UInt8.toNat_inj]

end Asid

inductive IpcTarget where
  | app (asid : Asid)
  | any
deriving DecidableEq, Repr

def IpcTarget.admits (t : IpcTarget) (asid : Asid) : Bool :=
  match t with
  | .any => true
  | .app a => a == asid

end SeparationKernel
