import SeparationKernel.Process

/-! The process table. It has a fixed number of slots. A slot is used again after its process has
terminated, and its generation tells the two processes apart. -/
namespace SeparationKernel

structure Slot where
  /-- How often the slot was used again, modulo 256. -/
  generation : UInt8 := 0
  occupant : Option Process := none
deriving DecidableEq, Repr

namespace Slot

/-- Never used, or left by a process that has terminated. -/
def isFree (s : Slot) : Bool := s.occupant.all (·.isTerminated)

def nextGeneration (s : Slot) : UInt8 :=
  if s.occupant.isSome then s.generation + 1 else s.generation

def isDue (s : Slot) (now : Timestamp) : Bool := s.occupant.any (·.isDue now)

def isBlocked (s : Slot) : Bool := s.occupant.any (·.isBlocked)

def expire (s : Slot) (place : Nat) : Slot := { s with occupant := s.occupant.map (·.expire place) }

end Slot

/-- The one found so far, unless the next one precedes it. -/
def Process.preferred (best : Option (Nat × Process)) (c : Nat × Process) :
    Option (Nat × Process) :=
  match best with
  | none => some c
  | some b => if c.2.precedes b.2 then some c else some b

/-- The element that goes first: none precedes it, and it stands before all others that none
precedes. -/
def Process.foremost (cs : List (Nat × Process)) : Option (Nat × Process) := cs.foldl preferred none

structure ProcessTable where
  slots : List Slot := []
deriving DecidableEq, Repr

namespace ProcessTable

def ofSize (n : Nat) : ProcessTable := ⟨List.replicate n {}⟩

/-- The process in a slot, terminated or not. -/
def get? (t : ProcessTable) (i : Nat) : Option Process := t.slots[i]?.bind (·.occupant)

def modify (t : ProcessTable) (i : Nat) (f : Process → Process) : ProcessTable :=
  ⟨t.slots.modify i fun s => { s with occupant := s.occupant.map f }⟩

def occupied (t : ProcessTable) : List (Nat × Process) :=
  t.slots.zipIdx.filterMap fun (s, i) => s.occupant.map (i, ·)

def live (t : ProcessTable) : List Process :=
  (t.slots.filterMap (·.occupant)).filter (!·.isTerminated)

/-- The process that an identifier names, terminated or not. -/
def find? (t : ProcessTable) (id : ProcessId) : Option Process :=
  (t.get? id.index).filter (·.id == id)

def live? (t : ProcessTable) (id : ProcessId) : Option Process :=
  (t.find? id).filter (!·.isTerminated)

def ofApp? (t : ProcessTable) (asid : Asid) : Option Process := t.live.find? (·.asid == asid)

def freeSlot? (t : ProcessTable) : Option Nat := t.slots.findIdx? (·.isFree)

def nextId (t : ProcessTable) (i : Nat) : ProcessId where
  slot := UInt8.ofNat i
  generation := (t.slots[i]?.map (·.nextGeneration)).getD 0

/-- A slot is about to be used, perhaps again. -/
def renew (t : ProcessTable) (i : Nat) : ProcessTable :=
  ⟨t.slots.modify i fun s => { s with generation := s.nextGeneration }⟩

def idAt (t : ProcessTable) (i : Nat) : ProcessId where
  slot := UInt8.ofNat i
  generation := (t.slots[i]?.map (·.generation)).getD 0

def occupy (t : ProcessTable) (i : Nat) (p : Process) : ProcessTable :=
  ⟨t.slots.modify i fun s => { s with occupant := some p }⟩

def install (t : ProcessTable) (i : Nat) (p : Process) : ProcessTable :=
  ⟨t.slots.set i { generation := p.id.generation, occupant := some p }⟩

/-- The process that goes first among those eligible, with its slot. -/
def elect (t : ProcessTable) (eligible : Nat → Process → Bool) : Option (Nat × Process) :=
  Process.foremost (t.occupied.filter fun (i, p) => eligible i p)

/-- Every slot in which a process can be elected, in the order of repeated elections that leave out
the slots found before. -/
def ranking (t : ProcessTable) (eligible : Nat → Process → Bool) : List (Nat × Process) :=
  go t.slots.length []
where
  go : Nat → List Nat → List (Nat × Process)
    | 0, _ => []
    | n + 1, found =>
      match t.elect fun i p => eligible i p && !found.contains i with
      | none => []
      | some (i, p) => (i, p) :: go n (i :: found)

/-- Acts on the deadlines that have come by `now`. Processes that become ready queue up from
`place` on, in slot order. The number is the next place after. -/
def wakeSlots (now : Timestamp) (place : Nat) : List Slot → List Slot × Nat
  | [] => ([], place)
  | s :: ss =>
    if s.isDue now then
      let rest := wakeSlots now (if s.isBlocked then place + 1 else place) ss
      (s.expire place :: rest.1, rest.2)
    else
      let rest := wakeSlots now place ss
      (s :: rest.1, rest.2)

def wakeExpired (t : ProcessTable) (now : Timestamp) (place : Nat) : ProcessTable × Nat :=
  let woken := wakeSlots now place t.slots
  (⟨woken.1⟩, woken.2)

@[simp] theorem get?_ofSize (n i : Nat) : (ofSize n).get? i = none := by
  simp only [get?, ofSize, List.getElem?_replicate]
  split <;> rfl

@[simp] theorem length_slots_modify (t : ProcessTable) (i : Nat) (f : Process → Process) :
    (t.modify i f).slots.length = t.slots.length := by
  simp [modify]

theorem get?_modify (t : ProcessTable) (i j : Nat) (f : Process → Process) :
    (t.modify i f).get? j = if i = j then (t.get? j).map f else t.get? j := by
  simp only [get?, modify, List.getElem?_modify]
  split <;> cases t.slots[j]? <;> simp

@[simp] theorem length_slots_install (t : ProcessTable) (i : Nat) (p : Process) :
    (t.install i p).slots.length = t.slots.length := by
  simp [install]

theorem get?_install (t : ProcessTable) {i : Nat} (p : Process) (j : Nat)
    (h : i < t.slots.length) :
    (t.install i p).get? j = if i = j then some p else t.get? j := by
  simp only [get?, install, List.getElem?_set]
  split <;> simp_all

theorem idAt_renew (t : ProcessTable) (i : Nat) : (t.renew i).idAt i = t.nextId i := by
  simp [idAt, renew, nextId, Function.comp_def]

theorem occupy_renew (t : ProcessTable) {i : Nat} {p : Process} (named : p.id = t.nextId i) :
    (t.renew i).occupy i p = t.install i p := by
  rw [occupy, renew, install, named, nextId]
  congr 1
  ext1 j
  simp only [List.getElem?_modify, List.getElem?_set]
  by_cases here : i = j
  · subst here
    cases at_i : t.slots[i]? with
    | none => simpa using at_i
    | some slot => simp [(List.getElem?_eq_some_iff.1 at_i).1]
  · simp [here]

@[simp] theorem length_wakeSlots (now : Timestamp) (place : Nat) (ss : List Slot) :
    (wakeSlots now place ss).1.length = ss.length := by
  induction ss generalizing place with
  | nil => rfl
  | cons s ss ih => rw [wakeSlots]; split <;> simp [ih]

@[simp] theorem length_slots_wakeExpired (t : ProcessTable) (now : Timestamp) (place : Nat) :
    (t.wakeExpired now place).1.slots.length = t.slots.length := by
  simp [wakeExpired]

end ProcessTable
end SeparationKernel
