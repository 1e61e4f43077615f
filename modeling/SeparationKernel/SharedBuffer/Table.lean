import SeparationKernel.SharedBuffer

/-! The shared buffers of a session. Their order is that of the applications and, for one
application, that of its declarations. -/
namespace SeparationKernel

/-- The place of a buffer in the table. -/
structure BufferId where
  number : UInt8
deriving DecidableEq, Repr

def BufferId.index (id : BufferId) : Nat := id.number.toNat

/-- An identifier has eight bits; the index of a buffer beyond them is cut off. -/
def BufferId.ofIndex (i : Nat) : BufferId := ⟨UInt8.ofNat i⟩

structure BufferTable where
  buffers : List SharedBuffer
  /-- Applications, its owner apart, that one buffer may ever be granted to. -/
  grantLimit : UInt32
  appCount : Nat
deriving DecidableEq, Repr

namespace BufferTable

/-- Every declared buffer, managed by its owner. -/
def ofStore (s : Store) (o : Options) : BufferTable where
  buffers := s.entries.flatMap fun (owner, app) =>
    app.sharedBlocks.map fun b => { owner, label := b.label, block := b.block, manager := owner }
  grantLimit := o.transferTargetMax
  appCount := s.size

def get? (t : BufferTable) (id : BufferId) : Option SharedBuffer := t.buffers[id.index]?

def find? (t : BufferTable) (owner : Asid) (label : String) : Option BufferId :=
  (t.buffers.findIdx? fun b => b.owner == owner && b.label == label).map .ofIndex

def credentials? (t : BufferTable) (id : BufferId) (asid : Asid) : Option Credentials :=
  (t.get? id).bind (·.credentials? asid)

def permits (t : BufferTable) (asid : Asid) (id : BufferId) (op : Access) : Bool :=
  (t.get? id).any (·.permits asid op)

def checkApp (t : BufferTable) (asid : Asid) : Verdict TransferError :=
  .require (decide (asid.index < t.appCount)) (.unknownApp asid)

def buffer (id : BufferId) : Attempt BufferTable TransferError SharedBuffer := do
  match (← get).get? id with
  | none => throw .unknownBuffer
  | some b => return b

def modifyBuffer (t : BufferTable) (id : BufferId) (f : SharedBuffer → SharedBuffer) :
    BufferTable :=
  { t with buffers := t.buffers.modify id.index f }

/-- Changes one buffer, if it exists and nothing speaks against it. -/
def amend (id : BufferId) (check : SharedBuffer → Verdict TransferError)
    (f : SharedBuffer → SharedBuffer) : Attempt BufferTable TransferError Unit := do
  let b ← buffer id
  Attempt.check fun _ => check b
  modify (·.modifyBuffer id f)

/-- Grants credentials at the request of the owner, or of a manager who may add them. -/
def addCredentials (t : BufferTable) (id : BufferId) (caller target : Asid)
    (credentials : Credentials) : Verdict TransferError × BufferTable :=
  Attempt.on (do
    Attempt.check (·.checkApp target)
    let limit := (← get).grantLimit
    let b ← buffer id
    Attempt.check fun _ => b.checkGrantable caller target
    if !b.reached.contains target then
      Attempt.check fun _ => b.checkRoom limit
      modify (·.modifyBuffer id (·.reach target))
    modify (·.modifyBuffer id (·.addGrant target credentials))) t

def resetCredentials (t : BufferTable) (id : BufferId) (caller : Asid) :
    Verdict TransferError × BufferTable :=
  (amend id (·.checkReset caller) (·.reset)).on t

/-- Hands the buffer on. Back to its owner it always may go. -/
def transfer (t : BufferTable) (id : BufferId) (source target : Asid) :
    Verdict TransferError × BufferTable :=
  Attempt.on (do
    Attempt.check (·.checkApp target)
    amend id (·.checkTransfer source target) (·.handTo target)) t

def change (t : BufferTable) (id : BufferId) (check : SharedBuffer → Verdict TransferError)
    (f : SharedBuffer → SharedBuffer) : Verdict TransferError × BufferTable :=
  match t.get? id with
  | none => (.error .unknownBuffer, t)
  | some b =>
    Verdict.commit (check b) t { t with buffers := t.buffers.set id.index (f b) }

theorem modifyBuffer_eq {t : BufferTable} {id : BufferId} {b : SharedBuffer}
    (found : t.get? id = some b) (f : SharedBuffer → SharedBuffer) :
    t.modifyBuffer id f = { t with buffers := t.buffers.set id.index (f b) } := by
  rw [modifyBuffer]
  congr 1
  ext1 j
  have lt := (List.getElem?_eq_some_iff.1 found).1
  rw [List.getElem?_modify, List.getElem?_set]
  by_cases here : id.index = j
  · subst here
    have at_id : t.buffers[id.index]? = some b := found
    simp only [at_id, lt, if_true, Option.map_eq_map, Option.map_some]
  · simp [here]

theorem modifyBuffer_modifyBuffer (t : BufferTable) (id : BufferId)
    (f g : SharedBuffer → SharedBuffer) :
    (t.modifyBuffer id f).modifyBuffer id g = t.modifyBuffer id (g ∘ f) := by
  simp [modifyBuffer, List.modify_modify_eq]

theorem on_buffer (t : BufferTable) (id : BufferId) :
    (buffer id).on t =
      match t.get? id with
      | none => (.error .unknownBuffer, t)
      | some b => (.ok b, t) := by
  rw [buffer, Attempt.on_get_bind]
  cases t.get? id <;> rfl

theorem on_amend (t : BufferTable) (id : BufferId) (check : SharedBuffer → Verdict TransferError)
    (f : SharedBuffer → SharedBuffer) : (amend id check f).on t = t.change id check f := by
  rw [amend, Attempt.on_bind, on_buffer, change]
  cases found : t.get? id with
  | none => rfl
  | some b =>
    simp only
    rw [Attempt.on_check_modify, modifyBuffer_eq found]

theorem resetCredentials_eq (t : BufferTable) (id : BufferId) (caller : Asid) :
    t.resetCredentials id caller = t.change id (·.checkReset caller) (·.reset) :=
  on_amend t id _ _

theorem transfer_eq (t : BufferTable) (id : BufferId) (source target : Asid) :
    t.transfer id source target =
      match t.checkApp target with
      | .error e => (.error e, t)
      | .ok () => t.change id (·.checkTransfer source target) (·.handTo target) := by
  rw [transfer, Attempt.on_bind, Attempt.on_check]
  cases t.checkApp target with
  | error e => rfl
  | ok => exact on_amend t id _ _

/-- Once the target is known to have been reached or to be one that can be, nothing speaks against
the grant. -/
theorem addCredentials_eq (t : BufferTable) (id : BufferId) (caller target : Asid)
    (credentials : Credentials) :
    t.addCredentials id caller target credentials =
      match t.checkApp target with
      | .error e => (.error e, t)
      | .ok () =>
        t.change id (·.checkGrant t.grantLimit caller target) (·.grant target credentials) := by
  rw [addCredentials, Attempt.on_bind, Attempt.on_check]
  cases t.checkApp target with
  | error e => rfl
  | ok =>
    simp only
    rw [Attempt.on_get_bind, Attempt.on_bind, on_buffer, change]
    cases found : t.get? id with
    | none => rfl
    | some b =>
      simp only
      rw [Attempt.on_bind, Attempt.on_check, SharedBuffer.checkGrant]
      cases b.checkGrantable caller target with
      | error e => rfl
      | ok =>
        cases known : b.reached.contains target with
        | true =>
          rw [SharedBuffer.grant_of_reached known]
          exact congrArg (Prod.mk _) (modifyBuffer_eq found _)
        | false =>
          rw [SharedBuffer.grant_of_new known]
          change Attempt.on (Attempt.check _ >>= _) t = _
          rw [Attempt.on_bind, Attempt.on_check]
          cases b.checkRoom t.grantLimit with
          | error e => rfl
          | ok =>
            have both := modifyBuffer_eq found fun b => (b.reach target).addGrant target credentials
            exact congrArg (Prod.mk _) ((modifyBuffer_modifyBuffer t id _ _).trans both)

/-- Every buffer lent to `asid` goes back to its owner. -/
def release (t : BufferTable) (asid : Asid) : BufferTable :=
  { t with buffers := t.buffers.map fun b => if b.isLentTo asid then b.reclaim else b }

def lentCount (t : BufferTable) (asid : Asid) : Nat := t.buffers.countP (·.isLentTo asid)

inductive Request where
  | addCredentials (id : BufferId) (caller target : Asid) (credentials : Credentials)
  | resetCredentials (id : BufferId) (caller : Asid)
  | transfer (id : BufferId) (source target : Asid)
  | release (asid : Asid)
deriving DecidableEq, Repr

/-- A release is never refused. -/
def perform (t : BufferTable) : Request → Verdict TransferError × BufferTable
  | .addCredentials id caller target credentials => t.addCredentials id caller target credentials
  | .resetCredentials id caller => t.resetCredentials id caller
  | .transfer id source target => t.transfer id source target
  | .release asid => (.ok (), t.release asid)

def run (t : BufferTable) (requests : List Request) : BufferTable :=
  requests.foldl (fun t r => (t.perform r).2) t

@[simp] theorem run_nil (t : BufferTable) : t.run [] = t := rfl

@[simp] theorem run_cons (t : BufferTable) (r : Request) (rs : List Request) :
    t.run (r :: rs) = (t.perform r).2.run rs := rfl

theorem run_append (t : BufferTable) (rs ss : List Request) :
    t.run (rs ++ ss) = (t.run rs).run ss := by
  simp [run]

end BufferTable
end SeparationKernel
