import SeparationKernel.SharedBuffer.Credentials
import SeparationKernel.Store

/-! Shared buffers and how they are handed around. A buffer starts out managed by its owner. It can
be handed to an application that holds credentials on it, and grants outlive transfers. Only the
owner clears them, and only while it manages the buffer; what the buffer has reached it has reached
for good. -/
namespace SeparationKernel

inductive TransferError where
  | unknownBuffer
  | unknownApp (asid : Asid)
  | notManager (asid : Asid)
  | notOwner (asid : Asid)
  | missingCredentials (asid : Asid) (needed : Credentials)
  | notGranted (asid : Asid)
  | alreadyGranted (asid : Asid)
  | fixedCredentials (asid : Asid)
  | inUse (manager : Asid)
  | selfTransfer
  | targetLimit (limit : UInt32)
deriving DecidableEq, Repr

def TransferError.message : TransferError → String
  | .unknownBuffer => "no such shared buffer"
  | .unknownApp asid => "no ukApp descriptor with " ++ asid.text
  | .notManager asid => asid.text ++ " does not currently manage the buffer"
  | .notOwner asid => asid.text ++ " does not own the buffer"
  | .missingCredentials asid needed =>
    asid.text ++ " lacks the " ++ needed.text ++ " credentials on the buffer"
  | .notGranted asid => asid.text ++ " holds no credentials on the buffer"
  | .alreadyGranted asid => asid.text ++ " already holds credentials on the buffer"
  | .fixedCredentials asid =>
    "credentials of " ++ asid.text ++ ", owner or manager of the buffer, are fixed"
  | .inUse manager => "buffer is still managed by " ++ manager.text
  | .selfTransfer => "a buffer cannot be transferred to its current manager"
  | .targetLimit limit =>
    "buffer has already been granted to " ++ toString limit.toNat ++ " distinct ukApps"

structure SharedBuffer where
  owner : Asid
  label : String
  block : Block
  manager : Asid
  /-- Who holds which credentials, in the order of the grants. -/
  grants : List (Asid × Credentials) := []
  /-- Everyone who ever held credentials, each once. -/
  reached : List Asid := []
deriving DecidableEq, Repr

namespace SharedBuffer

/-- The owner holds every right. -/
def credentials? (b : SharedBuffer) (asid : Asid) : Option Credentials :=
  if asid = b.owner then some .all else b.grants.lookup asid

def holds (b : SharedBuffer) (asid : Asid) (needed : Credentials) : Bool :=
  (b.credentials? asid).any (·.contains needed)

def neededFor : Access → Credentials
  | .read => { read := true }
  | .write => { write := true }

/-- The owner always reaches the contents; anyone else only while managing the buffer. -/
def permits (b : SharedBuffer) (asid : Asid) (op : Access) : Bool :=
  b.owner == asid || (b.manager == asid && b.holds asid (neededFor op))

def checkManager (b : SharedBuffer) (asid : Asid) (needed : Credentials) : Verdict TransferError :=
  .all [
    .require (b.manager == asid) (.notManager asid),
    .require (b.holds asid needed) (.missingCredentials asid needed)]

/-- What is asked of a grant whether or not `target` has been reached before. -/
def checkGrantable (b : SharedBuffer) (caller target : Asid) : Verdict TransferError :=
  .all [
    if caller = b.owner then .ok () else b.checkManager caller { addCredentials := true },
    .require (target != b.owner && target != b.manager) (.fixedCredentials target),
    .require (b.grants.lookup target).isNone (.alreadyGranted target)]

def checkRoom (b : SharedBuffer) (limit : UInt32) : Verdict TransferError :=
  .require (decide (b.reached.length < limit.toNat)) (.targetLimit limit)

def checkGrant (b : SharedBuffer) (limit : UInt32) (caller target : Asid) : Verdict TransferError :=
  (b.checkGrantable caller target).andThen
    (if b.reached.contains target then .ok () else b.checkRoom limit)

def reach (b : SharedBuffer) (target : Asid) : SharedBuffer :=
  { b with reached := b.reached ++ [target] }

def addGrant (b : SharedBuffer) (target : Asid) (credentials : Credentials) : SharedBuffer :=
  { b with grants := b.grants ++ [(target, credentials)] }

def grant (b : SharedBuffer) (target : Asid) (credentials : Credentials) : SharedBuffer :=
  { b with
    grants := b.grants ++ [(target, credentials)]
    reached := if b.reached.contains target then b.reached else b.reached ++ [target] }

theorem grant_of_reached {b : SharedBuffer} {target : Asid}
    (known : b.reached.contains target = true) (credentials : Credentials) :
    b.grant target credentials = b.addGrant target credentials := by
  rw [grant, known]
  rfl

theorem grant_of_new {b : SharedBuffer} {target : Asid}
    (new : b.reached.contains target = false) (credentials : Credentials) :
    b.grant target credentials = (b.reach target).addGrant target credentials := by
  rw [grant, new]
  rfl

def checkReset (b : SharedBuffer) (caller : Asid) : Verdict TransferError :=
  .all [
    .require (caller == b.owner) (.notOwner caller),
    .require (b.manager == b.owner) (.inUse b.manager)]

def reset (b : SharedBuffer) : SharedBuffer := { b with grants := [] }

def checkTransfer (b : SharedBuffer) (source target : Asid) : Verdict TransferError :=
  .all [
    .require (b.manager == source) (.notManager source),
    .require (target != source) .selfTransfer,
    if target = b.owner then .ok ()
    else .all [
      b.checkManager source { transfer := true },
      .require (b.credentials? target).isSome (.notGranted target)]]

def handTo (b : SharedBuffer) (target : Asid) : SharedBuffer := { b with manager := target }

def isLentTo (b : SharedBuffer) (asid : Asid) : Bool := b.manager == asid && b.owner != asid

/-- Back with the owner, and no grants left. -/
def reclaim (b : SharedBuffer) : SharedBuffer := { b with manager := b.owner, grants := [] }

end SharedBuffer
end SeparationKernel
