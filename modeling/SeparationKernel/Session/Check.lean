import SeparationKernel.Options.Check
import SeparationKernel.Store

/-! Checks that need the whole session: budgets summed over all applications, the sizes that the
platform is said to have, and once more the references from descriptors into the platform's tables.
-/
namespace SeparationKernel.Session

def checkDeclaredLimit (name : String) (declared : Option UInt32) (max : Nat) :
    Verdict FatalError :=
  match declared with
  | none => .ok ()
  | some count => .require (decide (count.toNat ≤ max)) (.option name count.toNat 0 max)

def checkDeclaredCount (declared : Option UInt32) (actual : Nat)
    (fault : Nat → Nat → FatalError) : Verdict FatalError :=
  match declared with
  | none => .ok ()
  | some count => .require (count.toNat == actual) (fault count.toNat actual)

def checkDeclared (p : Platform) : Verdict FatalError :=
  .all [
    checkDeclaredLimit "authorized-block-count" p.registry.declaredAuthorized 32,
    checkDeclaredLimit "register-range-count" p.registers.declaredRanges 64,
    checkDeclaredLimit "register-count" p.registers.declaredRegisters 2048,
    checkDeclaredCount p.registry.declaredAuthorized p.registry.authorizedCount
      .authorizedBlockCount,
    checkDeclaredCount p.registers.declaredRanges p.registers.ranges.size .registerRangeCount,
    checkDeclaredCount p.registers.declaredRegisters p.registers.registerCount.toNat
      .registerCount]

def total {α : Type} (s : Store) (entries : App → List α) : Nat :=
  (s.apps.map fun a => (entries a).length).foldr (· + ·) 0

def checkBudgets (o : Options) (s : Store) : Verdict FatalError :=
  let buffers := total s (·.sharedBlocks)
  let streams := total s (·.dmaStreams)
  let lines := total s (·.pirqs)
  .all [
    .require (decide (s.size ≤ o.processCountMax.toNat))
      (.processSlots s.size o.processCountMax.toNat),
    .require (decide (buffers ≤ o.sharedBufferCountMax.toNat))
      (.sharedBufferBudget buffers o.sharedBufferCountMax.toNat),
    .require (decide (streams ≤ o.dmaInstanceCountMax.toNat))
      (.dmaBudget streams o.dmaInstanceCountMax.toNat),
    .require (decide (lines ≤ o.pirqSupportedCount.toNat))
      (.pirqBudget lines o.pirqSupportedCount.toNat)]

/-- The extra block still lies inside an authorized block. -/
def checkExtraBlock (p : Platform) (asid : Asid) (b : App.ExtraBlock) : Verdict FatalError :=
  .require (p.registry.authorizedParent? b.block).isSome
    (.config (.outOfRange (.loaded asid (.extraBlock b.label)) .noLongerAuthorized))

def checkRegister (p : Platform) (asid : Asid) (g : App.RegisterGrant) : Verdict FatalError :=
  .require (p.registers.lookup g.address).isSome
    (.config (.unknownReference (.loaded asid .registers) (.register g.address)))

def checkReferences (p : Platform) (s : Store) : Verdict FatalError :=
  .each (fun (asid, app) =>
      .all [
        .each (checkExtraBlock p asid) app.extraBlocks,
        .each (checkRegister p asid) app.registers])
    s.entries

/-- The options, the platform and the store describe a session that can run. -/
def check (o : Options) (p : Platform) (s : Store) : Verdict FatalError :=
  .all [o.check, checkBudgets o s, checkDeclared p, checkReferences p s]

end SeparationKernel.Session
