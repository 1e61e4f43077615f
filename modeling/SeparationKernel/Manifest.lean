import SeparationKernel.Session

/-! Manifests: what the configuration file of an image says. Applications name each other in it;
names are resolved when the kernel's configuration is made from it. Everything else is left to the
start of the session. -/
namespace SeparationKernel

namespace Manifest

/-- An application as the file describes it. -/
structure Entry where
  /-- Without its targets. -/
  app : App
  /-- The names of its targets, or a star for any. -/
  sendsTo : List String
deriving DecidableEq, Repr

def similarityLimit : Nat := 3

/-- Fewer edits away, or as many and earlier in the order of texts. -/
def isCloser (a b : Nat × String) : Bool := a.1 < b.1 || (a.1 == b.1 && a.2 < b.2)

def closest? (distance : String → String → Nat) (names : List String) (name : String) :
    Option String :=
  let scored := names.filterMap fun other =>
    if distance name other ≤ similarityLimit then some (distance name other, other) else none
  (scored.foldl (fun best s =>
    match best with
    | none => some s
    | some b => if isCloser s b then some s else some b) none).map (·.2)

inductive NameError where
  | unknown (name : String) (known : List String)
  | pastLast (name : String)
deriving DecidableEq, Repr

def NameError.message (distance : String → String → Nat) : NameError → String
  | .unknown name known =>
    "'" ++ name ++ "' is not a valid ukApp name." ++
      match closest? distance known name with
      | none => ""
      | some other => " Did you mean '" ++ other ++ "'?"
  | .pastLast name => "ukApp '" ++ name ++ "' is past the last ASID"

/-- A name that was not resolved, and the application that uses it. -/
structure TargetError where
  app : String
  error : NameError
deriving DecidableEq, Repr

def TargetError.messages (distance : String → String → Nat) (e : TargetError) : List String :=
  ["ukApp '" ++ e.app ++ "'", "resolving ipc-send-to", e.error.message distance]

end Manifest

structure Manifest where
  name : String
  options : Options := {}
  layout : Layout := {}
  registryBlocks : List RegistryBlock := []
  authorizedBlockCount : Option UInt32 := none
  registerRanges : List Register.Range := []
  registerRangeCount : Option UInt32 := none
  registerCount : Option UInt32 := none
  /-- In the order of the file, with distinct names. -/
  apps : List Manifest.Entry := []
deriving DecidableEq, Repr

namespace Manifest

def appNames (m : Manifest) : List String := m.apps.map (·.app.name)

def unknownName (m : Manifest) (name : String) : NameError := .unknown name m.appNames

def asid (m : Manifest) (name : String) : Except NameError Asid :=
  match m.appNames.idxOf? name with
  | none => .error (m.unknownName name)
  | some i => if i < 256 then .ok (.ofIndex i) else .error (.pastLast name)

/-- A star stands for any application, even if one has it for its name. -/
def target (m : Manifest) (name : String) : Except NameError IpcTarget :=
  if name = "*" then .ok .any else (m.asid name).map .app

def lowerEntry (m : Manifest) (e : Entry) : Except TargetError App :=
  match e.sendsTo.mapM m.target with
  | .ok ipcTargets => .ok { e.app with ipcTargets }
  | .error error => .error { app := e.app.name, error }

def kernelConfig (m : Manifest) : Except TargetError KernelConfig :=
  (m.apps.mapM m.lowerEntry).map fun apps =>
    { options := m.options
      layout := m.layout
      registryBlocks := m.registryBlocks
      authorizedBlockCount := m.authorizedBlockCount
      registerRanges := m.registerRanges
      registerRangeCount := m.registerRangeCount
      registerCount := m.registerCount
      apps }

end Manifest
end SeparationKernel
