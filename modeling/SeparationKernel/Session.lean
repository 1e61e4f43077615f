import SeparationKernel.Scheduler
import SeparationKernel.Session.Check

/-! Sessions. A session starts by filling the platform's tables, since descriptors are checked
against them, then the descriptor store, and then comes the check of the whole. The first fault ends
it. -/
namespace SeparationKernel

structure KernelConfig where
  options : Options := {}
  layout : Layout := {}
  registryBlocks : List RegistryBlock := []
  /-- How many of the blocks should be authorized ones. -/
  authorizedBlockCount : Option UInt32 := none
  registerRanges : List Register.Range := []
  /-- How many ranges there should be. -/
  registerRangeCount : Option UInt32 := none
  /-- How many registers the ranges should hold. -/
  registerCount : Option UInt32 := none
  apps : List App := []
deriving DecidableEq, Repr

structure Session where
  options : Options
  platform : Platform
  store : Store
deriving DecidableEq, Repr

namespace Session

def registryOf? (c : KernelConfig) : Except ConfigError Registry :=
  let filled := Registry.register {} c.layout c.registryBlocks
  filled.1.map fun _ => filled.2

def authorizeAll (l : Layout) (t : Register.Table) :
    List Register.Range → Except ConfigError Register.Table
  | [] => .ok t
  | r :: rs =>
    let extended := t.authorize l r
    extended.1.bind fun _ => authorizeAll l extended.2 rs

/-- The tables filled from a configuration, without any declared size. -/
def platform? (c : KernelConfig) : Except ConfigError Platform :=
  (registryOf? c).bind fun registry =>
    (authorizeAll c.layout {} c.registerRanges).map fun registers =>
      { layout := c.layout, registry, registers }

def declareCounts (c : KernelConfig) (p : Platform) : Platform :=
  { p with
    registry := { p.registry with declaredAuthorized := c.authorizedBlockCount }
    registers := { p.registers with
      declaredRanges := c.registerRangeCount
      declaredRegisters := c.registerCount } }

def store? (c : KernelConfig) (p : Platform) : Except ConfigError Store :=
  let loaded := Store.load {} c.options p c.apps
  loaded.1.map fun _ => loaded.2

def populate (c : KernelConfig) : Except ConfigError (Platform × Store) :=
  (platform? c).bind fun platform => (store? c platform).map fun store => (platform, store)

def start (c : KernelConfig) : Except FatalError Session :=
  c.options.check.bind fun _ =>
    ((populate c).mapError .config).bind fun (p, store) =>
      let platform := declareCounts c p
      (check c.options platform store).map fun _ => { options := c.options, platform, store }

def instantiateAll (s : Scheduler) : List Asid → Except SpawnError Scheduler
  | [] => .ok s
  | asid :: asids =>
    let made := s.instantiate asid
    made.1.bind fun _ => instantiateAll made.2 asids

def startAtBoot (s : Session) : List Asid :=
  (s.store.entries.filter (·.2.startAtBoot)).map (·.1)

/-- The scheduler at the start, with a process of every application that starts with the session. -/
def scheduler (s : Session) : Except SpawnError Scheduler :=
  (instantiateAll (.ofStore s.store s.options) s.startAtBoot).map (·.schedule)

/-- Both the application's own descriptor and the platform's table have to allow the access. -/
def permits (s : Session) (asid : Asid) (address : UInt32) (op : Access) (bits : UInt32) : Bool :=
  (((s.store.get? asid).bind (·.register? address)).any fun g => (g.mask op).permits bits) &&
    s.platform.registers.permits address op bits

end Session
end SeparationKernel
