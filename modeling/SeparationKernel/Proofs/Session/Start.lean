import Mathlib
import SeparationKernel.Proofs.Registry
import SeparationKernel.Proofs.Store.Acceptance
import SeparationKernel.Session

/-! What is known of a session that has started: every table took all that the configuration offers,
under the configuration's own options and layout, and then the whole passed its check. -/
namespace SeparationKernel

section Except

variable {α β ε ε' : Type} {x : Except ε α}

theorem bind_eq_ok {f : α → Except ε β} {b : β} :
    x.bind f = .ok b ↔ ∃ a, x = .ok a ∧ f a = .ok b := by
  cases x <;> simp [Except.bind]

theorem map_eq_ok {f : α → β} {b : β} : x.map f = .ok b ↔ ∃ a, x = .ok a ∧ f a = b := by
  cases x <;> simp [Except.map]

theorem mapError_eq_ok {f : ε → ε'} {a : α} : x.mapError f = .ok a ↔ x = .ok a := by
  cases x <;> simp [Except.mapError]

end Except

namespace Session

variable {c : KernelConfig} {p : Platform} {session : Session}

theorem registryOf?_eq_ok {r : Registry} :
    registryOf? c = .ok r ↔
      Registry.check {} c.layout c.registryBlocks = .ok () ∧ r = { blocks := c.registryBlocks } := by
  rw [registryOf?, map_eq_ok]
  constructor
  · rintro ⟨⟨⟩, accepted, rfl⟩
    rw [Registry.register_fst] at accepted
    rw [Registry.register_of_ok accepted]
    exact ⟨accepted, rfl⟩
  · rintro ⟨accepted, rfl⟩
    rw [Registry.register_of_ok accepted]
    exact ⟨(), rfl, rfl⟩

theorem store?_eq_ok {s : Store} :
    store? c p = .ok s ↔ Store.Accepts c.options p c.apps ∧ s = ⟨c.apps⟩ := by
  rw [store?, map_eq_ok]
  constructor
  · rintro ⟨⟨⟩, accepted, rfl⟩
    have acceptable := Store.load_eq_ok_iff.1 accepted
    exact ⟨acceptable, Store.load_of_accepts acceptable⟩
  · rintro ⟨acceptable, rfl⟩
    exact ⟨(), Store.load_eq_ok_iff.2 acceptable, Store.load_of_accepts acceptable⟩

theorem accepts_declareCounts {o : Options} {apps : List App} :
    Store.Accepts o (declareCounts c p) apps ↔ Store.Accepts o p apps := by
  rw [← Store.check_eq_ok_iff, ← Store.check_eq_ok_iff]
  exact Iff.rfl

/-- The platform has the tables that the configuration fills, and no declared size yet. Its
descriptors are acceptable there. -/
structure Fills (c : KernelConfig) (p : Platform) : Prop where
  layout : p.layout = c.layout
  registry : p.registry = { blocks := c.registryBlocks }
  registers : authorizeAll c.layout {} c.registerRanges = .ok p.registers
  registered : Registry.check {} c.layout c.registryBlocks = .ok ()
  accepts : Store.Accepts c.options p c.apps

theorem populate_eq_ok_iff {store : Store} :
    populate c = .ok (p, store) ↔ Fills c p ∧ store = ⟨c.apps⟩ := by
  constructor
  · intro populated
    obtain ⟨platform, tables, loaded⟩ := bind_eq_ok.1 populated
    obtain ⟨registry, filled, ranges⟩ := bind_eq_ok.1 tables
    obtain ⟨registers, authorized, rfl⟩ := map_eq_ok.1 ranges
    obtain ⟨store, accepted, same⟩ := map_eq_ok.1 loaded
    obtain ⟨rfl, rfl⟩ := Prod.mk.inj same
    obtain ⟨registered, rfl⟩ := registryOf?_eq_ok.1 filled
    obtain ⟨accepts, rfl⟩ := store?_eq_ok.1 accepted
    exact ⟨⟨rfl, rfl, authorized, registered, accepts⟩, rfl⟩
  · obtain ⟨layout, registry, registers⟩ := p
    rintro ⟨⟨rfl, rfl, authorized, registered, accepts⟩, rfl⟩
    have filled : platform? c = .ok ⟨c.layout, { blocks := c.registryBlocks }, registers⟩ :=
      bind_eq_ok.2 ⟨_, registryOf?_eq_ok.2 ⟨registered, rfl⟩, map_eq_ok.2 ⟨_, authorized, rfl⟩⟩
    exact bind_eq_ok.2 ⟨_, filled, map_eq_ok.2 ⟨_, store?_eq_ok.2 ⟨accepts, rfl⟩, rfl⟩⟩

/-- The tables are filled first, and then the whole has to pass its check. -/
theorem start_eq_ok_iff_fills :
    start c = .ok session ↔ ∃ p, Fills c p ∧
      session = { options := c.options, platform := declareCounts c p, store := ⟨c.apps⟩ } ∧
      c.options.check = .ok () ∧ check c.options (declareCounts c p) ⟨c.apps⟩ = .ok () := by
  constructor
  · intro started
    obtain ⟨_, supported, populated⟩ := bind_eq_ok.1 started
    obtain ⟨⟨p, store⟩, filled, checked⟩ := bind_eq_ok.1 populated
    obtain ⟨_, passed, rfl⟩ := map_eq_ok.1 checked
    obtain ⟨fills, rfl⟩ := populate_eq_ok_iff.1 (mapError_eq_ok.1 filled)
    exact ⟨p, fills, rfl, supported, passed⟩
  · rintro ⟨p, fills, rfl, supported, passed⟩
    have populated : populate c = .ok (p, ⟨c.apps⟩) := populate_eq_ok_iff.2 ⟨fills, rfl⟩
    exact bind_eq_ok.2 ⟨(), supported, bind_eq_ok.2
      ⟨_, mapError_eq_ok.2 populated, map_eq_ok.2 ⟨(), passed, rfl⟩⟩⟩

structure StartedFrom (session : Session) (c : KernelConfig) : Prop where
  options : session.options = c.options
  apps : session.store = ⟨c.apps⟩
  /-- All of its tables are as the configuration fills them. -/
  platform : ∃ registers, authorizeAll c.layout {} c.registerRanges = .ok registers ∧
    session.platform = declareCounts c
      { layout := c.layout, registry := { blocks := c.registryBlocks }, registers }
  supported : c.options.check = .ok ()
  /-- The registry took all blocks at once, and the store all descriptors. -/
  registered : Registry.check {} c.layout c.registryBlocks = .ok ()
  accepts : Store.Accepts c.options session.platform c.apps
  checked : check c.options session.platform session.store = .ok ()

theorem start_eq_ok_iff : start c = .ok session ↔ session.StartedFrom c := by
  rw [start_eq_ok_iff_fills]
  constructor
  · rintro ⟨⟨layout, registry, registers⟩, fills, rfl, supported, passed⟩
    obtain ⟨rfl, rfl, authorized, registered, accepts⟩ := fills
    exact {
      options := rfl
      apps := rfl
      platform := ⟨registers, authorized, rfl⟩
      supported
      registered
      accepts := accepts_declareCounts.2 accepts
      checked := passed }
  · obtain ⟨options, platform, store⟩ := session
    rintro ⟨rfl, rfl, ⟨registers, authorized, rfl⟩, supported, registered, accepts, checked⟩
    exact ⟨_, ⟨rfl, rfl, authorized, registered, accepts_declareCounts.1 accepts⟩, rfl, supported,
      checked⟩

namespace StartedFrom

theorem layout (h : session.StartedFrom c) : session.platform.layout = c.layout := by
  obtain ⟨_, _, same⟩ := h.platform
  rw [same]
  rfl

theorem blocks (h : session.StartedFrom c) :
    session.platform.registry.blocks = c.registryBlocks := by
  obtain ⟨_, _, same⟩ := h.platform
  rw [same]
  rfl

theorem lawful_registry (h : session.StartedFrom c) : session.platform.registry.Lawful := by
  obtain ⟨each, suits⟩ := Registry.lawful_empty.check_eq_ok.1 h.registered
  exact ⟨fun b mem => (each b (h.blocks ▸ mem)).isProper, h.blocks ▸ suits⟩

theorem admits (h : session.StartedFrom c) {b : RegistryBlock}
    (mem : b ∈ session.platform.registry.blocks) :
    Registry.Admits session.platform.layout b.block := by
  rw [h.layout]
  exact (Registry.lawful_empty.check_eq_ok.1 h.registered).1 b (h.blocks ▸ mem)

theorem isAcceptable (h : session.StartedFrom c) {app : App} (mem : app ∈ session.store.apps) :
    ∃ index, app.IsAcceptable c.options session.platform index session.store.apps.length := by
  rw [h.apps] at mem ⊢
  obtain ⟨index, at_index⟩ := List.mem_iff_getElem?.1 mem
  exact ⟨index, h.accepts.acceptable index app at_index⟩

end StartedFrom
end Session
end SeparationKernel
