import Mathlib
import SeparationKernel.Proofs.Session.RegisterAccess

/-! The order in which a platform lists its blocks and ranges, and how it groups them, make no
difference to the sessions that start. Checks take the entries one by one, each with those before
it, but what they ask of a pair is the same both ways. -/
namespace SeparationKernel
namespace Registry

variable {r r' : Registry} {l : Layout} {batch batch' : List RegistryBlock} {b : Block}

/-- Pairs are compatible both ways, so the order of a batch does not matter. -/
theorem check_perm (perm : batch.Perm batch') :
    r.check l batch = .ok () ↔ r.check l batch' = .ok () := by
  have symm : ∀ {a b : RegistryBlock}, b.isCompatible a = true → a.isCompatible b = true :=
    fun compatible => (RegistryBlock.isCompatible_comm _ _).trans compatible
  rw [check_eq_ok_iff, check_eq_ok_iff, perm.pairwise_iff symm]
  simp only [perm.mem_iff]

/-- A batch after another is checked as the rest of one batch is. -/
theorem check_append (r : Registry) (l : Layout) (batch batch' : List RegistryBlock) :
    r.check l (batch ++ batch') = .ok () ↔
      r.check l batch = .ok () ∧
        check { r with blocks := r.blocks ++ batch } l batch' = .ok () := by
  simp only [check_eq_ok_iff, List.pairwise_append, List.forall_mem_append]
  constructor
  · rintro ⟨⟨first, second⟩, apart, apart', across⟩
    exact ⟨⟨first, apart⟩, fun b mem => ⟨(second b mem).1, (second b mem).2, fun old old_mem =>
      across old old_mem b mem⟩, apart'⟩
  · rintro ⟨⟨first, apart⟩, second, apart'⟩
    exact ⟨⟨first, fun b mem => ⟨(second b mem).1, (second b mem).2.1⟩⟩, apart, apart',
      fun old old_mem b mem => (second b mem).2.2 old old_mem⟩

/-- The registries have the same blocks, in any order. -/
def Permutes (r r' : Registry) : Prop := r.blocks.Perm r'.blocks

theorem Permutes.authorizedBlocks (same : r.Permutes r') :
    r.authorizedBlocks.Perm r'.authorizedBlocks := (same.filter _).map _

theorem Permutes.reservedBlocks (same : r.Permutes r') :
    r.reservedBlocks.Perm r'.reservedBlocks := (same.filter _).map _

theorem Lawful.authorizedParent?_eq (h : r.Lawful) (same : r.Permutes r')
    (nonempty : b.length.toNat ≠ 0) : r.authorizedParent? b = r'.authorizedParent? b := by
  refine List.find?_eq_find?_of_perm same.authorizedBlocks ?_
  rintro outer ⟨mem, around⟩ outer' ⟨mem', around'⟩
  by_contra other
  have symm : Std.Symm fun a b : Block => ¬a.Shares b := ⟨fun _ _ apart both => apart both.symm⟩
  have bounds := Block.contains_iff.1 around
  have bounds' := Block.contains_iff.1 around'
  have limit_eq : b.limit = b.start.toNat + b.length.toNat := rfl
  exact h.authorized_apart.forall mem mem' other ⟨b.start, Block.containsAddress_iff.2 (by omega),
    Block.containsAddress_iff.2 (by omega)⟩

theorem Permutes.isSome_reservedOverlapping? (same : r.Permutes r') (b : Block) :
    (r.reservedOverlapping? b).isSome = (r'.reservedOverlapping? b).isSome := by
  rw [Bool.eq_iff_iff, reservedOverlapping?, reservedOverlapping?, List.find?_isSome,
    List.find?_isSome]
  simp only [same.reservedBlocks.mem_iff]

end Registry

theorem App.IsAcceptable.of_permutes {app : App} {o : Options} {p : Platform} {index count : Nat}
    (h : app.IsAcceptable o p index count) {r : Registry} (same : p.registry.Permutes r) :
    app.IsAcceptable o { p with registry := r } index count :=
  { h with
    authorized := fun b mem => by
      obtain ⟨outer, outer_mem, within⟩ := h.authorized b mem
      exact ⟨outer, same.authorizedBlocks.mem_iff.1 outer_mem, within⟩
    clear := fun b mem kept kept_mem => h.clear b mem kept (same.reservedBlocks.mem_iff.2 kept_mem) }

def KernelConfig.relisted (c : KernelConfig) (blocks : List RegistryBlock)
    (ranges : List Register.Range) : KernelConfig :=
  { c with registryBlocks := blocks, registerRanges := ranges }

namespace Session

variable {c : KernelConfig} {p : Platform} {session : Session}

/-- The sessions answer alike whatever they are asked about their platform and their applications,
but for which of several reserved blocks meets a block. -/
structure AnswersAlike (s s' : Session) : Prop where
  options : s.options = s'.options
  store : s.store = s'.store
  registers : s.platform.registers = s'.platform.registers
  authorizedParent? : ∀ b : Block, b.length.toNat ≠ 0 →
    s.platform.registry.authorizedParent? b = s'.platform.registry.authorizedParent? b
  reservedOverlapping? : ∀ b, (s.platform.registry.reservedOverlapping? b).isSome =
    (s'.platform.registry.reservedOverlapping? b).isSome
  permits : ∀ asid a op bits, s.permits asid a op bits = s'.permits asid a op bits

theorem Fills.check_eq_ok_iff (fills : Fills c p) :
    check c.options (declareCounts c p) ⟨c.apps⟩ = .ok () ↔
      c.options.check = .ok () ∧ checkBudgets c.options ⟨c.apps⟩ = .ok () ∧
        checkDeclared (declareCounts c p) = .ok () := by
  simp only [check, Verdict.all_cons_eq_ok, Verdict.all_nil_eq_ok, and_true,
    fills.checkReferences_eq_ok]

theorem checkDeclared_of_permutes {r : Registry} (same : p.registry.Permutes r)
    (declared : p.registry.declaredAuthorized = r.declaredAuthorized) :
    checkDeclared { p with registry := r } = checkDeclared p := by
  have count : r.authorizedCount = p.registry.authorizedCount :=
    same.authorizedBlocks.length_eq.symm
  simp only [checkDeclared, declared, count]

variable {blocks : List RegistryBlock} {ranges : List Register.Range}

theorem Fills.relisted (fills : Fills c p) (blocks_perm : blocks.Perm c.registryBlocks)
    (ranges_perm : ranges.Perm c.registerRanges) :
    Fills (c.relisted blocks ranges) { p with registry := { blocks } } where
  layout := fills.layout
  registry := rfl
  registers := (authorizeAll_perm Register.Table.lawful_empty ranges_perm).2 fills.registers
  registered := (Registry.check_perm blocks_perm).2 fills.registered
  accepts :=
    have same : p.registry.Permutes { blocks } := by
      rw [fills.registry]
      exact blocks_perm.symm
    { length_le := fills.accepts.length_le
      nodup_names := fills.accepts.nodup_names
      acceptable := fun i app at_i => (fills.accepts.acceptable i app at_i).of_permutes same }

theorem start_relisted (started : start c = .ok session)
    (blocks_perm : blocks.Perm c.registryBlocks) (ranges_perm : ranges.Perm c.registerRanges) :
    ∃ session', start (c.relisted blocks ranges) = .ok session' ∧ session.AnswersAlike session' := by
  have lawful := (start_eq_ok_iff.1 started).lawful_registry
  obtain ⟨p, fills, rfl, supported, passed⟩ := start_eq_ok_iff_fills.1 started
  obtain ⟨_, budgets, declared⟩ := fills.check_eq_ok_iff.1 passed
  have same : (declareCounts c p).registry.Permutes
      { blocks, declaredAuthorized := c.authorizedBlockCount } := by
    show p.registry.blocks.Perm blocks
    rw [fills.registry]
    exact blocks_perm.symm
  have fills' := fills.relisted blocks_perm ranges_perm
  have passed' := fills'.check_eq_ok_iff.2
    ⟨supported, budgets, (checkDeclared_of_permutes same rfl).trans declared⟩
  refine ⟨_, start_eq_ok_iff_fills.2 ⟨_, fills', rfl, supported, passed'⟩, {
      options := rfl
      store := rfl
      registers := rfl
      authorizedParent? := fun b nonempty => lawful.authorizedParent?_eq same nonempty
      reservedOverlapping? := same.isSome_reservedOverlapping?
      permits := fun _ _ _ _ => rfl }⟩

/-- A platform's blocks and ranges may be listed in any order: a session starts from all of them or
from none, and the sessions that start answer alike. And whatever a registry holds, two batches one
after the other are taken just as the one batch of all their blocks, which leaves the same registry.
-/
theorem platform_order_irrelevant :
    (∀ (c : KernelConfig) blocks ranges, blocks.Perm c.registryBlocks →
        ranges.Perm c.registerRanges →
        ((∃ session, start c = .ok session) ↔
          ∃ session, start (c.relisted blocks ranges) = .ok session) ∧
        ∀ session session', start c = .ok session →
          start (c.relisted blocks ranges) = .ok session' → session.AnswersAlike session') ∧
      ∀ (r : Registry) l batch batch',
        ((r.register l (batch ++ batch')).1 = .ok () ↔
          (r.register l batch).1 = .ok () ∧
            ((r.register l batch).2.register l batch').1 = .ok ()) ∧
        ((r.register l (batch ++ batch')).1 = .ok () →
          (r.register l (batch ++ batch')).2 = ((r.register l batch).2.register l batch').2) := by
  constructor
  · intro c blocks ranges blocks_perm ranges_perm
    refine ⟨⟨?_, ?_⟩, fun session session' started started' => ?_⟩
    · rintro ⟨session, started⟩
      obtain ⟨session', started', _⟩ := start_relisted started blocks_perm ranges_perm
      exact ⟨session', started'⟩
    · rintro ⟨session', started'⟩
      -- the first listing is one of the second
      obtain ⟨session, started, _⟩ := start_relisted started' blocks_perm.symm ranges_perm.symm
      exact ⟨session, started⟩
    · obtain ⟨other, started_other, alike⟩ := start_relisted started blocks_perm ranges_perm
      obtain rfl := Except.ok.inj (started'.symm.trans started_other)
      exact alike
  · intro r l batch batch'
    simp only [Registry.register_fst]
    by_cases first : r.check l batch = .ok ()
    · rw [Registry.check_append, Registry.register_of_ok first]
      refine ⟨Iff.rfl, fun accepted => ?_⟩
      rw [Registry.register_of_ok ((Registry.check_append ..).2 accepted),
        Registry.register_of_ok accepted.2, List.append_assoc]
    · rw [Registry.check_append]
      exact ⟨iff_of_false (fun both => first both.1) fun both => first both.1,
        fun both => absurd both.1 first⟩

/-- The driver beside two reserved blocks and two registers. Which of the reserved blocks is found
first does depend on the order. -/
theorem platform_order_irrelevant_driver :
    let blocks : List RegistryBlock := [⟨.reserved, ⟨0x40000C00, 0x20⟩⟩,
      ⟨.authorized, ⟨0x40000000, 0x1000⟩⟩, ⟨.reserved, ⟨0x40000800, 0x20⟩⟩]
    let ranges : List Register.Range :=
      [⟨0x40001004, 0x4000100C, .all, .all⟩, ⟨0x40001000, 0x40001000, ⟨255⟩, ⟨255⟩⟩]
    let c := driverConfig.relisted blocks ranges
    (∃ s s', start c = .ok s ∧ start (c.relisted blocks.reverse ranges.reverse) = .ok s' ∧
        s.AnswersAlike s' ∧
        s.platform.registry.reservedOverlapping? ⟨0x40000800, 0x800⟩ =
          some ⟨0x40000C00, 0x20⟩ ∧
        s'.platform.registry.reservedOverlapping? ⟨0x40000800, 0x800⟩ =
          some ⟨0x40000800, 0x20⟩) ∧
      ((Registry.register {} {} blocks).1 = .ok () ∧
        (((Registry.register {} {} (blocks.take 1)).2.register {} (blocks.drop 1)).1 = .ok ())) := by
  intro blocks ranges c
  let session (blocks : List RegistryBlock) : Session := {
    options := {}
    platform := { registry := { blocks }, registers := { ranges := ranges.reverse.toArray } }
    store := ⟨[Tables.driver]⟩ }
  have started : start c = .ok (session blocks) := by decide +kernel
  have started' : start (c.relisted blocks.reverse ranges.reverse) = .ok (session blocks.reverse) :=
    by decide +kernel
  have alike := (platform_order_irrelevant.1 c blocks.reverse ranges.reverse
    (List.reverse_perm _) (List.reverse_perm _)).2 _ _ started started'
  have taken : (Registry.register {} {} blocks).1 = .ok () := by decide +kernel
  have batches := platform_order_irrelevant.2 {} {} (blocks.take 1) (blocks.drop 1)
  exact ⟨⟨_, _, started, started', alike, by decide +kernel, by decide +kernel⟩, taken,
    (batches.1.1 taken).2⟩

end Session
end SeparationKernel
