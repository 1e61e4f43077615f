import Mathlib
import SeparationKernel.Proofs.Session.Start

/-! What an application is given beside its own memory: blocks that lie in an authorized block of
the registry and clear of all reserved ones, and transfers between such blocks and its buffers. -/
namespace SeparationKernel

/-- The block may be given to an application. -/
structure Registry.Grants (r : Registry) (b : Block) : Prop where
  nonempty : b.length.toNat ≠ 0
  /-- All its bytes are addresses. -/
  limit_lt : b.limit < UInt32.size
  /-- Each byte of it lies in exactly one authorized block, the same one for all of them, -/
  authorized : ∃ outer, ∀ x, b.containsAddress x = true →
    r.authorizedBlocks.filter (·.containsAddress x) = [outer]
  /-- and in no reserved block. -/
  clear : ∀ kept ∈ r.reservedBlocks, ¬kept.Shares b

namespace Registry

variable {r : Registry} {b outer : Block}

theorem Lawful.filter_containsAddress (h : r.Lawful) (mem : outer ∈ r.authorizedBlocks) {x : UInt32}
    (inside : outer.containsAddress x = true) :
    r.authorizedBlocks.filter (·.containsAddress x) = [outer] := by
  have one := countP_containsAddress_le_one h.authorized_apart x
  have held : outer ∈ r.authorizedBlocks.filter (·.containsAddress x) :=
    List.mem_filter.2 ⟨mem, inside⟩
  rw [List.countP_eq_length_filter] at one
  generalize r.authorizedBlocks.filter (·.containsAddress x) = found at one held ⊢
  obtain ⟨first, rfl⟩ := List.length_eq_one_iff.1
    (Nat.le_antisymm one (List.length_pos_of_mem held))
  rw [List.mem_singleton.1 held]

theorem Lawful.grants_iff (h : r.Lawful) (nonempty : b.length.toNat ≠ 0)
    (limit_lt : b.limit < UInt32.size) :
    r.Grants b ↔ (∃ outer ∈ r.authorizedBlocks, b.Within outer) ∧
      ∀ kept ∈ r.reservedBlocks, ¬kept.Shares b := by
  constructor
  · intro grants
    obtain ⟨outer, only⟩ := grants.authorized
    have holds : ∀ x, b.containsAddress x = true →
        outer ∈ r.authorizedBlocks ∧ outer.containsAddress x = true := fun x inside => by
      have listed : outer ∈ r.authorizedBlocks.filter (·.containsAddress x) := by
        rw [only x inside]
        exact List.mem_singleton_self outer
      exact List.mem_filter.1 listed
    have first : b.containsAddress b.start = true := by
      refine Block.containsAddress_iff.2 ⟨le_rfl, ?_⟩
      rw [Block.limit]
      omega
    exact ⟨⟨outer, (holds b.start first).1, fun x inside => (holds x inside).2⟩, grants.clear⟩
  · rintro ⟨⟨outer, mem, within⟩, clear⟩
    exact ⟨nonempty, limit_lt,
      ⟨outer, fun x inside => h.filter_containsAddress mem (within x inside)⟩, clear⟩

theorem Lawful.reservedOverlapping?_eq_none (h : r.Lawful) (nonempty : b.length.toNat ≠ 0) :
    r.reservedOverlapping? b = none ↔ ∀ kept ∈ r.reservedBlocks, ¬kept.Shares b := by
  rw [reservedOverlapping?, List.find?_eq_none]
  refine forall₂_congr fun kept mem => ?_
  obtain ⟨entry, entry_mem, rfl⟩ := List.mem_map.1 mem
  have proper := h.proper entry (List.mem_filter.1 entry_mem).1
  rw [Block.overlaps_iff_shares proper.1 nonempty]

end Registry

namespace App

variable {o : Options} {p : Platform} {index count : Nat} {a : App} {label : String}

theorem IsAcceptable.grants (h : a.IsAcceptable o p index count) (lawful : p.registry.Lawful)
    {b : ExtraBlock} (mem : b ∈ a.extraBlocks) : p.registry.Grants b.block := by
  have fits := (h.extraBlocks b mem).1
  refine (lawful.grants_iff fits.nonempty fits.limit_lt).2 ⟨h.authorized b mem, ?_⟩
  rintro kept kept_mem ⟨x, left, right⟩
  have left := Block.containsAddress_iff.1 left
  have right := Block.containsAddress_iff.1 right
  have apart := h.clear b mem kept kept_mem
  omega

theorem lookup_of_nodup {α β : Type} [BEq α] [LawfulBEq α] {entries : List (α × β)} {k : α}
    {v : β} (nodup : (entries.map (·.1)).Nodup) (mem : (k, v) ∈ entries) :
    entries.lookup k = some v ∧ entries.filter (·.1 == k) = [(k, v)] := by
  induction entries with
  | nil => cases mem
  | cons e entries ih =>
    obtain ⟨key, value⟩ := e
    rw [List.map_cons, List.nodup_cons] at nodup
    rcases List.mem_cons.1 mem with same | later
    · obtain ⟨rfl, rfl⟩ := Prod.mk.inj same
      refine ⟨by simp, ?_⟩
      rw [List.filter_cons_of_pos (by simp), List.filter_eq_nil_iff.2]
      intro other other_mem found
      exact nodup.1 (List.mem_map.2 ⟨other, other_mem, by simpa using found⟩)
    · have away : (k == key) = false := by
        rw [beq_eq_false_iff_ne]
        rintro rfl
        exact nodup.1 (List.mem_map.2 ⟨_, later, rfl⟩)
      have away' : (key == k) = false := by rwa [Bool.beq_comm]
      rw [List.lookup_cons, away, List.filter_cons_of_neg (by simp [away'])]
      exact ih nodup.2 later

/-- A label of an acceptable descriptor names one of its blocks. -/
theorem IsAcceptable.resolves (h : a.IsAcceptable o p index count) {block : Block}
    (mem : (label, block) ∈ a.labelledBlocks) :
    a.blockLabelled? label = some block ∧
      a.labelledBlocks.filter (·.1 == label) = [(label, block)] := by
  refine lookup_of_nodup ?_ mem
  rw [← blockLabels, blockLabels_eq]
  exact h.nodup_labels

theorem IsAcceptable.exists_labelled (h : a.IsAcceptable o p index count) {s : DmaStream}
    (mem : s ∈ a.dmaStreams) (label_mem : label ∈ [s.source, s.destination]) :
    ∃ block, (label, block) ∈ a.labelledBlocks := by
  have named : label ∈ a.labels := by
    obtain ⟨source, destination⟩ := h.dmaStreams s mem
    rcases List.mem_pair.1 label_mem with rfl | rfl
    · exact source
    · exact destination
  rw [← blockLabels_eq, blockLabels] at named
  obtain ⟨⟨_, block⟩, block_mem, rfl⟩ := List.mem_map.1 named
  exact ⟨block, block_mem⟩

end App

namespace Session

variable {c : KernelConfig} {session : Session}

/-- A session that has started gives its applications no extra block but those that the registry
grants, byte by byte. Each end of a transfer is exactly one of the application's own blocks; if it
is an extra block, the registry grants it. -/
theorem extra_blocks_granted (started : start c = .ok session) {app : App}
    (mem : app ∈ session.store.apps) :
    (∀ b ∈ app.extraBlocks, session.platform.registry.Grants b.block) ∧
      ∀ s ∈ app.dmaStreams, ∀ label ∈ [s.source, s.destination],
        ∃ block, app.blockLabelled? label = some block ∧
          app.labelledBlocks.filter (·.1 == label) = [(label, block)] ∧
          ∀ b ∈ app.extraBlocks, b.label = label →
            b.block = block ∧ session.platform.registry.Grants block := by
  have h := start_eq_ok_iff.1 started
  obtain ⟨index, acceptable⟩ := h.isAcceptable mem
  have granted : ∀ b ∈ app.extraBlocks, session.platform.registry.Grants b.block :=
    fun b b_mem => acceptable.grants h.lawful_registry b_mem
  refine ⟨granted, fun s s_mem label label_mem => ?_⟩
  obtain ⟨block, block_mem⟩ := acceptable.exists_labelled s_mem label_mem
  obtain ⟨found, only⟩ := acceptable.resolves block_mem
  refine ⟨block, found, only, ?_⟩
  rintro b b_mem rfl
  have listed : (b.label, b.block) ∈ app.labelledBlocks :=
    List.mem_append_right _ (List.mem_map.2 ⟨b, b_mem, rfl⟩)
  have same : b.block = block :=
    Option.some.inj ((acceptable.resolves listed).1.symm.trans found)
  exact ⟨same, same ▸ granted b b_mem⟩

/-- A driver gets a timer of a peripheral that has a reserved block before it, and has what it
counts transferred to a buffer. -/
theorem extra_blocks_granted_timer :
    let timer : App := {
      name := "timer", priority := ⟨1⟩, quantum := 2
      sharedBlocks := [⟨"counts", ⟨0x20000000, 0x100⟩⟩]
      extraBlocks := [⟨"registers", .ofBits 3, ⟨0x40000800, 0x400⟩⟩]
      dmaStreams := [⟨"sample", 0, 1, 2, "registers", "counts"⟩] }
    let c : KernelConfig := {
      registryBlocks := [⟨.authorized, ⟨0x40000000, 0x1000⟩⟩, ⟨.reserved, ⟨0x40000400, 0x20⟩⟩]
      apps := [timer] }
    ∃ session, start c = .ok session ∧ timer ∈ session.store.apps ∧
      session.platform.registry.Grants ⟨0x40000800, 0x400⟩ ∧
      timer.blockLabelled? "registers" = some ⟨0x40000800, 0x400⟩ := by
  intro timer c
  have started : start c = .ok {
      options := {}, store := ⟨[timer]⟩
      platform := { registry := { blocks := c.registryBlocks } } } := by decide +kernel
  have mem : timer ∈ [timer] := List.mem_singleton_self timer
  have facts := extra_blocks_granted started mem
  refine ⟨_, started, mem, facts.1 _ (List.mem_singleton_self _), ?_⟩
  obtain ⟨block, found, _, granted⟩ := facts.2 _ (List.mem_singleton_self _) "registers" (by decide)
  rw [found, ← (granted _ (List.mem_singleton_self _) rfl).1]

end Session
end SeparationKernel
