import Mathlib
import SeparationKernel.Proofs.Session.Boot
import SeparationKernel.Proofs.SharedBuffer.Lifetime

/-! The contents of shared buffers. Access is decided for one buffer at a time, so what a buffer
keeps from others depends on which blocks have bytes in common, and no check of a session asks. -/
namespace SeparationKernel

namespace SharedBuffer

variable {b c : SharedBuffer} {limit : UInt32} {count : Nat} {a : Asid} {op : Access}

/-- The application owns the buffer, or manages it and holds the right that the access takes. -/
def Entitles (b : SharedBuffer) (a : Asid) (op : Access) : Prop :=
  a = b.owner ∨ b.manager = a ∧ b.holds a (neededFor op) = true

theorem permits_iff_entitles : b.permits a op = true ↔ b.Entitles a op := by
  rw [permits, Bool.or_eq_true, Bool.and_eq_true, beq_iff_eq, beq_iff_eq, Entitles, eq_comm]

structure IsFresh (b : SharedBuffer) : Prop where
  manager : b.manager = b.owner
  grants : b.grants = []
  reached : b.reached = []

theorem Step.block (step : b.Step limit count c) : c.block = b.block := by
  cases step <;> rfl

def lendTo (b : SharedBuffer) (a : Asid) : SharedBuffer := (b.grant a { read := true }).handTo a

theorem IsFresh.checkGrant_eq_ok (h : b.IsFresh) (positive : 0 < limit.toNat)
    (foreign : a ≠ b.owner) : b.checkGrant limit b.owner a = .ok () := by
  simp [checkGrant, checkGrantable, checkRoom, Verdict.all, Verdict.andThen, Verdict.require,
    h.manager, h.grants, h.reached, foreign, positive]

theorem IsFresh.checkTransfer_eq_ok (h : b.IsFresh) (foreign : a ≠ b.owner) :
    (b.grant a { read := true }).checkTransfer b.owner a = .ok () := by
  simp [checkTransfer, checkManager, grant, holds, SharedBuffer.credentials?, Verdict.all,
    Verdict.andThen, Verdict.require, h.manager, h.grants, foreign]

theorem entitles_lendTo (h : b.IsFresh) (foreign : a ≠ b.owner) :
    (b.lendTo a).Entitles a .read := by
  refine Or.inr ⟨rfl, ?_⟩
  simp [lendTo, handTo, grant, holds, SharedBuffer.credentials?, h.grants, foreign, neededFor,
    Credentials.contains]

end SharedBuffer

namespace BufferTable

open SharedBuffer (IsFresh)

/-- A buffer with the address in its block lets the application have the access. -/
def Reaches (t : BufferTable) (a : Asid) (x : UInt32) (op : Access) : Prop :=
  ∃ id b, t.get? id = some b ∧ b.block.containsAddress x = true ∧ t.permits a id op = true

/-- Each byte of a buffer is reached only by applications that this buffer lets have it. -/
def KeepsContents (t : BufferTable) : Prop :=
  ∀ b ∈ t.buffers, ∀ x, b.block.containsAddress x = true → ∀ a op, t.Reaches a x op →
    b.Entitles a op

def blocks (t : BufferTable) : List Block := t.buffers.map (·.block)

def Apart (t : BufferTable) : Prop := t.blocks.Pairwise fun x y => ¬x.Shares y

variable {t u : BufferTable} {a : Asid} {x : UInt32} {op : Access} {id : BufferId}
  {b : SharedBuffer}

theorem Reaches.exists_entitles (h : t.Reaches a x op) :
    ∃ b ∈ t.buffers, b.block.containsAddress x = true ∧ b.Entitles a op := by
  obtain ⟨id, b, found, inside, permitted⟩ := h
  rw [permits, found] at permitted
  exact ⟨b, List.mem_of_getElem? found, inside, SharedBuffer.permits_iff_entitles.1 permitted⟩

theorem reaches_of_entitles (found : t.get? id = some b) (inside : b.block.containsAddress x = true)
    (entitled : b.Entitles a op) : t.Reaches a x op := by
  refine ⟨id, b, found, inside, ?_⟩
  rw [permits, found]
  exact SharedBuffer.permits_iff_entitles.2 entitled

theorem blocks_run (t : BufferTable) (rs : List Request) : (t.run rs).blocks = t.blocks :=
  map_buffers_run (fun step => step.block) t rs

theorem Apart.keepsContents (apart : t.Apart) : t.KeepsContents := by
  have symm : Std.Symm fun b c : SharedBuffer => ¬b.block.Shares c.block :=
    ⟨fun _ _ apart both => apart both.symm⟩
  have exclusive := List.pairwise_map.1 apart
  intro b mem x inside a op reached
  obtain ⟨c, c_mem, c_inside, entitled⟩ := reached.exists_entitles
  by_cases same : b = c
  · exact same ▸ entitled
  · exact absurd ⟨x, inside, c_inside⟩ (exclusive.forall mem c_mem same)

theorem Lawful.keepsContents (h : t.Lawful) (alone : t.appCount ≤ 1)
    (owners : ∀ b ∈ t.buffers, b.owner.index < t.appCount) : t.KeepsContents := by
  have single : ∀ b ∈ t.buffers, ∀ a : Asid, a.index < t.appCount → a = b.owner := by
    intro b mem a known
    have owner := owners b mem
    exact Asid.index_inj.1 (by omega)
  intro b mem x inside a op reached
  obtain ⟨c, c_mem, _, owns | ⟨manages, _⟩⟩ := reached.exists_entitles
  · exact Or.inl (owns ▸ single b mem c.owner (owners c c_mem))
  · have lawful := h c c_mem
    refine Or.inl (single b mem a ?_)
    rcases lawful.manager with own | granted
    · exact manages ▸ own ▸ owners c c_mem
    · exact manages ▸ lawful.index_lt _ (lawful.grantees_subset granted)

theorem run_lend (t : BufferTable) (found : t.get? id = some b) (fresh : b.IsFresh)
    (positive : 0 < t.grantLimit.toNat) (known : a.index < t.appCount) (foreign : a ≠ b.owner) :
    t.run [.addCredentials id b.owner a { read := true }, .transfer id b.owner a] =
      { t with buffers := t.buffers.set id.index (b.lendTo a) } := by
  have app : t.checkApp a = .ok () := by simp [checkApp, known]
  have lt : id.index < t.buffers.length := (List.getElem?_eq_some_iff.1 found).1
  have granted : t.perform (.addCredentials id b.owner a { read := true }) =
      (.ok (), { t with buffers := t.buffers.set id.index (b.grant a { read := true }) }) := by
    simp only [perform, addCredentials_eq, app, change, found,
      fresh.checkGrant_eq_ok positive foreign, Verdict.commit_ok]
  have found' : ({ t with buffers := t.buffers.set id.index (b.grant a { read := true }) } :
      BufferTable).get? id = some (b.grant a { read := true }) := List.getElem?_set_self lt
  rw [run_cons, granted, run_cons, run_nil]
  have app' : ({ t with buffers := t.buffers.set id.index (b.grant a { read := true }) } :
      BufferTable).checkApp a = .ok () := app
  simp only [perform, transfer_eq, app', change, found', fresh.checkTransfer_eq_ok foreign,
    Verdict.commit_ok, List.set_set, SharedBuffer.lendTo]

structure IsFresh (t : BufferTable) : Prop where
  fresh : ∀ b ∈ t.buffers, b.IsFresh
  owners : ∀ b ∈ t.buffers, b.owner.index < t.appCount
  positive : 0 < t.grantLimit.toNat
  /-- Numbers of buffers are exact. -/
  length_le : t.buffers.length ≤ 256

theorem exists_other (a : Asid) {count : Nat} (many : 2 ≤ count) :
    ∃ b : Asid, b.index < count ∧ b ≠ a := by
  by_cases first : a.index = 0
  · refine ⟨⟨1⟩, many, fun same => ?_⟩
    rw [← same] at first
    exact absurd first (by decide)
  · refine ⟨⟨0⟩, Nat.lt_of_lt_of_le (by decide) many, fun same => first ?_⟩
    rw [← same]
    rfl

theorem index_ofIndex {i : Nat} (lt : i < 256) : (BufferId.ofIndex i).index = i :=
  UInt8.toNat_ofNat_of_lt' lt

/-- Where two buffers have a byte in common, somebody reaches it who is not let: the owner of the
other one, or whoever the common owner lends the other one to. -/
theorem IsFresh.apart (h : t.IsFresh) (many : 2 ≤ t.appCount)
    (keeps : ∀ rs, (t.run rs).KeepsContents) : t.Apart := by
  refine List.pairwise_map.2 (List.pairwise_iff_getElem.2 fun i j i_lt j_lt lt => ?_)
  rintro ⟨x, inside, inside'⟩
  have place : (BufferId.ofIndex j).index = j := index_ofIndex (j_lt.trans_le h.length_le)
  have mem : t.buffers[i] ∈ t.buffers := List.getElem_mem i_lt
  have found : t.get? (.ofIndex j) = some t.buffers[j] := by
    rw [get?, place, List.getElem?_eq_getElem j_lt]
  have manager := (h.fresh _ mem).manager
  have fresh := h.fresh _ (List.getElem_mem j_lt)
  by_cases same : t.buffers[j].owner = t.buffers[i].owner
  · obtain ⟨a, known, foreign⟩ := exists_other t.buffers[j].owner many
    have kept := keeps [.addCredentials (.ofIndex j) t.buffers[j].owner a { read := true },
      .transfer (.ofIndex j) t.buffers[j].owner a]
    rw [run_lend t found fresh h.positive known foreign, place] at kept
    have other : t.buffers[i] ∈ t.buffers.set j (t.buffers[j].lendTo a) :=
      List.mem_iff_getElem?.2 ⟨i, by rw [List.getElem?_set_ne lt.ne', List.getElem?_eq_getElem]⟩
    have lent : ({ t with buffers := t.buffers.set j (t.buffers[j].lendTo a) } :
        BufferTable).get? (.ofIndex j) = some (t.buffers[j].lendTo a) := by
      rw [get?, place, List.getElem?_set_self j_lt]
    rcases kept _ other x inside a .read (reaches_of_entitles lent inside'
      (SharedBuffer.entitles_lendTo fresh foreign)) with owns | ⟨manages, _⟩
    · exact foreign (owns.trans same.symm)
    · exact foreign (manages.symm.trans (manager.trans same.symm))
  · have entitled : t.buffers[j].Entitles t.buffers[j].owner .read := Or.inl rfl
    rcases keeps [] _ mem x inside _ .read (reaches_of_entitles found inside' entitled) with
      owns | ⟨manages, _⟩
    · exact same owns
    · exact same (manages.symm.trans manager)

theorem IsFresh.owner_lt_run (h : t.IsFresh) (rs : List Request) (mem : b ∈ (t.run rs).buffers) :
    b.owner.index < t.appCount := by
  obtain ⟨k, found⟩ := List.mem_iff_getElem?.1 mem
  have owner : t.owner? k = some b.owner := by
    rw [← owner?_run t rs k, owner?, found]
    rfl
  obtain ⟨declared, at_k, same⟩ := Option.map_eq_some_iff.1 owner
  exact same ▸ h.owners declared (List.mem_of_getElem? at_k)

theorem mem_ofStore {store : Store} {o : Options} (mem : b ∈ (ofStore store o).buffers) :
    ∃ owner app, (owner, app) ∈ store.entries ∧ ∃ d ∈ app.sharedBlocks,
      b = { owner, label := d.label, block := d.block, manager := owner } := by
  obtain ⟨⟨owner, app⟩, entry, declared⟩ := List.mem_flatMap.1 mem
  obtain ⟨d, d_mem, rfl⟩ := List.mem_map.1 declared
  exact ⟨owner, app, entry, d, d_mem, rfl⟩

theorem blocks_ofStore (store : Store) (o : Options) :
    (ofStore store o).blocks = (store.apps.flatMap (·.sharedBlocks)).map (·.block) := by
  have apps : store.apps = store.entries.map (·.2) := by
    simp [Store.entries, Function.comp_def]
  rw [blocks, ofStore, apps, List.map_flatMap, List.flatMap_map, List.map_flatMap]
  simp only [List.map_map, Function.comp_def]

end BufferTable

namespace Session

variable {c : KernelConfig} {session : Session}

open BufferTable

theorem length_buffers_le {o : Options} {p : Platform} {store : Store}
    (passed : check o p store = .ok ()) :
    (ofStore store o).buffers.length ≤ o.sharedBufferCountMax.toNat := by
  have total : (ofStore store o).buffers.length = total store (·.sharedBlocks) := by
    have length := congrArg List.length (blocks_ofStore store o)
    rw [blocks, List.length_map, List.length_map, List.length_flatMap] at length
    exact length
  simp only [check, checkBudgets, Verdict.all_cons_eq_ok, Verdict.require_eq_ok,
    decide_eq_true_eq] at passed
  exact total ▸ passed.2.1.2.1

theorem isFresh_ofStore (started : start c = .ok session) :
    (ofStore session.store session.options).IsFresh where
  fresh := by
    intro b mem
    obtain ⟨owner, app, _, d, _, rfl⟩ := mem_ofStore mem
    exact ⟨rfl, rfl, rfl⟩
  owners := by
    intro b mem
    obtain ⟨owner, app, entry, d, _, rfl⟩ := mem_ofStore mem
    have described := (Store.mem_entries_iff (sound_of_start started).size_le).1 entry
    exact (List.getElem?_eq_some_iff.1 described).1
  positive := (Options.bounds_of_check (sound_of_start started).supported
    (k := .transferTargetMax) rfl).1
  length_le := by
    have from_config := start_eq_ok_iff.1 started
    have bounds := Options.bounds_of_check from_config.supported (k := .sharedBufferCountMax) rfl
    have length_le := length_buffers_le from_config.checked
    rw [from_config.options]
    exact length_le.trans (bounds.2.trans (by decide))

/-- What declared buffers have in common shows in their bounds, since none of them is empty. -/
theorem apart_ofStore_iff (started : start c = .ok session) :
    (ofStore session.store session.options).Apart ↔
      (session.store.apps.flatMap (·.sharedBlocks)).Pairwise fun x y =>
        x.block.overlaps y.block = false := by
  rw [Apart, blocks_ofStore, List.pairwise_map]
  have nonempty : ∀ d ∈ session.store.apps.flatMap (·.sharedBlocks),
      d.block.length.toNat ≠ 0 := by
    intro d mem
    obtain ⟨app, app_mem, declared⟩ := List.mem_flatMap.1 mem
    obtain ⟨index, acceptable⟩ := (start_eq_ok_iff.1 started).isAcceptable app_mem
    exact (acceptable.sharedBlocks d declared).1.nonempty
  refine List.Pairwise.iff_of_mem fun x_mem y_mem => ?_
  rw [← Block.overlaps_iff_shares (nonempty _ x_mem) (nonempty _ y_mem), Bool.not_eq_true]

/-- Whatever is asked of its buffers, a session keeps their contents as long as there is nobody to
keep them from or no two buffers overlap; and otherwise something can be asked after which it does
not. -/
theorem contents_kept_iff (started : start c = .ok session) :
    (∀ rs, ((ofStore session.store session.options).run rs).KeepsContents) ↔
      session.store.size ≤ 1 ∨ (session.store.apps.flatMap (·.sharedBlocks)).Pairwise
        fun x y => x.block.overlaps y.block = false := by
  have fresh := isFresh_ofStore started
  rw [← apart_ofStore_iff started]
  constructor
  · intro keeps
    by_cases alone : session.store.size ≤ 1
    · exact Or.inl alone
    · exact Or.inr (fresh.apart (Nat.lt_of_not_le alone) keeps)
  · rintro (alone | apart) rs
    · have lawful := (lawful_ofStore session.store session.options).run rs
      have count := (bounds_run (ofStore session.store session.options) rs).2
      exact lawful.keepsContents (count ▸ alone) fun b mem => count ▸ fresh.owner_lt_run rs mem
    · refine Apart.keepsContents ?_
      rw [Apart, blocks_run]
      exact apart

/-- An application with keys to keep, and another one that writes its lines at `lines`. -/
def vaultConfig (lines : Block) : KernelConfig where
  apps := [
    { name := "vault", priority := ⟨1⟩, quantum := 10,
      sharedBlocks := [⟨"keys", ⟨0x20040000, 0x400⟩⟩] },
    { name := "log", priority := ⟨2⟩, quantum := 10, sharedBlocks := [⟨"lines", lines⟩] }]

def vault (lines : Block) : Session where
  options := {}
  platform := {}
  store := ⟨(vaultConfig lines).apps⟩

theorem contents_kept_vault :
    let session := vault ⟨0x20040400, 0x400⟩
    start (vaultConfig ⟨0x20040400, 0x400⟩) = .ok session ∧
      ((ofStore session.store session.options).run
        [.addCredentials ⟨0⟩ ⟨0⟩ ⟨1⟩ { read := true }, .transfer ⟨0⟩ ⟨0⟩ ⟨1⟩]).KeepsContents := by
  intro session
  have started : start (vaultConfig ⟨0x20040400, 0x400⟩) = .ok session := by decide +kernel
  exact ⟨started, (contents_kept_iff started).2 (Or.inr (by decide)) _⟩

/-- The lines of the second application may cover the keys, and then it writes them. -/
theorem contents_reached_by_another :
    let session := vault ⟨0x20040000, 0x400⟩
    start (vaultConfig ⟨0x20040000, 0x400⟩) = .ok session ∧
      ¬∀ rs, ((ofStore session.store session.options).run rs).KeepsContents := by
  intro session
  have started : start (vaultConfig ⟨0x20040000, 0x400⟩) = .ok session := by decide +kernel
  refine ⟨started, fun keeps => ?_⟩
  let keys : SharedBuffer := ⟨⟨0⟩, "keys", ⟨0x20040000, 0x400⟩, ⟨0⟩, [], []⟩
  let lines : SharedBuffer := ⟨⟨1⟩, "lines", ⟨0x20040000, 0x400⟩, ⟨1⟩, [], []⟩
  have buffers : (ofStore session.store session.options).buffers = [keys, lines] := by decide
  have reached : (ofStore session.store session.options).Reaches ⟨1⟩ 0x20040000 .write :=
    ⟨⟨1⟩, lines, by decide, by decide, by decide⟩
  have keys_mem : keys ∈ (ofStore session.store session.options).buffers := by
    rw [buffers]
    exact List.mem_cons_self
  rcases keeps [] keys keys_mem 0x20040000 (by decide) ⟨1⟩ .write reached with owns | ⟨manages, _⟩
  · exact absurd owns (by decide)
  · exact absurd manages (by decide)

end Session
end SeparationKernel
