import Mathlib
import SeparationKernel.Register.Table
import SeparationKernel.Registry
import SeparationKernel.Proofs.Scheduler.Isolation
import SeparationKernel.Proofs.Scheduler.StateMachine
import SeparationKernel.Proofs.SharedBuffer.Confinement

/-! Refused requests leave no trace, and of those about processes no others do. -/
namespace SeparationKernel

/-- If something is refused, everything is as it was. -/
def KeepsIfRefused {ε α σ : Type} (performed : Except ε α × σ) (before : σ) : Prop :=
  ∀ e, performed.1 = .error e → performed.2 = before

theorem keepsIfRefused_commit {ε σ : Type} (v : Verdict ε) (before after : σ) :
    KeepsIfRefused (Verdict.commit v before after) before := by
  intro e refused
  rw [Verdict.commit_fst] at refused
  rw [refused, Verdict.commit_error]

namespace BufferTable

def Request.buffer? : Request → Option BufferId
  | .addCredentials id _ _ _ | .resetCredentials id _ | .transfer id _ _ => some id
  | .release _ => none

variable {t : BufferTable} {id : BufferId} {r : Request}

/-- A request about one buffer is refused, or it changes that buffer. -/
inductive Outcome (t : BufferTable) (id : BufferId) : Verdict TransferError × BufferTable → Prop
    where
  | refused (e : TransferError) : Outcome t id (.error e, t)
  | granted {b c : SharedBuffer} (found : t.get? id = some b)
    (step : b.Step t.grantLimit t.appCount c) :
    Outcome t id (.ok (), { t with buffers := t.buffers.set id.index c })

theorem outcome_change {check : SharedBuffer → Verdict TransferError}
    {f : SharedBuffer → SharedBuffer}
    (step : ∀ b, check b = .ok () → b.Step t.grantLimit t.appCount (f b)) :
    Outcome t id (t.change id check f) := by
  rcases change_cases t id check f with ⟨e, refused⟩ | ⟨b, found, accepted, done⟩
  · rw [refused]
    exact .refused e
  · rw [done]
    exact .granted found (step b accepted)

theorem outcome_perform (names : r.buffer? = some id) : Outcome t id (t.perform r) := by
  cases r with
  | addCredentials id' caller target credentials =>
    obtain rfl := Option.some.inj names
    rw [perform, addCredentials_eq]
    split
    · exact .refused _
    · rename_i known
      exact outcome_change fun b accepted => .grant (checkApp_eq_ok known) accepted credentials
  | resetCredentials id' caller =>
    obtain rfl := Option.some.inj names
    rw [perform, resetCredentials_eq]
    exact outcome_change fun b accepted => .reset accepted
  | transfer id' source target =>
    obtain rfl := Option.some.inj names
    rw [perform, transfer_eq]
    split
    · exact .refused _
    · exact outcome_change fun b accepted => .handTo accepted
  | release => cases names

theorem keepsIfRefused_perform (t : BufferTable) (r : Request) :
    KeepsIfRefused (t.perform r) t := by
  intro e refused
  cases names : r.buffer? with
  | none =>
    cases r with
    | release => cases refused
    | _ => cases names
  | some id =>
    have outcome := outcome_perform (t := t) names
    generalize t.perform r = performed at outcome refused ⊢
    cases outcome with
    | refused => rfl
    | granted => cases refused

end BufferTable

namespace Scheduler

variable {s : Scheduler} {r : Request} {id : ProcessId}

/-- A request about one process changes something if and only if it is granted. -/
theorem refused_iff (h : s.Consistent) (about : r.addressee? = some id) :
    (∃ e, s.answer? r = some (.error e)) ↔ s.after r = s := by
  rw [answer?_eq about]
  constructor
  · rintro ⟨e, refused⟩
    rw [after_eq_commit about, Option.some.inj refused, Verdict.commit_error]
  · intro same
    cases found : s.findings r with
    | error e => exact ⟨e, rfl⟩
    | ok =>
      obtain ⟨p, live, suits⟩ := (findings_eq_ok_iff h about).1 found
      obtain ⟨held, rfl, _⟩ := ProcessTable.live?_eq_some_iff.1 live
      have suited := (isGrantedTo_iff about).2 ⟨rfl, suits⟩
      have kept := get?_after_of_addressee? h about p.id.index
      rw [same, held, Option.map_some, if_pos suited] at kept
      -- A request that is granted takes the process to another state.
      have state := congrArg Process.state (Option.some.inj kept)
      exact absurd state (next_obey suited).ne

theorem instantiate_refused_iff (s : Scheduler) (asid : Asid) :
    (∃ e, (s.instantiate asid).1 = .error e) ↔ (s.instantiate asid).2 = s := by
  rcases instantiate_cases s asid with ⟨e, refused⟩ | ⟨j, app, _, _, _, made⟩
  · simp [refused]
  · have later : (s.install j (s.newProcess j asid app)).nextPlace ≠ s.nextPlace :=
      Nat.succ_ne_self s.nextPlace
    rw [made]
    constructor
    · rintro ⟨e, refused⟩
      cases refused
    · intro same
      exact absurd (congrArg nextPlace same) later

theorem keepsIfRefused_askBuffers (s : Scheduler) (r : BufferTable.Request) :
    KeepsIfRefused (s.askBuffers r) s := by
  intro e refused
  rw [askBuffers, BufferTable.keepsIfRefused_perform s.buffers r e refused]

/-- Whatever state registries, tables and stores are in, what they refuse leaves no trace. So does
what a scheduler refuses after any requests since it was new, and nothing else that is asked of it
about making, running or ending a process does. A buffer request that is granted changes the buffer
that it names. -/
theorem refused_without_trace {o o' : Options} {store : Store} (supported : o.check = .ok ())
    (loaded : store.IsLoaded o') (rs : List Request) :
    let s := (ofStore store o).run rs
    (∀ (registry : Registry) l batch, KeepsIfRefused (registry.register l batch) registry) ∧
      (∀ (table : Register.Table) l range, KeepsIfRefused (table.authorize l range) table) ∧
      (∀ (old : Store) o p apps, KeepsIfRefused (old.load o p apps) old) ∧
      (∀ asid, (∃ e, (s.instantiate asid).1 = .error e) ↔ (s.instantiate asid).2 = s) ∧
      (∀ r id, r.addressee? = some id →
        ((∃ e, s.answer? r = some (.error e)) ↔ s.after r = s)) ∧
      (∀ r, KeepsIfRefused (s.askBuffers r) s) ∧
      ∀ (t : BufferTable) r id, r.buffer? = some id → t.Outcome id (t.perform r) := by
  intro s
  have consistent : s.Consistent := consistent_run (consistent_ofStore supported loaded) rs
  refine ⟨fun registry l batch => ?_, fun table l range => ?_, fun old o p apps => ?_,
    fun asid => ?_, fun r id about => ?_, fun r => ?_, fun t r id names => ?_⟩
  · rw [Registry.register_eq]
    exact keepsIfRefused_commit _ _ _
  · rw [Register.Table.authorize_eq]
    exact keepsIfRefused_commit _ _ _
  · rw [Store.load_eq]
    exact keepsIfRefused_commit _ _ _
  · exact instantiate_refused_iff s asid
  · exact refused_iff consistent about
  · exact keepsIfRefused_askBuffers s r
  · exact BufferTable.outcome_perform names

/-- An application waits while another one runs, and asks for more than it can have. The second of
two blocks overlaps the first. -/
theorem refused_without_trace_sharing :
    let s := (ofStore BufferTable.sharing {}).run [.instantiate ⟨0⟩, .instantiate ⟨1⟩, .schedule]
    (s.waitIpc ⟨1, 0⟩ none).1 = .error (.notRunning ⟨1, 0⟩) ∧ (s.waitIpc ⟨1, 0⟩ none).2 = s ∧
      (s.waitIpc ⟨0, 0⟩ none).2 ≠ s ∧
      (s.instantiate ⟨1⟩).1 = .error (.alreadyLive ⟨1⟩) ∧ (s.instantiate ⟨1⟩).2 = s ∧
      (s.askBuffers (.transfer ⟨0⟩ ⟨1⟩ ⟨0⟩)).1 = .error (.notManager ⟨1⟩) ∧
      (s.askBuffers (.transfer ⟨0⟩ ⟨1⟩ ⟨0⟩)).2 = s ∧
      s.buffers.Outcome ⟨0⟩ (s.buffers.perform (.addCredentials ⟨0⟩ ⟨0⟩ ⟨1⟩ .all)) ∧
      (({} : Registry).register {} [⟨.authorized, ⟨0x40000000, 0x1000⟩⟩,
        ⟨.authorized, ⟨0x40000800, 0x1000⟩⟩]).2 = {} := by
  intro s
  have loaded : BufferTable.sharing.IsLoaded {} :=
    ⟨{}, {}, BufferTable.sharing.apps, by decide +kernel⟩
  obtain ⟨registry, _, _, instantiate, aboutProcess, askBuffers, buffer⟩ :=
    refused_without_trace (o := {}) (by decide) loaded
      [.instantiate ⟨0⟩, .instantiate ⟨1⟩, .schedule]
  have waits : (s.waitIpc ⟨1, 0⟩ none).1 = .error (.notRunning ⟨1, 0⟩) := by decide +kernel
  have granted : (s.waitIpc ⟨0, 0⟩ none).1 = .ok () := by decide +kernel
  have known : (s.instantiate ⟨1⟩).1 = .error (.alreadyLive ⟨1⟩) := by decide +kernel
  have foreign : (s.askBuffers (.transfer ⟨0⟩ ⟨1⟩ ⟨0⟩)).1 = .error (.notManager ⟨1⟩) := by
    decide +kernel
  refine ⟨waits, ?_, ?_, known, (instantiate ⟨1⟩).1 ⟨_, known⟩, foreign, askBuffers _ _ foreign,
    buffer _ _ _ rfl, ?_⟩
  · exact (aboutProcess (.waitIpc ⟨1, 0⟩ none) ⟨1, 0⟩ rfl).1 ⟨_, congrArg some waits⟩
  · intro same
    obtain ⟨e, refused⟩ := (aboutProcess (.waitIpc ⟨0, 0⟩ none) ⟨0, 0⟩ rfl).2 same
    cases granted.symm.trans (Option.some.inj refused)
  · have overlap : (({} : Registry).register {} [⟨.authorized, ⟨0x40000000, 0x1000⟩⟩,
        ⟨.authorized, ⟨0x40000800, 0x1000⟩⟩]).1 = .error (.overlap (.registryBlock .authorized 1)
          ⟨0x40000800, 0x1000⟩ ⟨0x40000000, 0x1000⟩) := by decide
    exact registry _ _ _ _ overlap

end Scheduler
end SeparationKernel
