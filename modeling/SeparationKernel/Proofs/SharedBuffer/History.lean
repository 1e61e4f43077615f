import Mathlib
import SeparationKernel.Proofs.SharedBuffer.Lifetime

/-! The history of one buffer: the requests about it that were accepted, in order. Each was checked
against what the earlier ones had made of the buffer, and nothing else changes it. -/
namespace SeparationKernel
namespace SharedBuffer

inductive Event where
  | granted (caller target : Asid) (credentials : Credentials)
  | reset (caller : Asid)
  | handed (source target : Asid)
  | released (asid : Asid)
deriving DecidableEq, Repr

def Event.clears : Event → Bool
  | .reset _ | .released _ => true
  | .granted _ _ _ | .handed _ _ => false

def after (b : SharedBuffer) : Event → SharedBuffer
  | .granted _ target credentials => b.grant target credentials
  | .reset _ => b.reset
  | .handed _ target => b.handTo target
  | .released _ => b.reclaim

def Allows (b : SharedBuffer) (limit : UInt32) : Event → Prop
  | .granted caller target _ => b.checkGrant limit caller target = .ok ()
  | .reset caller => b.checkReset caller = .ok ()
  | .handed source target => b.checkTransfer source target = .ok ()
  | .released asid => b.isLentTo asid = true

@[simp] theorem owner_after (b : SharedBuffer) (e : Event) : (b.after e).owner = b.owner := by
  cases e <;> rfl

theorem grants_after_of_clears {b : SharedBuffer} {e : Event} (h : e.clears = true) :
    (b.after e).grants = [] := by
  cases e with
  | reset | released => rfl
  | granted | handed => cases h

end SharedBuffer

open SharedBuffer (Event)

namespace BufferTable

/-- What a request is to the buffer in place `k` if it is accepted. -/
def Request.event? (t : BufferTable) (k : Nat) : Request → Option Event
  | .addCredentials id caller target credentials =>
    if id.index = k then some (.granted caller target credentials) else none
  | .resetCredentials id caller => if id.index = k then some (.reset caller) else none
  | .transfer id source target => if id.index = k then some (.handed source target) else none
  | .release asid =>
    if t.buffers[k]?.any (·.isLentTo asid) then some (.released asid) else none

/-- What a request comes to for the buffer in place `k`. If it is refused, nothing happens. -/
def event? (t : BufferTable) (k : Nat) (r : Request) : Option Event :=
  match (t.perform r).1 with
  | .ok () => r.event? t k
  | .error _ => none

def history (t : BufferTable) (k : Nat) : List Request → List Event
  | [] => []
  | r :: rs => (t.event? k r).toList ++ (t.perform r).2.history k rs

variable {t : BufferTable} {k : Nat} {b : SharedBuffer}

theorem history_append (t : BufferTable) (k : Nat) (rs ss : List Request) :
    t.history k (rs ++ ss) = t.history k rs ++ (t.run rs).history k ss := by
  induction rs generalizing t with
  | nil => rfl
  | cons r rs ih => simp [history, ih]

theorem history_concat (t : BufferTable) (k : Nat) (rs : List Request) (r : Request) :
    t.history k (rs ++ [r]) = t.history k rs ++ ((t.run rs).event? k r).toList := by
  simp [history_append, history]

theorem run_concat (t : BufferTable) (rs : List Request) (r : Request) :
    t.run (rs ++ [r]) = ((t.run rs).perform r).2 := by
  simp [run_append]

/-- What a request makes of the buffer in place `k`. -/
inductive Makes (t : BufferTable) (k : Nat) (r : Request) (b : SharedBuffer) : SharedBuffer → Prop
    where
  | same (nothing : t.event? k r = none) : Makes t k r b b
  | event {e : Event} (happens : t.event? k r = some e) (allowed : b.Allows t.grantLimit e) :
      Makes t k r b (b.after e)

theorem makes_of_refused {r : Request} {e : TransferError} (found : t.buffers[k]? = some b)
    (refused : t.perform r = (.error e, t)) :
    ∃ c, (t.perform r).2.buffers[k]? = some c ∧ t.Makes k r b c := by
  have nothing : t.event? k r = none := by rw [event?, refused]
  exact ⟨b, by rw [refused]; exact found, .same nothing⟩

theorem makes_of_change {r : Request} {id : BufferId} {e : Event}
    {check : SharedBuffer → Verdict TransferError} {f : SharedBuffer → SharedBuffer}
    (found : t.buffers[k]? = some b) (changes : t.perform r = t.change id check f)
    (means : r.event? t k = if id.index = k then some e else none)
    (allows : check b = .ok () → b.Allows t.grantLimit e) (becomes : f b = b.after e) :
    ∃ c, (t.perform r).2.buffers[k]? = some c ∧ t.Makes k r b c := by
  rcases change_cases t id check f with ⟨e, refused⟩ | ⟨d, there, accepted, done⟩
  · exact makes_of_refused found (changes.trans refused)
  · rw [← changes] at done
    have happens : t.event? k r = if id.index = k then some e else none := by
      rw [event?, done]
      exact means
    by_cases here : id.index = k
    · rw [if_pos here] at happens
      have same : some b = some d := by
        rw [← found, ← there, get?, here]
      obtain rfl : b = d := Option.some.inj same
      refine ⟨b.after e, ?_, .event happens (allows accepted)⟩
      have lt : k < t.buffers.length := (List.getElem?_eq_some_iff.1 found).1
      rw [done, here, List.getElem?_set_self lt, becomes]
    · rw [if_neg here] at happens
      refine ⟨b, ?_, .same happens⟩
      rw [done, List.getElem?_set_ne here]
      exact found

theorem makes_release (asid : Asid) (found : t.buffers[k]? = some b) :
    ∃ c, (t.perform (.release asid)).2.buffers[k]? = some c ∧ t.Makes k (.release asid) b c := by
  have after : (t.perform (.release asid)).2.buffers[k]? =
      some (if b.isLentTo asid then b.reclaim else b) := by
    simp [perform, release, found]
  have happens : t.event? k (.release asid) =
      if b.isLentTo asid then some (.released asid) else none := by
    simp [event?, perform, Request.event?, found]
  by_cases lent : b.isLentTo asid = true
  · rw [if_pos lent] at after happens
    exact ⟨b.reclaim, after, .event happens lent⟩
  · rw [if_neg lent] at after happens
    exact ⟨b, after, .same happens⟩

/-- A request leaves a buffer alone, or an allowed event happens to it. -/
theorem makes_perform (r : Request) (found : t.buffers[k]? = some b) :
    ∃ c, (t.perform r).2.buffers[k]? = some c ∧ t.Makes k r b c := by
  cases r with
  | addCredentials id caller target credentials =>
    cases known : t.checkApp target with
    | error e => exact makes_of_refused found (by rw [perform, addCredentials_eq, known])
    | ok =>
      have changes : t.perform (.addCredentials id caller target credentials) =
          t.change id (·.checkGrant t.grantLimit caller target) (·.grant target credentials) := by
        rw [perform, addCredentials_eq, known]
      exact makes_of_change found changes rfl (fun accepted => accepted) rfl
  | resetCredentials id caller =>
    have changes : t.perform (.resetCredentials id caller) =
        t.change id (·.checkReset caller) (·.reset) := resetCredentials_eq t id caller
    exact makes_of_change found changes rfl (fun accepted => accepted) rfl
  | transfer id source target =>
    cases known : t.checkApp target with
    | error e => exact makes_of_refused found (by rw [perform, transfer_eq, known])
    | ok =>
      have changes : t.perform (.transfer id source target) =
          t.change id (·.checkTransfer source target) (·.handTo target) := by
        rw [perform, transfer_eq, known]
      exact makes_of_change found changes rfl (fun accepted => accepted) rfl
  | release asid => exact makes_release asid found

/-- What holds of a buffer and its history at first, and is kept by every allowed event, holds after
all requests. -/
theorem history_induction {P : SharedBuffer → List Event → Prop} (first : P b [])
    (next : ∀ limit c log e, P c log → c.Allows limit e → P (c.after e) (log ++ [e]))
    (found : t.buffers[k]? = some b) (rs : List Request) :
    ∃ c, (t.run rs).buffers[k]? = some c ∧ P c (t.history k rs) := by
  induction rs using List.reverseRecOn with
  | nil => exact ⟨b, found, first⟩
  | append_singleton rs r ih =>
    obtain ⟨c, held, so⟩ := ih
    obtain ⟨d, held', made⟩ := makes_perform r held
    refine ⟨d, by rw [run_concat]; exact held', ?_⟩
    rw [history_concat]
    cases made with
    | same nothing => simpa [nothing] using so
    | event happens allowed => simpa [happens] using next _ _ _ _ so allowed

end BufferTable
end SeparationKernel
