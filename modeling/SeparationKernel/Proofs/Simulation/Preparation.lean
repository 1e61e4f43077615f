import Mathlib
import SeparationKernel.Command
import SeparationKernel.Proofs.Manifest.Names
import SeparationKernel.Proofs.Session.Staging

/-! What a simulation does before its first systick. It starts applications, and asks for the
termination of some. Nothing but a name can be at fault there. -/
namespace SeparationKernel

theorem exists_of_mapM_append_cons {α β ε : Type} {f : α → Except ε β} {before after : List α}
    {x : α} {front ys : List β} (mapped : (before ++ x :: after).mapM f = .ok ys)
    (first : before.mapM f = .ok front) : ∃ y rest, f x = .ok y ∧ ys = front ++ y :: rest := by
  rw [List.mapM_append, first] at mapped
  have mapped : ((x :: after).mapM f).bind (fun tail => .ok (front ++ tail)) = .ok ys := mapped
  obtain ⟨tail, mapped_tail, same⟩ := bind_eq_ok.1 mapped
  rw [List.mapM_cons] at mapped_tail
  obtain ⟨y, here, mapped_rest⟩ := bind_eq_ok.1 mapped_tail
  obtain ⟨rest, _, same_tail⟩ := bind_eq_ok.1 mapped_rest
  exact ⟨y, rest, here, by rw [← Except.ok.inj same, ← Except.ok.inj same_tail]⟩

namespace Manifest

/-- The session has the applications of the manifest, in its order. -/
structure Describes (m : Manifest) (session : Session) : Prop where
  sound : session.Sound
  distinct : m.appNames.Nodup
  names : session.store.apps.map (·.name) = m.appNames

variable {libs : Libraries} {m : Manifest} {session : Session} {name : String} {a : Asid}

theorem describes_of_session (opened : Command.session libs m = .ok session) :
    m.Describes session := by
  obtain ⟨c, lowered, started⟩ := bind_eq_ok.1 opened
  have started := mapError_eq_ok.1 started
  have from_config := Session.start_eq_ok_iff.1 started
  have names : c.apps.map (·.name) = m.appNames :=
    map_name_of_forall₂ (forall₂_of_kernelConfig (mapError_eq_ok.1 lowered))
  refine ⟨Session.sound_of_start started, ?_, ?_⟩
  · rw [← names]
    exact from_config.accepts.nodup_names
  · rw [from_config.apps, names]

namespace Describes

theorem exists_app (h : m.Describes session) (resolved : m.asid name = .ok a) :
    ∃ app, session.store.get? a = some app := by
  rw [asid_eq_ok_iff h.distinct, ← h.names, List.getElem?_map, Option.map_eq_some_iff] at resolved
  obtain ⟨app, described, _⟩ := resolved
  exact ⟨app, described⟩

theorem mem_of_asid_eq_ok (h : m.Describes session) (resolved : m.asid name = .ok a) :
    name ∈ m.appNames :=
  List.mem_of_getElem? ((asid_eq_ok_iff h.distinct).1 resolved)

theorem eq_unknown_of_asid_eq_error (h : m.Describes session) {e : NameError}
    (unresolved : m.asid name = .error e) : name ∉ m.appNames ∧ e = m.unknownName name := by
  have few : m.appNames.length ≤ 256 := by
    rw [← h.names, List.length_map]
    exact h.sound.size_le
  rw [asid] at unresolved
  cases found : m.appNames.idxOf? name with
  | none =>
    rw [found] at unresolved
    exact ⟨List.idxOf?_eq_none_iff.1 found, (Except.error.inj unresolved).symm⟩
  | some i =>
    obtain ⟨lt, _⟩ := List.idxOf?_eq_some_iff.1 found
    rw [found] at unresolved
    simp [lt.trans_le few] at unresolved

end Describes

end Manifest

namespace Simulation

open Session (Stage)

/-- An application can not be started once those of `started` have been. -/
inductive StartFault (libs : Libraries) (m : Manifest) (started : List Asid) (name : String) :
    Failure → Prop where
  | unknown (absent : name ∉ m.appNames) :
    StartFault libs m started name { message := (m.unknownName name).message libs.distance }
  | live {a : Asid} (resolved : m.asid name = .ok a) (mem : a ∈ started) :
    StartFault libs m started name {
      message := "starting '" ++ name ++ "'"
      causes := [(SpawnError.alreadyLive a).message] }

/-- The termination of an application's process can not be asked for, of those in `started`, once
that of those in `condemned` has been. -/
inductive TerminateFault (libs : Libraries) (m : Manifest) (started condemned : List Asid)
    (name : String) : Failure → Prop where
  | unknown (absent : name ∉ m.appNames) :
    TerminateFault libs m started condemned name
      { message := (m.unknownName name).message libs.distance }
  | notLive {a : Asid} (resolved : m.asid name = .ok a) (absent : a ∉ started) :
    TerminateFault libs m started condemned name
      { message := "'" ++ name ++ "' has no live ukProc" }
  | terminating {a : Asid} {id : ProcessId} (resolved : m.asid name = .ok a) (mem : a ∈ condemned)
      (place : started[id.index]? = some a) :
    TerminateFault libs m started condemned name
      { message := (ProcessError.terminating id).message }

/-- The first name of a list that has a fault, after names that stand for the numbers the fault is
about. -/
def FirstFault (m : Manifest) (Fault : List Asid → String → Failure → Prop) (names : List String)
    (failure : Failure) : Prop :=
  ∃ before name after front, names = before ++ name :: after ∧ before.mapM m.asid = .ok front ∧
    Fault front name failure

inductive Misnamed (sim : Simulation) (libs : Libraries) (m : Manifest) (session : Session)
    (failure : Failure) : Prop where
  | start (fault : FirstFault m (fun front => StartFault libs m (session.startAtBoot ++ front))
      sim.start failure)
  | terminate {extras : List Asid} (started : sim.start.mapM m.asid = .ok extras)
      (fault : FirstFault m (TerminateFault libs m (session.startAtBoot ++ extras)) sim.terminate
        failure)

variable {sim : Simulation} {libs : Libraries} {m : Manifest} {session : Session} {s : Scheduler}
  {holder : Option Asid} {started condemned extras targets : List Asid} {name : String}
  {names : List String} {failure : Failure} {a : Asid}

namespace FirstFault

variable {Fault : List Asid → String → Failure → Prop}

theorem head (fault : Fault [] name failure) (names : List String) :
    FirstFault m Fault (name :: names) failure :=
  ⟨[], name, names, [], rfl, rfl, fault⟩

theorem cons (resolved : m.asid name = .ok a)
    (later : FirstFault m (fun front => Fault (a :: front)) names failure) :
    FirstFault m Fault (name :: names) failure := by
  obtain ⟨before, other, after, front, rfl, mapped, fault⟩ := later
  refine ⟨name :: before, other, after, a :: front, rfl, ?_, fault⟩
  rw [List.mapM_cons, resolved, mapped]
  rfl

end FirstFault

theorem ofName_cases (h : m.Describes session) (name : String) :
    (∃ a app, m.asid name = .ok a ∧ ofName libs m name = .ok a ∧ session.store.get? a = some app) ∨
      name ∉ m.appNames ∧
        ofName libs m name = .error { message := (m.unknownName name).message libs.distance } := by
  cases resolved : m.asid name with
  | ok a =>
    obtain ⟨app, described⟩ := h.exists_app resolved
    exact Or.inl ⟨a, app, rfl, by rw [ofName, resolved]; rfl, described⟩
  | error e =>
    obtain ⟨absent, rfl⟩ := h.eq_unknown_of_asid_eq_error resolved
    exact Or.inr ⟨absent, by rw [ofName, resolved]; rfl⟩

theorem startAll_cons (found : ofName libs m name = .ok a) (s : Scheduler) (names : List String) :
    startAll libs m s (name :: names) =
      ((s.instantiate a).1.mapError fun e =>
        Failure.mk ("starting '" ++ name ++ "'") [e.message]).bind
          fun _ => startAll libs m (s.instantiate a).2 names := by
  rw [startAll, found]
  rcases made : s.instantiate a with ⟨_ | _, _⟩ <;> simp only [bind, Except.bind, made] <;> rfl

theorem terminateAll_cons (found : ofName libs m name = .ok a) {id : ProcessId}
    (live : s.ofApp? a = some id) (names : List String) :
    terminateAll libs m s (name :: names) =
      ((s.requestTermination id).1.mapError fun e => Failure.mk e.message []).bind
        fun _ => terminateAll libs m (s.requestTermination id).2 names := by
  rw [terminateAll, found]
  rcases asked : s.requestTermination id with ⟨_ | _, _⟩ <;>
    simp only [bind, Except.bind, live, asked] <;> rfl

/-- All applications of a list are started, or there is one that can not be. -/
theorem startAll_cases (h : m.Describes session) (stage : session.Stage holder started [] s)
    (names : List String) :
    (∃ extras next, names.mapM m.asid = .ok extras ∧ startAll libs m s names = .ok next ∧
        session.Stage holder (started ++ extras) [] next) ∨
      ∃ failure, FirstFault m (fun front => StartFault libs m (started ++ front)) names failure ∧
        startAll libs m s names = .error failure := by
  induction names generalizing s started with
  | nil => exact Or.inl ⟨[], s, rfl, rfl, by rwa [List.append_nil]⟩
  | cons name names ih =>
    rcases ofName_cases h name with ⟨a, app, resolved, found, described⟩ | ⟨absent, found⟩
    · by_cases live : a ∈ started
      · have refused := stage.instantiate_eq_error h.sound live
        refine Or.inr ⟨_, .head (.live resolved (by simpa using live)) names, ?_⟩
        rw [startAll_cons found, refused]
        rfl
      · obtain ⟨id, made, stage'⟩ := stage.instantiate h.sound described live
        rw [startAll_cons found, made]
        rcases ih stage' with ⟨extras, next, mapped, done, stage''⟩ | ⟨failure, fault, failed⟩
        · refine Or.inl ⟨a :: extras, next, ?_, done, by rwa [List.append_cons]⟩
          rw [List.mapM_cons, resolved, mapped]
          rfl
        · refine Or.inr ⟨failure, .cons resolved ?_, failed⟩
          simpa using fault
    · exact Or.inr ⟨_, .head (.unknown absent) names, by rw [startAll, found]; rfl⟩

/-- Termination is asked for of all applications of a list, or there is one of which it can not be.
-/
theorem terminateAll_cases (h : m.Describes session)
    (stage : session.Stage holder started condemned s) (names : List String) :
    (∃ targets next, names.mapM m.asid = .ok targets ∧ terminateAll libs m s names = .ok next ∧
        session.Stage holder started (condemned ++ targets) next) ∨
      ∃ failure,
        FirstFault m (fun front => TerminateFault libs m started (condemned ++ front)) names
          failure ∧
        terminateAll libs m s names = .error failure := by
  induction names generalizing s condemned with
  | nil => exact Or.inl ⟨[], s, rfl, rfl, by rwa [List.append_nil]⟩
  | cons name names ih =>
    rcases ofName_cases h name with ⟨a, _, resolved, found, _⟩ | ⟨absent, found⟩
    · rcases stage.listed.ofApp? a with ⟨absent, nobody⟩ | ⟨i, p, held, rfl, live⟩
      · refine Or.inr ⟨_, .head (.notLive resolved absent) names, ?_⟩
        rw [terminateAll, found]
        simp only [bind, Except.bind, nobody]
      · have consistent := stage.early.consistent h.sound
        by_cases again : p.asid ∈ condemned
        · have refused := Scheduler.requestTermination_eq_error consistent held
            (stage.cleans i p held again)
          have place : started[p.id.index]? = some p.asid := by
            rw [(consistent.named i p held).1]
            exact stage.listed.getElem? held
          refine Or.inr ⟨_, .head (.terminating resolved (by simpa using again) place) names, ?_⟩
          rw [terminateAll_cons found live, refused]
          rfl
        · have granted := Scheduler.requestTermination_eq_ok consistent held
            (stage.healthy i p held again)
          have stage' := stage.condemn h.sound held again
          rw [terminateAll_cons found live, granted]
          rcases ih stage' with ⟨targets, next, mapped, done, stage''⟩ | ⟨failure, fault, failed⟩
          · refine Or.inl ⟨p.asid :: targets, next, ?_, done, by rwa [List.append_cons]⟩
            rw [List.mapM_cons, resolved, mapped]
            rfl
          · refine Or.inr ⟨failure, .cons resolved ?_, failed⟩
            simpa using fault
    · exact Or.inr ⟨_, .head (.unknown absent) names, by rw [terminateAll, found]; rfl⟩

/-- A simulation gets to its first systick, unless one of its names is at fault. -/
theorem prepare_cases (libs : Libraries) (h : m.Describes session) (sim : Simulation) :
    (∃ failure, sim.Misnamed libs m session failure ∧ sim.prepare libs m session = .error failure) ∨
      ∃ booted extras targets last, session.scheduler = .ok booted ∧
        sim.start.mapM m.asid = .ok extras ∧ sim.terminate.mapM m.asid = .ok targets ∧
        session.Stage (booted.currentProcess?.map (·.asid)) (session.startAtBoot ++ extras) targets
          last ∧
        sim.prepare libs m session = .ok last.schedule := by
  obtain ⟨booted, boots, stage⟩ := h.sound.stage
  have prepare : sim.prepare libs m session =
      (startAll libs m booted sim.start).bind fun begun =>
        (terminateAll libs m begun sim.terminate).bind fun last => .ok last.schedule := by
    rw [Simulation.prepare, boots]
    rfl
  rw [prepare]
  rcases startAll_cases h stage sim.start with
    ⟨extras, begun, mapped, done, stage⟩ | ⟨failure, fault, failed⟩
  · rw [done]
    rcases terminateAll_cases h stage sim.terminate with
      ⟨targets, last, mapped', done', stage'⟩ | ⟨failure, fault, failed⟩
    · exact Or.inr ⟨booted, extras, targets, last, boots, mapped, mapped', stage', by
        rw [Except.bind, done']; rfl⟩
    · exact Or.inl ⟨failure, .terminate mapped fault, by rw [Except.bind, failed]; rfl⟩
  · exact Or.inl ⟨failure, .start fault, by rw [failed]; rfl⟩

theorem not_misnamed (h : m.Describes session) (started : sim.start.mapM m.asid = .ok extras)
    (condemned : sim.terminate.mapM m.asid = .ok targets)
    (fresh : (session.startAtBoot ++ extras).Nodup)
    (all : targets.Perm (session.startAtBoot ++ extras)) :
    ¬ sim.Misnamed libs m session failure := by
  rintro (⟨before, name, after, front, split, mapped, fault⟩ |
    @⟨extras', started', before, name, after, front, split, mapped, fault⟩)
  · rw [split] at started
    obtain ⟨a, rest, resolved, rfl⟩ := exists_of_mapM_append_cons started mapped
    cases fault with
    | unknown absent => exact absent (h.mem_of_asid_eq_ok resolved)
    | live resolved' mem =>
      obtain rfl := Except.ok.inj (resolved.symm.trans resolved')
      rw [← List.append_assoc] at fresh
      exact (List.nodup_append.1 fresh).2.2 a mem a (by simp) rfl
  · obtain rfl := Except.ok.inj (started.symm.trans started')
    rw [split] at condemned
    obtain ⟨a, rest, resolved, rfl⟩ := exists_of_mapM_append_cons condemned mapped
    cases fault with
    | unknown absent => exact absent (h.mem_of_asid_eq_ok resolved)
    | notLive resolved' absent =>
      obtain rfl := Except.ok.inj (resolved.symm.trans resolved')
      exact absent (all.subset (by simp))
    | terminating resolved' mem place =>
      obtain rfl := Except.ok.inj (resolved.symm.trans resolved')
      have apart := all.symm.nodup fresh
      exact (List.nodup_append.1 apart).2.2 a mem a (by simp) rfl

end Simulation
end SeparationKernel
