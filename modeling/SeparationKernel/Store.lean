import SeparationKernel.Attempt
import SeparationKernel.Store.Check

/-! The descriptor store. The place of a descriptor in it is the application's number. -/
namespace SeparationKernel

structure Store where
  apps : List App := []
deriving DecidableEq, Repr

namespace Store

def checkNext (o : Options) (p : Platform) (count : Nat) (before : List App) (a : App) :
    Verdict ConfigError :=
  .all [
    a.check o p before.length count,
    .require (!(before.map (·.name)).contains a.name) (.duplicateName .apps (.label a.name))]

def check (o : Options) (p : Platform) (apps : List App) : Verdict ConfigError :=
  .all [
    App.checkCount .apps apps.length o.appCountMax,
    .eachAfter (checkNext o p apps.length) [] apps]

/-- Replaces what the store holds, unless a descriptor is refused. -/
def load (s : Store) (o : Options) (p : Platform) (apps : List App) : Verdict ConfigError × Store :=
  Attempt.on (do
    Attempt.check fun _ => check o p apps
    set (⟨apps⟩ : Store)) s

def get? (s : Store) (asid : Asid) : Option App := s.apps[asid.index]?

def entries (s : Store) : List (Asid × App) :=
  s.apps.zipIdx.map fun (a, i) => (.ofIndex i, a)

def find? (s : Store) (name : String) : Option (Asid × App) :=
  s.entries.find? (·.2.name == name)

def size (s : Store) : Nat := s.apps.length

theorem load_eq (s : Store) (o : Options) (p : Platform) (apps : List App) :
    s.load o p apps = Verdict.commit (check o p apps) s ⟨apps⟩ :=
  Attempt.on_check_modify _ _ s

@[simp] theorem load_fst (s : Store) (o : Options) (p : Platform) (apps : List App) :
    (s.load o p apps).1 = check o p apps := by
  rw [load_eq, Verdict.commit_fst]

@[simp] theorem length_entries (s : Store) : s.entries.length = s.size := by
  simp [entries, size]

end Store
end SeparationKernel
