import SeparationKernel.Manifest.Read
import SeparationKernel.Report.Simulation

/-! The commands: check a configuration file, or simulate the session that it describes. -/
namespace SeparationKernel

inductive Command where
  | check
  | simulate (simulation : Simulation)
deriving DecidableEq, Repr

/-- What a command leaves behind: its exit code, and what it wrote. -/
structure Outcome where
  code : UInt8 := 0
  stdout : String := ""
  stderr : String := ""
deriving DecidableEq, Repr

namespace Outcome

/-- Lines written before a failure stand. -/
def ofLines (libs : Libraries) (lines : List String) : Option Failure → Outcome
  | none => { stdout := Text.unlines lines }
  | some failure =>
    { code := 1, stdout := Text.unlines lines, stderr := "Error: " ++ libs.report failure ++ "\n" }

def ofFailure (libs : Libraries) (failure : Failure) : Outcome := ofLines libs [] (some failure)

def unread (libs : Libraries) (file cause : String) : Outcome :=
  ofFailure libs { message := "reading " ++ file, causes := [cause] }

end Outcome

def Libraries.manifest? (libs : Libraries) (text : String) : Option Manifest :=
  (libs.parse text).bind Manifest.ofDatum?

namespace Command

def session (libs : Libraries) (m : Manifest) : Except Failure Session :=
  (m.kernelConfig.mapError (.ofTargetError libs.distance)).bind fun config =>
    (Session.start config).mapError fun e =>
      { message := "starting session for '" ++ m.name ++ "'", causes := [e.message] }

def runOn (command : Command) (libs : Libraries) (m : Manifest) : Outcome :=
  match session libs m with
  | .error failure => .ofFailure libs failure
  | .ok s =>
    match command with
    | .check => .ofLines libs (s.summary m.name) none
    | .simulate sim =>
      match sim.prepare libs m s with
      | .error failure => .ofFailure libs failure
      | .ok first =>
        let (lines, failure) := sim.run m s first
        .ofLines libs lines failure

def run (command : Command) (libs : Libraries) (file text : String) : Outcome :=
  match libs.manifest? text with
  | none => .ofFailure libs { message := "parsing " ++ file, causes := [libs.complaint text] }
  | some m => command.runOn libs m

end Command
end SeparationKernel
