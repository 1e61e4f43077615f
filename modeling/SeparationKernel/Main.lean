import SeparationKernel.Command
import SeparationKernel.StandIn

/-! The command line: `check FILE`, or `simulate [--ticks N] [--start NAME] [--terminate NAME]
FILE`. -/
namespace SeparationKernel.CommandLine

def simulation? (sim : Simulation) : List String → Option (Simulation × String)
  | "--ticks" :: n :: rest => n.toNat?.bind fun ticks => simulation? { sim with ticks } rest
  | "--start" :: name :: rest => simulation? { sim with start := sim.start ++ [name] } rest
  | "--terminate" :: name :: rest =>
    simulation? { sim with terminate := sim.terminate ++ [name] } rest
  | [file] => some (sim, file)
  | _ => none

def command? : List String → Option (Command × String)
  | ["check", file] => some (.check, file)
  | "simulate" :: rest => (simulation? {} rest).map fun (sim, file) => (.simulate sim, file)
  | _ => none

def usage : Outcome where
  code := 2
  stderr := "usage: check FILE | simulate [--ticks N] [--start NAME] [--terminate NAME] FILE\n"

def cause : IO.Error → String
  | .noFileOrDirectory _ _ _ => "No such file or directory (os error 2)"
  | e => toString e

def outcome (arguments : List String) : IO Outcome :=
  match command? arguments with
  | none => pure usage
  | some (command, file) =>
    tryCatch (command.run .standIn file <$> IO.FS.readFile file) fun e =>
      pure (.unread .standIn file (cause e))

end SeparationKernel.CommandLine

def main (arguments : List String) : IO UInt32 := do
  let outcome ← SeparationKernel.CommandLine.outcome arguments
  IO.print outcome.stdout
  IO.eprint outcome.stderr
  return outcome.code.toUInt32
