import SeparationKernel.Datum
import SeparationKernel.Report.Failure

/-! What the commands leave to libraries. Nothing is assumed of them. -/
namespace SeparationKernel

structure Libraries where
  /-- The contents of a configuration file, if it is well formed. -/
  parse : String → Option Datum
  /-- What is wrong with a file that holds no configuration. -/
  complaint : String → String
  /-- How many edits a name is away from another. -/
  distance : String → String → Nat
  /-- A failure with its causes, as it is shown to the user. -/
  report : Failure → String

end SeparationKernel
