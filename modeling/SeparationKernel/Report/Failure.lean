import SeparationKernel.Manifest

/-! Failures of commands: a message, and the causes behind it. -/
namespace SeparationKernel

structure Failure where
  message : String
  causes : List String := []
deriving DecidableEq, Repr

def Failure.ofTargetError (distance : String → String → Nat) (e : Manifest.TargetError) :
    Failure where
  message := (e.messages distance).headD ""
  causes := (e.messages distance).tail

end SeparationKernel
