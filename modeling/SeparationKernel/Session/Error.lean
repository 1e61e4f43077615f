import SeparationKernel.Config.Error
import SeparationKernel.Scheduler.Error

/-! What prevents a session from starting, or from going on. -/
namespace SeparationKernel

inductive FatalError where
  | config (error : ConfigError)
  | option (name : String) (value min max : Nat)
  | processSlots (count max : Nat)
  | sharedBufferBudget (total max : Nat)
  | dmaBudget (total max : Nat)
  | pirqBudget (total supported : Nat)
  | registerCount (declared actual : Nat)
  | registerRangeCount (declared actual : Nat)
  | authorizedBlockCount (declared actual : Nat)
  | callTimeMargin (systickTicks limit : Nat)
  | scheduling (timeout : SchedulingTimeout)
deriving DecidableEq, Repr

namespace FatalError

def message : FatalError → String
  | .config error => error.message
  | .option name value min max =>
    "option `" ++ name ++ "` is " ++ toString value ++ ", supported values are " ++ toString min ++
      "..=" ++ toString max
  | .processSlots count max =>
    toString count ++ " ukApps declared for " ++ toString max ++ " ukProc slots"
  | .sharedBufferBudget total max =>
    toString total ++ " shared buffers declared, at most " ++ toString max ++ " allowed"
  | .dmaBudget total max =>
    toString total ++ " DMA streams declared, at most " ++ toString max ++ " allowed"
  | .pirqBudget total supported =>
    toString total ++ " PIRQ grants for " ++ toString supported ++ " supported interrupt lines"
  | .registerCount declared actual =>
    "register table authorizes " ++ toString actual ++ " registers, " ++ toString declared ++
      " declared"
  | .registerRangeCount declared actual =>
    "register table holds " ++ toString actual ++ " ranges, " ++ toString declared ++ " declared"
  | .authorizedBlockCount declared actual =>
    "registry holds " ++ toString actual ++ " authorized extra blocks, " ++ toString declared ++
      " declared"
  | .callTimeMargin systickTicks limit =>
    "systick period is " ++ toString systickTicks ++
      " CPU ticks, needs at least twice the call time limit of " ++ toString limit
  | .scheduling timeout => timeout.message

def isFatal : FatalError → Bool
  | .scheduling timeout => timeout.isFatal
  | _ => true

end FatalError
end SeparationKernel
