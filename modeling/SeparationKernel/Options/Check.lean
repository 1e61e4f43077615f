import SeparationKernel.Check
import SeparationKernel.Options
import SeparationKernel.Session.Error

/-! Which options are supported. -/
namespace SeparationKernel.Options

def Key.bounds : Key → Nat × Nat
  | .appCountMax => (2, 64)
  | .appNameLengthMax => (1, 31)
  | .appIpcTargetCountMax => (2, 32)
  | .appPirqCountMax => (1, 32)
  | .appSharedBufferCountMax => (1, 32)
  | .appExtraBlockCountMax => (1, 32)
  | .appRegisterCountMax => (1, 32)
  | .appDmaStreamCountMax => (1, 16)
  | .processCountMax => (2, 32)
  | .priorityMax => (1, 31)
  | .cleanupQuantum => (2, 127)
  | .idleDurationMax => (2, 100000)
  | .sharedBufferCountMax => (1, 254)
  | .transferTargetMax => (1, 7)
  | .pirqSupportedCount => (1, 496)
  | .dmaInstanceCountMax => (1, 32)
  | .systickPeriodUs => (500, 1000000)
  | .callTimeLimit => (1000, 1000000)
  | .coreClockHz => (1000000, 250000000)

/-- Zero stands for no limit. -/
def Key.allowsZero : Key → Bool
  | .idleDurationMax => true
  | .callTimeLimit => true
  | _ => false

def Key.checkOrder : List Key :=
  [.appCountMax, .appNameLengthMax, .appIpcTargetCountMax, .appPirqCountMax,
    .appSharedBufferCountMax, .appExtraBlockCountMax, .appRegisterCountMax,
    .appDmaStreamCountMax, .processCountMax, .priorityMax, .cleanupQuantum, .sharedBufferCountMax,
    .transferTargetMax, .pirqSupportedCount, .dmaInstanceCountMax, .systickPeriodUs, .coreClockHz,
    .callTimeLimit, .idleDurationMax]

def isInBounds (o : Options) (k : Key) : Bool :=
  (k.allowsZero && o.get k == 0) ||
    (decide (k.bounds.1 ≤ o.get k) && decide (o.get k ≤ k.bounds.2))

def checkKey (o : Options) (k : Key) : Verdict FatalError :=
  .require (o.isInBounds k) (.option k.name (o.get k) k.bounds.1 k.bounds.2)

/-- Processor ticks from one systick to the next. -/
def systickTicks (o : Options) : Nat := o.systickPeriodUs.toNat * o.coreClockHz.toNat / 1000000

/-- A systick leaves room for two kernel calls, if their limit is known. -/
def checkCallTime (o : Options) : Verdict FatalError :=
  .require (o.callTimeLimit == 0 || decide (2 * o.callTimeLimit.toNat ≤ o.systickTicks))
    (.callTimeMargin o.systickTicks o.callTimeLimit.toNat)

def check (o : Options) : Verdict FatalError :=
  .all [.each o.checkKey Key.checkOrder, o.checkCallTime]

theorem Key.mem_checkOrder (k : Key) : k ∈ checkOrder := by
  cases k <;> decide

theorem isInBounds_iff {o : Options} {k : Key} :
    o.isInBounds k = true ↔
      k.allowsZero = true ∧ o.get k = 0 ∨ k.bounds.1 ≤ o.get k ∧ o.get k ≤ k.bounds.2 := by
  simp [isInBounds]

theorem check_eq_ok {o : Options} :
    o.check = .ok () ↔
      (∀ k, o.isInBounds k = true) ∧
        (o.callTimeLimit = 0 ∨ 2 * o.callTimeLimit.toNat ≤ o.systickTicks) := by
  simp only [check, checkCallTime, checkKey, Verdict.all_eq_ok, List.mem_cons, List.not_mem_nil,
    or_false, forall_eq_or_imp, forall_eq, Verdict.each_eq_ok, Verdict.require_eq_ok,
    Bool.or_eq_true, beq_iff_eq, decide_eq_true_eq]
  exact and_congr_left fun _ => ⟨fun h k => h k k.mem_checkOrder, fun h k _ => h k⟩

end SeparationKernel.Options
