/-! The limits and scheduling parameters of a session. Each option has a key, by which it is named
in files and messages. -/
namespace SeparationKernel

structure Options where
  /-- Descriptors a session may declare. -/
  appCountMax : UInt32 := 16
  /-- Longest name of an application, in bytes. -/
  appNameLengthMax : UInt32 := 31
  appIpcTargetCountMax : UInt32 := 8
  appPirqCountMax : UInt32 := 12
  appSharedBufferCountMax : UInt32 := 8
  appExtraBlockCountMax : UInt32 := 16
  appRegisterCountMax : UInt32 := 32
  appDmaStreamCountMax : UInt32 := 4
  /-- Slots in the process table. -/
  processCountMax : UInt32 := 16
  /-- Least important priority an application may have. -/
  priorityMax : UInt8 := 7
  /-- Systicks of processor time a terminating process gets. -/
  cleanupQuantum : UInt32 := 20
  /-- Longest run of idle systicks that is no failure; zero allows any. -/
  idleDurationMax : UInt32 := 1000
  /-- Shared buffers of all applications together. -/
  sharedBufferCountMax : UInt32 := 16
  /-- Applications, its owner apart, that one buffer may ever be granted to. -/
  transferTargetMax : UInt32 := 2
  /-- Interrupt lines of the processor. -/
  pirqSupportedCount : UInt32 := 130
  /-- Streams of all applications together. -/
  dmaInstanceCountMax : UInt32 := 16
  systickPeriodUs : UInt32 := 10000
  /-- Processor ticks spent in one kernel call at most; zero if not known. -/
  callTimeLimit : UInt32 := 150000
  coreClockHz : UInt32 := 250000000
deriving DecidableEq, Repr

namespace Options

inductive Key where
  | appCountMax
  | appNameLengthMax
  | appIpcTargetCountMax
  | appPirqCountMax
  | appSharedBufferCountMax
  | appExtraBlockCountMax
  | appRegisterCountMax
  | appDmaStreamCountMax
  | processCountMax
  | priorityMax
  | cleanupQuantum
  | idleDurationMax
  | sharedBufferCountMax
  | transferTargetMax
  | pirqSupportedCount
  | dmaInstanceCountMax
  | systickPeriodUs
  | callTimeLimit
  | coreClockHz
deriving DecidableEq, Repr

namespace Key

def all : List Key :=
  [.appCountMax, .appNameLengthMax, .appIpcTargetCountMax, .appPirqCountMax,
    .appSharedBufferCountMax, .appExtraBlockCountMax, .appRegisterCountMax,
    .appDmaStreamCountMax, .processCountMax, .priorityMax, .cleanupQuantum, .idleDurationMax,
    .sharedBufferCountMax, .transferTargetMax, .pirqSupportedCount, .dmaInstanceCountMax,
    .systickPeriodUs, .callTimeLimit, .coreClockHz]

def name : Key → String
  | .appCountMax => "ukapp-count-max"
  | .appNameLengthMax => "ukapp-name-length-max"
  | .appIpcTargetCountMax => "ukapp-ipc-send-to-count-max"
  | .appPirqCountMax => "ukapp-pirq-count-max"
  | .appSharedBufferCountMax => "ukapp-shared-buffer-count-max"
  | .appExtraBlockCountMax => "ukapp-extra-block-count-max"
  | .appRegisterCountMax => "ukapp-mcu-register-count-max"
  | .appDmaStreamCountMax => "ukapp-dma-stream-count-max"
  | .processCountMax => "ukproc-count-max"
  | .priorityMax => "priority-max"
  | .cleanupQuantum => "cleanup-quantum"
  | .idleDurationMax => "idle-duration-max"
  | .sharedBufferCountMax => "shared-buffer-count-max"
  | .transferTargetMax => "shared-buffer-transfer-target-max"
  | .pirqSupportedCount => "pirq-supported-count"
  | .dmaInstanceCountMax => "dma-instance-count-max"
  | .systickPeriodUs => "systick-period-us"
  | .callTimeLimit => "call-time-limit-cputick"
  | .coreClockHz => "core-clock-hz"

/-- How many values the option can hold. -/
def size : Key → Nat
  | .priorityMax => UInt8.size
  | _ => UInt32.size

def ofName? (s : String) : Option Key := all.find? (·.name == s)

theorem mem_all (k : Key) : k ∈ all := by
  cases k <;> decide

@[simp] theorem ofName?_name (k : Key) : ofName? k.name = some k := by
  cases k <;> decide +kernel

theorem ofName?_eq_some_iff {s : String} {k : Key} : ofName? s = some k ↔ s = k.name := by
  constructor
  · intro h
    have := List.find?_some h
    exact (beq_iff_eq.1 this).symm
  · rintro rfl
    simp

end Key

def get (o : Options) : Key → Nat
  | .appCountMax => o.appCountMax.toNat
  | .appNameLengthMax => o.appNameLengthMax.toNat
  | .appIpcTargetCountMax => o.appIpcTargetCountMax.toNat
  | .appPirqCountMax => o.appPirqCountMax.toNat
  | .appSharedBufferCountMax => o.appSharedBufferCountMax.toNat
  | .appExtraBlockCountMax => o.appExtraBlockCountMax.toNat
  | .appRegisterCountMax => o.appRegisterCountMax.toNat
  | .appDmaStreamCountMax => o.appDmaStreamCountMax.toNat
  | .processCountMax => o.processCountMax.toNat
  | .priorityMax => o.priorityMax.toNat
  | .cleanupQuantum => o.cleanupQuantum.toNat
  | .idleDurationMax => o.idleDurationMax.toNat
  | .sharedBufferCountMax => o.sharedBufferCountMax.toNat
  | .transferTargetMax => o.transferTargetMax.toNat
  | .pirqSupportedCount => o.pirqSupportedCount.toNat
  | .dmaInstanceCountMax => o.dmaInstanceCountMax.toNat
  | .systickPeriodUs => o.systickPeriodUs.toNat
  | .callTimeLimit => o.callTimeLimit.toNat
  | .coreClockHz => o.coreClockHz.toNat

def set (o : Options) (k : Key) (n : Nat) : Options :=
  match k with
  | .appCountMax => { o with appCountMax := UInt32.ofNat n }
  | .appNameLengthMax => { o with appNameLengthMax := UInt32.ofNat n }
  | .appIpcTargetCountMax => { o with appIpcTargetCountMax := UInt32.ofNat n }
  | .appPirqCountMax => { o with appPirqCountMax := UInt32.ofNat n }
  | .appSharedBufferCountMax => { o with appSharedBufferCountMax := UInt32.ofNat n }
  | .appExtraBlockCountMax => { o with appExtraBlockCountMax := UInt32.ofNat n }
  | .appRegisterCountMax => { o with appRegisterCountMax := UInt32.ofNat n }
  | .appDmaStreamCountMax => { o with appDmaStreamCountMax := UInt32.ofNat n }
  | .processCountMax => { o with processCountMax := UInt32.ofNat n }
  | .priorityMax => { o with priorityMax := UInt8.ofNat n }
  | .cleanupQuantum => { o with cleanupQuantum := UInt32.ofNat n }
  | .idleDurationMax => { o with idleDurationMax := UInt32.ofNat n }
  | .sharedBufferCountMax => { o with sharedBufferCountMax := UInt32.ofNat n }
  | .transferTargetMax => { o with transferTargetMax := UInt32.ofNat n }
  | .pirqSupportedCount => { o with pirqSupportedCount := UInt32.ofNat n }
  | .dmaInstanceCountMax => { o with dmaInstanceCountMax := UInt32.ofNat n }
  | .systickPeriodUs => { o with systickPeriodUs := UInt32.ofNat n }
  | .callTimeLimit => { o with callTimeLimit := UInt32.ofNat n }
  | .coreClockHz => { o with coreClockHz := UInt32.ofNat n }

theorem get_lt (o : Options) (k : Key) : o.get k < k.size := by
  cases k
  case priorityMax => exact o.priorityMax.toNat_lt
  all_goals exact UInt32.toNat_lt _

theorem get_set (o : Options) (k j : Key) {n : Nat} (h : n < k.size) :
    (o.set k n).get j = if j = k then n else o.get j := by
  cases k
  case priorityMax => cases j <;> simp [set, get, UInt8.toNat_ofNat_of_lt' h]
  all_goals cases j <;> simp [set, get, UInt32.toNat_ofNat_of_lt' h]

theorem ext_get {o p : Options} (h : ∀ k, o.get k = p.get k) : o = p := by
  obtain ⟨_, _, _, _, _, _, _, _, _, _, _, _, _, _, _, _, _, _, _⟩ := o
  obtain ⟨_, _, _, _, _, _, _, _, _, _, _, _, _, _, _, _, _, _, _⟩ := p
  have g := fun k => h k
  simp only [Options.mk.injEq]
  refine ⟨?_, ?_, ?_, ?_, ?_, ?_, ?_, ?_, ?_, ?_, ?_, ?_, ?_, ?_, ?_, ?_, ?_, ?_, ?_⟩
  · exact UInt32.toNat_inj.1 (g .appCountMax)
  · exact UInt32.toNat_inj.1 (g .appNameLengthMax)
  · exact UInt32.toNat_inj.1 (g .appIpcTargetCountMax)
  · exact UInt32.toNat_inj.1 (g .appPirqCountMax)
  · exact UInt32.toNat_inj.1 (g .appSharedBufferCountMax)
  · exact UInt32.toNat_inj.1 (g .appExtraBlockCountMax)
  · exact UInt32.toNat_inj.1 (g .appRegisterCountMax)
  · exact UInt32.toNat_inj.1 (g .appDmaStreamCountMax)
  · exact UInt32.toNat_inj.1 (g .processCountMax)
  · exact UInt8.toNat_inj.1 (g .priorityMax)
  · exact UInt32.toNat_inj.1 (g .cleanupQuantum)
  · exact UInt32.toNat_inj.1 (g .idleDurationMax)
  · exact UInt32.toNat_inj.1 (g .sharedBufferCountMax)
  · exact UInt32.toNat_inj.1 (g .transferTargetMax)
  · exact UInt32.toNat_inj.1 (g .pirqSupportedCount)
  · exact UInt32.toNat_inj.1 (g .dmaInstanceCountMax)
  · exact UInt32.toNat_inj.1 (g .systickPeriodUs)
  · exact UInt32.toNat_inj.1 (g .callTimeLimit)
  · exact UInt32.toNat_inj.1 (g .coreClockHz)

end Options
end SeparationKernel
