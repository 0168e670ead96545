import Whooshd.Runtime

namespace Whooshd
set_option autoImplicit true

inductive MemoryPressureClass where
  | unknown | normal | elevated | high | critical
  deriving DecidableEq, Repr

inductive CapacityMode where
  | fixed | adaptive
  deriving DecidableEq, Repr

inductive SchedulerPolicy where
  | fifo | cacheAwareFifo
  deriving DecidableEq, Repr

structure CapacityProfile where
  modelId : String
  runtime : String
  machineClass : String
  hostMemoryBytes : Option Int
  recommendedActiveConcurrency : Int
  deriving DecidableEq, Repr

/-- The configuration the broker reads at call time, with the capacity profile as the
controller's loader returns it. -/
structure Settings where
  enableQueue : Bool
  maxQueueDepth : Int
  queueTimeout : Time
  schedulerPolicy : SchedulerPolicy
  schedulerMaxBypass : Nat
  maxActiveRequests : Int
  capacityMode : CapacityMode
  capacityProfile : Option CapacityProfile
  capacityModelId : Option String
  capacityRuntime : Option String
  capacityMachineClass : Option String
  hostMemoryBytes : Option Int
  memoryPressureDeny : Bool
  maxMessages : Int
  maxPromptChars : Int
  maxRequestMaxTokens : Int
  deriving DecidableEq, Repr

inductive ProfileRejection where
  | missingProfile | identityUnavailable | modelMismatch | runtimeMismatch
  | machineMismatch | hostMemoryMismatch | hostMemoryUnavailable
  deriving DecidableEq, Repr

inductive CapacityAction where
  | run | queue | reject
  deriving DecidableEq, Repr

inductive CapacityDecisionReason where
  | belowOperatorCeiling | calibratedLimit | operatorCeiling | memoryPressureHigh
  | queueFull | contextOverflow | laneCapacity | runtimeNotReady
  deriving DecidableEq, Repr

structure CapacityContext where
  activeJobs : Nat
  queueDepth : Nat
  maxQueueDepth : Int
  runtimeReady : Bool
  memoryPressure : MemoryPressureClass
  /-- The request breaches a hard budget of its model (`evaluate_context`). -/
  overLimit : Bool
  lane : Option Lane
  laneMaxConcurrent : Option Int
  laneActiveJobs : Nat
  deriving DecidableEq, Repr

structure CapacityEvaluation where
  action : CapacityAction
  effectiveActiveLimit : Int
  operatorCeiling : Int
  mode : CapacityMode
  reason : CapacityDecisionReason
  calibratedConcurrency : Option Int
  memoryPressure : MemoryPressureClass
  profileLoaded : Bool
  profileEligible : Bool
  profileRejectionReason : Option ProfileRejection
  lane : Option Lane
  laneMaxConcurrent : Option Int
  laneActiveJobs : Nat
  laneLimited : Bool
  deriving DecidableEq, Repr

namespace Settings

/-- The defaults of the environment variables, with clock ticks of a millisecond. -/
def defaults : Settings :=
  { enableQueue := false, maxQueueDepth := 8, queueTimeout := 120000, schedulerPolicy := .fifo
    schedulerMaxBypass := 1, maxActiveRequests := 2, capacityMode := .fixed
    capacityProfile := none, capacityModelId := none, capacityRuntime := none
    capacityMachineClass := none, hostMemoryBytes := none, memoryPressureDeny := true
    maxMessages := 128, maxPromptChars := 262144, maxRequestMaxTokens := 32768 }

def hostStatus (cfg : Settings) (profile : CapacityProfile) : Bool × Option ProfileRejection :=
  match cfg.capacityRuntime, cfg.capacityMachineClass with
  | some runtime, some machineClass =>
    if profile.runtime ≠ runtime then (false, some .runtimeMismatch)
    else if profile.machineClass ≠ machineClass then (false, some .machineMismatch)
    else match profile.hostMemoryBytes, cfg.hostMemoryBytes with
      | some captured, some current =>
        if captured ≠ current then (false, some .hostMemoryMismatch) else (true, none)
      | some _, none => (false, some .hostMemoryUnavailable)
      | none, _ => (true, none)
  | _, _ => (false, some .identityUnavailable)

def profileStatus (cfg : Settings) :
    Option CapacityProfile × Bool × Option ProfileRejection :=
  match cfg.capacityProfile with
  | none => (none, false, some .missingProfile)
  | some profile =>
    match cfg.capacityModelId, cfg.capacityRuntime, cfg.capacityMachineClass with
    | some modelId, some _, some _ =>
      if profile.modelId ≠ modelId then (some profile, false, some .modelMismatch)
      else match cfg.hostStatus profile with
        | (true, _) => (some profile, true, none)
        | (false, reason) => (some profile, false, reason)
    | _, _, _ => (some profile, false, some .identityUnavailable)

def operatorCeiling (cfg : Settings) : Int := max cfg.maxActiveRequests 1

def effectiveActiveLimit (cfg : Settings) (memoryPressure : MemoryPressureClass) : Int :=
  match cfg.capacityMode with
  | .fixed => cfg.operatorCeiling
  | .adaptive =>
    match cfg.profileStatus with
    | (some profile, true, _) =>
      let limit := min cfg.operatorCeiling profile.recommendedActiveConcurrency
      let limit := if cfg.memoryPressureDeny = true ∧
          (memoryPressure = .high ∨ memoryPressure = .critical) ∧ 1 < limit
        then max (limit / 2) 1 else limit
      max limit 1
    | _ => cfg.operatorCeiling

/-- The calibrated concurrency that `evaluate` reports, read in adaptive mode only. -/
def calibrated (cfg : Settings) : Option Int :=
  match cfg.capacityMode, cfg.profileStatus with
  | .adaptive, (some profile, true, _) => some profile.recommendedActiveConcurrency
  | _, _ => none

def laneAvailable (ctx : CapacityContext) : Bool :=
  match ctx.laneMaxConcurrent with
  | none => true
  | some m => (ctx.laneActiveJobs : Int) < max m 1

/-- Even with a free slot the controller holds the last one back under high pressure. -/
def pressureOverride (cfg : Settings) (ctx : CapacityContext) (limit : Int) : Bool :=
  cfg.memoryPressureDeny && ctx.memoryPressure = .high && limit ≤ ctx.activeJobs + 1

/-- The verdict of `evaluate`: the action, its reason, and whether the lane bound it. -/
def verdict (cfg : Settings) (ctx : CapacityContext) :
    CapacityAction × CapacityDecisionReason × Bool :=
  let limit := cfg.effectiveActiveLimit ctx.memoryPressure
  if ctx.overLimit then (.reject, .contextOverflow, false)
  else if ctx.runtimeReady = false then (.reject, .runtimeNotReady, false)
  else if (ctx.activeJobs : Int) < limit ∧ laneAvailable ctx = true then
    if cfg.pressureOverride ctx limit then (.queue, .memoryPressureHigh, false)
    else match cfg.calibrated with
      | some c =>
        (.run, if c < cfg.operatorCeiling then .calibratedLimit else .operatorCeiling, false)
      | none => (.run, .belowOperatorCeiling, false)
  else
    let queueHasRoom : Bool := (ctx.queueDepth : Int) < ctx.maxQueueDepth
    if laneAvailable ctx = false then
      (if queueHasRoom then .queue else .reject, .laneCapacity, true)
    else if queueHasRoom = false then (.reject, .queueFull, false)
    else match cfg.calibrated with
      | some _ => (.queue, .calibratedLimit, false)
      | none => (.queue, .operatorCeiling, false)

def evaluate (cfg : Settings) (ctx : CapacityContext) : CapacityEvaluation :=
  let (action, reason, laneLimited) := cfg.verdict ctx
  let (loaded, eligible, rejection) := match cfg.capacityMode, cfg.profileStatus with
    | .fixed, _ => (false, false, none)
    | .adaptive, (profile, eligible, rejection) => (profile.isSome, eligible, rejection)
  { action, reason, laneLimited
    effectiveActiveLimit := cfg.effectiveActiveLimit ctx.memoryPressure
    operatorCeiling := cfg.operatorCeiling
    mode := cfg.capacityMode
    calibratedConcurrency := cfg.calibrated
    memoryPressure := ctx.memoryPressure
    profileLoaded := loaded, profileEligible := eligible, profileRejectionReason := rejection
    lane := ctx.lane, laneMaxConcurrent := ctx.laneMaxConcurrent
    laneActiveJobs := ctx.laneActiveJobs }

theorem operatorCeiling_pos (cfg : Settings) : 1 ≤ cfg.operatorCeiling := Int.le_max_right _ _

theorem effectiveActiveLimit_pos (cfg : Settings) (p : MemoryPressureClass) :
    1 ≤ cfg.effectiveActiveLimit p := by
  simp only [effectiveActiveLimit]
  split
  · exact cfg.operatorCeiling_pos
  · split
    · exact Int.le_max_right _ _
    · exact cfg.operatorCeiling_pos

theorem verdict_run (h : (verdict cfg ctx).1 = .run) :
    (ctx.activeJobs : Int) < cfg.effectiveActiveLimit ctx.memoryPressure ∧
      laneAvailable ctx = true := by
  simp only [verdict] at h
  split at h
  · cases h
  · split at h
    · cases h
    · split at h
      · next hb => exact hb
      · split at h
        · split at h <;> cases h
        · split at h
          · cases h
          · split at h <;> cases h

/-- A request is sent to the queue only where the queue has room, or where high pressure
holds back a free slot. -/
theorem verdict_queue (h : (verdict cfg ctx).1 = .queue) :
    (ctx.queueDepth : Int) < ctx.maxQueueDepth ∨
      cfg.pressureOverride ctx (cfg.effectiveActiveLimit ctx.memoryPressure) = true := by
  simp only [verdict] at h
  split at h
  · cases h
  · split at h
    · cases h
    · split at h
      · split at h
        · next hp => exact .inr hp
        · split at h <;> cases h
      · split at h
        · split at h
          · next hq => exact .inl (of_decide_eq_true hq)
          · cases h
        · split at h
          · cases h
          · next hq => exact .inl (by simpa using hq)

/-- A refusal that is not about the request itself means that the queue has no room. -/
theorem verdict_reject (h : (verdict cfg ctx).1 = .reject)
    (hc : (verdict cfg ctx).2.1 ≠ .contextOverflow)
    (hr : (verdict cfg ctx).2.1 ≠ .runtimeNotReady) :
    ctx.maxQueueDepth ≤ (ctx.queueDepth : Int) := by
  simp only [verdict] at h hc hr
  split at h
  · next ho => simp [ho] at hc
  · next ho =>
    split at h
    · next hn => simp [ho, hn] at hr
    · split at h
      · split at h
        · cases h
        · split at h <;> cases h
      · split at h
        · split at h
          · cases h
          · next hq => simpa using hq
        · split at h
          · next hq => simpa using hq
          · split at h <;> cases h

end Settings

end Whooshd
