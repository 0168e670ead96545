import Whooshd.Capacity

namespace Whooshd
set_option autoImplicit true

inductive AdmissionDecision where
  | accepted | queued | rejectedOverloaded | rejectedQueueFull | rejectedPromptTooLarge
  | rejectedTooManyMessages | rejectedMaxTokensTooHigh | rejectedModelNotReady
  | rejectedContextOverflow
  deriving DecidableEq, Repr

inductive ErrorCode where
  | invalidRequest | contextOverflow | queueFull | runnerOverloaded | modelUnavailable
  | modelNotFound | unsupportedCapability | unsupportedField | cancelled | timeout
  | internalError
  deriving DecidableEq, Repr

structure AdmissionResult where
  accepted : Bool
  reason : AdmissionDecision
  errorCode : Option ErrorCode
  message : Option String
  httpStatus : Nat
  deriving DecidableEq, Repr

/-- What route resolution tells the handler about the adapter that will run the request. -/
structure RuntimeResolution where
  lane : Option Lane
  laneMaxConcurrent : Option Int
  supportsStreaming : Bool
  supportsVision : Bool
  deriving DecidableEq, Repr

/-- The parts of a chat completion request that admission and dispatch read. The token cost
and the budget verdict are those of `estimate_request_cost` and `evaluate_context`; the length
and the cost are 0 where the estimate raises. -/
structure ChatRequest where
  model : String
  stream : Bool
  upstreamRequestId : Option String
  messageCount : Nat
  promptChars : Nat
  maxTokens : Option Int
  totalTokens : Nat
  overLimit : Bool
  hasImage : Bool
  /-- `ensure_backend_chat_request` finds no unsupported field. -/
  fieldsSupported : Bool
  deriving DecidableEq, Repr

def memoryPressureFromRuntime (rt : RuntimeState) : MemoryPressureClass :=
  match rt.memoryPressure with
  | .absent => .unknown
  | .member .low => .unknown
  | .member .normal => .normal
  | .member .warning => .unknown
  | .member .critical => .critical
  | .text s =>
    let val := s.toLower
    if val = "normal" then .normal
    else if val = "elevated" then .elevated
    else if val = "high" then .high
    else if val = "critical" then .critical
    else .unknown

def capacityContext (cfg : Settings) (rt : RuntimeState) (req : ChatRequest)
    (lane : Option Lane) (laneMaxConcurrent : Option Int) : CapacityContext :=
  { activeJobs := rt.activeJobs
    queueDepth := rt.queueDepth
    maxQueueDepth := cfg.maxQueueDepth
    runtimeReady := true
    memoryPressure := memoryPressureFromRuntime rt
    overLimit := req.overLimit
    lane, laneMaxConcurrent
    laneActiveJobs := rt.activeJobsForLane lane }

def contextOverflowResult (totalTokens : Nat) : AdmissionResult :=
  { accepted := false, reason := .rejectedContextOverflow, errorCode := some .contextOverflow
    message := some s!"Request exceeds the model's hard context budget ({totalTokens} tokens)."
    httpStatus := 422 }

/-- The capacity part of `evaluate_chat_request`. -/
def admitByCapacity (cfg : Settings) (rt : RuntimeState) (req : ChatRequest)
    (lane : Option Lane) (laneMaxConcurrent : Option Int) : AdmissionResult :=
  let evaluation := cfg.evaluate (capacityContext cfg rt req lane laneMaxConcurrent)
  let maxActive := cfg.maxActiveRequests
  let maxQueue := cfg.maxQueueDepth
  let depth := rt.queueDepth
  match evaluation.action with
  | .run =>
    { accepted := true, reason := .accepted, errorCode := none, message := none
      httpStatus := 200 }
  | .reject =>
    if evaluation.reason = .contextOverflow then contextOverflowResult req.totalTokens
    else if evaluation.reason = .runtimeNotReady then
      { accepted := false, reason := .rejectedModelNotReady, errorCode := some .modelUnavailable
        message := some "Runtime is not ready.", httpStatus := 503 }
    else
      { accepted := false, reason := .rejectedQueueFull, errorCode := some .queueFull
        message := some ("Whoosh'd is at capacity and the queue is full " ++
          s!"(depth {depth}/{maxQueue}).")
        httpStatus := 429 }
  | .queue =>
    if cfg.enableQueue then
      { accepted := false, reason := .queued, errorCode := none, message := none
        httpStatus := 202 }
    else
      { accepted := false, reason := .rejectedOverloaded, errorCode := some .runnerOverloaded
        message := some s!"Whoosh'd is at its active request limit ({maxActive})."
        httpStatus := 429 }

/-- The structural checks let the request through to the estimate of its cost. -/
def withinLimits (cfg : Settings) (req : ChatRequest) : Bool :=
  decide ((req.messageCount : Int) ≤ cfg.maxMessages) &&
    decide ((req.promptChars : Int) ≤ cfg.maxPromptChars) &&
    req.maxTokens.all fun m => decide (m ≤ cfg.maxRequestMaxTokens)

def evaluateChatRequest (cfg : Settings) (rt : RuntimeState) (req : ChatRequest)
    (lane : Option Lane) (laneMaxConcurrent : Option Int) : AdmissionResult :=
  let n := req.messageCount
  let chars := req.promptChars
  let maxMessages := cfg.maxMessages
  let maxChars := cfg.maxPromptChars
  let cap := cfg.maxRequestMaxTokens
  if (n : Int) > maxMessages then
    { accepted := false, reason := .rejectedTooManyMessages, errorCode := some .invalidRequest
      message := some s!"Too many messages: {n} (max {maxMessages}).", httpStatus := 400 }
  else if (chars : Int) > maxChars then
    { accepted := false, reason := .rejectedPromptTooLarge, errorCode := some .contextOverflow
      message := some s!"Prompt too large: ~{chars} chars estimated (max {maxChars})."
      httpStatus := 400 }
  else match req.maxTokens with
    | some m =>
      if m > cap then
        { accepted := false, reason := .rejectedMaxTokensTooHigh
          errorCode := some .invalidRequest
          message := some s!"max_tokens {m} exceeds server cap {cap}.", httpStatus := 400 }
      else admitByCapacity cfg rt req lane laneMaxConcurrent
    | none => admitByCapacity cfg rt req lane laneMaxConcurrent

def effectiveLimit (cfg : Settings) (rt : RuntimeState) : Int :=
  cfg.effectiveActiveLimit (memoryPressureFromRuntime rt)

def activeCapacityAvailable (cfg : Settings) (rt : RuntimeState) (lane : Option Lane)
    (laneMaxConcurrent : Option Int) : Bool :=
  if effectiveLimit cfg rt ≤ rt.activeJobs then false
  else match laneMaxConcurrent, lane with
    | some m, some l => l = "" || decide ((rt.activeJobsForLane (some l) : Int) < max m 1)
    | _, _ => true

theorem activeCapacityAvailable_global
    (h : activeCapacityAvailable cfg rt lane m = true) :
    (rt.activeJobs : Int) < effectiveLimit cfg rt := by
  simp only [activeCapacityAvailable] at h
  split at h
  · cases h
  · next hl => omega

theorem activeCapacityAvailable_lane
    (h : activeCapacityAvailable cfg rt (some l) (some m) = true) :
    (rt.activeJobsForLane (some l) : Int) < max m 1 := by
  simp only [activeCapacityAvailable] at h
  split at h
  · cases h
  · simp only [Bool.or_eq_true, decide_eq_true_eq] at h
    rcases h with he | hl
    · subst he
      simp only [RuntimeState.activeJobsForLane, if_true]
      omega
    · exact hl

theorem evaluateChatRequest_capacity
    (h : (evaluateChatRequest cfg rt req lane m).reason = .accepted ∨
      (evaluateChatRequest cfg rt req lane m).reason = .queued ∨
      (evaluateChatRequest cfg rt req lane m).reason = .rejectedQueueFull) :
    evaluateChatRequest cfg rt req lane m = admitByCapacity cfg rt req lane m := by
  simp only [evaluateChatRequest] at h ⊢
  split
  · next hn => simp [hn] at h
  · next hn =>
    split
    · next hc => simp [hn, hc] at h
    · next hc =>
      split
      · next k hk =>
        split
        · next hm => simp [hn, hc, hk, hm] at h
        · rfl
      · rfl

theorem evaluateChatRequest_reason
    (h : (evaluateChatRequest cfg rt req lane m).accepted = true) :
    (evaluateChatRequest cfg rt req lane m).reason = .accepted := by
  have hcap : ∀ {r : AdmissionResult}, r = admitByCapacity cfg rt req lane m →
      r.accepted = true → r.reason = .accepted := by
    rintro r rfl ha
    simp only [admitByCapacity] at ha ⊢
    split
    · rfl
    · next hact =>
      simp only [hact] at ha
      split at ha
      · cases ha
      · split at ha <;> cases ha
    · next hact =>
      simp only [hact] at ha
      split at ha <;> cases ha
  simp only [evaluateChatRequest] at h ⊢
  split
  · next hn => simp [hn] at h
  · next hn =>
    split
    · next hc => simp [hn, hc] at h
    · next hc =>
      split
      · next k hk =>
        split
        · next hm => simp [hn, hc, hk, hm] at h
        · next hm => exact hcap rfl (by simpa [hn, hc, hk, hm] using h)
      · next hk => exact hcap rfl (by simpa [hn, hc, hk] using h)

theorem evaluate_action (cfg : Settings) (ctx : CapacityContext) :
    (cfg.evaluate ctx).action = (cfg.verdict ctx).1 := rfl

theorem evaluate_reason (cfg : Settings) (ctx : CapacityContext) :
    (cfg.evaluate ctx).reason = (cfg.verdict ctx).2.1 := rfl

theorem evaluateChatRequest_accepted
    (h : (evaluateChatRequest cfg rt req lane m).reason = .accepted) :
    (rt.activeJobs : Int) < effectiveLimit cfg rt ∧
      ∀ k, m = some k → (rt.activeJobsForLane lane : Int) < max k 1 := by
  rw [evaluateChatRequest_capacity (.inl h)] at h
  simp only [admitByCapacity] at h
  split at h
  · next ha =>
    obtain ⟨hg, hl⟩ := Settings.verdict_run (evaluate_action _ _ ▸ ha)
    refine ⟨hg, fun k hk => ?_⟩
    simpa [Settings.laneAvailable, capacityContext, hk] using hl
  · split at h
    · cases h
    · split at h <;> cases h
  · split at h <;> cases h

/-- A request sent to the queue found room in it, or was held back by high pressure. -/
theorem evaluateChatRequest_queued
    (h : (evaluateChatRequest cfg rt req lane m).reason = .queued) :
    cfg.enableQueue = true ∧ ((rt.queueDepth : Int) < cfg.maxQueueDepth ∨
      cfg.pressureOverride (capacityContext cfg rt req lane m) (effectiveLimit cfg rt) = true) := by
  rw [evaluateChatRequest_capacity (.inr (.inl h))] at h
  simp only [admitByCapacity] at h
  split at h
  · cases h
  · split at h
    · cases h
    · split at h <;> cases h
  · next ha =>
    split at h
    · next hq => exact ⟨hq, Settings.verdict_queue (evaluate_action _ _ ▸ ha)⟩
    · cases h

theorem evaluateChatRequest_queueFull
    (h : (evaluateChatRequest cfg rt req lane m).reason = .rejectedQueueFull) :
    cfg.maxQueueDepth ≤ (rt.queueDepth : Int) := by
  rw [evaluateChatRequest_capacity (.inr (.inr h))] at h
  simp only [admitByCapacity] at h
  split at h
  · cases h
  · next ha =>
    split at h
    · cases h
    · next hc =>
      split at h
      · cases h
      · next hr =>
        exact Settings.verdict_reject (evaluate_action _ _ ▸ ha) (evaluate_reason _ _ ▸ hc)
          (evaluate_reason _ _ ▸ hr)
  · split at h <;> cases h

end Whooshd
