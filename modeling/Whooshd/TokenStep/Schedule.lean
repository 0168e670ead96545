import Whooshd.TokenStep.Backend
import Whooshd.Library.Text

namespace Whooshd.TokenStep
set_option autoImplicit true

structure FakeCancellationPlan where
  requestId : String
  atDecodeStep : Int
  deriving DecidableEq, Repr

structure FakeTimeoutPlan where
  requestId : String
  atDecodeStep : Int
  deriving DecidableEq, Repr

structure FakeFailurePlan where
  requestId : String
  atDecodeStep : Int
  deriving DecidableEq, Repr

structure FakeSharedStepFailurePlan where
  atDecodeStep : Int
  deriving DecidableEq, Repr

structure Plans where
  cancellation : List FakeCancellationPlan := []
  timeout : List FakeTimeoutPlan := []
  failure : List FakeFailurePlan := []
  sharedStepFailure : List FakeSharedStepFailurePlan := []

/-- The request ids of a plan by step, in the order of the plan. -/
def indexPlan (plan : List (Int × String)) : Dict Int (List String) :=
  plan.foldl (fun d e => d.set e.1 ((d.get? e.1).getD [] ++ [e.2])) .empty

namespace Plans

def cancelAt (plans : Plans) : Dict Int (List String) :=
  indexPlan (plans.cancellation.map fun c => (c.atDecodeStep, c.requestId))

def timeoutAt (plans : Plans) : Dict Int (List String) :=
  indexPlan (plans.timeout.map fun t => (t.atDecodeStep, t.requestId))

def failAt (plans : Plans) : Dict Int (List String) :=
  indexPlan (plans.failure.map fun f => (f.atDecodeStep, f.requestId))

def sharedFailAt (plans : Plans) : List Int := plans.sharedStepFailure.map (·.atDecodeStep)

end Plans

structure TokenStepResult where
  requestId : String
  content : String
  finishReason : String
  deriving DecidableEq, Repr

structure TokenStepSchedulerReport where
  requestCount : Nat := 0
  sequenceCount : Nat := 0
  decodeSteps : Nat := 0
  sequencesFinished : Int := 0
  sequencesCancelled : Nat := 0
  sequencesTimedOut : Nat := 0
  sequencesFailed : Nat := 0
  sequencesCleanedUp : Nat := 0
  terminalStatesObserved : Nat := 0
  demuxRoutesCreated : Nat := 0
  samplerStatesObserved : Nat := 0
  cancellationEventsObserved : Nat := 0
  timeoutEventsObserved : Nat := 0
  failureEventsObserved : Nat := 0
  sharedStepFailuresObserved : Nat := 0
  demuxBleedDetected : Bool := false
  cleanupExactlyOnce : Bool := true
  deriving DecidableEq, Repr

/-- What the decode loop changes. -/
structure Run where
  backend : FakeTokenStepBackend
  accumulators : Dict String (List String)
  stepCount : Nat := 0
  cancelled : Nat := 0
  timedOut : Nat := 0
  failed : Nat := 0
  sharedFailures : Nat := 0

/-- What the decode loop reads. -/
structure Setting where
  handles : List FakeSequenceHandle
  routes : Dict String FakeSequenceHandle
  reverseRoutes : Dict String String
  plans : Plans

/-- The three ways in which a plan ends a sequence. -/
inductive Ending where
  | cancel | timeout | fail
  deriving DecidableEq, Repr

def Ending.sequence (ending : Ending) (b : FakeTokenStepBackend) (h : FakeSequenceHandle) :
    FakeTokenStepBackend :=
  match ending with
  | .cancel => b.cancelSequence h
  | .timeout => b.timeoutSequence h
  | .fail => b.failSequence h

namespace Run

def active (s : Run) (handles : List FakeSequenceHandle) : List FakeSequenceHandle :=
  handles.filter fun h => !s.backend.isFinished h

def count (s : Run) : Ending → Run
  | .cancel => { s with cancelled := s.cancelled + 1 }
  | .timeout => { s with timedOut := s.timedOut + 1 }
  | .fail => { s with failed := s.failed + 1 }

/-- One turn of the loop of `_apply`. -/
def applyOne (routes : Dict String FakeSequenceHandle) (ending : Ending) (s : Run) (rid : String) :
    Run :=
  match routes.get? rid with
  | none => s
  | some h =>
    if s.backend.isFinished h then s
    else { s with backend := ending.sequence s.backend h }.count ending

def apply (s : Run) (setting : Setting) (plan : Dict Int (List String)) (ending : Ending) : Run :=
  ((plan.get? s.stepCount).getD []).foldl (applyOne setting.routes ending) s

/-- A shared-step failure: every active sequence fails. -/
def failAll (s : Run) (active : List FakeSequenceHandle) : Run :=
  active.foldl (fun s h => { s with backend := s.backend.failSequence h, failed := s.failed + 1 })
    { s with sharedFailures := s.sharedFailures + 1 }

/-- The tokens of one step are added to the texts of their requests. -/
def deliver (reverseRoutes : Dict String String) (accumulators : Dict String (List String)) :
    List (FakeSequenceHandle × String) → Except String (Dict String (List String))
  | [] => .ok accumulators
  | (h, token) :: outputs =>
    let rid := (reverseRoutes.get? h.sequenceId).getD "unknown"
    match accumulators.get? rid with
    | none => .error "KeyError"
    | some tokens => deliver reverseRoutes (accumulators.set rid (tokens ++ [token])) outputs

/-- The `while` loop, with a bound on its turns. -/
def loop (setting : Setting) : Nat → Run → Option (Except String Run)
  | 0, _ => none
  | fuel + 1, s =>
    let active := s.active setting.handles
    if active = [] then some (.ok s)
    else if (s.stepCount : Int) ∈ setting.plans.sharedFailAt then
      let s := s.failAll active
      some (.ok { s with stepCount := s.stepCount + 1 })
    else
      let s := s.apply setting setting.plans.cancelAt .cancel
      let s := s.apply setting setting.plans.timeoutAt .timeout
      let s := s.apply setting setting.plans.failAt .fail
      let active := s.active setting.handles
      if active = [] then some (.ok s)
      else
        let (backend, outputs) := s.backend.decodeStep active
        match deliver setting.reverseRoutes s.accumulators outputs.entries with
        | .error e => some (.error e)
        | .ok accumulators =>
          loop setting fuel { s with backend, accumulators, stepCount := s.stepCount + 1 }

end Run

def finishReason (b : FakeTokenStepBackend) (h : FakeSequenceHandle) : String :=
  match b.states.get? h.sequenceId with
  | some .cancelled => "cancelled"
  | some .timedOut => "timeout"
  | some .failed => "error"
  | _ => "stop"

/-- The requests are given their sequences, in order. -/
def prefillAll (b : FakeTokenStepBackend) :
    List TokenStepRequest → FakeTokenStepBackend × List FakeSequenceHandle
  | [] => (b, [])
  | req :: requests =>
    let (b, h) := b.prefill req
    let (b, handles) := prefillAll b requests
    (b, h :: handles)

/-- Each request id is routed to the last sequence it was given. -/
def routesOf (requests : List TokenStepRequest) (handles : List FakeSequenceHandle) :
    Dict String FakeSequenceHandle :=
  (requests.zip handles).foldl (fun d p => d.set p.1.requestId p.2) .empty

def reverseRoutesOf (requests : List TokenStepRequest) (routes : Dict String FakeSequenceHandle) :
    Dict String String :=
  requests.foldl (fun d req =>
    match routes.get? req.requestId with
    | none => d
    | some h => d.set h.sequenceId req.requestId) .empty

def settingOf (requests : List TokenStepRequest) (handles : List FakeSequenceHandle)
    (plans : Plans) : Setting :=
  let routes := routesOf requests handles
  { handles
    routes
    reverseRoutes := reverseRoutesOf requests routes
    plans }

def initAccumulators (requests : List TokenStepRequest) : Dict String (List String) :=
  requests.foldl (fun d req => d.set req.requestId []) .empty

/-- `" ".join(accumulators[request_id])`. -/
def contentOf (accumulators : Dict String (List String)) (requestId : String) : String :=
  " ".intercalate ((accumulators.get? requestId).getD [])

def resultsOf (requests : List TokenStepRequest) (routes : Dict String FakeSequenceHandle)
    (s : Run) : List TokenStepResult :=
  requests.map fun req =>
    { requestId := req.requestId
      content := contentOf s.accumulators req.requestId
      finishReason := (routes.get? req.requestId).elim "stop" (finishReason s.backend) }

/-- A request's sampler label shows up in the text of another request with another label. -/
def bleed (requests : List TokenStepRequest) (accumulators : Dict String (List String)) : Bool :=
  requests.any fun req => requests.any fun other =>
    req.requestId ≠ other.requestId && other.samplerLabel ≠ req.samplerLabel &&
      Text.occursIn req.samplerLabel.toList (contentOf accumulators other.requestId).toList

/-- Every sequence is released, and the releases are counted. -/
def releaseAll (b : FakeTokenStepBackend) (handles : List FakeSequenceHandle) :
    FakeTokenStepBackend × Nat :=
  handles.foldl (fun r h => (r.1.releaseSequence h, r.2 + 1)) (b, 0)

def reportOf (requests : List TokenStepRequest) (setting : Setting) (s : Run) (cleaned : Nat) :
    TokenStepSchedulerReport :=
  { requestCount := requests.length
    sequenceCount := setting.handles.length
    decodeSteps := s.stepCount
    sequencesFinished := requests.length - s.cancelled - s.timedOut - s.failed
    sequencesCancelled := s.cancelled
    sequencesTimedOut := s.timedOut
    sequencesFailed := s.failed
    sequencesCleanedUp := cleaned
    terminalStatesObserved := requests.length
    demuxRoutesCreated := setting.routes.size
    samplerStatesObserved := requests.length
    cancellationEventsObserved := setting.plans.cancellation.length
    timeoutEventsObserved := setting.plans.timeout.length
    failureEventsObserved := setting.plans.failure.length
    sharedStepFailuresObserved := s.sharedFailures
    demuxBleedDetected := bleed requests s.accumulators
    cleanupExactlyOnce := cleaned = setting.handles.length }

/-- What a run hands back, and the backend it leaves. -/
structure Outcome where
  results : List TokenStepResult
  report : TokenStepSchedulerReport
  backend : FakeTokenStepBackend

/-- The results, the clean-up and the report. -/
def Run.outcome (s : Run) (requests : List TokenStepRequest) (setting : Setting) : Outcome :=
  let (backend, cleaned) := releaseAll s.backend setting.handles
  { results := resultsOf requests setting.routes s
    report := reportOf requests setting s cleaned
    backend }

def runFakeTokenStepSchedule (fuel : Nat) (requests : List TokenStepRequest)
    (backend : FakeTokenStepBackend) (plans : Plans) : Option (Except String Outcome) :=
  if requests = [] then some (.error "must have at least one request")
  else
    let (backend, handles) := prefillAll backend requests
    let setting := settingOf requests handles plans
    match Run.loop setting fuel { backend, accumulators := initAccumulators requests } with
    | none => none
    | some (.error e) => some (.error e)
    | some (.ok s) => some (.ok (s.outcome requests setting))

end Whooshd.TokenStep
