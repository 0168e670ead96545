import Whooshd.Continuous.Batching
import Whooshd.Library.Machine

namespace Whooshd.Continuous
set_option autoImplicit true

structure FakeContinuousSchedulerConfig where
  maxSlots : Int := 2
  maxPrefillPerTick : Int := 2
  maxDecodePerTick : Int := 2
  maxDecodeStepsPerRequest : Int := 3
  deriving DecidableEq, Repr

structure FakeContinuousRequest where
  handle : ContinuousRequestHandle
  state : ContinuousRequestState := .admitted
  slotId : Option String := none
  prefillTicksRemaining : Int := 1
  decodeStepsCompleted : Nat := 0
  outputChunks : List ContinuousOutputChunk := []
  finishReason : Option ContinuousFinishReason := none
  deriving DecidableEq, Repr

structure FakeTokenLevelScheduler where
  config : FakeContinuousSchedulerConfig
  requests : Dict String FakeContinuousRequest
  slots : List ContinuousSlot
  tickIndex : Nat := 0
  pendingAdmission : List String := []
  deriving DecidableEq

/-- Changes the first slot that passes the test. -/
def updateFirst (p : ContinuousSlot → Bool) (f : ContinuousSlot → ContinuousSlot) :
    List ContinuousSlot → List ContinuousSlot
  | [] => []
  | slot :: slots => if p slot then f slot :: slots else slot :: updateFirst p f slots

namespace FakeTokenLevelScheduler

def initSlots (config : FakeContinuousSchedulerConfig) : List ContinuousSlot :=
  (List.range config.maxSlots.toNat).map fun i =>
    { slotId := "slot-" ++ Nat.repr i, state := .empty }

def init (config : FakeContinuousSchedulerConfig) : FakeTokenLevelScheduler :=
  { config, requests := .empty, slots := initSlots config }

def setRequest (s : FakeTokenLevelScheduler) (rid : String) (req : FakeContinuousRequest) :
    FakeTokenLevelScheduler :=
  { s with requests := s.requests.set rid req }

end FakeTokenLevelScheduler

def FakeTokenLevelScheduler.admit (s : FakeTokenLevelScheduler) (handle : ContinuousRequestHandle) :
    FakeTokenLevelScheduler :=
  { s.setRequest handle.requestId { handle } with
    pendingAdmission := s.pendingAdmission ++ [handle.requestId] }

namespace FakeTokenLevelScheduler

/-- `_release_slot_for`. -/
def releaseSlotFor (s : FakeTokenLevelScheduler) (requestId : String) : FakeTokenLevelScheduler :=
  { s with
    slots := updateFirst (·.requestId = some requestId)
      (fun slot => { slot with state := .released, requestId := none }) s.slots }

/-- The common body of `cancel`, `timeout` and `fail_request`. -/
def close (s : FakeTokenLevelScheduler) (requestId : String) (state : ContinuousRequestState)
    (reason : ContinuousFinishReason) : FakeTokenLevelScheduler :=
  match s.requests.get? requestId with
  | none => s
  | some req =>
    if req.state.terminal then s
    else (s.setRequest requestId { req with state, finishReason := some reason }).releaseSlotFor
      requestId

def cancel (s : FakeTokenLevelScheduler) (requestId : String) : FakeTokenLevelScheduler :=
  s.close requestId .cancelled .cancelled

def timeout (s : FakeTokenLevelScheduler) (requestId : String) : FakeTokenLevelScheduler :=
  s.close requestId .timedOut .timeout

def failRequest (s : FakeTokenLevelScheduler) (requestId : String) : FakeTokenLevelScheduler :=
  s.close requestId .failed .error

def findEmptySlot (s : FakeTokenLevelScheduler) : Option ContinuousSlot :=
  s.slots.find? (·.state = .empty)

/-- `_update_slot_state`, whose body does nothing. -/
def updateSlotState (s : FakeTokenLevelScheduler) (_slotId : Option String)
    (_state : ContinuousSlotState) : FakeTokenLevelScheduler := s

/-- The first empty slot is reserved for the request. -/
def seat (s : FakeTokenLevelScheduler) (rid : String) (req : FakeContinuousRequest)
    (slot : ContinuousSlot) : FakeTokenLevelScheduler :=
  let s := s.setRequest rid { req with state := .prefillPending, slotId := some slot.slotId }
  { s with
    slots := updateFirst (·.state = .empty)
      (fun slot => { slot with state := .reserved, requestId := some rid }) s.slots }

def dropPending (s : FakeTokenLevelScheduler) (rid : String) : FakeTokenLevelScheduler :=
  { s with pendingAdmission := s.pendingAdmission.erase rid }

def admissionLoop (s : FakeTokenLevelScheduler) : List String → FakeTokenLevelScheduler
  | [] => s
  | rid :: rids =>
    match (s.requests.get? rid).filter (·.state = .admitted) with
    | none => admissionLoop (s.dropPending rid) rids
    | some req =>
      match s.findEmptySlot with
      | none => s
      | some slot => admissionLoop ((s.seat rid req slot).dropPending rid) rids

def processAdmission (s : FakeTokenLevelScheduler) : FakeTokenLevelScheduler :=
  s.admissionLoop s.pendingAdmission

def prefillLoop (s : FakeTokenLevelScheduler) (prefillCount : Int) :
    List String → FakeTokenLevelScheduler
  | [] => s
  | rid :: rids =>
    if prefillCount ≥ s.config.maxPrefillPerTick then s
    else
      match s.requests.get? rid with
      | none => prefillLoop s prefillCount rids
      | some req =>
        match req.state with
        | .prefillPending =>
          prefillLoop ((s.setRequest rid { req with state := .prefillRunning }).updateSlotState
            req.slotId .prefill) (prefillCount + 1) rids
        | .prefillRunning =>
          let remaining := req.prefillTicksRemaining - 1
          if remaining ≤ 0 then
            let active := { req with state := .decodeActive, prefillTicksRemaining := remaining }
            prefillLoop ((s.setRequest rid active).updateSlotState req.slotId .decoding)
              prefillCount rids
          else
            prefillLoop (s.setRequest rid { req with prefillTicksRemaining := remaining })
              prefillCount rids
        | _ => prefillLoop s prefillCount rids

def processPrefill (s : FakeTokenLevelScheduler) : FakeTokenLevelScheduler :=
  s.prefillLoop 0 s.requests.keys

/-- The chunk a request puts out in its next decode step. -/
def nextChunk (req : FakeContinuousRequest) : ContinuousOutputChunk :=
  { requestId := req.handle.requestId
    slotId := req.slotId.getD ""
    sequenceIndex := req.decodeStepsCompleted
    text := some (req.handle.requestId ++ "_s" ++ Nat.repr req.decodeStepsCompleted) }

/-- A request with all its decode steps. -/
def atLimit (config : FakeContinuousSchedulerConfig) (req : FakeContinuousRequest) : Bool :=
  req.decodeStepsCompleted ≥ config.maxDecodeStepsPerRequest

def decodeLoop (s : FakeTokenLevelScheduler) (decodeCount : Int) :
    List String → FakeTokenLevelScheduler
  | [] => s
  | rid :: rids =>
    if decodeCount ≥ s.config.maxDecodePerTick then s
    else
      match s.requests.get? rid with
      | none => decodeLoop s decodeCount rids
      | some req =>
        if atLimit s.config req then
          decodeLoop ((s.setRequest rid
            { req with state := .streamDraining, finishReason := some .stop }).updateSlotState
              req.slotId .draining) decodeCount rids
        else
          decodeLoop (s.setRequest rid
            { req with
              outputChunks := req.outputChunks ++ [nextChunk req]
              decodeStepsCompleted := req.decodeStepsCompleted + 1 }) (decodeCount + 1) rids

/-- The requests in one state, in the order of their admission. -/
def inState (s : FakeTokenLevelScheduler) (state : ContinuousRequestState) : List String :=
  (s.requests.entries.filter (·.2.state = state)).map Prod.fst

def processDecode (s : FakeTokenLevelScheduler) : FakeTokenLevelScheduler :=
  s.decodeLoop 0 (s.inState .decodeActive)

/-- The first slot with the id of the request's slot is left without a request. -/
def vacate (s : FakeTokenLevelScheduler) (slotId : Option String) : FakeTokenLevelScheduler :=
  { s with
    slots := updateFirst (fun slot => some slot.slotId = slotId)
      (fun slot => { slot with requestId := none }) s.slots }

def drainLoop (s : FakeTokenLevelScheduler) : List String → FakeTokenLevelScheduler
  | [] => s
  | rid :: rids =>
    match (s.requests.get? rid).filter (·.state = .streamDraining) with
    | none => drainLoop s rids
    | some req =>
      drainLoop (((s.setRequest rid { req with state := .completed }).updateSlotState
        req.slotId .released).vacate req.slotId) rids

def processDrain (s : FakeTokenLevelScheduler) : FakeTokenLevelScheduler :=
  s.drainLoop s.requests.keys

def tick (s : FakeTokenLevelScheduler) : FakeTokenLevelScheduler :=
  let s := { s with tickIndex := s.tickIndex + 1 }
  s.processAdmission.processPrefill.processDecode.processDrain

def drainOutputs (s : FakeTokenLevelScheduler) (requestId : String) :
    FakeTokenLevelScheduler × List ContinuousOutputChunk :=
  match s.requests.get? requestId with
  | none => (s, [])
  | some req => (s.setRequest requestId { req with outputChunks := [] }, req.outputChunks)

/-- The requests that have not ended. -/
def live (s : FakeTokenLevelScheduler) : List FakeContinuousRequest :=
  s.requests.values.filter fun req => !req.state.terminal

def terminalReasons (s : FakeTokenLevelScheduler) : Dict String ContinuousRequestState :=
  (s.requests.values.filter (·.state.terminal)).foldl
    (fun reasons req => reasons.set req.handle.requestId req.state) .empty

def validate (s : FakeTokenLevelScheduler) : Violations :=
  let handles := s.live.map (·.handle)
  let activeSlotIds := (s.live.filterMap (·.slotId)).filter (· ≠ "")
  validateSlotAssignments s.slots ++
    validateTerminalStateNotReentered handles s.terminalReasons ++
    validateOutputDemux (s.requests.values.flatMap (·.outputChunks)) (handles.map (·.requestId))
      activeSlotIds

end FakeTokenLevelScheduler

inductive SchedulerCall where
  | admitRequest (handle : ContinuousRequestHandle)
  | cancel (requestId : String)
  | timeout (requestId : String)
  | failRequest (requestId : String)
  | tick
  | drainOutputs (requestId : String)
  deriving DecidableEq, Repr

def FakeTokenLevelScheduler.call (s : FakeTokenLevelScheduler) :
    SchedulerCall → FakeTokenLevelScheduler
  | .admitRequest handle => s.admit handle
  | .cancel rid => s.cancel rid
  | .timeout rid => s.timeout rid
  | .failRequest rid => s.failRequest rid
  | .tick => s.tick
  | .drainOutputs rid => (s.drainOutputs rid).1

/-- A scheduler, which takes every call. -/
def tokenLevelScheduler : Machine FakeTokenLevelScheduler SchedulerCall Unit where
  step s c := some (s.call c, [])

/-- The request ids that are admitted in a run. -/
def admittedIds (calls : List SchedulerCall) : List String :=
  calls.filterMap fun
    | .admitRequest handle => some handle.requestId
    | _ => none

end Whooshd.Continuous
