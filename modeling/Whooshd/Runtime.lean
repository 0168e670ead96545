import Whooshd.Library.Dict

namespace Whooshd
set_option autoImplicit true

abbrev RequestId := String

abbrev Lane := String

/-- A clock reading, in ticks. -/
abbrev Time := Int

inductive RequestLifecycleState where
  | accepted | queued | running | streaming | completed | cancelled | failed | timedOut
  deriving DecidableEq, Repr

namespace RequestLifecycleState

/-- The statuses counted by `active_jobs`. -/
def isActive : RequestLifecycleState → Bool
  | accepted | running | streaming => true
  | queued | completed | cancelled | failed | timedOut => false

def isTerminal : RequestLifecycleState → Bool
  | completed | cancelled | failed | timedOut => true
  | accepted | queued | running | streaming => false

end RequestLifecycleState

inductive MemoryPressure where
  | low | normal | warning | critical
  deriving DecidableEq, Repr

/-- What `runtime.memory.pressure` can hold: nothing, a member of the enumeration, or a
plain text that was assigned without validation. -/
inductive PressureField where
  | absent
  | member (p : MemoryPressure)
  | text (s : String)
  deriving DecidableEq, Repr

structure CancellationToken where
  requestId : RequestId
  cancelled : Bool
  deriving DecidableEq, Repr

def CancellationToken.cancel (t : CancellationToken) : CancellationToken :=
  { t with cancelled := true }

structure RequestRecord where
  requestId : RequestId
  model : String
  stream : Bool
  upstreamRequestId : Option String
  lane : Option Lane
  status : RequestLifecycleState
  cancelRequested : Bool
  cancelToken : CancellationToken
  startedAt : Time
  endedAt : Option Time
  errorCode : Option String
  deriving DecidableEq, Repr

/-- The reasons under which a refusal is counted. -/
inductive RejectionReason where
  | overloaded | queueFull | promptTooLarge | tooManyMessages | maxTokensTooHigh
  | modelNotReady | contextOverflow | unsupportedFields
  deriving DecidableEq, Repr

structure Counters where
  accepted : Nat
  rejected : Nat
  rejectedOverloaded : Nat
  rejectedPromptTooLarge : Nat
  rejectedTooManyMessages : Nat
  rejectedMaxTokens : Nat
  rejectedModelNotReady : Nat
  cancelRequested : Nat
  cancelled : Nat
  streamDisconnects : Nat
  queued : Nat
  dequeued : Nat
  queueRejected : Nat
  queueTimeout : Nat
  queueCancelled : Nat
  deriving DecidableEq, Repr

def Counters.zero : Counters := ⟨0, 0, 0, 0, 0, 0, 0, 0, 0, 0, 0, 0, 0, 0, 0⟩

structure RuntimeState where
  requests : Dict RequestId RequestRecord
  reservations : Dict RequestId (Option Lane)
  memoryPressure : PressureField
  counters : Counters
  deriving DecidableEq

/-- Slots held by requests whose lane passes the test, by record or by reservation. -/
def occupancy (requests : Dict RequestId RequestRecord)
    (reservations : Dict RequestId (Option Lane)) (p : Option Lane → Bool) : Nat :=
  requests.count (fun r => r.status.isActive && p r.lane) + reservations.count p

/-- Requests that wait in the queue, by record and without a reservation. -/
def waitingCount (requests : Dict RequestId RequestRecord)
    (reservations : Dict RequestId (Option Lane)) : Nat :=
  requests.count (fun r => r.status = .queued && !reservations.contains r.requestId)

namespace RuntimeState

def init : RuntimeState := ⟨.empty, .empty, .member .normal, .zero⟩

def activeJobs (rt : RuntimeState) : Nat :=
  rt.requests.count (fun r => r.status.isActive) + rt.reservations.size

def activeJobsForLane (rt : RuntimeState) (lane : Option Lane) : Nat :=
  match lane with
  | none => 0
  | some l =>
    if l = "" then 0
    else rt.requests.count (fun r => r.lane = some l && r.status.isActive) +
      rt.reservations.count (fun reserved => reserved = some l)

def queueDepth (rt : RuntimeState) : Nat := waitingCount rt.requests rt.reservations

def reserveCapacity (rt : RuntimeState) (rid : RequestId) (lane : Option Lane) : RuntimeState :=
  if rt.reservations.contains rid then rt
  else { rt with reservations := rt.reservations.set rid lane }

def releaseCapacity (rt : RuntimeState) (rid : RequestId) : RuntimeState :=
  { rt with reservations := rt.reservations.erase rid }

def updateRecord (rt : RuntimeState) (rid : RequestId) (f : RequestRecord → RequestRecord) :
    RuntimeState :=
  { rt with requests := rt.requests.modify rid f }

def recordAccepted (rt : RuntimeState) : RuntimeState :=
  { rt with counters.accepted := rt.counters.accepted + 1 }

def recordRejected (rt : RuntimeState) (reason : RejectionReason) : RuntimeState :=
  let c := { rt.counters with rejected := rt.counters.rejected + 1 }
  let c := match reason with
    | .overloaded => { c with rejectedOverloaded := c.rejectedOverloaded + 1 }
    | .promptTooLarge => { c with rejectedPromptTooLarge := c.rejectedPromptTooLarge + 1 }
    | .tooManyMessages => { c with rejectedTooManyMessages := c.rejectedTooManyMessages + 1 }
    | .maxTokensTooHigh => { c with rejectedMaxTokens := c.rejectedMaxTokens + 1 }
    | .modelNotReady => { c with rejectedModelNotReady := c.rejectedModelNotReady + 1 }
    | .queueFull | .contextOverflow | .unsupportedFields => c
  { rt with counters := c }

def recordQueueRejected (rt : RuntimeState) : RuntimeState :=
  { rt with counters.queueRejected := rt.counters.queueRejected + 1 }

def recordQueueCancelled (rt : RuntimeState) : RuntimeState :=
  { rt with counters.queueCancelled := rt.counters.queueCancelled + 1 }

def recordStreamDisconnect (rt : RuntimeState) : RuntimeState :=
  { rt with counters.streamDisconnects := rt.counters.streamDisconnects + 1 }

def beginRequest (rt : RuntimeState) (rid : RequestId) (model : String) (stream : Bool)
    (upstream : Option String) (lane : Option Lane) (now : Time) : RuntimeState :=
  let r : RequestRecord :=
    { requestId := rid, model, stream, upstreamRequestId := upstream, lane,
      status := .accepted, cancelRequested := false, cancelToken := ⟨rid, false⟩,
      startedAt := now, endedAt := none, errorCode := none }
  { rt with requests := rt.requests.set rid r }

def getCancellationToken (rt : RuntimeState) (rid : RequestId) : Option CancellationToken :=
  (rt.requests.get? rid).map (·.cancelToken)

def tokenCancelled (rt : RuntimeState) (rid : RequestId) : Bool :=
  (rt.getCancellationToken rid).any (·.cancelled)

def markQueued (rt : RuntimeState) (rid : RequestId) : RuntimeState :=
  if rt.requests.contains rid then
    let rt' := rt.updateRecord rid (fun r => { r with status := .queued })
    { rt' with counters.queued := rt.counters.queued + 1 }
  else rt

def markDequeued (rt : RuntimeState) : RuntimeState :=
  { rt with counters.dequeued := rt.counters.dequeued + 1 }

/-- `mark_running` and `mark_streaming`: both start an accepted or queued request and hand
its reservation over to the record. -/
def markStarted (rt : RuntimeState) (rid : RequestId) (status : RequestLifecycleState) :
    RuntimeState :=
  match rt.requests.get? rid with
  | some r =>
    if r.status = .accepted ∨ r.status = .queued then
      (rt.updateRecord rid (fun r => { r with status })).releaseCapacity rid
    else rt
  | none => rt

def markRunning (rt : RuntimeState) (rid : RequestId) : RuntimeState :=
  rt.markStarted rid .running

def markStreaming (rt : RuntimeState) (rid : RequestId) : RuntimeState :=
  rt.markStarted rid .streaming

def markTimedOut (rt : RuntimeState) (rid : RequestId) (now : Time) : RuntimeState :=
  if rt.requests.contains rid then
    let rt' := rt.updateRecord rid (fun r => { r with status := .timedOut, endedAt := some now })
    { rt' with counters.queueTimeout := rt.counters.queueTimeout + 1 }.releaseCapacity rid
  else rt.releaseCapacity rid

def completeRequest (rt : RuntimeState) (rid : RequestId) (now : Time) : RuntimeState :=
  match rt.requests.get? rid with
  | some r =>
    if r.status = .cancelled ∨ r.status = .failed ∨ r.status = .timedOut then
      rt.releaseCapacity rid
    else
      (rt.updateRecord rid
        (fun r => { r with status := .completed, endedAt := some now })).releaseCapacity rid
  | none => rt.releaseCapacity rid

def cancelRequest (rt : RuntimeState) (rid : RequestId) (now : Time) : RuntimeState :=
  if rt.requests.contains rid then
    let rt' := rt.updateRecord rid (fun r => { r with status := .cancelled, endedAt := some now })
    { rt' with counters.cancelled := rt.counters.cancelled + 1 }.releaseCapacity rid
  else rt.releaseCapacity rid

def failRequest (rt : RuntimeState) (rid : RequestId) (now : Time)
    (errorCode : Option String) : RuntimeState :=
  (rt.updateRecord rid
    (fun r => { r with status := .failed, endedAt := some now, errorCode })).releaseCapacity rid

def requestCancellation (rt : RuntimeState) (rid : RequestId) : RuntimeState × Bool :=
  match rt.requests.get? rid with
  | none => (rt, false)
  | some r =>
    if r.status.isTerminal then (rt, false)
    else
      let rt' := rt.updateRecord rid
        (fun r => { r with cancelRequested := true, cancelToken := r.cancelToken.cancel })
      ({ rt' with counters.cancelRequested := rt.counters.cancelRequested + 1 }, true)

variable (rt : RuntimeState) (rid : RequestId)

theorem activeJobs_eq :
    rt.activeJobs = occupancy rt.requests rt.reservations (fun _ => true) := by
  simp only [activeJobs, occupancy, Bool.and_true, Dict.size_eq_count]

theorem activeJobsForLane_eq (hl : l ≠ "") :
    rt.activeJobsForLane (some l) =
      occupancy rt.requests rt.reservations (fun lane => lane = some l) := by
  simp only [activeJobsForLane, if_neg hl, occupancy]
  congr 2
  funext r
  exact Bool.and_comm _ _

@[simp] theorem markQueued_requests :
    (rt.markQueued rid).requests =
      rt.requests.modify rid (fun r => { r with status := .queued }) := by
  simp only [markQueued]
  split
  · rfl
  · next h => rw [Dict.modify_of_not_contains (by simpa using h)]

@[simp] theorem markQueued_reservations :
    (rt.markQueued rid).reservations = rt.reservations := by
  simp only [markQueued]
  split <;> rfl

theorem markStarted_of (h : rt.requests.get? rid = some r)
    (hs : r.status = .accepted ∨ r.status = .queued) (status : RequestLifecycleState) :
    (rt.markStarted rid status).requests = rt.requests.set rid { r with status } ∧
      (rt.markStarted rid status).reservations = rt.reservations.erase rid := by
  simp only [markStarted, h, if_pos hs, releaseCapacity, updateRecord, Dict.modify, and_self]

@[simp] theorem markTimedOut_requests (now : Time) :
    (rt.markTimedOut rid now).requests =
      rt.requests.modify rid (fun r => { r with status := .timedOut, endedAt := some now }) := by
  simp only [markTimedOut]
  split
  · rfl
  · next h => rw [Dict.modify_of_not_contains (by simpa using h)]; rfl

@[simp] theorem markTimedOut_reservations (now : Time) :
    (rt.markTimedOut rid now).reservations = rt.reservations.erase rid := by
  simp only [markTimedOut]
  split <;> rfl

@[simp] theorem cancelRequest_requests (now : Time) :
    (rt.cancelRequest rid now).requests =
      rt.requests.modify rid (fun r => { r with status := .cancelled, endedAt := some now }) := by
  simp only [cancelRequest]
  split
  · rfl
  · next h => rw [Dict.modify_of_not_contains (by simpa using h)]; rfl

@[simp] theorem cancelRequest_reservations (now : Time) :
    (rt.cancelRequest rid now).reservations = rt.reservations.erase rid := by
  simp only [cancelRequest]
  split <;> rfl

@[simp] theorem failRequest_requests (now : Time) (code : Option String) :
    (rt.failRequest rid now code).requests =
      rt.requests.modify rid
        (fun r => { r with status := .failed, endedAt := some now, errorCode := code }) := rfl

@[simp] theorem failRequest_reservations (now : Time) (code : Option String) :
    (rt.failRequest rid now code).reservations = rt.reservations.erase rid := rfl

/-- A record after `complete_request`: an earlier abnormal end is kept. -/
def completed (now : Time) (r : RequestRecord) : RequestRecord :=
  if r.status = .cancelled ∨ r.status = .failed ∨ r.status = .timedOut then r
  else { r with status := .completed, endedAt := some now }

theorem completeRequest_of (h : rt.requests.get? rid = some r) (now : Time) :
    (rt.completeRequest rid now).requests = rt.requests.set rid (completed now r) ∧
      (rt.completeRequest rid now).reservations = rt.reservations.erase rid := by
  simp only [completeRequest, h, completed]
  split
  · simp only [releaseCapacity, Dict.set_same h, and_self]
  · simp only [releaseCapacity, updateRecord, Dict.modify, h, and_self]

end RuntimeState

end Whooshd
