import Whooshd.Library.Machine
import Whooshd.Admission
import Whooshd.Queue

namespace Whooshd
set_option autoImplicit true

/-- Where a request handler is suspended. -/
inductive Phase where
  /-- Inside `wait_for_execution`. -/
  | waiting (e : QueueEntry)
  /-- Awaiting `adapter.chat_completion`. -/
  | calling
  /-- Awaiting `router.generate`. -/
  | generating
  /-- Awaiting the first item of `adapter.chat_completion_stream`. -/
  | firstChunk
  /-- The streaming response was returned, its body generator has not started. -/
  | bodyPending
  /-- The body generator is between two chunks. -/
  | bodyOpen
  /-- The body generator has yielded the error frame of a failed upstream. -/
  | bodyError
  /-- The body generator has yielded the final frame. -/
  | bodyDone
  | ended
  /-- The handler task was cancelled at one of its awaits. -/
  | killed
  deriving DecidableEq, Repr

/-- The adapter call has started and has not returned, raised or been exhausted. -/
def Phase.inProgress : Phase → Bool
  | calling | generating | firstChunk | bodyPending | bodyOpen => true
  | waiting _ | bodyError | bodyDone | ended | killed => false

def Phase.isWaiting : Phase → Bool
  | waiting _ => true
  | _ => false

/-- What `execute_ephemeral_chat_completion` does for a request that reaches it. -/
inductive BridgeOutcome where
  | miss | hit | raised
  deriving DecidableEq, Repr

structure Handler where
  stream : Bool
  supportsStreaming : Bool
  bridge : BridgeOutcome
  phase : Phase
  deriving DecidableEq, Repr

/-- Where an exception that no handler code catches ends a handler that has no record yet. -/
inductive HandlerFault where
  /-- An adapter's `model_id()` raised while the model was resolved. -/
  | resolving
  /-- `observe_request` raised, as it does on ThreadWake settings that fail validation. -/
  | observing
  /-- The estimate of the prompt's length raised: the text of a text part has no length. -/
  | measuring
  /-- The estimate of the prompt's cost raised. -/
  | estimating
  deriving DecidableEq, Repr

structure ChatArrival where
  request : ChatRequest
  /-- `none` when the model cannot be resolved. -/
  resolution : Option RuntimeResolution
  bridge : BridgeOutcome
  cacheReady : Bool
  fault : Option HandlerFault := none
  deriving DecidableEq, Repr

structure GenerateArrival where
  model : String
  upstreamRequestId : Option String
  resolution : Option RuntimeResolution
  totalTokens : Nat
  overLimit : Bool
  fault : Option HandlerFault := none
  deriving DecidableEq, Repr

inductive AdapterOutcome where
  | returned | chunk | exhausted | upstreamError | exception
  /-- The first chunk, for which no response can be built: the provenance header does not take
  its texts. -/
  | chunkUnsent
  /-- The end of an empty stream, with such a header. -/
  | exhaustedUnsent
  deriving DecidableEq, Repr

inductive BodyEvent where
  | start | chunk | exhausted | upstreamError
  /-- The adapter's stream raises, or is cancelled while it waits for the runtime. -/
  | exception
  | finish
  /-- The body generator is closed, before its start or at a yield. -/
  | close
  deriving DecidableEq, Repr

/-- One atomic section of the event loop: the code a task runs between two suspensions, or
a change of its environment. -/
inductive Label where
  | chat (rid : RequestId) (a : ChatArrival)
  | generate (rid : RequestId) (a : GenerateArrival)
  | resume (rid : RequestId)
  | adapter (rid : RequestId) (o : AdapterOutcome)
  | body (rid : RequestId) (b : BodyEvent)
  /-- The event loop closes an adapter's stream that was left open. -/
  | finalise (rid : RequestId)
  | cancel (rid : RequestId)
  | kill (rid : RequestId)
  | memoryPressure (p : PressureField)
  | configure (cfg : Settings)
  | tick (mono wall : Time)
  deriving DecidableEq, Repr

inductive Answer where
  | refused (r : AdmissionResult)
  | error (code : ErrorCode) (httpStatus : Nat)
  | completion
  | cached
  | emptyStream
  | stream
  | upstreamError
  | raised
  deriving DecidableEq, Repr

inductive CancelAnswer where
  | notFound
  | alreadyTerminal (status : RequestLifecycleState)
  | ok (cancelled : Bool)
  deriving DecidableEq, Repr

inductive Event where
  | granted (rid : RequestId)
  | returned (e : QueueEntry) (ready : Bool)
  | adapterStarted (rid : RequestId)
  | adapterEnded (rid : RequestId)
  | answered (rid : Option RequestId) (a : Answer)
  | cancelAnswered (rid : RequestId) (a : CancelAnswer)
  deriving DecidableEq, Repr

structure System where
  cfg : Settings
  rt : RuntimeState
  queue : RequestQueue
  handlers : Dict RequestId Handler
  /-- The requests that have ended with the adapter's stream still open. -/
  unfinalised : List RequestId
  mono : Time
  wall : Time
  deriving DecidableEq

namespace System

def init (cfg : Settings) (mono wall : Time) : System :=
  ⟨cfg, .init, .init, .empty, [], mono, wall⟩

def setPhase (s : System) (rid : RequestId) (phase : Phase) : System :=
  { s with handlers := s.handlers.modify rid (fun h => { h with phase }) }

/-- Nothing closes the adapter's stream any more: it stays open until it is finalised. -/
def leaveStream (s : System) (rid : RequestId) : System :=
  { s with unfinalised := rid :: s.unfinalised }

def noteGrant (h : Handler) : Handler :=
  match h.phase with
  | .waiting e => { h with phase := .waiting e.markGranted }
  | _ => h

/-- The `reserve` callback and the owner's view of its entry, at the moment of a grant. -/
def grant (s : System) : Option QueueEntry → System × List Event
  | none => (s, [])
  | some e =>
    ({ s with rt := s.rt.reserveCapacity e.requestId e.lane
              handlers := s.handlers.modify e.requestId noteGrant }, [.granted e.requestId])

/-- The handler ends with an answer, leaving the runtime as given. -/
def finish (s : System) (rid : RequestId) (rt : RuntimeState) (a : Answer) :
    System × List Event :=
  ({ s with rt }.setPhase rid .ended, [.answered (some rid) a])

/-- The handler starts its adapter call and suspends in the given phase. -/
def startAdapter (s : System) (rid : RequestId) (rt : RuntimeState) (phase : Phase) :
    System × List Event :=
  ({ s with rt }.setPhase rid phase, [.adapterStarted rid])

/-- `_execute_non_streaming_with_threadwake`, up to the adapter call. -/
def executeNonStreaming (s : System) (rid : RequestId) (h : Handler) : System × List Event :=
  let rt := s.rt.markRunning rid
  match h.bridge with
  | .hit => s.finish rid (rt.completeRequest rid s.wall) .cached
  | .miss => s.startAdapter rid rt .calling
  | .raised => s.finish rid rt .raised

/-- `_execute_streaming`, up to the first chunk. -/
def executeStreaming (s : System) (rid : RequestId) : System × List Event :=
  s.startAdapter rid (s.rt.markStreaming rid) .firstChunk

/-- The handler after `wait_for_execution` returned. -/
def afterWait (s : System) (rid : RequestId) (h : Handler) (ready : Bool) :
    System × List Event :=
  if ready = false then
    if s.rt.tokenCancelled rid then
      s.finish rid (s.rt.cancelRequest rid s.wall).recordQueueCancelled (.error .cancelled 409)
    else s.finish rid (s.rt.markTimedOut rid s.wall) (.error .timeout 504)
  else
    let s := { s with rt := s.rt.markDequeued }
    if h.stream = false then s.executeNonStreaming rid h
    else if h.supportsStreaming = false then
      s.finish rid (s.rt.failRequest rid s.wall none) (.error .unsupportedCapability 422)
    else s.executeStreaming rid

/-- One pass of the waiter that owns the entry, run to its next suspension. -/
def runWaiter (s : System) (rid : RequestId) (h : Handler) (e : QueueEntry) :
    System × List Event :=
  let w := s.queue.waitForExecution s.cfg s.mono e (s.rt.tokenCancelled rid)
    (activeCapacityAvailable s.cfg s.rt none none)
    (fun c => activeCapacityAvailable s.cfg s.rt c.lane c.laneMaxConcurrent)
  let (s, granted) := { s with queue := w.queue }.grant w.granted
  match w.returned with
  | none => (s, granted)
  | some ready =>
    let (s, answer) := s.afterWait rid h ready
    (s, granted ++ .returned e ready :: answer)

/-- The entry that `chat_completions` builds. -/
def newEntry (s : System) (rid : RequestId) (a : ChatArrival) (res : RuntimeResolution) :
    QueueEntry :=
  { requestId := rid, model := a.request.model, stream := a.request.stream, enqueuedAt := s.wall
    granted := false, lane := res.lane, laneMaxConcurrent := res.laneMaxConcurrent
    deadlineAt := none, cacheReady := a.cacheReady }

/-- `begin_request`, `mark_queued` and `enqueue`; the handler then waits on its entry. -/
def joinQueue (s : System) (rid : RequestId) (a : ChatArrival) (res : RuntimeResolution)
    (h : Handler) : System × QueueEntry :=
  let req := a.request
  let rt := s.rt.beginRequest rid req.model req.stream req.upstreamRequestId res.lane s.wall
  let (queue, entry) := s.queue.enqueue (s.newEntry rid a res) s.mono s.cfg.queueTimeout
  let handlers := s.handlers.set rid { h with phase := .waiting entry }
  ({ s with rt := rt.markQueued rid, queue, handlers }, entry)

/-- The queue branch of `chat_completions`, up to the first suspension of the wait. -/
def enterQueue (s : System) (rid : RequestId) (a : ChatArrival) (res : RuntimeResolution)
    (h : Handler) : System × List Event :=
  let (s, entry) := s.joinQueue rid a res h
  s.runWaiter rid { h with phase := .waiting entry } entry

/-- The immediate branch of `chat_completions`. -/
def runNow (s : System) (rid : RequestId) (a : ChatArrival) (res : RuntimeResolution)
    (h : Handler) : System × List Event :=
  let req := a.request
  if req.stream = true ∧ res.supportsStreaming = false then
    (s, [.answered none (.error .unsupportedCapability 422)])
  else
    let rt := s.rt.beginRequest rid req.model req.stream req.upstreamRequestId res.lane s.wall
    let s := { s with rt, handlers := s.handlers.set rid h }
    if req.stream = false then s.executeNonStreaming rid h else s.executeStreaming rid

def rejectionReason : AdmissionDecision → RejectionReason
  | .rejectedOverloaded => .overloaded
  | .rejectedQueueFull => .queueFull
  | .rejectedPromptTooLarge => .promptTooLarge
  | .rejectedTooManyMessages => .tooManyMessages
  | .rejectedMaxTokensTooHigh => .maxTokensTooHigh
  | .rejectedModelNotReady => .modelNotReady
  | .rejectedContextOverflow => .contextOverflow
  | .accepted | .queued => .overloaded

/-- An estimate of the evaluation raises, if the checks before it let the request get there. -/
def evaluationRaises (cfg : Settings) (a : ChatArrival) : Bool :=
  match a.fault with
  | some .measuring => decide ((a.request.messageCount : Int) ≤ cfg.maxMessages)
  | some .estimating => withinLimits cfg a.request
  | _ => false

def chatCompletions (s : System) (rid : RequestId) (a : ChatArrival) : System × List Event :=
  if a.fault = some .resolving then (s, [.answered none .raised]) else
  match a.resolution with
  | none =>
    ({ s with rt := s.rt.recordRejected .modelNotReady },
      [.answered none (.error .modelNotFound 404)])
  | some res =>
    if evaluationRaises s.cfg a then (s, [.answered none .raised]) else
    let admission := evaluateChatRequest s.cfg s.rt a.request res.lane res.laneMaxConcurrent
    if admission.reason = .rejectedQueueFull then
      ({ s with rt := s.rt.recordQueueRejected.recordRejected .queueFull },
        [.answered none (.refused admission)])
    else if admission.accepted = false ∧ admission.reason ≠ .queued then
      ({ s with rt := s.rt.recordRejected (rejectionReason admission.reason) },
        [.answered none (.refused admission)])
    else
      let s := { s with rt := s.rt.recordAccepted }
      if a.request.hasImage = true ∧ res.supportsVision = false then
        ({ s with rt := s.rt.recordRejected .modelNotReady },
          [.answered none (.error .unsupportedCapability 422)])
      else if a.fault = some .observing then (s, [.answered none .raised])
      else if a.request.fieldsSupported = false then
        ({ s with rt := s.rt.recordRejected .unsupportedFields },
          [.answered none (.error .unsupportedField 400)])
      else
        let h : Handler :=
          { stream := a.request.stream, supportsStreaming := res.supportsStreaming
            bridge := a.bridge, phase := .ended }
        if admission.reason = .queued then s.enterQueue rid a res h else s.runNow rid a res h

def generate (s : System) (rid : RequestId) (a : GenerateArrival) : System × List Event :=
  if a.fault = some .resolving then (s, [.answered none .raised]) else
  match a.resolution with
  | none =>
    ({ s with rt := s.rt.recordRejected .modelNotReady },
      [.answered none (.error .modelNotFound 404)])
  | some res =>
    if a.fault = some .estimating then (s, [.answered none .raised])
    else if a.overLimit then
      ({ s with rt := s.rt.recordRejected .contextOverflow },
        [.answered none (.refused (contextOverflowResult a.totalTokens))])
    else if activeCapacityAvailable s.cfg s.rt res.lane res.laneMaxConcurrent = false then
      ({ s with rt := s.rt.recordRejected .overloaded },
        [.answered none (.error .runnerOverloaded 429)])
    else
      let rt := s.rt.recordAccepted.beginRequest rid a.model false a.upstreamRequestId res.lane
        s.wall
      let h : Handler :=
        { stream := false, supportsStreaming := res.supportsStreaming, bridge := .miss
          phase := .generating }
      { s with handlers := s.handlers.set rid h }.startAdapter rid (rt.markRunning rid) .generating

def runtimeCancelRequest (s : System) (rid : RequestId) : System × List Event :=
  match s.rt.requests.get? rid with
  | none => (s, [.cancelAnswered rid .notFound])
  | some r =>
    if r.status.isTerminal then (s, [.cancelAnswered rid (.alreadyTerminal r.status)])
    else
      let (rt, signalled) := s.rt.requestCancellation rid
      let rt := if signalled then rt.cancelRequest rid s.wall else rt
      ({ s with rt }, [.cancelAnswered rid (.ok signalled)])

def endAdapter (r : System × List Event) (rid : RequestId) : System × List Event :=
  (r.1, .adapterEnded rid :: r.2)

/-- The awaited adapter call of a handler ends, or delivers the first chunk of a stream. -/
def adapterStep (s : System) (rid : RequestId) (phase : Phase) (o : AdapterOutcome) :
    Option (System × List Event) :=
  let complete := s.rt.completeRequest rid s.wall
  let fail := s.rt.failRequest rid s.wall none
  match phase, o with
  | .calling, .returned => some (endAdapter (s.finish rid complete .completion) rid)
  | .calling, .upstreamError => some (endAdapter (s.finish rid fail .upstreamError) rid)
  | .calling, .exception => some (endAdapter (s.finish rid fail .raised) rid)
  | .generating, .returned => some (endAdapter (s.finish rid complete .completion) rid)
  | .generating, .upstreamError => some (endAdapter (s.finish rid fail .upstreamError) rid)
  | .generating, .exception =>
    some (endAdapter (s.finish rid fail (.error .internalError 500)) rid)
  | .firstChunk, .chunk => some (s.setPhase rid .bodyPending, [.answered (some rid) .stream])
  | .firstChunk, .chunkUnsent =>
    some ((s.setPhase rid .ended).leaveStream rid, [.answered (some rid) .raised])
  | .firstChunk, .exhausted => some (endAdapter (s.finish rid complete .emptyStream) rid)
  | .firstChunk, .exhaustedUnsent => some (endAdapter (s.finish rid complete .raised) rid)
  | .firstChunk, .upstreamError => some (endAdapter (s.finish rid fail .upstreamError) rid)
  | .firstChunk, .exception => some (endAdapter (s.finish rid fail .raised) rid)
  | _, _ => none

/-- The `finally` block of `_sse_stream` when the stream did not finish normally. -/
def disconnect (s : System) (rid : RequestId) : System :=
  { s with rt := s.rt.recordStreamDisconnect.cancelRequest rid s.wall }.setPhase rid .ended

def bodyStep (s : System) (rid : RequestId) (phase : Phase) (b : BodyEvent) :
    Option (System × List Event) :=
  match phase, b with
  | .bodyPending, .start => some (s.setPhase rid .bodyOpen, [])
  -- closing a generator that never started runs none of its code
  | .bodyPending, .close => some ((s.setPhase rid .ended).leaveStream rid, [])
  | .bodyOpen, .chunk => some (s, [])
  | .bodyOpen, .exhausted => some (s.setPhase rid .bodyDone, [.adapterEnded rid])
  | .bodyOpen, .upstreamError => some (s.setPhase rid .bodyError, [.adapterEnded rid])
  | .bodyOpen, .exception => some (s.disconnect rid, [.adapterEnded rid])
  -- the loop over the adapter's stream is left without closing it
  | .bodyOpen, .close => some ((s.disconnect rid).leaveStream rid, [])
  | .bodyDone, .finish =>
    some ({ s with rt := s.rt.completeRequest rid s.wall }.setPhase rid .ended, [])
  | .bodyDone, .close => some (s.disconnect rid, [])
  | .bodyError, .finish => some (s.disconnect rid, [])
  | .bodyError, .close => some (s.disconnect rid, [])
  | _, _ => none

def finalise (s : System) (rid : RequestId) : System × List Event :=
  ({ s with unfinalised := s.unfinalised.filter (· ≠ rid) }, [.adapterEnded rid])

/-- A handler task is cancelled at an await: no handler code catches the cancellation, so
nothing but the task itself changes. -/
def kill (s : System) (rid : RequestId) (phase : Phase) : Option (System × List Event) :=
  match phase with
  | .waiting _ => some (s.setPhase rid .killed, [])
  | .calling | .generating | .firstChunk => some (s.setPhase rid .killed, [.adapterEnded rid])
  | _ => none

def step (s : System) : Label → Option (System × List Event)
  | .chat rid a => if s.rt.requests.contains rid then none else some (s.chatCompletions rid a)
  | .generate rid a => if s.rt.requests.contains rid then none else some (s.generate rid a)
  | .resume rid =>
    match s.handlers.get? rid with
    | some h =>
      match h.phase with
      | .waiting e => some (s.runWaiter rid h e)
      | _ => none
    | none => none
  | .adapter rid o =>
    match s.handlers.get? rid with
    | some h => s.adapterStep rid h.phase o
    | none => none
  | .body rid b =>
    match s.handlers.get? rid with
    | some h => s.bodyStep rid h.phase b
    | none => none
  | .finalise rid => if rid ∈ s.unfinalised then some (s.finalise rid) else none
  | .cancel rid => some (s.runtimeCancelRequest rid)
  | .kill rid =>
    match s.handlers.get? rid with
    | some h => s.kill rid h.phase
    | none => none
  | .memoryPressure p => some ({ s with rt.memoryPressure := p }, [])
  | .configure cfg => some ({ s with cfg }, [])
  | .tick mono wall => if s.mono ≤ mono then some ({ s with mono, wall }, []) else none

end System

/-- The broker: any number of handlers and cancel calls, interleaved at their awaits. -/
def broker : Machine System Label Event := ⟨System.step⟩

/-- What the step for each label amounts to. -/
inductive Stepped (s : System) : Label → System × List Event → Prop where
  | chat (hn : s.rt.requests.contains rid = false) :
      Stepped s (.chat rid a) (s.chatCompletions rid a)
  | generate (hn : s.rt.requests.contains rid = false) :
      Stepped s (.generate rid a) (s.generate rid a)
  | resume (hh : s.handlers.get? rid = some h) (hp : h.phase = .waiting e) :
      Stepped s (.resume rid) (s.runWaiter rid h e)
  | adapter (hh : s.handlers.get? rid = some h) (hs : s.adapterStep rid h.phase o = some x) :
      Stepped s (.adapter rid o) x
  | body (hh : s.handlers.get? rid = some h) (hs : s.bodyStep rid h.phase b = some x) :
      Stepped s (.body rid b) x
  | finalise (hm : rid ∈ s.unfinalised) : Stepped s (.finalise rid) (s.finalise rid)
  | cancel : Stepped s (.cancel rid) (s.runtimeCancelRequest rid)
  | kill (hh : s.handlers.get? rid = some h) (hs : s.kill rid h.phase = some x) :
      Stepped s (.kill rid) x
  | memoryPressure : Stepped s (.memoryPressure p) ({ s with rt.memoryPressure := p }, [])
  | configure : Stepped s (.configure cfg) ({ s with cfg }, [])
  | tick (hm : s.mono ≤ mono) : Stepped s (.tick mono wall) ({ s with mono, wall }, [])

theorem stepped_of_step (hs : broker.step s l = some x) : Stepped s l x := by
  simp only [broker, System.step] at hs
  cases l with
  | chat rid a =>
    simp only at hs
    split at hs
    · cases hs
    · next hn =>
      cases hs
      exact .chat (by simpa using hn)
  | generate rid a =>
    simp only at hs
    split at hs
    · cases hs
    · next hn =>
      cases hs
      exact .generate (by simpa using hn)
  | resume rid =>
    simp only at hs
    split at hs
    · next h hh =>
      split at hs
      · next e hp =>
        cases hs
        exact .resume hh hp
      · cases hs
    · cases hs
  | adapter rid o =>
    simp only at hs
    split at hs
    · next h hh => exact .adapter hh hs
    · cases hs
  | body rid b =>
    simp only at hs
    split at hs
    · next h hh => exact .body hh hs
    · cases hs
  | finalise rid =>
    simp only at hs
    split at hs
    · next hm =>
      cases hs
      exact .finalise hm
    · cases hs
  | cancel rid =>
    cases hs
    exact .cancel
  | kill rid =>
    simp only at hs
    split at hs
    · next h hh => exact .kill hh hs
    · cases hs
  | memoryPressure p =>
    cases hs
    exact .memoryPressure
  | configure cfg =>
    cases hs
    exact .configure
  | tick mono wall =>
    simp only at hs
    split at hs
    · next hm =>
      cases hs
      exact .tick hm
    · cases hs

namespace System

/-- What a handler's code leaves alone up to its adapter call: the clock and the streams that
were left open. -/
def surroundings (s : System) : Time × List RequestId := (s.mono, s.unfinalised)

variable (s : System) (rid : RequestId) (h : Handler)

theorem grant_surroundings (e : Option QueueEntry) :
    (s.grant e).1.surroundings = s.surroundings := by
  cases e <;> rfl

theorem executeNonStreaming_surroundings :
    (s.executeNonStreaming rid h).1.surroundings = s.surroundings := by
  simp only [executeNonStreaming]
  split <;> rfl

theorem afterWait_surroundings (ready : Bool) :
    (s.afterWait rid h ready).1.surroundings = s.surroundings := by
  unfold afterWait
  split
  · split <;> rfl
  · simp only
    split
    · exact executeNonStreaming_surroundings _ rid h
    · split <;> rfl

theorem runWaiter_surroundings (e : QueueEntry) :
    (s.runWaiter rid h e).1.surroundings = s.surroundings := by
  simp only [runWaiter]
  split
  · exact grant_surroundings _ _
  · exact (afterWait_surroundings _ rid h _).trans (grant_surroundings _ _)

theorem chatCompletions_surroundings (a : ChatArrival) :
    (s.chatCompletions rid a).1.surroundings = s.surroundings := by
  simp only [chatCompletions]
  split
  · rfl
  split
  · rfl
  split
  · rfl
  split
  · rfl
  split
  · rfl
  split
  · rfl
  split
  · rfl
  split
  · rfl
  split
  · exact runWaiter_surroundings _ rid _ _
  · simp only [runNow]
    split
    · rfl
    · split
      · exact executeNonStreaming_surroundings _ rid _
      · rfl

theorem generate_surroundings (a : GenerateArrival) :
    (s.generate rid a).1.surroundings = s.surroundings := by
  simp only [generate]
  split
  · rfl
  split
  · rfl
  split
  · rfl
  split
  · rfl
  split <;> rfl

theorem runtimeCancelRequest_surroundings :
    (s.runtimeCancelRequest rid).1.surroundings = s.surroundings := by
  simp only [runtimeCancelRequest]
  split
  · rfl
  split <;> rfl

theorem kill_surroundings (hs : s.kill rid p = some (s', out)) :
    s'.surroundings = s.surroundings := by
  simp only [kill] at hs
  split at hs <;> cases hs <;> rfl

end System

end Whooshd
