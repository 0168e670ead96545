import Whooshd.Continuous.Batching
import Whooshd.Library.Machine

namespace Whooshd.Continuous
set_option autoImplicit true

inductive FakeStreamEventKind where
  | chunk | completed | cancelled | timedOut | failed
  deriving DecidableEq, Repr

inductive FakeStreamState where
  | «open» | completed | cancelled | timedOut | failed
  deriving DecidableEq, Repr

/-- `state_map`. -/
def FakeStreamEventKind.state : FakeStreamEventKind → FakeStreamState
  | cancelled => .cancelled
  | timedOut => .timedOut
  | failed => .failed
  | _ => .completed

structure FakeStreamEvent where
  requestId : String
  sequenceIndex : Int
  kind : FakeStreamEventKind
  text : Option String := none
  finishReason : Option ContinuousFinishReason := none
  deriving DecidableEq, Repr

structure FakeRequestStream where
  requestId : String
  state : FakeStreamState := .open
  nextSequenceIndex : Int := 0
  events : List FakeStreamEvent := []
  terminalEmitted : Bool := false
  deriving DecidableEq, Repr

structure FakeStreamingDemux where
  streams : Dict String FakeRequestStream
  deriving DecidableEq

def ContinuousOutputChunk.event (chunk : ContinuousOutputChunk) : FakeStreamEvent :=
  { requestId := chunk.requestId, sequenceIndex := chunk.sequenceIndex, kind := .chunk
    text := chunk.text }

namespace FakeRequestStream

def append (stream : FakeRequestStream) (event : FakeStreamEvent) : FakeRequestStream :=
  { stream with
    events := stream.events ++ [event]
    nextSequenceIndex := stream.nextSequenceIndex + 1 }

/-- The event that ends the stream. -/
def terminalEvent (stream : FakeRequestStream) (requestId : String) (kind : FakeStreamEventKind)
    (reason : ContinuousFinishReason) : FakeStreamEvent :=
  { requestId, sequenceIndex := stream.nextSequenceIndex, kind, finishReason := some reason }

end FakeRequestStream

namespace FakeStreamingDemux

def init : FakeStreamingDemux := ⟨.empty⟩

def openStream (d : FakeStreamingDemux) (requestId : String) : FakeStreamingDemux :=
  if d.streams.contains requestId then d
  else ⟨d.streams.set requestId { requestId }⟩

/-- The tests of the chunk against the active sets, which are reported and let it pass. -/
def activityViolations (chunk : ContinuousOutputChunk)
    (activeRequestIds activeSlotIds : List String) : Violations :=
  (if chunk.requestId ∉ activeRequestIds then [.outputDemuxMismatch] else []) ++
    (if chunk.slotId ∉ activeSlotIds then [.outputDemuxMismatch] else [])

def routeChunk (d : FakeStreamingDemux) (chunk : ContinuousOutputChunk)
    (activeRequestIds activeSlotIds : List String) : FakeStreamingDemux × Violations :=
  let violations := activityViolations chunk activeRequestIds activeSlotIds
  match d.streams.get? chunk.requestId with
  | none => (d, violations ++ [.outputDemuxMismatch])
  | some stream =>
    if stream.state ≠ .open then (d, violations ++ [.terminalStateReentered])
    else if chunk.sequenceIndex ≠ stream.nextSequenceIndex then
      (d, violations ++ [.outputDemuxMismatch])
    else (⟨d.streams.set chunk.requestId (stream.append chunk.event)⟩, violations)

/-- `_emit_terminal`. -/
def emitTerminal (d : FakeStreamingDemux) (requestId : String) (kind : FakeStreamEventKind)
    (reason : ContinuousFinishReason) : FakeStreamingDemux × Violations :=
  match d.streams.get? requestId with
  | none => (d, [])
  | some stream =>
    if stream.state ≠ .open then (d, [.terminalStateReentered])
    else
      let stream' := { stream with state := kind.state, terminalEmitted := true }
      (⟨d.streams.set requestId (stream'.append (stream.terminalEvent requestId kind reason))⟩, [])

def complete (d : FakeStreamingDemux) (requestId : String) :=
  d.emitTerminal requestId .completed .stop

def cancel (d : FakeStreamingDemux) (requestId : String) :=
  d.emitTerminal requestId .cancelled .cancelled

def timeout (d : FakeStreamingDemux) (requestId : String) :=
  d.emitTerminal requestId .timedOut .timeout

def fail (d : FakeStreamingDemux) (requestId : String) :=
  d.emitTerminal requestId .failed .error

def drainEvents (d : FakeStreamingDemux) (requestId : String) :
    FakeStreamingDemux × List FakeStreamEvent :=
  match d.streams.get? requestId with
  | none => (d, [])
  | some stream => (⟨d.streams.set requestId { stream with events := [] }⟩, stream.events)

end FakeStreamingDemux

inductive DemuxCall where
  | openStream (requestId : String)
  | routeChunk (chunk : ContinuousOutputChunk) (activeRequestIds activeSlotIds : List String)
  | complete (requestId : String)
  | cancel (requestId : String)
  | timeout (requestId : String)
  | fail (requestId : String)
  | drainEvents (requestId : String)
  deriving DecidableEq, Repr

/-- The request whose stream a call is about. -/
def DemuxCall.requestId : DemuxCall → String
  | openStream rid | complete rid | cancel rid | timeout rid | fail rid | drainEvents rid => rid
  | routeChunk chunk _ _ => chunk.requestId

inductive DemuxReply where
  | done
  | routed (chunk : ContinuousOutputChunk) (violations : Violations)
  | ended (violations : Violations)
  | drained (requestId : String) (events : List FakeStreamEvent)
  deriving DecidableEq, Repr

def FakeStreamingDemux.call (d : FakeStreamingDemux) : DemuxCall → FakeStreamingDemux × DemuxReply
  | .openStream rid => (d.openStream rid, .done)
  | .routeChunk chunk ids slots =>
    let (d', violations) := d.routeChunk chunk ids slots
    (d', .routed chunk violations)
  | .complete rid => ((d.complete rid).1, .ended (d.complete rid).2)
  | .cancel rid => ((d.cancel rid).1, .ended (d.cancel rid).2)
  | .timeout rid => ((d.timeout rid).1, .ended (d.timeout rid).2)
  | .fail rid => ((d.fail rid).1, .ended (d.fail rid).2)
  | .drainEvents rid => ((d.drainEvents rid).1, .drained rid (d.drainEvents rid).2)

/-- A demultiplexer, which answers each call. -/
def demux : Machine FakeStreamingDemux DemuxCall DemuxReply where
  step d c := some ((d.call c).1, [(d.call c).2])

end Whooshd.Continuous
