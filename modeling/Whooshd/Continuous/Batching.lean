import Whooshd.Library.Dict

namespace Whooshd.Continuous
set_option autoImplicit true

inductive ContinuousRequestState where
  | admitted | prefillPending | prefillRunning | decodeActive | streamDraining
  | completed | failed | cancelled | timedOut
  deriving DecidableEq, Repr

namespace ContinuousRequestState

def terminal : ContinuousRequestState → Bool
  | completed | failed | cancelled | timedOut => true
  | _ => false

end ContinuousRequestState

structure ContinuousRequestHandle where
  requestId : String
  deriving DecidableEq, Repr

inductive ContinuousSlotState where
  | empty | reserved | prefill | decoding | draining | released | failed
  deriving DecidableEq, Repr

structure ContinuousSlot where
  slotId : String
  state : ContinuousSlotState
  requestId : Option String := none
  deriving DecidableEq, Repr

inductive ContinuousFinishReason where
  | stop | length | cancelled | timeout | error
  deriving DecidableEq, Repr

structure ContinuousOutputChunk where
  requestId : String
  slotId : String
  sequenceIndex : Int
  text : Option String := none
  deriving DecidableEq, Repr

inductive ContinuousBatchInvariantViolation where
  | duplicateSlotAssignment | unknownRequestId | terminalStateReentered | outputDemuxMismatch
  | activeAccountingMismatch | promptLeak | tokenLeak
  deriving DecidableEq, Repr

abbrev Violations : Type := List ContinuousBatchInvariantViolation

/-- The loop of `validate_slot_assignments`, with the request ids seen before. -/
def slotViolations (seen : List String) : List ContinuousSlot → Violations
  | [] => []
  | slot :: slots =>
    match slot.requestId with
    | none => slotViolations seen slots
    | some rid =>
      (if slot.state = .released then [.duplicateSlotAssignment] else []) ++
        (if rid ∈ seen then [.duplicateSlotAssignment] else []) ++
        slotViolations (rid :: seen) slots

def validateSlotAssignments (slots : List ContinuousSlot) : Violations := slotViolations [] slots

def validateTerminalStateNotReentered (handles : List ContinuousRequestHandle)
    (terminalReasons : Dict String ContinuousRequestState) : Violations :=
  handles.flatMap fun h =>
    if (terminalReasons.get? h.requestId).any (·.terminal) then [.terminalStateReentered] else []

/-- The loop of `validate_output_demux`, with the last index of each request. -/
def demuxViolations (activeRequestIds activeSlotIds : List String)
    (perRequestSeq : Dict String Int) : List ContinuousOutputChunk → Violations
  | [] => []
  | chunk :: chunks =>
    let prev := (perRequestSeq.get? chunk.requestId).getD (-1)
    (if chunk.requestId ∉ activeRequestIds then [.outputDemuxMismatch] else []) ++
      (if chunk.slotId ∉ activeSlotIds then [.outputDemuxMismatch] else []) ++
      (if chunk.sequenceIndex ≤ prev then [.outputDemuxMismatch] else []) ++
      demuxViolations activeRequestIds activeSlotIds
        (perRequestSeq.set chunk.requestId chunk.sequenceIndex) chunks

def validateOutputDemux (chunks : List ContinuousOutputChunk)
    (activeRequestIds activeSlotIds : List String) : Violations :=
  demuxViolations activeRequestIds activeSlotIds .empty chunks

end Whooshd.Continuous
