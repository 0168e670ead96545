import Whooshd.Library.Dict

namespace Whooshd.TokenStep
set_option autoImplicit true

inductive TokenStepSequenceState where
  | admitted | prefillQueued | prefilling | readyToDecode | decoding
  | finished | cancelled | failed | timedOut | cleanedUp
  deriving DecidableEq, Repr

structure TokenStepRequest where
  requestId : String
  maxTokens : Int
  samplerLabel : String := "default"
  deriving DecidableEq, Repr

structure FakeSequenceHandle where
  sequenceId : String
  deriving DecidableEq, Repr

structure FakeTokenStepBackend where
  states : Dict String TokenStepSequenceState := .empty
  maxTokens : Dict String Int := .empty
  stepCounts : Dict String Nat := .empty
  samplers : Dict String String := .empty
  rids : Dict String String := .empty
  nextId : Nat := 0

/-- The text of one token. -/
def tokenText (rid sampler : String) (step : Nat) : String :=
  rid ++ "_" ++ sampler ++ "_" ++ Nat.repr step

namespace FakeTokenStepBackend

def prefill (b : FakeTokenStepBackend) (request : TokenStepRequest) :
    FakeTokenStepBackend × FakeSequenceHandle :=
  let sid := "seq-" ++ Nat.repr b.nextId
  ({ states := b.states.set sid .readyToDecode
     maxTokens := b.maxTokens.set sid request.maxTokens
     stepCounts := b.stepCounts.set sid 0
     samplers := b.samplers.set sid request.samplerLabel
     rids := b.rids.set sid request.requestId
     nextId := b.nextId + 1 }, ⟨sid⟩)

def setState (b : FakeTokenStepBackend) (h : FakeSequenceHandle) (state : TokenStepSequenceState) :
    FakeTokenStepBackend :=
  { b with states := b.states.set h.sequenceId state }

/-- One turn of the loop of `decode_step`. -/
def decodeOne (b : FakeTokenStepBackend) (outputs : Dict FakeSequenceHandle String)
    (h : FakeSequenceHandle) : FakeTokenStepBackend × Dict FakeSequenceHandle String :=
  let sid := h.sequenceId
  let state := b.states.get? sid
  if state = some .cancelled ∨ state = some .failed ∨ state = some .timedOut then (b, outputs)
  else
    let b := if state = some .readyToDecode then b.setState h .decoding else b
    let step := (b.stepCounts.get? sid).getD 0
    if step < (b.maxTokens.get? sid).getD 0 then
      let sampler := (b.samplers.get? sid).getD "default"
      let rid := (b.rids.get? sid).getD "?"
      ({ b with stepCounts := b.stepCounts.set sid (step + 1) },
        outputs.set h (tokenText rid sampler step))
    else (b.setState h .finished, outputs)

def decodeStep (b : FakeTokenStepBackend) (handles : List FakeSequenceHandle) :
    FakeTokenStepBackend × Dict FakeSequenceHandle String :=
  handles.foldl (fun r h => r.1.decodeOne r.2 h) (b, .empty)

/-- The common body of `cancel_sequence`, `timeout_sequence` and `fail_sequence`. -/
def endSequence (b : FakeTokenStepBackend) (h : FakeSequenceHandle)
    (state : TokenStepSequenceState) : FakeTokenStepBackend :=
  match b.states.get? h.sequenceId with
  | some .finished | some .cleanedUp | some .cancelled | some .failed | some .timedOut => b
  | _ => b.setState h state

def cancelSequence (b : FakeTokenStepBackend) (h : FakeSequenceHandle) : FakeTokenStepBackend :=
  b.endSequence h .cancelled

def timeoutSequence (b : FakeTokenStepBackend) (h : FakeSequenceHandle) : FakeTokenStepBackend :=
  b.endSequence h .timedOut

def failSequence (b : FakeTokenStepBackend) (h : FakeSequenceHandle) : FakeTokenStepBackend :=
  b.endSequence h .failed

def isFinished (b : FakeTokenStepBackend) (h : FakeSequenceHandle) : Bool :=
  match b.states.get? h.sequenceId with
  | some .finished | some .cancelled | some .failed | some .timedOut => true
  | _ => false

def releaseSequence (b : FakeTokenStepBackend) (h : FakeSequenceHandle) : FakeTokenStepBackend :=
  b.setState h .cleanedUp

end FakeTokenStepBackend

end Whooshd.TokenStep
