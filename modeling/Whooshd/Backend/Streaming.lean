import Whooshd.Backend.ForwardBody
import Whooshd.LogSafety.Values

namespace Whooshd.Backend
set_option autoImplicit true

structure ChatCompletionChunk where
  id : String
  object : String
  created : Int
  model : String
  choices : List Json
  runtimeProvenance : Option Json

/-- An exception raised by the HTTP client. -/
structure TransportException where
  typeName : String
  text : String

/-- A line of the upstream response, and whether the token is set when it has been read. -/
structure UpstreamLine where
  text : String
  cancelled : Bool

/-- What the upstream does with the request. A response may break off with an exception after
its lines, and closing it may raise one too. -/
inductive Upstream where
  | unreachable (exc : TransportException)
  | responded (status : Nat) (lines : List UpstreamLine)
      (breaks closing : Option TransportException)

/-- The classes of `UpstreamRuntimeError` that forwarding raises. -/
inductive UpstreamError where
  | connection | timeout | badRequest | modelNotFound | warming | http
  deriving DecidableEq, Repr

namespace UpstreamError

def className : UpstreamError → String
  | connection => "UpstreamConnectionError"
  | timeout => "UpstreamTimeoutError"
  | badRequest => "UpstreamBadRequest"
  | modelNotFound => "RuntimeModelNotFound"
  | warming => "RuntimeWarming"
  | http => "UpstreamHTTPError"

def httpStatus : UpstreamError → Nat
  | connection => 503
  | timeout => 504
  | badRequest => 400
  | modelNotFound => 404
  | warming => 425
  | http => 502

def errorCode : UpstreamError → String
  | connection => "upstream_unavailable"
  | timeout => "upstream_timeout"
  | badRequest => "unsupported_field"
  | modelNotFound => "model_not_found"
  | warming => "model_warming"
  | http => "upstream_protocol_error"

end UpstreamError

def classifyRequestException (lower : String → String) (exc : TransportException) :
    UpstreamError :=
  let name := (lower exc.typeName).toList
  let text := (lower exc.text).toList
  if Text.occursIn "connect".toList name || Text.occursIn "connection".toList text then .connection
  else if Text.occursIn "readtimeout".toList name || Text.occursIn "timeout".toList name ||
      Text.occursIn "timeout".toList text then .timeout
  else .http

def errorForStatus (status : Nat) : UpstreamError :=
  if status = 400 then .badRequest
  else if status = 404 then .modelNotFound
  else if status = 408 ∨ status = 504 then .timeout
  else if status = 429 then .warming
  else .http

def dataStart : List Char := ['d', 'a', 't', 'a', ':', ' ']

def doneText : List Char := ['[', 'D', 'O', 'N', 'E', ']']

def isData (line : UpstreamLine) : Bool := dataStart.isPrefixOf line.text.toList

def dataOf (line : UpstreamLine) : List Char := line.text.toList.drop dataStart.length

/-- The loop over the lines: the chunks it yields and whether it returned at a set token.
Decoding and validating a frame is a parameter, `none` where one of them raises. -/
def readLines (parse : String → Option ChatCompletionChunk) :
    List UpstreamLine → List ChatCompletionChunk × Bool
  | [] => ([], false)
  | line :: lines =>
    if line.cancelled then ([], true)
    else if isData line = false then readLines parse lines
    else if Text.trimChars Text.isSpace (dataOf line) = doneText then readLines parse lines
    else
      match parse (String.ofList (dataOf line)) with
      | none => readLines parse lines
      | some chunk =>
        let (chunks, returned) := readLines parse lines
        (chunk :: chunks, returned)

/-- What a generator yields, and what it raises at its end. -/
structure Generated where
  chunks : List ChatCompletionChunk
  raised : Option UpstreamError

section Forward

variable (lower : String → String) (parse : String → Option ChatCompletionChunk)

def forwardResponse : Upstream → Generated
  | .unreachable exc => ⟨[], some (classifyRequestException lower exc)⟩
  | .responded status lines breaks closing =>
    if status ≠ 200 then
      let raised := match closing with
        | some exc => classifyRequestException lower exc
        | none => errorForStatus status
      ⟨[], some raised⟩
    else
      let (chunks, returned) := readLines parse lines
      let failure := closing.or (if returned then none else breaks)
      ⟨chunks, failure.map (classifyRequestException lower)⟩

/-- `forward_streaming` against an upstream that answers a body. -/
def forwardStreaming (server : Dict String Json → Upstream) (request : AnyChatRequest)
    (modelOverride adapterKind : Option String) : Except BackendRequestPolicyError Generated :=
  match buildForwardBody lower request modelOverride adapterKind with
  | .error e => .error e
  | .ok body => .ok (forwardResponse lower parse (server (body.set "stream" (.bool true))))

end Forward

structure ErrorBody where
  code : String
  httpStatus : Nat
  kind : String
  outputStarted : Bool
  deriving DecidableEq, Repr

def errorBody (e : UpstreamError) (outputStarted : Bool) : ErrorBody :=
  ⟨e.errorCode, e.httpStatus, e.className, outputStarted⟩

/-- One server-sent event of a response. -/
inductive Frame where
  | chunk (c : ChatCompletionChunk)
  | done
  | error (body : ErrorBody)

/-- What a response is built from besides the stream: the texts of the runtime resolution, those
of its attestation reference together. -/
structure RuntimeResolution where
  requestedModelId : String
  advertisedModelId : String
  resolvedModelId : String
  adapterKind : String
  adapterName : String
  qualificationAttestation : List String

def safeModelAlias (modelId : String) : List Char := LogSafety.safeModelAlias modelId.toList

/-- The texts of `provenance` that may hold any character. Its identifiers match a pattern, and
its other fields take fixed words. -/
def RuntimeResolution.provenanceTexts (resolution : RuntimeResolution)
    (backendReportedModelId : Option String) : List (List Char) :=
  [safeModelAlias resolution.requestedModelId, safeModelAlias resolution.advertisedModelId,
    safeModelAlias resolution.resolvedModelId, resolution.adapterKind.toList.take 64,
    resolution.adapterName.toList.take 64] ++
  (backendReportedModelId.filter (· ≠ "")).toList.map safeModelAlias ++
  resolution.qualificationAttestation.map String.toList

/-- A response encodes its headers in Latin-1; the JSON of the provenance header holds the
characters of its texts as they are. -/
def headersFit (resolution : Option RuntimeResolution) (backendReportedModelId : Option String) :
    Bool :=
  resolution.all fun resolution =>
    (resolution.provenanceTexts backendReportedModelId).all (·.all (·.toNat < 256))

inductive Response where
  | sse (frames : List Frame)
  | json (status : Nat) (body : ErrorBody)
  /-- The headers cannot be encoded: the handler raises. -/
  | raised

/-- The first chunk loses its provenance when the runtime was resolved. -/
def stableShape (resolved : Bool) (c : ChatCompletionChunk) : ChatCompletionChunk :=
  if resolved then { c with runtimeProvenance := none } else c

/-- The frame after the last chunk of a started stream. -/
def lastFrame : Option UpstreamError → Frame
  | none => .done
  | some e => .error (errorBody e true)

/-- The response to a stream, once its first item was fetched. -/
def respond (resolution : Option RuntimeResolution) (g : Generated) : Response :=
  match g.chunks with
  | [] =>
    match g.raised with
    | none => if headersFit resolution none then .sse [.done] else .raised
    | some e => .json e.httpStatus (errorBody e false)
  | first :: rest =>
    if headersFit resolution (some first.model) then
      .sse (.chunk (stableShape resolution.isSome first) :: rest.map .chunk ++
        [lastFrame g.raised])
    else .raised

def executeStreaming (lower : String → String) (parse : String → Option ChatCompletionChunk)
    (server : Dict String Json → Upstream) (resolution : Option RuntimeResolution)
    (request : AnyChatRequest) (modelOverride adapterKind : Option String) :
    Except BackendRequestPolicyError Response :=
  match ensureBackendChatRequest lower request adapterKind with
  | .error e => .error e
  | .ok request =>
    match forwardStreaming lower parse server (.backend request) modelOverride adapterKind with
    | .error e => .error e
    | .ok g => .ok (respond resolution g)

def isDone (line : UpstreamLine) : Bool :=
  isData line && Text.trimChars Text.isSpace (dataOf line) = doneText

/-- The chunk of a data frame that is neither malformed nor the end of the stream. -/
def acceptedChunk (parse : String → Option ChatCompletionChunk) (line : UpstreamLine) :
    Option ChatCompletionChunk :=
  if isData line && !isDone line then parse (String.ofList (dataOf line)) else none

namespace Upstream

/-- The lines of a successful response up to the cancellation. -/
def linesRead : Upstream → List UpstreamLine
  | unreachable _ => []
  | responded status lines _ _ => if status = 200 then lines.takeWhile (!·.cancelled) else []

def reachedDone (u : Upstream) : Bool := u.linesRead.any isDone

def acceptedChunks (parse : String → Option ChatCompletionChunk) (u : Upstream) :
    List ChatCompletionChunk := u.linesRead.filterMap (acceptedChunk parse)

/-- A successful response ends or is cancelled without an exception. -/
def endsQuietly : Upstream → Bool
  | unreachable _ => false
  | responded status lines breaks closing =>
    status = 200 && closing.isNone && (breaks.isNone || lines.any (·.cancelled))

end Upstream

/-- The chunks as they are shown. -/
def shown (resolved : Bool) : List ChatCompletionChunk → List ChatCompletionChunk
  | [] => []
  | first :: rest => stableShape resolved first :: rest

/-- What the client sees of a response. -/
def Response.visible : Response → List Frame
  | sse frames => frames
  | json _ body => [.error body]
  | raised => []

/-- The accepted chunks in order, each once, and one terminator, which tells a finished
upstream from a broken one. -/
def Transcript (parse : String → Option ChatCompletionChunk) (resolved : Bool) (u : Upstream)
    (frames : List Frame) : Prop :=
  ∃ last, frames = (shown resolved (u.acceptedChunks parse)).map .chunk ++ [last] ∧
    (last = .done ↔ u.reachedDone = true) ∧ (u.reachedDone = false → ∃ body, last = .error body)

/-- A stream is begun only with headers that can be encoded: there is a first chunk, or the
upstream ends without one. -/
def HeadersFit (parse : String → Option ChatCompletionChunk)
    (resolution : Option RuntimeResolution) (u : Upstream) : Prop :=
  match u.acceptedChunks parse with
  | [] => u.endsQuietly = true → headersFit resolution none = true
  | first :: _ => headersFit resolution (some first.model) = true

instance (parse : String → Option ChatCompletionChunk) (resolution : Option RuntimeResolution)
    (u : Upstream) : Decidable (HeadersFit parse resolution u) :=
  match h : u.acceptedChunks parse with
  | [] => decidable_of_iff (u.endsQuietly = true → headersFit resolution none = true)
      (by rw [HeadersFit, h])
  | first :: _ => decidable_of_iff (headersFit resolution (some first.model) = true)
      (by rw [HeadersFit, h])

theorem readLines_eq (parse : String → Option ChatCompletionChunk) (lines : List UpstreamLine) :
    readLines parse lines = ((lines.takeWhile (!·.cancelled)).filterMap (acceptedChunk parse),
      lines.any (·.cancelled)) := by
  induction lines with
  | nil => rfl
  | cons line lines ih =>
    simp only [readLines]
    split
    · next hc => simp [hc]
    next hc =>
    have htake : (line :: lines).takeWhile (!·.cancelled) =
        line :: lines.takeWhile (!·.cancelled) := List.takeWhile_cons_of_pos (by simpa using hc)
    have hany : (line :: lines).any (·.cancelled) = lines.any (·.cancelled) := by
      simp only [List.any_cons, hc, Bool.false_or]
    rw [ih, htake, hany, List.filterMap_cons]
    split
    · next hd => simp [acceptedChunk, hd]
    next hd =>
    replace hd : isData line = true := by simpa using hd
    split
    · next hdone => simp [acceptedChunk, isDone, hd, hdone]
    next hdone =>
    have hparse : acceptedChunk parse line = parse (String.ofList (dataOf line)) := by
      simp [acceptedChunk, isDone, hd, hdone]
    rw [hparse]
    split <;> next he => simp only [he]

/-- The generator yields the accepted chunks and raises unless the upstream ends quietly. -/
theorem forwardResponse_spec (lower : String → String)
    (parse : String → Option ChatCompletionChunk) (u : Upstream) :
    (forwardResponse lower parse u).chunks = u.acceptedChunks parse ∧
      ((forwardResponse lower parse u).raised = none ↔ u.endsQuietly = true) := by
  cases u with
  | unreachable exc => simp [forwardResponse, Upstream.acceptedChunks, Upstream.linesRead,
      Upstream.endsQuietly]
  | responded status lines breaks closing =>
    by_cases hs : status = 200
    · simp only [forwardResponse, hs, ne_eq, not_true, if_false, readLines_eq,
        Upstream.acceptedChunks, Upstream.linesRead, if_true, Upstream.endsQuietly, true_and]
      cases closing <;> cases hc : lines.any (·.cancelled) <;> cases breaks <;> simp
    · simp [forwardResponse, hs, Upstream.acceptedChunks, Upstream.linesRead,
        Upstream.endsQuietly]

/-- Whether the response to what a generator did can be built. -/
def Generated.headersFit (g : Generated) (resolution : Option RuntimeResolution) : Bool :=
  match g.chunks with
  | [] => g.raised.isSome || Backend.headersFit resolution none
  | first :: _ => Backend.headersFit resolution (some first.model)

theorem forwardResponse_headersFit (lower : String → String)
    (parse : String → Option ChatCompletionChunk) (resolution : Option RuntimeResolution)
    (u : Upstream) :
    (forwardResponse lower parse u).headersFit resolution = true ↔
      HeadersFit parse resolution u := by
  obtain ⟨hchunks, hraised⟩ := forwardResponse_spec lower parse u
  rw [HeadersFit, Generated.headersFit, hchunks, ← hraised]
  cases u.acceptedChunks parse with
  | cons first rest => rfl
  | nil => cases (forwardResponse lower parse u).raised <;> simp

/-- The response shows nothing if it cannot be built. Else it shows the chunks, and closes with
an error exactly when the generator raised. -/
theorem respond_visible (resolution : Option RuntimeResolution) (g : Generated) :
    if g.headersFit resolution then
      ∃ last, (respond resolution g).visible =
          (shown resolution.isSome g.chunks).map .chunk ++ [last] ∧
        (last = .done ↔ g.raised = none) ∧ (g.raised ≠ none → ∃ body, last = .error body)
    else (respond resolution g).visible = [] := by
  obtain ⟨chunks, raised⟩ := g
  cases chunks with
  | nil =>
    cases raised with
    | none =>
      simp only [Generated.headersFit, respond, Option.isSome_none, Bool.false_or]
      split
      · exact ⟨.done, rfl, by simp, fun h => absurd rfl h⟩
      · rfl
    | some e => exact ⟨.error (errorBody e false), rfl, by simp, fun _ => ⟨_, rfl⟩⟩
  | cons first rest =>
    simp only [Generated.headersFit, respond]
    split
    · refine ⟨lastFrame raised, rfl, ?_, ?_⟩
      · cases raised <;> simp [lastFrame]
      · intro hne
        obtain ⟨e, rfl⟩ := Option.ne_none_iff_exists'.mp hne
        exact ⟨_, rfl⟩
    · rfl

theorem transcript_respond_iff (lower : String → String)
    (parse : String → Option ChatCompletionChunk) (resolution : Option RuntimeResolution)
    (u : Upstream) :
    Transcript parse resolution.isSome u
        (respond resolution (forwardResponse lower parse u)).visible ↔
      HeadersFit parse resolution u ∧ u.endsQuietly = u.reachedDone := by
  obtain ⟨hchunks, hraised⟩ := forwardResponse_spec lower parse u
  have hvisible := respond_visible resolution (forwardResponse lower parse u)
  rw [← forwardResponse_headersFit lower]
  split at hvisible
  · next hfit =>
    obtain ⟨last, hvis, hdone, herr⟩ := hvisible
    rw [hchunks] at hvis
    rw [hraised] at hdone
    constructor
    · rintro ⟨last', hvis', hiff, -⟩
      apply And.intro hfit
      rw [hvis] at hvis'
      obtain rfl : last = last' := by simpa using hvis'
      exact Bool.eq_iff_iff.2 (hdone.symm.trans hiff)
    · rintro ⟨-, he⟩
      refine ⟨last, hvis, he ▸ hdone, ?_⟩
      intro hno
      apply herr
      intro hnone
      rw [he, hno] at hraised
      exact absurd (hraised.1 hnone) (by simp)
  · next hfit =>
    constructor
    · rintro ⟨last, hvis, -⟩
      rw [hvisible] at hvis
      simp at hvis
    · rintro ⟨h, -⟩
      exact absurd h hfit

/-- A frame with one chunk, and the chunk. -/
def helloData : String :=
  "\x7b\"id\":\"c\",\"created\":1,\"model\":\"m\",\"choices\":[\x7b\"index\":0\x7d]\x7d"

def helloChunk : ChatCompletionChunk where
  id := "c"
  object := "chat.completion.chunk"
  created := 1
  model := "m"
  choices := [.obj [("index", .int 0), ("delta", .obj [])]]
  runtimeProvenance := none

def parseHello (text : String) : Option ChatCompletionChunk :=
  if text = helloData then some helloChunk else none

/-- A response of one chunk that ends with or without the end of the stream. -/
def helloStream (texts : List String) : Upstream :=
  .responded 200 ((("data: " ++ helloData) :: texts).map (⟨·, false⟩)) none none

/-- A model of the given id, resolved to itself. -/
def resolvedTo (modelId : String) : RuntimeResolution where
  requestedModelId := modelId
  advertisedModelId := modelId
  resolvedModelId := modelId
  adapterKind := "llama_cpp"
  adapterName := "llama-cpp"
  qualificationAttestation := []

end Whooshd.Backend
