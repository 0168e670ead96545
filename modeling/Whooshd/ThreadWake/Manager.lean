import Whooshd.Library.Machine
import Whooshd.ThreadWake.Index
import Whooshd.ThreadWake.Tokenizer

namespace Whooshd.ThreadWake
set_option autoImplicit true

/-- What the manager is built over: the hash, the process configuration and the adapters
registered for each backend. -/
structure Env where
  sha256Hex : String → String
  defaults : ResolvedConfig
  allowGlobal : Bool
  kvCapability : String → KVCapability
  tokenizerCapability : String → TokenizerCapability
  tokenizePrompt : String → PromptGraph → ChatRequest → Option TokenizedPrompt

/-- Every prompt the tokenizer adapters return is split in two. -/
def Env.Splits (env : Env) : Prop :=
  ∀ backend graph request t, env.tokenizePrompt backend graph request = some t → t.Split

structure CallOptions where
  modelRevision : Option String
  quantization : Option String
  tokenizerHash : Option String
  chatTemplateHash : Option String
  deriving DecidableEq, Repr

/-- A request for a named backend. -/
structure PromptCall where
  request : ChatRequest
  backend : String
  options : CallOptions

def requestConfig (env : Env) (request : ChatRequest) : ResolvedConfig :=
  resolveConfig env.defaults request.threadwake

def requestGraph (env : Env) (request : ChatRequest) (backend : Option String)
    (options : CallOptions) : PromptGraph :=
  compilePromptGraph env.sha256Hex
    { messages := request.messages
      modelId := request.model
      backend
      tools := request.tools
      toolChoice := request.toolChoice
      tokenizerHash := options.tokenizerHash
      chatTemplateHash := options.chatTemplateHash
      scope := (requestConfig env request).scope
      codexifySegments := request.threadwakeSegments
      allowGlobal := env.allowGlobal }

def extractScopeContext (request : ChatRequest) : ScopeContext :=
  ⟨request.threadId, request.userId, request.projectId⟩

def attachTokenizerStatus (env : Env) (o : ThreadWakeObservation) (backend : Option String)
    (tokenized : Option TokenizedPrompt) : ThreadWakeObservation :=
  match backend with
  | none => { o with
      tokenizerCapability := none
      realTokenizationAvailable := false
      tokenizationReason := some "backend_unknown" }
  | some backend =>
    let cap := env.tokenizerCapability backend
    let o := { o with tokenizerCapability := some cap }
    match cap with
    | .unsupported => { o with
        realTokenizationAvailable := false
        tokenizationReason := some "tokenizer_unsupported" }
    | .estimatesOnly => { o with
        realTokenizationAvailable := false
        tokenizationReason := some "tokenizer_estimates_only" }
    | _ =>
      let o := { o with
        realTokenizationAvailable := true
        tokenizationReason := none }
      match tokenized with
      | none => o
      | some t =>
        if t.realTokenization then { o with
          stablePrefixTokenCountReal :=
            if t.stablePrefixTokenCount ≠ 0 then some t.stablePrefixTokenCount
            else o.stablePrefixTokenCountReal
          dynamicTailTokenCountReal :=
            if t.dynamicTailTokenCount ≠ 0 then some t.dynamicTailTokenCount
            else o.dynamicTailTokenCountReal }
        else o

def attachBackendKvStatus (env : Env) (o : ThreadWakeObservation) (backend : Option String)
    (tokenized : Option TokenizedPrompt) : ThreadWakeObservation :=
  match backend with
  | none =>
    attachTokenizerStatus env
      { o with
        backendKvCapability := none
        canReuseKv := false
        kvReuseReason := some "backend_unknown" } none none
  | some backend =>
    let o := { o with backendKvCapability := some (env.kvCapability backend) }
    let o :=
      if env.kvCapability backend = .unsupported then
        { o with canReuseKv := false, kvReuseReason := some "backend_unsupported" }
      else if o.eligible = false then
        { o with
          canReuseKv := false
          kvReuseReason :=
            some ("backend_capable_but_ineligible: " ++ o.reason.getD "None") }
      else if o.mode.reuses then
        match tokenized.filter (·.realTokenization) with
        | some t => { o with
            canReuseKv := true
            kvReuseReason := none
            stablePrefixTokenCountReal := some t.stablePrefixTokenCount
            dynamicTailTokenCountReal := some t.dynamicTailTokenCount }
        | none =>
          { o with canReuseKv := false, kvReuseReason := some "real_tokenization_unavailable" }
      else { o with canReuseKv := false, kvReuseReason := some "observe_mode_not_reusing" }
    attachTokenizerStatus env o (some backend) tokenized

namespace PromptCall

def config (env : Env) (c : PromptCall) : ResolvedConfig := requestConfig env c.request

def context (c : PromptCall) : ScopeContext := extractScopeContext c.request

def scope (env : Env) (c : PromptCall) : ThreadWakeScope := (c.config env).scope

def graph (env : Env) (c : PromptCall) : PromptGraph :=
  requestGraph env c.request (some c.backend) c.options

def modelId (c : PromptCall) : String := c.request.model.getD ""

def cacheKey (env : Env) (c : PromptCall) : String :=
  buildThreadwakeCacheKey env.sha256Hex (c.graph env) (c.scope env) c.options.modelRevision
    c.options.quantization

def tokenized (env : Env) (c : PromptCall) : TokenizedPrompt :=
  (env.tokenizePrompt c.backend (c.graph env) c.request).getD
    (.unavailable "tokenizer_returned_none")

/-- The observation of an execution, before any reuse is tried. -/
def observation (env : Env) (c : PromptCall) : ThreadWakeObservation :=
  attachBackendKvStatus env (evaluateThreadwakePolicy (some (c.graph env)) (c.config env))
    (some c.backend) (some (c.tokenized env))

/-- The request is in a reusing mode and passes the policy. -/
def wantsReuse (env : Env) (c : PromptCall) : Bool :=
  (c.config env).mode.reuses && (c.observation env).eligible

/-- The backend can reuse KV state and real token ids are there. -/
def canReuse (env : Env) (c : PromptCall) : Bool :=
  (env.kvCapability c.backend).canReuse && (c.tokenized env).realTokenization

/-- The thread whose tip the call reads and writes. -/
def tipThread (env : Env) (c : PromptCall) : Option String :=
  if (c.graph env).continuationCandidate then present c.request.threadId else none

def putArgs (env : Env) (c : PromptCall) (handle : Option HandleId) : PutArgs :=
  { cacheKey := c.cacheKey env
    modelId := c.modelId
    backend := c.backend
    promptPrefixHash := (c.graph env).stablePrefixHash
    tokenCount := (c.graph env).stablePrefixTokens
    scope := c.scope env
    scopeContext := c.context
    kvHandleId := handle }

end PromptCall

/-- How one attempt to resume from a KV handle ends. -/
inductive Resumption where
  | cloneRaised
  | generateRaised
  | generated (output : List String)
  deriving DecidableEq, Repr

/-- How the KV adapter and the full generation behave during one execution; nothing stands
for an exception. -/
structure AdapterOutcome where
  continuation : Resumption
  reuse : Resumption
  prefill : Bool
  full : Option (List String)
  deriving DecidableEq, Repr

/-- A prefilled KV state, with the call it was made for. -/
structure Prefill where
  tokens : List TokenId
  source : PromptCall

structure Manager where
  index : ThreadWakeIndex
  metrics : ThreadWakeMetrics
  kv : List Prefill

structure ThreadWakeMetadata where
  cacheHit : Bool
  matchedTokens : Nat
  mode : String
  scope : ThreadWakeScope
  backendKvCapability : Option KVCapability
  deriving DecidableEq, Repr

structure EphemeralResult where
  outputTokens : List String
  cacheHit : Bool
  matchedTokens : Nat
  observation : ThreadWakeObservation
  metadata : ThreadWakeMetadata
  deriving DecidableEq, Repr

/-- The two ways to a KV handle. -/
inductive Path where
  | exactPrefix | session
  deriving DecidableEq, Repr

inductive Event where
  | looked (context : ScopeContext) (found : Option ThreadWakeIndexEntry)
  | cloned (path : Path) (handle : Option HandleId) (context : ScopeContext)
  | resumed (path : Path) (handle : Option HandleId) (tail : List TokenId)
      (prompt : TokenizedPrompt)
  | prefilled (handle : HandleId) (tokens : List TokenId)
  | observed (observation : ThreadWakeObservation)
  | returned (result : EphemeralResult)
  | flushed (removed remaining : Nat)
  | answered (ready : Bool)
  | raised
  deriving DecidableEq, Repr

/-- The calls that reach one manager or its index. -/
inductive Call where
  | observe (request : ChatRequest) (backend : Option String) (options : CallOptions)
  | execute (call : PromptCall) (outcome : AdapterOutcome)
  | flushCache (scope : Option ThreadWakeScope) (modelId scopeId : Option String)
  | hasReadyEntry (cacheKey : Option String)
  | markCandidateSelected (cacheKey : String)

namespace Manager

def init (limits : IndexLimits) : Manager := ⟨.init limits, .zero, []⟩

def record (m : Manager) (o : ThreadWakeObservation) : Manager :=
  { m with metrics := m.metrics.record o }

/-- `_record_index_observation`. A refused scope is skipped; the failed lookup of an evicted
key is raised. -/
def recordIndexObservation (env : Env) (m : Manager) (c : PromptCall)
    (o : ThreadWakeObservation) : Manager × Bool :=
  if o.eligible = false then (m, true)
  else
    match m.index.putObservation env.sha256Hex env.allowGlobal (c.putArgs env none) with
    | (index, some (.missingKey _)) => ({ m with index }, false)
    | (index, _) => ({ m with index }, true)

def observeRequest (env : Env) (m : Manager) (request : ChatRequest) (backend : Option String)
    (options : CallOptions) : Manager × List Event :=
  let config := requestConfig env request
  if config.enabled = false ∨ config.mode = .off then
    let o := attachBackendKvStatus env (evaluateThreadwakePolicy none config) backend none
    (m.record o, [.observed o])
  else
    let graph := requestGraph env request backend options
    let o := attachBackendKvStatus env (evaluateThreadwakePolicy (some graph) config) backend none
    match backend with
    | none => (m.record o, [.observed o])
    | some name =>
      match m.recordIndexObservation env ⟨request, name, options⟩ o with
      | (m, true) => (m.record o, [.observed o])
      | (m, false) => (m, [.raised])

def metadataOf (o : ThreadWakeObservation) (cacheHit : Bool) (matched : Nat) (mode : String) :
    ThreadWakeMetadata :=
  ⟨cacheHit, matched, mode, o.cacheScope, o.backendKvCapability⟩

/-- `_full_generation_result`. -/
def fullGeneration (m : Manager) (o : ThreadWakeObservation) (output : Option (List String)) :
    Manager × List Event :=
  match output with
  | none => (m, [.raised])
  | some output =>
    (m.record o, [.returned ⟨output, false, 0, o, metadataOf o false 0 o.mode.text⟩])

/-- What a resumption shows of itself: the clone, and the tail it is given. -/
def resumptionEvents (path : Path) (handle : Option HandleId) (ctx : ScopeContext)
    (prompt : TokenizedPrompt) : Resumption → List Event
  | .cloneRaised => [.cloned path handle ctx]
  | .generateRaised | .generated _ =>
    [.cloned path handle ctx, .resumed path handle prompt.dynamicTailTokenIds prompt]

/-- The end of `_try_session_continuation`: a result, or what the caller goes on with. -/
inductive Attempt where
  | finished (m : Manager) (events : List Event)
  | passed (m : Manager) (o : ThreadWakeObservation) (events : List Event)

def clearTip (env : Env) (m : Manager) (c : PromptCall) (thread : String) : Manager :=
  { m with index := m.index.clearThreadTip env.sha256Hex thread c.modelId c.backend }

def storeTip (env : Env) (m : Manager) (c : PromptCall) (thread : String)
    (handle : Option HandleId) : Manager :=
  let graph := c.graph env
  { m with
    index := m.index.storeThreadTip env.sha256Hex thread c.modelId c.backend
      graph.fullPrefixChainHash graph.orderedSegmentHashes handle }

def trySessionContinuation (env : Env) (m : Manager) (c : PromptCall) (thread : String)
    (o : ThreadWakeObservation) (outcome : Resumption) : Attempt :=
  match m.index.getLatestForThread env.sha256Hex thread c.modelId c.backend with
  | none => .passed m o []
  | some tip =>
    if validateMonotonicAppend tip.orderedSegmentHashes (c.graph env).orderedSegmentHashes = false
    then
      .passed (m.clearTip env c thread)
        { o with kvReuseReason := some "non_monotonic_or_changed_prefix" } []
    else
      let events :=
        resumptionEvents .session tip.kvHandleId c.context (c.tokenized env) outcome
      match outcome with
      | .generated output =>
        let matched := sumTokens ((c.graph env).segments.take tip.segmentCount)
        let o := { o with cacheHit := true, estimatedPrefillReuseTokens := matched }
        .finished ((m.record o).storeTip env c thread tip.kvHandleId)
          (events ++ [.returned ⟨output, true, matched, o, metadataOf o true matched "session"⟩])
      | _ => .passed (m.clearTip env c thread) o events

/-- `_ephemeral_hit`. -/
def ephemeralHit (env : Env) (m : Manager) (c : PromptCall) (e : ThreadWakeIndexEntry)
    (o : ThreadWakeObservation) (outcome : AdapterOutcome) : Manager × List Event :=
  let events :=
    resumptionEvents .exactPrefix e.kvHandleId c.context (c.tokenized env) outcome.reuse
  match outcome.reuse with
  | .generated output =>
    let matched := (c.graph env).stablePrefixTokens
    let o := { o with cacheHit := true, estimatedPrefillReuseTokens := matched }
    (m.record o,
      events ++ [.returned ⟨output, true, matched, o, metadataOf o true matched "ephemeral"⟩])
  | _ =>
    let (m, rest) :=
      fullGeneration { m with index := m.index.markStale (c.cacheKey env) } o outcome.full
    (m, events ++ rest)

/-- The storing part of `_ephemeral_miss`, whose exceptions are swallowed. -/
def storePrefix (env : Env) (m : Manager) (c : PromptCall) (prefill : Bool) :
    Manager × List Event :=
  let stable := (c.tokenized env).stablePrefixTokenIds
  if stable = [] ∨ prefill = false then (m, [])
  else
    let handle := m.kv.length
    let m := { m with kv := m.kv ++ [Prefill.mk stable c] }
    match m.index.putObservation env.sha256Hex env.allowGlobal (c.putArgs env (some handle)) with
    | (index, some _) => ({ m with index }, [.prefilled handle stable])
    | (index, none) =>
      let m := { m with index := index.markReady (c.cacheKey env) }
      match c.tipThread env with
      | none => (m, [.prefilled handle stable])
      | some thread => (m.storeTip env c thread (some handle), [.prefilled handle stable])

/-- `_ephemeral_miss`. -/
def ephemeralMiss (env : Env) (m : Manager) (c : PromptCall) (o : ThreadWakeObservation)
    (outcome : AdapterOutcome) : Manager × List Event :=
  match outcome.full with
  | none => (m, [.raised])
  | some output =>
    let (m, generated) := fullGeneration m o (some output)
    let (m, stored) := m.storePrefix env c outcome.prefill
    (m, stored ++ generated)

/-- The lookup by cache key and what follows it. -/
def exactPrefix (env : Env) (m : Manager) (c : PromptCall) (o : ThreadWakeObservation)
    (outcome : AdapterOutcome) : Manager × List Event :=
  let (index, found) := m.index.get env.sha256Hex env.allowGlobal (c.cacheKey env) c.context
  let m := { m with index }
  let (m, events) :=
    match found.filter (fun e => e.status = .ready) with
    | some e => m.ephemeralHit env c e o outcome
    | none => m.ephemeralMiss env c o outcome
  (m, .looked c.context found :: events)

def executeEphemeral (env : Env) (m : Manager) (c : PromptCall) (outcome : AdapterOutcome) :
    Manager × List Event :=
  let o := c.observation env
  if c.wantsReuse env = false then fullGeneration (m.record o) o outcome.full
  else if c.canReuse env = false then
    let t := c.tokenized env
    let o :=
      if t.realTokenization then o
      else { o with
        canReuseKv := false
        kvReuseReason := some (Text.orElse t.unavailableReason "real_tokenization_unavailable") }
    fullGeneration (m.record o) o outcome.full
  else
    match c.tipThread env with
    | none => m.exactPrefix env c o outcome
    | some thread =>
      match m.trySessionContinuation env c thread o outcome.continuation with
      | .finished m events => (m, events)
      | .passed m o events =>
        let (m, rest) := m.exactPrefix env c o outcome
        (m, events ++ rest)

def flushCache (env : Env) (m : Manager) (scope : Option ThreadWakeScope)
    (modelId scopeId : Option String) : Manager × List Event :=
  let (index, removed) := m.index.flush ⟨scope, modelId, scopeId.map env.sha256Hex⟩
  ({ m with index }, [.flushed removed index.entries.size])

def hasReadyEntry (env : Env) (m : Manager) (cacheKey : Option String) : Manager × List Event :=
  match cacheKey with
  | none => (m, [.answered false])
  | some key =>
    let (index, found) := m.index.get env.sha256Hex env.allowGlobal key .none
    ({ m with index }, [.looked .none found, .answered (found.any (fun e => e.status = .ready))])

def step (env : Env) (m : Manager) : Call → Manager × List Event
  | .observe request backend options => m.observeRequest env request backend options
  | .execute c outcome => m.executeEphemeral env c outcome
  | .flushCache scope modelId scopeId => m.flushCache env scope modelId scopeId
  | .hasReadyEntry key => m.hasReadyEntry env key
  | .markCandidateSelected key =>
    ({ m with index := (m.index.markCandidateSelected key).1 }, [])

end Manager

/-- The manager as a machine over its calls. -/
def manager (env : Env) : Machine Manager Call Event where
  step m call := some (m.step env call)

/-- The state after a sequence of calls and the events shown on the way. -/
def Manager.run (env : Env) (m : Manager) : List Call → Manager × List Event
  | [] => (m, [])
  | call :: calls =>
    let (m', es) := m.step env call
    let (t, fs) := m'.run env calls
    (t, es ++ fs)

theorem exec_eq_run (env : Env) (m : Manager) (calls : List Call) :
    (manager env).exec m calls = some (m.run env calls) := by
  induction calls generalizing m with
  | nil => rfl
  | cons call calls ih => exact Machine.exec_cons.2 ⟨_, _, _, rfl, ih _, rfl⟩

end Whooshd.ThreadWake
