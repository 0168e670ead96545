import Whooshd.Library.Dict
import Whooshd.ThreadWake.Compiler

namespace Whooshd.ThreadWake
set_option autoImplicit true

inductive ThreadWakeMode where
  | off | observe | ephemeral | session | advanced
  deriving DecidableEq, Repr

def ThreadWakeMode.text : ThreadWakeMode → String
  | off => "off"
  | observe => "observe"
  | ephemeral => "ephemeral"
  | session => "session"
  | advanced => "advanced"

/-- The modes in which a prepared KV state may be reused. -/
def ThreadWakeMode.reuses : ThreadWakeMode → Bool
  | ephemeral | session => true
  | off | observe | advanced => false

/-- The configuration a request carries. -/
structure ThreadWakeRequestConfig where
  enabled : Option Bool
  mode : Option ThreadWakeMode
  scope : Option ThreadWakeScope
  minStablePrefixTokens : Option Nat
  deriving DecidableEq, Repr

/-- The parts of a chat completion request that ThreadWake reads. -/
structure ChatRequest where
  model : Option String
  messages : List ChatMessage
  tools : Option (List Json)
  toolChoice : Option Json
  threadwake : Option ThreadWakeRequestConfig
  threadwakeSegments : Option (List CodexifySegmentMeta)
  threadId : Option String
  userId : Option String
  projectId : Option String

/-- The configuration a request runs under, and also the defaults of the process. -/
structure ResolvedConfig where
  enabled : Bool
  mode : ThreadWakeMode
  scope : ThreadWakeScope
  minStablePrefixTokens : Nat
  deriving DecidableEq, Repr

def resolveConfig (env : ResolvedConfig) : Option ThreadWakeRequestConfig → ResolvedConfig
  | none => env
  | some provided =>
    { enabled :=
        match provided.enabled with
        | some b => b
        | none =>
          match provided.mode with
          | none => env.enabled
          | some mode => mode ≠ .off
      mode :=
        match provided.mode with
        | some mode => mode
        | none => if provided.enabled = some true then .observe else env.mode
      scope := provided.scope.getD env.scope
      minStablePrefixTokens := provided.minStablePrefixTokens.getD env.minStablePrefixTokens }

inductive KVCapability where
  | unsupported | experimental | prefillOnly | resumable | cloneable | serializable
  deriving DecidableEq, Repr

def KVCapability.text : KVCapability → String
  | unsupported => "unsupported"
  | experimental => "experimental"
  | prefillOnly => "prefill_only"
  | resumable => "resumable"
  | cloneable => "cloneable"
  | serializable => "serializable"

/-- The capabilities `execute_ephemeral` accepts for reuse. -/
def KVCapability.canReuse : KVCapability → Bool
  | experimental | resumable | cloneable | serializable => true
  | unsupported | prefillOnly => false

inductive TokenizerCapability where
  | unsupported | estimatesOnly | tokenIds | tokenIdsWithSpans
  deriving DecidableEq, Repr

def TokenizerCapability.text : TokenizerCapability → String
  | unsupported => "unsupported"
  | estimatesOnly => "estimates_only"
  | tokenIds => "token_ids"
  | tokenIdsWithSpans => "token_ids_with_spans"

structure ThreadWakeObservation where
  enabled : Bool
  mode : ThreadWakeMode
  eligible : Bool
  reason : Option String
  stablePrefixHash : Option String
  stablePrefixTokens : Nat
  dynamicTokens : Nat
  estimatedPrefillReuseTokens : Nat
  cacheHit : Bool
  cacheScope : ThreadWakeScope
  backendKvCapability : Option KVCapability
  canReuseKv : Bool
  kvReuseReason : Option String
  tokenizerCapability : Option TokenizerCapability
  realTokenizationAvailable : Bool
  tokenizationReason : Option String
  stablePrefixTokenCountReal : Option Nat
  dynamicTailTokenCountReal : Option Nat
  deriving DecidableEq, Repr

/-- An observation with the defaults of every field that the policy leaves alone. -/
def ThreadWakeObservation.blank (enabled : Bool) (mode : ThreadWakeMode)
    (scope : ThreadWakeScope) : ThreadWakeObservation :=
  { enabled, mode
    eligible := false
    reason := none
    stablePrefixHash := none
    stablePrefixTokens := 0
    dynamicTokens := 0
    estimatedPrefillReuseTokens := 0
    cacheHit := false
    cacheScope := scope
    backendKvCapability := none
    canReuseKv := false
    kvReuseReason := none
    tokenizerCapability := none
    realTokenizationAvailable := false
    tokenizationReason := none
    stablePrefixTokenCountReal := none
    dynamicTailTokenCountReal := none }

/-- Why a compiled prompt is not eligible, if it is not. -/
def ineligibleReason (graph : PromptGraph) (config : ResolvedConfig) : Option String :=
  if graph.modelId.getD "" = "" then some "model_id_missing"
  else if graph.backend.getD "" = "" then some "backend_missing"
  else if config.mode ≠ .observe ∧ config.mode.reuses = false then
    some ("mode_not_supported: " ++ config.mode.text)
  else if graph.segments.any (fun s => s.inStablePrefix && s.multimodal) then
    some "stable_prefix_contains_multimodal"
  else if graph.stablePrefixTokens < config.minStablePrefixTokens then
    some "stable_prefix_below_min_tokens"
  else none

def evaluateThreadwakePolicy (graph : Option PromptGraph) (config : ResolvedConfig) :
    ThreadWakeObservation :=
  if config.enabled = false ∨ config.mode = .off then
    { ThreadWakeObservation.blank false .off config.scope with
      reason := some "threadwake_disabled" }
  else
    match graph with
    | none =>
      { ThreadWakeObservation.blank true config.mode config.scope with
        reason := some "prompt_graph_missing" }
    | some graph =>
      let base := { ThreadWakeObservation.blank true config.mode config.scope with
        stablePrefixHash := some graph.stablePrefixHash
        stablePrefixTokens := graph.stablePrefixTokens
        dynamicTokens := graph.dynamicTokens }
      match ineligibleReason graph config with
      | some reason => { base with reason := some reason }
      | none => { base with
          eligible := true
          estimatedPrefillReuseTokens := graph.stablePrefixTokens }

/-- The labels of one labelled counter. -/
structure MetricLabels where
  metric : String
  mode : ThreadWakeMode
  scope : ThreadWakeScope
  backend : String
  reason : String
  deriving DecidableEq, Repr

structure ThreadWakeMetrics where
  observations : Nat
  eligible : Nat
  ineligible : Nat
  estimatedReuseTokens : Nat
  cacheHits : Nat
  cacheMisses : Nat
  prefixTokensMatched : Nat
  labeled : Dict MetricLabels Nat
  deriving DecidableEq

/-- The reasons under which ineligible requests are counted, with what they start with. -/
def reasonMap : List (String × String) :=
  [("threadwake_disabled", "threadwake_disabled"),
   ("prompt_graph_missing", "prompt_graph_missing"),
   ("model_id_missing", "model_id_missing"),
   ("backend_missing", "backend_missing"),
   ("backend_capable_but_ineligible", "backend_missing"),
   ("mode_not_supported", "mode_not_supported"),
   ("stable_prefix_contains_multimodal", "stable_prefix_contains_multimodal"),
   ("stable_prefix_below_min_tokens", "stable_prefix_below_min_tokens"),
   ("backend_unsupported", "backend_unsupported"),
   ("backend_unknown", "backend_unknown"),
   ("observe_mode_not_reusing", "mode_not_supported"),
   ("scope_not_compatible", "scope_not_compatible"),
   ("backend_failure", "backend_failure")]

def coerceReason : Option String → String
  | none => "eligible"
  | some raw =>
    match reasonMap.find? (fun r => r.1 = raw) with
    | some r => r.2
    | none =>
      match reasonMap.find? (fun r => r.1.toList.isPrefixOf raw.toList) with
      | some r => r.2
      | none => "other"

namespace ThreadWakeMetrics

def zero : ThreadWakeMetrics := ⟨0, 0, 0, 0, 0, 0, 0, .empty⟩

def incLabeled (m : ThreadWakeMetrics) (metric : String) (o : ThreadWakeObservation)
    (reason : String) : ThreadWakeMetrics :=
  let key : MetricLabels :=
    { metric, reason
      mode := o.mode
      scope := o.cacheScope
      backend := (o.backendKvCapability.map KVCapability.text).getD "unknown" }
  { m with labeled := m.labeled.set key ((m.labeled.get? key).getD 0 + 1) }

def record (m : ThreadWakeMetrics) (o : ThreadWakeObservation) : ThreadWakeMetrics :=
  if o.eligible then
    incLabeled
      { m with
        observations := m.observations + 1
        eligible := m.eligible + 1
        estimatedReuseTokens := m.estimatedReuseTokens + o.estimatedPrefillReuseTokens
        cacheHits := if o.cacheHit then m.cacheHits + 1 else m.cacheHits
        prefixTokensMatched :=
          if o.cacheHit then m.prefixTokensMatched + o.estimatedPrefillReuseTokens
          else m.prefixTokensMatched
        cacheMisses := if o.cacheHit then m.cacheMisses else m.cacheMisses + 1 }
      "threadwake_hits_total" o "eligible"
  else
    incLabeled
      { m with
        observations := m.observations + 1
        ineligible := m.ineligible + 1 }
      "threadwake_misses_total" o (coerceReason o.reason)

end ThreadWakeMetrics

end Whooshd.ThreadWake
