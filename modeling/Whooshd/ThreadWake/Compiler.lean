import Whooshd.Library.Text
import Whooshd.ThreadWake.Keys

namespace Whooshd.ThreadWake
set_option autoImplicit true

structure ChatMessage where
  role : String
  content : Json
  name : Option String
  toolCalls : Option Json
  toolCallId : Option String

inductive CodexifySegmentType where
  | system | persona | tools | project | retrieval | thread | user | toolOutput | unknown
  deriving DecidableEq, Repr

/-- Segment metadata sent by the client, as validated at ingress. -/
structure CodexifySegmentMeta where
  name : String
  messageIndex : Nat
  segmentType : CodexifySegmentType
  stability : Option Stability
  scope : ThreadWakeScope
  contentHash : Option String
  cacheable : Option Bool
  deriving DecidableEq, Repr

/-- What `compile_prompt_graph` is called with. -/
structure PromptInputs where
  messages : List ChatMessage
  modelId : Option String
  backend : Option String
  tools : Option (List Json)
  toolChoice : Option Json
  tokenizerHash : Option String
  chatTemplateHash : Option String
  scope : ThreadWakeScope
  codexifySegments : Option (List CodexifySegmentMeta)
  allowGlobal : Bool

def partIsMultimodal : Json → Bool
  | .obj fields =>
    match Json.field? "type" fields with
    | some (.str t) => (t ≠ "" && t ≠ "text") || (Json.field? "image_url" fields).isSome
    | some v => v.truthy || (Json.field? "image_url" fields).isSome
    | none => (Json.field? "image_url" fields).isSome
  | _ => false

def containsMultimodalContent : Json → Bool
  | .arr parts => parts.any partIsMultimodal
  | _ => false

/-- The number of maximal runs of characters that are not blank, after a character that was
inside such a run or not. -/
def countRuns (inside : Bool) : List Char → Nat
  | [] => 0
  | c :: cs =>
    if Text.isSpace c then countRuns false cs
    else if inside then countRuns true cs
    else countRuns true cs + 1

def estimateTokenCount (payload : String) : Nat := countRuns false payload.toList

def messagePayload (m : ChatMessage) : Json :=
  .obj ([("role", .str m.role), ("content", m.content)] ++
    (m.name.map (fun v => ("name", .str v))).toList ++
    (m.toolCalls.map (fun v => ("tool_calls", v))).toList ++
    (m.toolCallId.map (fun v => ("tool_call_id", .str v))).toList)

def latestUserFrom (idx : Nat) (latest : Option Nat) : List ChatMessage → Option Nat
  | [] => latest
  | m :: ms => latestUserFrom (idx + 1) (if m.role = "user" then some idx else latest) ms

def latestUserIndex (messages : List ChatMessage) : Option Nat := latestUserFrom 0 none messages

def messageStability (m : ChatMessage) (idx : Nat) (latestUserIdx : Option Nat) : Stability :=
  if m.role = "system" ∨ m.role = "developer" then .stable
  else if m.role = "tool" then .dynamic
  else if m.role = "user" ∧ some idx = latestUserIdx then .dynamic
  else if m.role = "user" ∨ m.role = "assistant" then .semiStable
  else .dynamic

def segmentHashPayload (s : PromptSegment) : Json :=
  .obj [("name", .str s.name), ("role", .str s.role), ("content_hash", .str s.contentHash),
    ("segment_type", .str s.segmentType), ("stability", .str s.stability.text),
    ("token_count", .int s.tokenCount), ("scope", .str s.scope.text),
    ("multimodal", .bool s.multimodal)]

section
variable (sha256Hex : String → String)

def toolSegment (name role segmentType : String) (scope : ThreadWakeScope) (payload : Json) :
    PromptSegment :=
  let canonical := canonicalizeContent payload
  { name, role, segmentType, scope
    contentHash := sha256Hex canonical
    stability := .stable
    tokenCount := estimateTokenCount canonical
    multimodal := false
    inStablePrefix := false }

def messageSegment (scope : ThreadWakeScope) (latestUserIdx : Option Nat) (idx : Nat)
    (m : ChatMessage) : PromptSegment :=
  let canonical := canonicalizeContent (messagePayload m)
  let multimodal := containsMultimodalContent m.content
  { name := "message:" ++ toString idx ++ ":" ++ m.role
    role := m.role
    contentHash := sha256Hex canonical
    segmentType := if multimodal then "multimodal_message" else "message"
    stability := messageStability m idx latestUserIdx
    tokenCount := estimateTokenCount canonical
    scope, multimodal
    inStablePrefix := false }

def messageSegmentsFrom (scope : ThreadWakeScope) (latestUserIdx : Option Nat) (idx : Nat) :
    List ChatMessage → List PromptSegment
  | [] => []
  | m :: ms => messageSegment sha256Hex scope latestUserIdx idx m ::
      messageSegmentsFrom scope latestUserIdx (idx + 1) ms

/-- The segments inferred from the request alone, tools first. -/
def inferredSegments (inp : PromptInputs) : List PromptSegment :=
  (inp.tools.map (fun ts => toolSegment sha256Hex "tools" "tool_schema" "tool_schema" inp.scope
    (.obj [("tools", .arr ts)]))).toList ++
  (inp.toolChoice.map (fun c => toolSegment sha256Hex "tool_choice" "tool_instruction"
    "tool_instruction" inp.scope (.obj [("tool_choice", c)]))).toList ++
  messageSegmentsFrom sha256Hex inp.scope (latestUserIndex inp.messages) 0 inp.messages

end

namespace CodexifySegmentType

def defaultStability : CodexifySegmentType → Stability
  | system | persona | tools | project => .stable
  | retrieval | thread => .semiStable
  | user | toolOutput | unknown => .dynamic

def defaultSegmentType : CodexifySegmentType → String
  | system => "system"
  | persona => "persona"
  | tools => "tool_schema"
  | project => "project_context"
  | retrieval => "retrieval"
  | thread => "thread_history"
  | user => "user_message"
  | toolOutput => "tool_output"
  | unknown => "unknown"

end CodexifySegmentType

/-- The first twelve characters of a hash, as error texts show it. -/
def shortHash (h : String) : String := String.ofList (h.toList.take 12)

def validateSingleMeta (sha256Hex : String → String) (md : CodexifySegmentMeta)
    (messages : List ChatMessage) (allowGlobal : Bool) : Option String :=
  match messages[md.messageIndex]? with
  | none => some ("message_index_out_of_range: " ++ toString md.messageIndex ++ " >= " ++
      toString messages.length)
  | some m =>
    let computed := sha256Hex (canonicalizeContent m.content)
    let provided := md.contentHash.getD ""
    if provided ≠ "" ∧ computed ≠ provided then
      some ("content_hash_mismatch: provided=" ++ shortHash provided ++ "... computed=" ++
        shortHash computed ++ "...")
    else if md.scope = .global ∧ allowGlobal = false then some "global_scope_not_allowed"
    else none

def mergedStability (md : CodexifySegmentMeta) : Stability :=
  let stability := md.stability.getD md.segmentType.defaultStability
  let trusted :=
    match md.segmentType with
    | .user | .toolOutput => .dynamic
    | .retrieval =>
      if stability = .stable ∧ md.contentHash.getD "" = "" then .semiStable else stability
    | _ => stability
  if md.cacheable = some false then .dynamic else trusted

def applyMeta (md : CodexifySegmentMeta) (seg : PromptSegment) : PromptSegment :=
  { seg with
    name := if md.name = "" then seg.name else md.name
    segmentType := md.segmentType.defaultSegmentType
    stability := mergedStability md
    scope := md.scope
    inStablePrefix := false }

/-- The metadata that counts for an index: the first entry that names it. -/
def metaByIndex (metas : List CodexifySegmentMeta) (i : Nat) : Option CodexifySegmentMeta :=
  metas.find? (fun md => md.messageIndex = i)

def duplicateErrors (seen : List Nat) : List CodexifySegmentMeta → List String
  | [] => []
  | md :: rest =>
    if md.messageIndex ∈ seen then
      ("duplicate_message_index: " ++ toString md.messageIndex) :: duplicateErrors seen rest
    else duplicateErrors (md.messageIndex :: seen) rest

section
variable (sha256Hex : String → String) (metas : List CodexifySegmentMeta)
  (messages : List ChatMessage) (allowGlobal : Bool)

/-- The segment and the error, if any, that the merge gives at an index of the segment list. -/
def mergeSegment (i : Nat) (seg : PromptSegment) : PromptSegment × Option String :=
  match metaByIndex metas i with
  | none => (seg, none)
  | some md =>
    match validateSingleMeta sha256Hex md messages allowGlobal with
    | some e => (seg, some ("segment[" ++ toString i ++ "]: " ++ e))
    | none => (applyMeta md seg, none)

def mergeSegmentsFrom (i : Nat) : List PromptSegment → List PromptSegment × List String
  | [] => ([], [])
  | seg :: segs =>
    let (merged, error) := mergeSegment sha256Hex metas messages allowGlobal i seg
    let (rest, errors) := mergeSegmentsFrom (i + 1) segs
    (merged :: rest, error.toList ++ errors)

def validateAndMergeSegments (inferred : List PromptSegment) :
    List PromptSegment × List String :=
  if metas.isEmpty then (inferred, [])
  else
    let (merged, errors) := mergeSegmentsFrom sha256Hex metas messages allowGlobal 0 inferred
    (merged, duplicateErrors [] metas ++ errors)

end

/-- Mark the leading segments that are stable or semi-stable. -/
def markStablePrefix : List PromptSegment → List PromptSegment
  | [] => []
  | seg :: segs =>
    if seg.stability = .dynamic then seg :: segs
    else { seg with inStablePrefix := true } :: markStablePrefix segs

def sumTokens (segments : List PromptSegment) : Nat :=
  segments.foldl (fun total s => total + s.tokenCount) 0

def chainHash (sha256Hex : String → String) (hashes : List String) : String :=
  hashes.foldl (fun chain h => sha256Hex (chain ++ h)) ""

def compilePromptGraph (sha256Hex : String → String) (inp : PromptInputs) : PromptGraph :=
  let inferred := inferredSegments sha256Hex inp
  let merged :=
    match inp.codexifySegments with
    | none => inferred
    | some metas =>
      (validateAndMergeSegments sha256Hex metas inp.messages inp.allowGlobal inferred).1
  let segments := markStablePrefix merged
  let stable := segments.filter (·.inStablePrefix)
  let hashes := segments.map (·.contentHash)
  { modelId := inp.modelId
    backend := inp.backend
    chatTemplateHash := Text.orElse inp.chatTemplateHash (sha256Hex "openai-chat-completions-v1")
    tokenizerHash := inp.tokenizerHash
    segments
    stablePrefixHash := hashJson sha256Hex (.arr (stable.map segmentHashPayload))
    fullPromptHash := hashJson sha256Hex (.arr (segments.map segmentHashPayload))
    stablePrefixTokens := sumTokens stable
    dynamicTokens := sumTokens segments - sumTokens stable
    orderedSegmentHashes := hashes
    fullPrefixChainHash := chainHash sha256Hex hashes
    continuationCandidate := !segments.isEmpty }

/-- Without metadata of its own, a request's graph shows of the messages only their segments. -/
theorem compilePromptGraph_of_segments {inp inp' : PromptInputs}
    (hmeta : inp.codexifySegments = none) (hinp : inp' = { inp with messages := inp'.messages })
    (h : inferredSegments sha256Hex inp = inferredSegments sha256Hex inp') :
    compilePromptGraph sha256Hex inp = compilePromptGraph sha256Hex inp' := by
  rw [hinp] at h ⊢
  simp only [compilePromptGraph, hmeta, h]

end Whooshd.ThreadWake
