import Mathlib.Data.List.Dedup
import Whooshd.Library.Dict
import Whooshd.ThreadWake.Compiler

namespace Whooshd.Backend
set_option autoImplicit true

open ThreadWake (ChatMessage)

/-- The fields a backend request may carry. -/
inductive ChatField where
  | model | messages | stream | temperature | topP | maxTokens | maxCompletionTokens | stop | user
  | tools | toolChoice | parallelToolCalls | responseFormat | seed | presencePenalty
  | frequencyPenalty | logitBias | logprobs | topLogprobs | reasoningEffort
  deriving DecidableEq, Repr

def ChatField.name : ChatField → String
  | model => "model"
  | messages => "messages"
  | stream => "stream"
  | temperature => "temperature"
  | topP => "top_p"
  | maxTokens => "max_tokens"
  | maxCompletionTokens => "max_completion_tokens"
  | stop => "stop"
  | user => "user"
  | tools => "tools"
  | toolChoice => "tool_choice"
  | parallelToolCalls => "parallel_tool_calls"
  | responseFormat => "response_format"
  | seed => "seed"
  | presencePenalty => "presence_penalty"
  | frequencyPenalty => "frequency_penalty"
  | logitBias => "logit_bias"
  | logprobs => "logprobs"
  | topLogprobs => "top_logprobs"
  | reasoningEffort => "reasoning_effort"

def chatCanonicalFields : List ChatField :=
  [.model, .messages, .stream, .temperature, .topP, .maxTokens, .maxCompletionTokens, .stop, .user,
    .tools, .toolChoice, .parallelToolCalls, .responseFormat, .seed, .presencePenalty,
    .frequencyPenalty, .logitBias, .logprobs, .topLogprobs, .reasoningEffort]

def internalControlFields : List String := ["metadata", "threadwake"]

/-- The provider extensions declared for each kind of adapter. -/
def adapterExtensions : List (String × List String) :=
  [("stub", []), ("mlx_lm", []), ("mlx_lm_server", []), ("mlx_vlm", []),
    ("llama_cpp", ["min_p", "top_k", "repeat_penalty"]), ("generic", [])]

def adapterCanonicalFields : List (String × List ChatField) :=
  adapterExtensions.map fun e => (e.1, chatCanonicalFields)

def internalExtraPrefixes : List String :=
  ["codexify_", "whooshd_", "threadwake", "routing_", "route_", "queue_", "admission_", "cache_",
    "trace_", "diagnostic_", "provenance", "identity_", "persona_", "memory_", "retrieval_",
    "lifecycle_", "cancel"]

def inferenceExtraPrefixes : List String :=
  ["temperature", "top_", "max_", "min_", "stop", "seed", "presence_", "frequency_", "logit_",
    "logprob", "tool", "response_", "reasoning", "sampling", "repeat_", "prompt", "message",
    "stream", "model"]

def inferenceTokens : List String :=
  ["temperature", "top", "tokens", "stop", "seed", "tool", "tools", "reasoning", "sampling",
    "prompt", "message", "stream", "model"]

def isFieldNameChar (c : Char) : Bool := c.isAlphanum || c = '_' || c = '.' || c = '-'

/-- `_FIELD_NAME_RE.fullmatch`. -/
def matchesFieldName (name : String) : Bool :=
  match name.toList with
  | [] => false
  | c :: cs => c.isAlpha && cs.all isFieldNameChar && cs.length ≤ 80

/-- The canonical fields of a chat request, at ingress and behind the boundary alike. -/
structure ChatFields where
  model : String
  messages : List ChatMessage
  stream : Bool
  temperature : Option Json
  topP : Option Json
  maxTokens : Option Int
  maxCompletionTokens : Option Int
  stop : Option (List String)
  user : Option String
  tools : Option (List Json)
  toolChoice : Option Json
  parallelToolCalls : Option Bool
  responseFormat : Option Json
  seed : Option Int
  presencePenalty : Option Json
  frequencyPenalty : Option Json
  logitBias : Option Json
  logprobs : Option Bool
  topLogprobs : Option Int
  reasoningEffort : Option String

/-- A chat request as accepted at ingress. -/
structure ChatCompletionRequest extends ChatFields where
  metadata : Option Json
  threadwake : Option Json
  extraFields : Dict String Json

/-- A chat request behind the boundary. -/
structure BackendChatRequest extends ChatFields where
  extraFields : Dict String Json
  adapterKind : String
  forwardedFields : List String
  strippedFields : List String
  rejectedFields : List String

structure BackendRequestPolicyError where
  adapterKind : String
  rejectedFields : List String

/-- What the boundary is applied to. -/
inductive AnyChatRequest where
  | ingress (request : ChatCompletionRequest)
  | backend (request : BackendChatRequest)

/-- Capture the fields that are not declared in the model. -/
def ChatCompletionRequest.modelPostInit (r : ChatCompletionRequest) (extras : Dict String Json) :
    ChatCompletionRequest :=
  if extras.size = 0 then r else { r with extraFields := extras }

/-- A message with every field it has. -/
def messageValue (m : ChatMessage) : Json :=
  .obj ([("role", .str m.role), ("content", m.content)] ++
    (m.name.map fun v => ("name", .str v)).toList ++
    (m.toolCalls.map fun v => ("tool_calls", v)).toList ++
    (m.toolCallId.map fun v => ("tool_call_id", .str v)).toList)

/-- The value of an attribute, `none` where the attribute is `None`. -/
def ChatFields.value (r : ChatFields) : ChatField → Option Json
  | .model => some (.str r.model)
  | .messages => some (.arr (r.messages.map messageValue))
  | .stream => some (.bool r.stream)
  | .temperature => r.temperature
  | .topP => r.topP
  | .maxTokens => r.maxTokens.map .int
  | .maxCompletionTokens => r.maxCompletionTokens.map .int
  | .stop => r.stop.map fun l => .arr (l.map .str)
  | .user => r.user.map .str
  | .tools => r.tools.map .arr
  | .toolChoice => r.toolChoice
  | .parallelToolCalls => r.parallelToolCalls.map .bool
  | .responseFormat => r.responseFormat
  | .seed => r.seed.map .int
  | .presencePenalty => r.presencePenalty
  | .frequencyPenalty => r.frequencyPenalty
  | .logitBias => r.logitBias
  | .logprobs => r.logprobs.map .bool
  | .topLogprobs => r.topLogprobs.map .int
  | .reasoningEffort => r.reasoningEffort.map .str

/-- `adapter_kind or "generic"`. -/
def kindOrGeneric (adapterKind : Option String) : String :=
  match adapterKind with
  | none => "generic"
  | some k => if k = "" then "generic" else k

def lookupKind (table : List (String × List α)) (kind : String) : List α :=
  ((table.lookup kind).or (table.lookup "generic")).getD []

def adapterPolicy (adapterKind : Option String) : List ChatField × List String :=
  let kind := kindOrGeneric adapterKind
  (lookupKind adapterCanonicalFields kind, lookupKind adapterExtensions kind)

def startsWithAny (starts : List String) (text : String) : Bool :=
  starts.any fun start => start.toList.isPrefixOf text.toList

def isTokenChar (c : Char) : Bool := c.isLower || c.isDigit

/-- The parts of a text between the characters that `[^a-z0-9]+` matches. -/
def tokens (text : String) : List String :=
  ((text.toList.splitOnP fun c => !isTokenChar c).filter (!·.isEmpty)).map String.ofList

section Classify

variable (lower : String → String)

def isInternalExtra (name : String) : Bool :=
  internalControlFields.contains (lower name) || startsWithAny internalExtraPrefixes (lower name)

def isInferenceAffectingExtra (name : String) : Bool :=
  if (chatCanonicalFields.map ChatField.name).contains (lower name) ||
      startsWithAny inferenceExtraPrefixes (lower name) then true
  else (tokens (lower name)).any inferenceTokens.contains

/-- The names and values sorted so far by the loop over the extra fields. -/
structure Classified where
  allowedExtensions : Dict String Json
  forwarded : List String
  stripped : List String
  rejected : List String

def classifyExtra (extensions : List String) (c : Classified) (extra : String × Json) :
    Classified :=
  let name := extra.1
  if extensions.contains name && matchesFieldName name then
    { c with allowedExtensions := c.allowedExtensions.set name extra.2
             forwarded := c.forwarded ++ [name] }
  else if isInternalExtra lower name then { c with stripped := c.stripped ++ [name] }
  else if isInferenceAffectingExtra lower name then { c with rejected := c.rejected ++ [name] }
  else { c with stripped := c.stripped ++ [name] }

def fieldNames (values : List String) : List String := values.dedup.insertionSort (· ≤ ·)

/-- The boundary. Python's `str.lower` is a parameter. -/
def sanitizeChatRequest (request : AnyChatRequest) (adapterKind : Option String) :
    Except BackendRequestPolicyError BackendChatRequest :=
  match request with
  | .backend b => .ok b
  | .ingress r =>
    let kind := kindOrGeneric adapterKind
    let (canonical, extensions) := adapterPolicy (some kind)
    let forwarded := chatCanonicalFields.filter fun f => canonical.contains f && (r.value f).isSome
    let start : Classified :=
      { allowedExtensions := .empty
        forwarded := forwarded.map ChatField.name
        stripped := (r.metadata.map fun _ => "metadata").toList ++
          (r.threadwake.map fun _ => "threadwake").toList
        rejected := [] }
    let c := r.extraFields.entries.foldl (classifyExtra lower extensions) start
    let rejectedNames := fieldNames c.rejected
    if rejectedNames ≠ [] then .error ⟨kind, rejectedNames⟩
    else
      .ok { r.toChatFields with
            extraFields := c.allowedExtensions, adapterKind := kind
            forwardedFields := fieldNames c.forwarded, strippedFields := fieldNames c.stripped
            rejectedFields := rejectedNames }

def ensureBackendChatRequest (request : AnyChatRequest) (adapterKind : Option String) :
    Except BackendRequestPolicyError BackendChatRequest :=
  sanitizeChatRequest lower request adapterKind

end Classify

/-- The extensions that may reach an adapter of the given kind. -/
def extensionsFor (adapterKind : Option String) : List String := (adapterPolicy adapterKind).2

theorem lookupKind_mem {table : List (String × List α)} (h : x ∈ lookupKind table kind) :
    ∃ e ∈ table, x ∈ e.2 := by
  have hlookup : ∀ {k : String} {l : List α}, table.lookup k = some l → (k, l) ∈ table := by
    intro k l hk
    obtain ⟨l₁, l₂, rfl, -⟩ := List.lookup_eq_some_iff.1 hk
    simp
  simp only [lookupKind] at h
  cases hk : table.lookup kind with
  | some l =>
    rw [hk] at h
    exact ⟨_, hlookup hk, h⟩
  | none =>
    rw [hk, Option.none_or] at h
    cases hg : table.lookup "generic" with
    | some l =>
      rw [hg] at h
      exact ⟨_, hlookup hg, h⟩
    | none =>
      rw [hg] at h
      cases h

theorem canonical_all (kind : Option String) : (adapterPolicy kind).1 = chatCanonicalFields := by
  simp only [adapterPolicy, lookupKind]
  generalize kindOrGeneric kind = k
  have hmap : ∀ l : List (String × List String),
      (l.map fun e => (e.1, chatCanonicalFields)).lookup k = none ∨
        (l.map fun e => (e.1, chatCanonicalFields)).lookup k = some chatCanonicalFields := by
    intro l
    induction l with
    | nil => exact .inl rfl
    | cons e l ih =>
      simp only [List.map_cons, List.lookup_cons]
      split
      · exact .inr rfl
      · exact ih
  rcases hmap adapterExtensions with h | h
  · rw [adapterCanonicalFields, h]
    rfl
  · rw [adapterCanonicalFields, h]
    rfl

theorem kindOrGeneric_idem (kind : Option String) :
    kindOrGeneric (some (kindOrGeneric kind)) = kindOrGeneric kind := by
  cases kind with
  | none => rfl
  | some k =>
    simp only [kindOrGeneric]
    split <;> rfl

theorem mem_chatCanonicalFields (f : ChatField) : f ∈ chatCanonicalFields := by
  cases f <;> simp [chatCanonicalFields]

theorem name_injective : Function.Injective ChatField.name := by
  have hn : (chatCanonicalFields.map ChatField.name).Nodup := by decide
  intro f g h
  exact List.inj_on_of_nodup_map hn (mem_chatCanonicalFields f) (mem_chatCanonicalFields g) h

theorem extension_name (h : n ∈ extensionsFor kind) :
    matchesFieldName n = true ∧ ∀ f : ChatField, f.name ≠ n := by
  have htable : ∀ e ∈ adapterExtensions, ∀ n ∈ e.2, matchesFieldName n = true ∧
      ∀ f ∈ chatCanonicalFields, f.name ≠ n := by decide
  obtain ⟨e, he, hn⟩ := lookupKind_mem h
  obtain ⟨hm, hf⟩ := htable e he n hn
  exact ⟨hm, fun f => hf f (mem_chatCanonicalFields f)⟩

section Boundary

variable {lower : String → String}

theorem get?_allowedExtensions (extensions : List String)
    (hn : ∀ n ∈ extensions, matchesFieldName n = true) (l : List (String × Json))
    (hl : (l.map Prod.fst).Nodup) (c : Classified) (k : String) :
    (l.foldl (classifyExtra lower extensions) c).allowedExtensions.get? k =
      (((l.find? fun e => e.1 = k).map Prod.snd).filter fun _ => extensions.contains k).or
        (c.allowedExtensions.get? k) := by
  have hstep : ∀ c e, (classifyExtra lower extensions c e).allowedExtensions =
      if extensions.contains e.1 then c.allowedExtensions.set e.1 e.2
      else c.allowedExtensions := by
    intro c e
    simp only [classifyExtra]
    by_cases he : extensions.contains e.1 = true
    · rw [hn e.1 (by simpa using he)]
      simp only [he, Bool.and_self, if_true]
    · simp only [he, Bool.false_and, Bool.false_eq_true, if_false]
      split
      · rfl
      · split <;> rfl
  have hfold := Dict.get?_foldl_set (fun e : String × Json => extensions.contains e.1) l hl
    c.allowedExtensions k
  rw [← hfold]
  congr 1
  clear hfold hl
  induction l generalizing c with
  | nil => rfl
  | cons e l ih =>
    rw [List.foldl_cons, List.foldl_cons, ih, hstep]

theorem mem_forwarded (extensions : List String) (l : List (String × Json)) (c : Classified)
    (hk : k ∉ extensions) :
    k ∈ (l.foldl (classifyExtra lower extensions) c).forwarded ↔ k ∈ c.forwarded := by
  induction l generalizing c with
  | nil => exact Iff.rfl
  | cons e l ih =>
    rw [List.foldl_cons, ih]
    simp only [classifyExtra]
    split
    · next he =>
      have hne : k ≠ e.1 := by
        rintro rfl
        simp only [Bool.and_eq_true, List.contains_iff_mem] at he
        exact hk he.1
      simp [hne]
    · split
      · exact Iff.rfl
      · split <;> exact Iff.rfl

/-- What a request behind the boundary keeps of the request at ingress. -/
structure Sanitized (r : ChatCompletionRequest) (kind : Option String) (b : BackendChatRequest) :
    Prop where
  fields : b.toChatFields = r.toChatFields
  extras : ∀ k, b.extraFields.get? k =
    (r.extraFields.get? k).filter fun _ => (extensionsFor kind).contains k
  forwarded : ∀ f : ChatField, f.name ∈ b.forwardedFields ↔ (r.value f).isSome = true

theorem sanitized_of_ok (h : sanitizeChatRequest lower (.ingress r) kind = .ok b) :
    Sanitized r kind b := by
  have hpol : adapterPolicy (some (kindOrGeneric kind)) = adapterPolicy kind := by
    simp only [adapterPolicy, kindOrGeneric_idem]
  simp only [sanitizeChatRequest, hpol, canonical_all] at h
  split at h
  · cases h
  cases h
  constructor
  · rfl
  · intro k
    have hn : ∀ n ∈ extensionsFor kind, matchesFieldName n = true := fun n hn =>
      (extension_name hn).1
    refine (get?_allowedExtensions _ hn _ r.extraFields.nodup _ k).trans ?_
    exact Option.or_none
  · intro f
    have hne : f.name ∉ (adapterPolicy kind).2 := by
      intro hm
      exact (extension_name hm).2 f rfl
    simp only [fieldNames, List.mem_insertionSort, List.mem_dedup]
    rw [mem_forwarded _ _ _ hne]
    simp only [List.mem_map_of_injective name_injective, List.mem_filter,
      List.contains_iff_mem.2 (mem_chatCanonicalFields f), mem_chatCanonicalFields f,
      Bool.true_and, true_and]

end Boundary

end Whooshd.Backend
