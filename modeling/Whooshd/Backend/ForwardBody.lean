import Whooshd.Backend.Policy

namespace Whooshd.Backend
set_option autoImplicit true

open ThreadWake (ChatMessage)

def serializeMessage (m : ChatMessage) : Json :=
  .obj ([("role", .str m.role), ("content", m.content)] ++
    (match m.name with
      | none => []
      | some v => if v = "" then [] else [("name", .str v)]) ++
    (m.toolCalls.map fun v => ("tool_calls", v)).toList ++
    (m.toolCallId.map fun v => ("tool_call_id", .str v)).toList)

def maybeSet (allowedFields : List String) (d : Dict String Json) (key : String)
    (value : Option Json) : Dict String Json :=
  match value with
  | none => d
  | some v => if allowedFields.contains key then d.set key v else d

/-- The fields that are forwarded when they are not `None`. -/
def optionalFields : List ChatField :=
  [.temperature, .topP, .maxTokens, .maxCompletionTokens, .stop, .user, .tools, .toolChoice,
    .parallelToolCalls, .responseFormat, .seed, .presencePenalty, .frequencyPenalty, .logitBias,
    .logprobs, .topLogprobs, .reasoningEffort]

def isNull : Json → Bool
  | .null => true
  | _ => false

/-- `model_override if model_override else request.model`. -/
def overrideModel (modelOverride : Option String) (model : String) : String :=
  match modelOverride with
  | none => model
  | some m => if m = "" then model else m

def requiredBody (request : ChatFields) (modelOverride : Option String) : Dict String Json :=
  Dict.empty
    |>.set "model" (.str (overrideModel modelOverride request.model))
    |>.set "messages" (.arr (request.messages.map serializeMessage))
    |>.set "stream" (.bool request.stream)

/-- The body built from a request behind the boundary. -/
def forwardBody (request : BackendChatRequest) (modelOverride : Option String) :
    Dict String Json :=
  let body := optionalFields.foldl
    (fun d f => maybeSet request.forwardedFields d f.name (request.value f))
    (requiredBody request.toChatFields modelOverride)
  request.extraFields.entries.foldl (fun d e => if !isNull e.2 then d.set e.1 e.2 else d) body

def buildForwardBody (lower : String → String) (request : AnyChatRequest)
    (modelOverride adapterKind : Option String) :
    Except BackendRequestPolicyError (Dict String Json) :=
  match ensureBackendChatRequest lower request adapterKind with
  | .error e => .error e
  | .ok request => .ok (forwardBody request modelOverride)

/-- The message is forwarded whole exactly when its name is not the empty text. -/
theorem serializeMessage_eq_iff (m : ChatMessage) :
    serializeMessage m = messageValue m ↔ m.name ≠ some "" := by
  cases hn : m.name with
  | none => simp [serializeMessage, messageValue, hn]
  | some v =>
    by_cases hv : v = ""
    · subst hv
      simp only [ne_eq, not_true, iff_false]
      intro h
      simp only [serializeMessage, messageValue, hn, if_true, Json.obj.injEq, List.append_nil,
        Option.map_some, Option.toList_some] at h
      have hlen := congrArg List.length h
      simp at hlen
    · simp [serializeMessage, messageValue, hn, hv]

/-- What the body holds under the name of a canonical field. -/
def bodyValue (r : ChatFields) (modelOverride : Option String) : ChatField → Option Json
  | .model => some (.str (overrideModel modelOverride r.model))
  | .messages => some (.arr (r.messages.map serializeMessage))
  | f => r.value f

theorem get?_maybeSet_ne (hk : k ≠ key) (allowed : List String) (d : Dict String Json)
    (v : Option Json) : (maybeSet allowed d key v).get? k = d.get? k := by
  cases v with
  | none => rfl
  | some v =>
    simp only [maybeSet]
    split
    · exact Dict.get?_set_ne hk v
    · rfl

theorem get?_maybeSet_self (allowed : List String) (d : Dict String Json)
    (hv : v.isSome = true → key ∈ allowed) :
    (maybeSet allowed d key v).get? key = v.or (d.get? key) := by
  cases v with
  | none => rfl
  | some v =>
    simp only [maybeSet, List.contains_iff_mem, if_pos (hv rfl), Dict.get?_set_self,
      Option.some_or]

section Fields

variable {allowed : List String} {value : ChatField → Option Json} {fs : List ChatField}

theorem get?_maybeSet_other (hk : ∀ f ∈ fs, f.name ≠ k) (d : Dict String Json) :
    (fs.foldl (fun d f => maybeSet allowed d f.name (value f)) d).get? k = d.get? k := by
  induction fs generalizing d with
  | nil => rfl
  | cons f fs ih =>
    rw [List.foldl_cons, ih (fun g hg => hk g (List.mem_cons_of_mem f hg))]
    exact get?_maybeSet_ne (Ne.symm (hk f List.mem_cons_self)) _ _ _

theorem get?_maybeSet_field (hfs : fs.Nodup) (hf : f ∈ fs)
    (hv : (value f).isSome = true → f.name ∈ allowed) (d : Dict String Json) :
    (fs.foldl (fun d f => maybeSet allowed d f.name (value f)) d).get? f.name =
      (value f).or (d.get? f.name) := by
  induction fs generalizing d with
  | nil => cases hf
  | cons g fs ih =>
    rw [List.nodup_cons] at hfs
    rw [List.foldl_cons]
    rcases List.mem_cons.1 hf with rfl | hmem
    · rw [get?_maybeSet_other, get?_maybeSet_self _ _ hv]
      intro g hg hname
      exact hfs.1 (name_injective hname ▸ hg)
    · rw [ih hfs.2 hmem, get?_maybeSet_ne]
      intro hname
      exact hfs.1 (name_injective hname ▸ hmem)

end Fields

section Body

variable {r : ChatCompletionRequest} {b : BackendChatRequest}

/-- The declared extensions come last; the rest of the body is set before. -/
theorem get?_forwardBody (h : Sanitized r kind b) (o : Option String) (k : String) :
    (forwardBody b o).get? k =
      (((r.extraFields.get? k).filter fun _ => (extensionsFor kind).contains k).filter
        fun v => !isNull v).or
      ((optionalFields.foldl (fun d f => maybeSet b.forwardedFields d f.name (r.value f))
        (requiredBody r.toChatFields o)).get? k) := by
  simp only [forwardBody, h.fields]
  rw [Dict.get?_foldl_set (fun e : String × Json => !isNull e.2) _ b.extraFields.nodup,
    ← h.extras k]
  rfl

theorem requiredBody_other (hname : ∀ f : ChatField, f.name ≠ k) (c : ChatFields)
    (o : Option String) : (requiredBody c o).get? k = none := by
  simp only [requiredBody]
  rw [Dict.get?_set_ne, Dict.get?_set_ne, Dict.get?_set_ne, Dict.get?_empty]
  · exact (hname .model).symm
  · exact (hname .messages).symm
  · exact (hname .stream).symm

theorem requiredBody_field (f : ChatField) (c : ChatFields) (o : Option String) :
    (requiredBody c o).get? f.name = if f ∈ optionalFields then none else bodyValue c o f := by
  cases f <;> rfl

theorem forwardBody_extension (h : Sanitized r kind b) (hk : k ∈ extensionsFor kind)
    (o : Option String) :
    (forwardBody b o).get? k = (r.extraFields.get? k).filter fun v => !isNull v := by
  have hname := (extension_name hk).2
  rw [get?_forwardBody h, get?_maybeSet_other (fun f _ => hname f), requiredBody_other hname,
    Option.or_none, List.contains_iff_mem.2 hk]
  simp

theorem forwardBody_undeclared (h : Sanitized r kind b) (hk : k ∉ extensionsFor kind)
    (hname : ∀ f : ChatField, f.name ≠ k) (o : Option String) :
    (forwardBody b o).get? k = none := by
  rw [get?_forwardBody h, get?_maybeSet_other (fun f _ => hname f), requiredBody_other hname,
    Option.or_none]
  simp [hk]

theorem bodyValue_optional (hf : f ∈ optionalFields) (c : ChatFields) (o : Option String) :
    bodyValue c o f = c.value f := by
  cases f <;> first | rfl | exact absurd hf (by decide)

theorem forwardBody_field (h : Sanitized r kind b) (f : ChatField) (o : Option String) :
    (forwardBody b o).get? f.name = bodyValue r.toChatFields o f := by
  have hk : f.name ∉ extensionsFor kind := fun hm => (extension_name hm).2 f rfl
  have hextra : ((r.extraFields.get? f.name).filter fun _ =>
      (extensionsFor kind).contains f.name) = none := by simp [hk]
  rw [get?_forwardBody h, hextra, Option.filter_none, Option.none_or]
  by_cases hf : f ∈ optionalFields
  · rw [get?_maybeSet_field (by decide) hf (h.forwarded f).2, requiredBody_field, if_pos hf,
      Option.or_none, bodyValue_optional hf]
  · rw [get?_maybeSet_other, requiredBody_field, if_neg hf]
    intro g hg hname
    exact hf (name_injective hname ▸ hg)

end Body

/-- The requests agree on the canonical fields and on the extensions declared for the kind. -/
def Agree (kind : Option String) (r r' : ChatCompletionRequest) : Prop :=
  r.toChatFields = r'.toChatFields ∧
    ∀ n ∈ extensionsFor kind, r.extraFields.get? n = r'.extraFields.get? n

/-- Apply the boundary again and again, under whatever kinds. -/
def reapply (lower : String → String) (b : BackendChatRequest) :
    List (Option String) → Except BackendRequestPolicyError BackendChatRequest
  | [] => .ok b
  | kind :: kinds =>
    match ensureBackendChatRequest lower (.backend b) kind with
    | .error e => .error e
    | .ok b' => reapply lower b' kinds

/-- What the boundary owes a request it accepts. -/
structure Boundary (lower : String → String) (kind o : Option String)
    (r : ChatCompletionRequest) (b : BackendChatRequest) (body : Dict String Json) : Prop where
  noninterference : ∀ r' b' body', Agree kind r r' →
    sanitizeChatRequest lower (.ingress r') kind = .ok b' →
    buildForwardBody lower (.ingress r') o kind = .ok body' → ∀ k, body'.get? k = body.get? k
  contained : ∀ k v, body.get? k = some v →
    (∃ f : ChatField, f.name = k) ∨ k ∈ extensionsFor kind
  canonical : ∀ f v, r.value f = some v → (f = .model → overrideModel o r.model = r.model) →
    body.get? f.name = some v
  overridden : body.get? "model" = some (.str (overrideModel o r.model))
  extension : ∀ n ∈ extensionsFor kind, ∀ v, r.extraFields.get? n = some v →
    isNull v = false → body.get? n = some v
  idempotent : ∀ kinds, reapply lower b kinds = .ok b ∧
    ∀ kind', buildForwardBody lower (.backend b) o kind' = .ok body

section Main

variable {lower : String → String} {r : ChatCompletionRequest} {b : BackendChatRequest}

theorem reapply_eq (lower : String → String) (b : BackendChatRequest)
    (kinds : List (Option String)) : reapply lower b kinds = .ok b := by
  induction kinds with
  | nil => rfl
  | cons kind kinds ih => exact ih

theorem buildForwardBody_of_ok (hok : sanitizeChatRequest lower (.ingress r) kind = .ok b)
    (o : Option String) :
    buildForwardBody lower (.ingress r) o kind = .ok (forwardBody b o) := by
  simp only [buildForwardBody, ensureBackendChatRequest, hok]

theorem forwardBody_congr (h : Sanitized r kind b) (h' : Sanitized r' kind b')
    (ha : Agree kind r r') (o : Option String) (k : String) :
    (forwardBody b' o).get? k = (forwardBody b o).get? k := by
  by_cases hf : ∃ f : ChatField, f.name = k
  · obtain ⟨f, rfl⟩ := hf
    rw [forwardBody_field h', forwardBody_field h, ha.1]
  · have hname : ∀ f : ChatField, f.name ≠ k := fun f he => hf ⟨f, he⟩
    by_cases hk : k ∈ extensionsFor kind
    · rw [forwardBody_extension h' hk, forwardBody_extension h hk, ha.2 k hk]
    · rw [forwardBody_undeclared h' hk hname, forwardBody_undeclared h hk hname]

/-- The value of a field reaches the body, the names of the messages apart. -/
theorem bodyValue_eq_value (hm : ∀ m ∈ r.messages, m.name ≠ some "")
    (ho : f = .model → overrideModel o r.model = r.model) :
    bodyValue r.toChatFields o f = r.value f := by
  cases f with
  | model => simp only [bodyValue, ChatFields.value, ho rfl]
  | messages =>
    have hmap : r.messages.map serializeMessage = r.messages.map messageValue :=
      List.map_congr_left fun m h => (serializeMessage_eq_iff m).2 (hm m h)
    simp only [bodyValue, ChatFields.value, hmap]
  | _ => rfl

theorem modelPostInit_fields (r : ChatCompletionRequest) (extras : Dict String Json) :
    (r.modelPostInit extras).toChatFields = r.toChatFields := by
  simp only [ChatCompletionRequest.modelPostInit]
  split <;> rfl

/-- A request that the boundary accepts gets a body, and the boundary does what it owes the
request exactly when no message carries the empty name. -/
theorem backend_boundary_iff (lower : String → String) (kind o : Option String)
    (request : ChatCompletionRequest) (extras : Dict String Json)
    (hok : sanitizeChatRequest lower (.ingress (request.modelPostInit extras)) kind = .ok b) :
    (∃ body, buildForwardBody lower (.ingress (request.modelPostInit extras)) o kind = .ok body ∧
      Boundary lower kind o (request.modelPostInit extras) b body) ↔
    ∀ m ∈ request.messages, m.name ≠ some "" := by
  have hmessages : (request.modelPostInit extras).messages = request.messages :=
    congrArg ChatFields.messages (modelPostInit_fields request extras)
  rw [← hmessages]
  generalize request.modelPostInit extras = r at hok
  have hs := sanitized_of_ok hok
  rw [buildForwardBody_of_ok hok]
  constructor
  · rintro ⟨body, hbody, hb⟩ m hm
    cases hbody
    have hval := hb.canonical .messages _ rfl nofun
    rw [forwardBody_field hs] at hval
    simp only [bodyValue, Option.some.injEq, Json.arr.injEq, List.map_inj_left] at hval
    exact (serializeMessage_eq_iff m).1 (hval m hm)
  · intro hm
    refine ⟨_, rfl, ?_, ?_, ?_, ?_, ?_, ?_⟩
    · intro r' b' body' ha hok' hbody'
      rw [buildForwardBody_of_ok hok'] at hbody'
      cases hbody'
      exact forwardBody_congr hs (sanitized_of_ok hok') ha o
    · intro k v hv
      by_contra hno
      rw [not_or, not_exists] at hno
      rw [forwardBody_undeclared hs hno.2 hno.1] at hv
      cases hv
    · intro f v hv ho
      rw [forwardBody_field hs, bodyValue_eq_value hm ho, hv]
    · exact forwardBody_field hs .model o
    · intro n hn v hv hnull
      rw [forwardBody_extension hs hn, hv]
      simp [hnull]
    · intro kinds
      exact ⟨reapply_eq lower b kinds, fun _ => rfl⟩

end Main

/-- A request with the defaults of the model and one message from the given speaker. -/
def oneMessage (speaker : String) : ChatCompletionRequest where
  model := "m"
  messages := [⟨"user", .str "hi", some speaker, none, none⟩]
  stream := false
  temperature := some (.float "0.7")
  topP := some (.float "0.95")
  maxTokens := some 256
  maxCompletionTokens := none
  stop := none
  user := none
  tools := none
  toolChoice := none
  parallelToolCalls := none
  responseFormat := none
  seed := none
  presencePenalty := none
  frequencyPenalty := none
  logitBias := none
  logprobs := none
  topLogprobs := none
  reasoningEffort := none
  metadata := some (.obj [("source", .str "codexify")])
  threadwake := none
  extraFields := .empty

/-- `str.lower` on a text of ASCII characters. -/
def asciiLower (text : String) : String := String.ofList (text.toList.map Char.toLower)

/-- An extension of one adapter and a control field. -/
def mixedExtras : Dict String Json :=
  Dict.empty |>.set "min_p" (.float "0.05") |>.set "trace_id" (.str "t")

theorem backend_boundary_named :
    ∃ b body, sanitizeChatRequest asciiLower
        (.ingress ((oneMessage "ada").modelPostInit mixedExtras)) (some "llama_cpp") = .ok b ∧
      b.forwardedFields =
        ["max_tokens", "messages", "min_p", "model", "stream", "temperature", "top_p"] ∧
      b.strippedFields = ["metadata", "trace_id"] ∧
      buildForwardBody asciiLower (.ingress ((oneMessage "ada").modelPostInit mixedExtras))
        none (some "llama_cpp") = .ok body ∧
      Boundary asciiLower (some "llama_cpp") none ((oneMessage "ada").modelPostInit mixedExtras)
        b body := by
  obtain ⟨body, hbody, hb⟩ := (backend_boundary_iff asciiLower (some "llama_cpp") none
    (oneMessage "ada") mixedExtras rfl).2 (by simp [oneMessage])
  exact ⟨_, body, rfl, rfl, rfl, hbody, hb⟩

theorem empty_name_dropped :
    ∃ b body, sanitizeChatRequest asciiLower (.ingress ((oneMessage "").modelPostInit .empty))
        none = .ok b ∧
      buildForwardBody asciiLower (.ingress ((oneMessage "").modelPostInit .empty)) none
        none = .ok body ∧
      body.get? "messages" = some (.arr [.obj [("role", .str "user"), ("content", .str "hi")]]) ∧
      (oneMessage "").value .messages = some (.arr [.obj [("role", .str "user"),
        ("content", .str "hi"), ("name", .str "")]]) ∧
      ¬ Boundary asciiLower none none ((oneMessage "").modelPostInit .empty) b body := by
  refine ⟨_, _, rfl, rfl, rfl, rfl, ?_⟩
  intro hb
  have hval := hb.canonical .messages _ rfl nofun
  cases hval

end Whooshd.Backend
