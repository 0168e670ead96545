import Whooshd.Admission
import Whooshd.CostGrowth
import Whooshd.PromptChars

namespace Whooshd
set_option autoImplicit true

open Backend (ChatField ChatCompletionRequest sanitizeChatRequest buildForwardBody)

/-- What admission reads of a request. The rest is what it passes on. -/
def admissionRequest (budgets : Option ContextBudgets) (defaultTokens : Int)
    (rest : ChatRequest) (request : ChatCompletionRequest) (promptChars : Nat) : ChatRequest :=
  let cost := estimateRequestCost request.toChatFields none
    (budgets.bind (·.multimodalTokenEstimate)) defaultTokens
  { rest with
    model := request.model
    stream := request.stream
    messageCount := request.messages.length
    promptChars
    maxTokens := request.maxTokens
    totalTokens := cost.totalTokens.toNat
    overLimit := (evaluateContext cost budgets).overLimit }

/-- `evaluate_chat_request` on the whole request: the messages are counted before their text is
read, which may raise. -/
def evaluateWholeRequest (cfg : Settings) (rt : RuntimeState) (budgets : Option ContextBudgets)
    (defaultTokens : Int) (rest : ChatRequest) (request : ChatCompletionRequest)
    (lane : Option Lane) (laneMaxConcurrent : Option Int) : Option AdmissionResult :=
  let evaluate (promptChars : Nat) : AdmissionResult :=
    evaluateChatRequest cfg rt
      (admissionRequest budgets defaultTokens rest request promptChars) lane laneMaxConcurrent
  if (request.messages.length : Int) > cfg.maxMessages then some (evaluate 0)
  else (estimadePromptChars request.messages).map evaluate

/-- Admission has let the request through, to run or to wait. -/
def AdmissionResult.Passed (result : AdmissionResult) : Prop :=
  result.reason = .accepted ∨ result.reason = .queued

/-- Both output limits that the body may carry are within the cap. -/
def OutputCapped (cap : Int) (body : Dict String Json) : Prop :=
  ∀ f : ChatField, f = .maxTokens ∨ f = .maxCompletionTokens → ∀ v, body.get? f.name = some v →
    ∃ limit, v = .int limit ∧ limit ≤ cap

theorem evaluateChatRequest_maxTokens (h : (evaluateChatRequest cfg rt req lane m).Passed)
    (hlimit : req.maxTokens = some limit) : limit ≤ cfg.maxRequestMaxTokens := by
  by_contra hover
  have hgt : limit > cfg.maxRequestMaxTokens := by omega
  rw [AdmissionResult.Passed] at h
  simp only [evaluateChatRequest, hlimit, if_pos hgt] at h
  split at h
  · rcases h with h | h <;> cases h
  · split at h
    · rcases h with h | h <;> cases h
    · rcases h with h | h <;> cases h

theorem evaluateWholeRequest_maxTokens {request : ChatCompletionRequest}
    (h : evaluateWholeRequest cfg rt budgets defaultTokens rest request lane m = some result)
    (hpassed : result.Passed) (hlimit : request.maxTokens = some limit) :
    limit ≤ cfg.maxRequestMaxTokens := by
  rw [evaluateWholeRequest] at h
  dsimp only at h
  split at h
  · cases h
    exact evaluateChatRequest_maxTokens hpassed hlimit
  · obtain ⟨chars, -, rfl⟩ := Option.map_eq_some_iff.mp h
    exact evaluateChatRequest_maxTokens hpassed hlimit

/-- The body of a request that passes admission is within the cap exactly if its
`max_completion_tokens` is. -/
theorem outputCapped_iff (cfg : Settings) (rt : RuntimeState) (budgets : Option ContextBudgets)
    (defaultTokens : Int) (rest : ChatRequest) (request : ChatCompletionRequest)
    (lane : Option Lane) (laneMaxConcurrent : Option Int) (lower : String → String)
    (kind kind' o : Option String)
    (hresult : evaluateWholeRequest cfg rt budgets defaultTokens rest request lane
      laneMaxConcurrent = some result) (hpassed : result.Passed)
    (hsanitized : sanitizeChatRequest lower (.ingress request) kind = .ok b)
    (hbody : buildForwardBody lower (.backend b) o kind' = .ok body) :
    OutputCapped cfg.maxRequestMaxTokens body ↔
      ∀ limit, request.maxCompletionTokens = some limit → limit ≤ cfg.maxRequestMaxTokens := by
  cases hbody
  have hfield := Backend.forwardBody_field (Backend.sanitized_of_ok hsanitized)
  constructor
  · intro h limit hlimit
    have hforwarded : (Backend.forwardBody b o).get? ChatField.maxCompletionTokens.name =
        some (.int limit) := by
      rw [hfield]
      exact congrArg (Option.map Json.int) hlimit
    obtain ⟨limit', heq, hle⟩ := h .maxCompletionTokens (.inr rfl) _ hforwarded
    cases heq
    exact hle
  · intro h f hf v hv
    rw [hfield] at hv
    rcases hf with rfl | rfl
    · obtain ⟨limit, hlimit, rfl⟩ := Option.map_eq_some_iff.mp hv
      exact ⟨limit, rfl, evaluateWholeRequest_maxTokens hresult hpassed hlimit⟩
    · obtain ⟨limit, hlimit, rfl⟩ := Option.map_eq_some_iff.mp hv
      exact ⟨limit, rfl, h limit hlimit⟩

section Alias

/-- A deployment that allows a thousand tokens, and a request for thirty times as many under the
other name. -/
def cappedSettings : Settings := { Settings.defaults with maxRequestMaxTokens := 1024 }

def plainRest : ChatRequest where
  model := ""
  stream := false
  upstreamRequestId := none
  messageCount := 0
  promptChars := 0
  maxTokens := none
  totalTokens := 0
  overLimit := false
  hasImage := false
  fieldsSupported := true

def aliasRequest (limit : Int) : ChatCompletionRequest :=
  { Backend.oneMessage "ada" with maxCompletionTokens := some limit }

theorem outputCapped_small : ∃ b body,
    sanitizeChatRequest Backend.asciiLower (.ingress (aliasRequest 512)) none = .ok b ∧
      buildForwardBody Backend.asciiLower (.backend b) none none = .ok body ∧
      OutputCapped 1024 body := by
  refine ⟨_, _, rfl, rfl, (outputCapped_iff cappedSettings .init none 256 plainRest
    (aliasRequest 512) none none Backend.asciiLower none none none rfl (.inl rfl) rfl rfl).mpr ?_⟩
  intro limit hlimit
  cases hlimit
  decide

theorem alias_over_cap : ¬ ∀ (cfg : Settings) (rt : RuntimeState) (budgets : Option ContextBudgets)
    (defaultTokens : Int) (rest : ChatRequest) (request : ChatCompletionRequest)
    (lane : Option Lane) (m : Option Int) (lower : String → String)
    (kind kind' o : Option String) (result b body),
    evaluateWholeRequest cfg rt budgets defaultTokens rest request lane m = some result →
    result.Passed → sanitizeChatRequest lower (.ingress request) kind = .ok b →
    buildForwardBody lower (.backend b) o kind' = .ok body →
    OutputCapped cfg.maxRequestMaxTokens body := by
  intro h
  have hcapped := h cappedSettings .init none 256 plainRest (aliasRequest 30000) none none
    Backend.asciiLower none none none _ _ _ rfl (.inl rfl) rfl rfl
  obtain ⟨limit, heq, hle⟩ := hcapped .maxCompletionTokens (.inr rfl) (.int 30000) rfl
  cases heq
  exact absurd hle (by decide)

end Alias

end Whooshd
