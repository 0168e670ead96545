import Whooshd.Context

namespace Whooshd
set_option autoImplicit true

open ThreadWake (ChatMessage)
open Backend (ChatFields ChatField ChatCompletionRequest buildForwardBody)

/-- A request that asks for more in one place. -/
inductive Extends : ChatFields → ChatFields → Prop
  | message (r : ChatFields) (m : ChatMessage) :
    Extends r { r with messages := r.messages ++ [m] }
  | part (r : ChatFields) (front back : List ChatMessage) (m : ChatMessage) (parts : List Json)
      (part : Json) (hmessages : r.messages = front ++ m :: back)
      (hcontent : m.content = .arr parts) :
    Extends r { r with
      messages := front ++ { m with content := .arr (parts ++ [part]) } :: back }
  | tool (r : ChatFields) (tool : Json) :
    Extends r { r with tools := some (r.tools.getD [] ++ [tool]) }
  | toolCall (r : ChatFields) (front back : List ChatMessage) (m : ChatMessage)
      (calls : List Json) (call : Json) (hmessages : r.messages = front ++ m :: back)
      (hcalls : m.toolCalls = none ∧ calls = [] ∨ m.toolCalls = some (.arr calls)) :
    Extends r { r with
      messages := front ++ { m with toolCalls := some (.arr (calls ++ [call])) } :: back }
  | stop (r : ChatFields) (sequence : String) :
    Extends r { r with stop := some (r.stop.getD [] ++ [sequence]) }
  | maxTokens (r : ChatFields) (limit limit' : Int) (hlimit : r.maxTokens = some limit)
      (hle : limit ≤ limit') :
    Extends r { r with maxTokens := some limit' }
  | maxCompletionTokens (r : ChatFields) (limit limit' : Int)
      (hlimit : r.maxCompletionTokens = some limit) (hle : limit ≤ limit') :
    Extends r { r with maxCompletionTokens := some limit' }

/-- The parts of the cost of one request are at most those of another. -/
structure RequestCost.AtMost (c c' : RequestCost) : Prop where
  input : c.inputTokens ≤ c'.inputTokens
  output : c.outputTokens ≤ c'.outputTokens
  multimodal : c.multimodalTokens ≤ c'.multimodalTokens
  total : c.totalTokens ≤ c'.totalTokens

theorem RequestCost.AtMost.trans {c c' c'' : RequestCost} (h : c.AtMost c') (h' : c'.AtMost c'') :
    c.AtMost c'' where
  input := h.input.trans h'.input
  output := h.output.trans h'.output
  multimodal := h.multimodal.trans h'.multimodal
  total := h.total.trans h'.total

/-- What the cost is computed from does not become less. -/
structure Grows (r r' : ChatFields) : Prop where
  text : weight (r.messages.flatMap messageChunks) ≤ weight (r'.messages.flatMap messageChunks)
  structured : structuredWeight (structuredPromptChunks r) ≤
    structuredWeight (structuredPromptChunks r')
  media : (r.messages.map messageMedia).sum ≤ (r'.messages.map messageMedia).sum
  maxTokens : Option.Rel (· ≤ ·) r.maxTokens r'.maxTokens
  maxCompletionTokens : Option.Rel (· ≤ ·) r.maxCompletionTokens r'.maxCompletionTokens

theorem limit_refl (limit : Option Int) : Option.Rel (· ≤ ·) limit limit := by
  cases limit with
  | none => exact .none
  | some limit => exact .some (Int.le_refl limit)

theorem truthyChunk_arr (vs ws : List Json) :
    structuredWeight (truthyChunk (some (.arr vs))) ≤
      structuredWeight (truthyChunk (some (.arr (vs ++ ws)))) := by
  cases vs with
  | nil => exact Nat.zero_le _
  | cons v vs =>
    have hlength := Json.length_dumpsAscii_append (v :: vs) ws
    have hne : ∀ ws : List Json, (Json.arr ws).dumpsAscii ≠ "" := by
      intro ws hempty
      have hlength := congrArg String.length hempty
      have hone : "[".length = 1 := rfl
      rw [Json.dumpsAscii, String.length_append, String.length_empty] at hlength
      omega
    simp only [truthyChunk, Json.truthy, List.isEmpty_cons, List.cons_append, Bool.not_false,
      if_true, safeJson, structuredWeight_singleton, if_neg (hne _)]
    exact Nat.add_le_add_right hlength 1

theorem structuredPromptChunks_weight (r : ChatFields) :
    structuredWeight (structuredPromptChunks r) =
      structuredWeight (truthyChunk (r.tools.map .arr)) +
      structuredWeight (truthyChunk r.toolChoice) +
      structuredWeight (truthyChunk r.responseFormat) +
      structuredWeight (truthyChunk (r.stop.map fun l => .arr (l.map .str))) +
      structuredWeight (r.messages.flatMap messageStructure) := by
  simp only [structuredPromptChunks, structuredWeight_append]

theorem flatMap_replace {f : ChatMessage → List String} {measure : List String → Nat}
    (hadd : ∀ l l', measure (l ++ l') = measure l + measure l') (front back : List ChatMessage)
    (h : measure (f m) ≤ measure (f m')) :
    measure ((front ++ m :: back).flatMap f) ≤ measure ((front ++ m' :: back).flatMap f) := by
  simp only [List.flatMap_append, List.flatMap_cons, hadd]
  omega

theorem sum_replace_message {f : ChatMessage → Nat} (front back : List ChatMessage)
    (h : f m ≤ f m') :
    ((front ++ m :: back).map f).sum ≤ ((front ++ m' :: back).map f).sum := by
  simp only [List.map_append, List.map_cons, List.sum_append, List.sum_cons]
  omega

/-- An extension of each kind enlarges what it touches. -/
theorem Extends.grows (h : Extends r r') : Grows r r' := by
  cases h with
  | message m =>
    refine ⟨?_, ?_, ?_, limit_refl _, limit_refl _⟩
    · rw [List.flatMap_append, weight_append]
      exact Nat.le_add_right ..
    · simp only [structuredPromptChunks_weight, List.flatMap_append, structuredWeight_append]
      omega
    · rw [List.map_append, List.sum_append]
      exact Nat.le_add_right ..
  | part front back m parts part hmessages hcontent =>
    refine ⟨?_, ?_, ?_, limit_refl _, limit_refl _⟩
    · rw [hmessages]
      apply flatMap_replace weight_append
      simp only [messageChunks, hcontent, List.flatMap_append, weight_append]
      exact Nat.le_add_right ..
    · simp only [structuredPromptChunks_weight, hmessages]
      have hmessage : structuredWeight (messageStructure m) ≤ structuredWeight
          (messageStructure { m with content := .arr (parts ++ [part]) }) := Nat.le_refl _
      have hmessages' := flatMap_replace structuredWeight_append front back hmessage
      omega
    · rw [hmessages]
      apply sum_replace_message
      simp only [messageMedia, hcontent, List.map_append, List.sum_append]
      exact Nat.le_add_right ..
  | tool tool =>
    refine ⟨Nat.le_refl _, ?_, Nat.le_refl _, limit_refl _, limit_refl _⟩
    simp only [structuredPromptChunks_weight]
    have hmore : structuredWeight (truthyChunk (r.tools.map .arr)) ≤
        structuredWeight (truthyChunk (some (.arr (r.tools.getD [] ++ [tool])))) := by
      cases r.tools with
      | none => exact Nat.zero_le _
      | some tools => exact truthyChunk_arr tools [tool]
    dsimp only [Option.map_some]
    omega
  | toolCall front back m calls call hmessages hcalls =>
    refine ⟨?_, ?_, ?_, limit_refl _, limit_refl _⟩
    · rw [hmessages]
      exact flatMap_replace weight_append front back (Nat.le_refl (weight (messageChunks m)))
    · simp only [structuredPromptChunks_weight, hmessages]
      have hmore : structuredWeight (truthyChunk m.toolCalls) ≤
          structuredWeight (truthyChunk (some (.arr (calls ++ [call])))) := by
        rcases hcalls with ⟨hnone, -⟩ | hsome
        · rw [hnone]
          exact Nat.zero_le _
        · rw [hsome]
          exact truthyChunk_arr calls [call]
      have hmessage : structuredWeight (messageStructure m) ≤ structuredWeight
          (messageStructure { m with toolCalls := some (.arr (calls ++ [call])) }) := by
        simp only [messageStructure, structuredWeight_append]
        omega
      have hmessages' := flatMap_replace structuredWeight_append front back hmessage
      omega
    · rw [hmessages]
      exact sum_replace_message front back (Nat.le_refl (messageMedia m))
  | stop sequence =>
    refine ⟨Nat.le_refl _, ?_, Nat.le_refl _, limit_refl _, limit_refl _⟩
    simp only [structuredPromptChunks_weight]
    have hmore : structuredWeight (truthyChunk (r.stop.map fun l => .arr (l.map .str))) ≤
        structuredWeight (truthyChunk
          (some (.arr ((r.stop.getD [] ++ [sequence]).map .str)))) := by
      cases r.stop with
      | none => exact Nat.zero_le _
      | some sequences =>
        rw [Option.getD_some, List.map_append]
        exact truthyChunk_arr _ _
    dsimp only [Option.map_some]
    omega
  | maxTokens limit limit' hlimit hle =>
    refine ⟨Nat.le_refl _, Nat.le_refl _, Nat.le_refl _, ?_, limit_refl _⟩
    rw [hlimit]
    exact .some hle
  | maxCompletionTokens limit limit' hlimit hle =>
    refine ⟨Nat.le_refl _, Nat.le_refl _, Nat.le_refl _, limit_refl _, ?_⟩
    rw [hlimit]
    exact .some hle

section Cost

variable {estimate : Option Int} {default : Int} {r r' : ChatFields}

/-- The cost without a tokenizer. -/
def fallbackCost (estimate : Option Int) (default : Int) (r : ChatFields) : RequestCost :=
  estimateRequestCost r none estimate default

theorem fallbackCost_input (estimate : Option Int) (default : Int) (r : ChatFields) :
    (fallbackCost estimate default r).inputTokens =
      fallbackTokens (weight (r.messages.flatMap messageChunks)) +
        fallbackTokens (structuredWeight (structuredPromptChunks r)) := by
  have htext : (countTokens (messageTextAndMedia r.messages).1 none).1 =
      fallbackTokens (weight (r.messages.flatMap messageChunks)) := by
    rw [messageTextAndMedia_eq, countTokens_intercalate]
  exact congrArg₂ (· + ·) htext (structuredTokens_eq r)

theorem fallbackCost_multimodal (estimate : Option Int) (default : Int) (r : ChatFields) :
    (fallbackCost estimate default r).multimodalTokens =
      (multimodalCost (r.messages.map messageMedia).sum estimate).1 := by
  simp only [fallbackCost, estimateRequestCost, messageTextAndMedia_eq]

theorem fallbackCost_output (estimate : Option Int) (default : Int) (r : ChatFields) :
    (fallbackCost estimate default r).outputTokens = (effectiveOutputLimit r default).1 := rfl

theorem fallbackCost_total (estimate : Option Int) (default : Int) (r : ChatFields) :
    (fallbackCost estimate default r).totalTokens =
      (fallbackCost estimate default r).inputTokens +
        (fallbackCost estimate default r).outputTokens +
        (fallbackCost estimate default r).multimodalTokens := rfl

theorem multimodalCost_eq (media : Nat) (estimate : Option Int) :
    (multimodalCost media estimate).1 = media * estimate.getD 0 := by
  cases estimate with
  | none => exact (Int.mul_zero _).symm
  | some perUnit =>
    rw [multimodalCost, Option.getD_some]
    split
    · rfl
    · next h =>
      by_cases hmedia : media = 0
      · rw [hmedia]
        exact (Int.zero_mul _).symm
      · have hzero : perUnit = 0 := by
          by_contra hne
          exact h ⟨hmedia, hne⟩
        rw [hzero]
        exact (Int.mul_zero _).symm

/-- The reservation covers both limits, whichever the upstream takes. -/
theorem effectiveOutputLimit_bounds (default : Int) (r : ChatFields) :
    (∀ limit, r.maxTokens = some limit → limit ≤ (effectiveOutputLimit r default).1) ∧
      ∀ limit, r.maxCompletionTokens = some limit →
        limit ≤ (effectiveOutputLimit r default).1 := by
  constructor
  · intro limit hlimit
    rw [effectiveOutputLimit, hlimit]
    cases r.maxCompletionTokens with
    | none => exact le_max_right 0 limit
    | some completion =>
      exact (le_max_right 0 limit).trans (le_max_right (max 0 completion) (max 0 limit))
  · intro limit hlimit
    rw [effectiveOutputLimit, hlimit]
    cases r.maxTokens with
    | none => exact (le_max_right 0 limit).trans (le_max_left (max 0 limit) 0)
    | some other => exact (le_max_right 0 limit).trans (le_max_left (max 0 limit) (max 0 other))

theorem effectiveOutputLimit_mono (default : Int)
    (hmax : Option.Rel (· ≤ ·) r.maxTokens r'.maxTokens)
    (hcompletion : Option.Rel (· ≤ ·) r.maxCompletionTokens r'.maxCompletionTokens) :
    (effectiveOutputLimit r default).1 ≤ (effectiveOutputLimit r' default).1 := by
  rw [effectiveOutputLimit, effectiveOutputLimit]
  revert hmax hcompletion
  generalize r.maxTokens = limit, r'.maxTokens = limit', r.maxCompletionTokens = completion,
    r'.maxCompletionTokens = completion'
  intro hmax hcompletion
  cases hmax with
  | none =>
    cases hcompletion with
    | none => exact Int.le_refl _
    | some hle => dsimp only; omega
  | some hle =>
    cases hcompletion with
    | none => dsimp only; omega
    | some hle' => dsimp only; omega

theorem Grows.atMost (h : Grows r r')
    (hestimate : ∀ perUnit, estimate = some perUnit → 0 ≤ perUnit) (default : Int) :
    (fallbackCost estimate default r).AtMost (fallbackCost estimate default r') := by
  have hinput : (fallbackCost estimate default r).inputTokens ≤
      (fallbackCost estimate default r').inputTokens := by
    have htext := fallbackTokens_mono h.text
    have hstructured := fallbackTokens_mono h.structured
    rw [fallbackCost_input, fallbackCost_input]
    omega
  have houtput : (fallbackCost estimate default r).outputTokens ≤
      (fallbackCost estimate default r').outputTokens :=
    effectiveOutputLimit_mono default h.maxTokens h.maxCompletionTokens
  have hmultimodal : (fallbackCost estimate default r).multimodalTokens ≤
      (fallbackCost estimate default r').multimodalTokens := by
    rw [fallbackCost_multimodal, fallbackCost_multimodal, multimodalCost_eq, multimodalCost_eq]
    apply Int.mul_le_mul_of_nonneg_right (Int.ofNat_le.mpr h.media)
    cases estimate with
    | none => exact Int.le_refl 0
    | some perUnit => exact hestimate perUnit rfl
  refine ⟨hinput, houtput, hmultimodal, ?_⟩
  rw [fallbackCost_total, fallbackCost_total]
  omega

theorem exceeds_mono {value value' : Int} (h : value ≤ value') {limit : Option Int}
    (hex : exceeds value limit = true) : exceeds value' limit = true := by
  cases limit with
  | none => exact hex
  | some limit =>
    rw [exceeds, Option.any_some, decide_eq_true_eq] at hex ⊢
    omega

theorem evaluateContext_overLimit (cost : RequestCost) (b : ContextBudgets) :
    (evaluateContext cost (some b)).overLimit = true ↔
      exceeds cost.outputTokens b.maxOutputTokens = true ∨
        exceeds (cost.inputTokens + cost.multimodalTokens) b.maxInputTokens = true ∨
        exceeds cost.totalTokens b.hardMaxTokens = true := by
  simp only [evaluateContext]
  split
  · next h => exact ⟨fun _ => .inl h, fun _ => rfl⟩
  · next hout =>
    split
    · next h => exact ⟨fun _ => .inr (.inl h), fun _ => rfl⟩
    · next hin =>
      split
      · next h => exact ⟨fun _ => .inr (.inr h), fun _ => rfl⟩
      · next hhard =>
        have hnone : ¬(exceeds cost.outputTokens b.maxOutputTokens = true ∨
            exceeds (cost.inputTokens + cost.multimodalTokens) b.maxInputTokens = true ∨
            exceeds cost.totalTokens b.hardMaxTokens = true) := by
          rintro (h | h | h)
          · exact hout h
          · exact hin h
          · exact hhard h
        split
        · exact iff_of_false Bool.false_ne_true hnone
        · split
          · exact iff_of_false Bool.false_ne_true hnone
          · exact iff_of_false Bool.false_ne_true hnone

theorem overLimit_mono {cost cost' : RequestCost} (h : cost.AtMost cost')
    {budgets : Option ContextBudgets} (hover : (evaluateContext cost budgets).overLimit = true) :
    (evaluateContext cost' budgets).overLimit = true := by
  cases budgets with
  | none => cases hover
  | some b =>
    rw [evaluateContext_overLimit] at hover ⊢
    rcases hover with hover | hover | hover
    · exact .inl (exceeds_mono h.output hover)
    · exact .inr (.inl (exceeds_mono (Int.add_le_add h.input h.multimodal) hover))
    · exact .inr (.inr (exceeds_mono h.total hover))

/-- Along any number of extensions the cost grows. -/
theorem extensions_atMost (h : Relation.ReflTransGen Extends r r')
    (hestimate : ∀ perUnit, estimate = some perUnit → 0 ≤ perUnit) (default : Int) :
    (fallbackCost estimate default r).AtMost (fallbackCost estimate default r') := by
  induction h with
  | refl => exact ⟨Int.le_refl _, Int.le_refl _, Int.le_refl _, Int.le_refl _⟩
  | tail _ hstep ih => exact ih.trans (hstep.grows.atMost hestimate default)

end Cost

/-- Extending a request never lowers a part of its cost nor lets one through that was over the
limits, and the reserved output covers every output limit that is forwarded. -/
theorem context_cost_monotone (lower : String → String) (kind o : Option String)
    (request : ChatCompletionRequest) (estimate : Option Int) (default : Int)
    (hestimate : ∀ perUnit, estimate = some perUnit → 0 ≤ perUnit) :
    (∀ r', Relation.ReflTransGen Extends request.toChatFields r' →
      (fallbackCost estimate default request.toChatFields).AtMost
          (fallbackCost estimate default r') ∧
        ∀ budgets, (evaluateContext (fallbackCost estimate default request.toChatFields)
            budgets).overLimit = true →
          (evaluateContext (fallbackCost estimate default r') budgets).overLimit = true) ∧
      ∀ body, buildForwardBody lower (.ingress request) o kind = .ok body →
        ∀ f : ChatField, f = .maxTokens ∨ f = .maxCompletionTokens →
          ∀ v, body.get? f.name = some v → ∃ limit, v = .int limit ∧
            limit ≤ (fallbackCost estimate default request.toChatFields).outputTokens := by
  constructor
  · intro r' h
    have hcost := extensions_atMost h hestimate default
    exact ⟨hcost, fun budgets hover => overLimit_mono hcost hover⟩
  · intro body hbody f hf v hv
    rw [buildForwardBody] at hbody
    split at hbody
    · cases hbody
    · next b hok =>
      cases hbody
      rw [Backend.forwardBody_field (Backend.sanitized_of_ok hok)] at hv
      have hbounds := effectiveOutputLimit_bounds default request.toChatFields
      rw [fallbackCost_output]
      rcases hf with rfl | rfl
      · obtain ⟨limit, hlimit, rfl⟩ := Option.map_eq_some_iff.mp hv
        exact ⟨limit, rfl, hbounds.1 limit hlimit⟩
      · obtain ⟨limit, hlimit, rfl⟩ := Option.map_eq_some_iff.mp hv
        exact ⟨limit, rfl, hbounds.2 limit hlimit⟩

theorem context_cost_monotone_image :
    (fallbackCost (some 85) 256 (Backend.oneMessage "ada").toChatFields).AtMost
      (fallbackCost (some 85) 256 { (Backend.oneMessage "ada").toChatFields with
        messages := (Backend.oneMessage "ada").messages ++
          [⟨"user", .arr [.obj [("type", .str "image_url")]], none, none, none⟩] }) :=
  ((context_cost_monotone Backend.asciiLower none none (Backend.oneMessage "ada") (some 85) 256
    (fun _ h => by cases h; decide)).1 _ (.single (.message _ _))).1

end Whooshd
