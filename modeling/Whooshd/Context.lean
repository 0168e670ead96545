import Whooshd.Backend.ForwardBody
import Whooshd.Library.JsonAscii
import Mathlib.Logic.Relation

namespace Whooshd
set_option autoImplicit true

open ThreadWake (ChatMessage)
open Backend (ChatFields)

inductive ContextBudget where
  | hard | recommended | interactive | maxInput | maxOutput
  deriving DecidableEq, Repr

inductive ContextDecisionReason where
  | withinInteractive | withinRecommended | aboveRecommended | aboveHard | aboveInputLimit
  | aboveOutputLimit | noBudget
  deriving DecidableEq, Repr

/-- The context ceilings of a model, in tokens. -/
structure ContextBudgets where
  hardMaxTokens : Option Int
  recommendedMaxTokens : Option Int
  interactiveMaxTokens : Option Int
  maxOutputTokens : Option Int
  maxInputTokens : Option Int
  multimodalTokenEstimate : Option Int
  deriving DecidableEq, Repr

inductive CostStatus where
  | exact | estimated | unknown
  deriving DecidableEq, Repr

inductive OutputLimitSource where
  | maxTokens | maxCompletionTokens | default
  deriving DecidableEq, Repr

structure RequestCost where
  inputTokens : Int
  outputTokens : Int
  multimodalTokens : Int
  totalTokens : Int
  inputIsExact : Bool
  multimodalIsExact : Bool
  outputIsExact : Bool
  hasUnknownCost : Bool
  outputLimitSource : OutputLimitSource
  structuredPromptTokens : Int
  mediaParts : Nat
  deriving DecidableEq, Repr

def RequestCost.costStatus (cost : RequestCost) : CostStatus :=
  if cost.hasUnknownCost then .unknown
  else if cost.inputIsExact && cost.outputIsExact && cost.multimodalIsExact then .exact
  else .estimated

structure ContextEvaluation where
  reason : ContextDecisionReason
  budget : Option ContextBudget
  totalTokens : Int
  withinBudget : Bool
  overLimit : Bool
  breachedBudget : Option ContextBudget
  hardMaxTokens : Option Int
  recommendedMaxTokens : Option Int
  interactiveMaxTokens : Option Int
  maxInputTokens : Option Int
  maxOutputTokens : Option Int
  cost : RequestCost
  costIsExact : Bool
  costStatus : CostStatus
  deriving DecidableEq, Repr

/-- What `_message_text_and_media` has collected. -/
structure Collected where
  chunks : List String
  textParts : Nat
  mediaParts : Nat

namespace Collected

def empty : Collected := ⟨[], 0, 0⟩

def addText (c : Collected) (text : String) : Collected :=
  if text = "" then c else { c with chunks := c.chunks ++ [text], textParts := c.textParts + 1 }

end Collected

/-- A part of type `text`, or one without a type that has a text. -/
def isTextPart (fields : List (String × Json)) : Bool :=
  match Json.field? "type" fields with
  | some (.str t) => t = "text"
  | none | some .null => (Json.field? "text" fields).isSome
  | some _ => false

def collectPart (c : Collected) : Json → Collected
  | .obj fields =>
    if isTextPart fields then
      match Json.field? "text" fields with
      | some (.str text) => c.addText text
      | _ => c
    else { c with mediaParts := c.mediaParts + 1 }
  | _ => c

def collectMessage (c : Collected) (m : ChatMessage) : Collected :=
  match m.content with
  | .str text => c.addText text
  | .arr parts => parts.foldl collectPart c
  | _ => c

def messageTextAndMedia (messages : List ChatMessage) : String × Nat × Nat :=
  let c := messages.foldl collectMessage .empty
  ("\n".intercalate c.chunks, c.textParts, c.mediaParts)

/-- `_safe_json`. What a JSON body holds can be serialised. -/
def safeJson : Json → String
  | .null => ""
  | v => v.dumpsAscii

/-- A chunk for a value that is there and is true. -/
def truthyChunk (v : Option Json) : List String :=
  match v with
  | none => []
  | some v => if v.truthy then [safeJson v] else []

def textChunk (s : Option String) : List String :=
  match s with
  | none => []
  | some s => if s = "" then [] else [s]

def messageStructure (m : ChatMessage) : List String :=
  truthyChunk m.toolCalls ++ textChunk m.name ++ textChunk m.toolCallId

def structuredPromptChunks (r : ChatFields) : List String :=
  truthyChunk (r.tools.map .arr) ++ truthyChunk r.toolChoice ++ truthyChunk r.responseFormat ++
    truthyChunk (r.stop.map fun l => .arr (l.map .str)) ++ r.messages.flatMap messageStructure

def structuredPromptText (r : ChatFields) : String :=
  "\n".intercalate ((structuredPromptChunks r).filter (· ≠ ""))

def charsPerTokenFallback : Nat := 4

/-- A counter may raise, and then the fallback estimates. -/
abbrev TokenCounter := String → Option Int

/-- The tokens of a text, and whether they were counted. -/
def countTokens (text : String) (tokenCounter : Option TokenCounter) : Int × Bool :=
  match tokenCounter.bind fun count => count text with
  | some n => (max 0 n, true)
  | none =>
    (((text.length + (charsPerTokenFallback - 1)) / charsPerTokenFallback : Nat), false)

/-- The reserved output, whether it is an upper bound, and where it comes from. -/
def effectiveOutputLimit (r : ChatFields) (defaultMaxTokens : Int) :
    Int × Bool × OutputLimitSource :=
  match r.maxCompletionTokens, r.maxTokens with
  | some completion, some other =>
    (max (max 0 completion) (max 0 other), true, .maxCompletionTokens)
  | some completion, none => (max (max 0 completion) 0, true, .maxCompletionTokens)
  | none, some limit => (max 0 limit, true, .maxTokens)
  | none, none => (max 0 defaultMaxTokens, false, .default)

/-- The price of the media parts, and whether they remain without one. -/
def multimodalCost (mediaParts : Nat) (estimate : Option Int) : Int × Bool :=
  match estimate with
  | none => (0, mediaParts ≠ 0)
  | some perUnit =>
    if mediaParts ≠ 0 ∧ perUnit ≠ 0 then (mediaParts * perUnit, false) else (0, mediaParts ≠ 0)

def estimateRequestCost (r : ChatFields) (tokenCounter : Option TokenCounter)
    (multimodalTokenEstimate : Option Int) (defaultMaxTokens : Int) : RequestCost :=
  let (text, _, mediaParts) := messageTextAndMedia r.messages
  let structuredText := structuredPromptText r
  let (textTokens, textIsExact) := countTokens text tokenCounter
  let (structuredTokens, structuredIsExact) :=
    if structuredText = "" then (0, true) else countTokens structuredText tokenCounter
  let (outputTokens, outputIsExact, outputLimitSource) := effectiveOutputLimit r defaultMaxTokens
  let (multimodalTokens, hasUnknownCost) := multimodalCost mediaParts multimodalTokenEstimate
  { inputTokens := textTokens + structuredTokens
    outputTokens, multimodalTokens
    totalTokens := textTokens + structuredTokens + outputTokens + multimodalTokens
    inputIsExact := textIsExact && structuredIsExact
    multimodalIsExact := mediaParts = 0
    outputIsExact, hasUnknownCost, outputLimitSource
    structuredPromptTokens := structuredTokens
    mediaParts }

/-- The value exceeds a limit that is stated. -/
def exceeds (value : Int) (limit : Option Int) : Bool := limit.any fun l => l < value

def evaluateContext (cost : RequestCost) (budgets : Option ContextBudgets) : ContextEvaluation :=
  let base : ContextEvaluation :=
    { reason := .noBudget, budget := none, totalTokens := cost.totalTokens, withinBudget := true
      overLimit := false, breachedBudget := none, hardMaxTokens := none
      recommendedMaxTokens := none, interactiveMaxTokens := none, maxInputTokens := none
      maxOutputTokens := none, cost, costIsExact := cost.costStatus = .exact
      costStatus := cost.costStatus }
  match budgets with
  | none => base
  | some b =>
    let base := { base with
      hardMaxTokens := b.hardMaxTokens
      recommendedMaxTokens := b.recommendedMaxTokens
      interactiveMaxTokens := b.interactiveMaxTokens
      maxInputTokens := b.maxInputTokens
      maxOutputTokens := b.maxOutputTokens }
    let breach (reason : ContextDecisionReason) (budget : ContextBudget) : ContextEvaluation :=
      { base with
        reason, budget := some budget, withinBudget := false, overLimit := true
        breachedBudget := some budget }
    if exceeds cost.outputTokens b.maxOutputTokens then breach .aboveOutputLimit .maxOutput
    else if exceeds (cost.inputTokens + cost.multimodalTokens) b.maxInputTokens then
      breach .aboveInputLimit .maxInput
    else if exceeds cost.totalTokens b.hardMaxTokens then breach .aboveHard .hard
    else if exceeds cost.totalTokens b.recommendedMaxTokens then
      { base with reason := .aboveRecommended, budget := some .recommended }
    else if exceeds cost.totalTokens b.interactiveMaxTokens then
      { base with reason := .withinRecommended, budget := some .recommended }
    else { base with reason := .withinInteractive, budget := some .interactive }

section Collect

def partChunks : Json → List String
  | .obj fields =>
    if isTextPart fields then
      match Json.field? "text" fields with
      | some (.str text) => textChunk (some text)
      | _ => []
    else []
  | _ => []

def partMedia : Json → Nat
  | .obj fields => if isTextPart fields then 0 else 1
  | _ => 0

def messageChunks (m : ChatMessage) : List String :=
  match m.content with
  | .str text => textChunk (some text)
  | .arr parts => parts.flatMap partChunks
  | _ => []

def messageMedia (m : ChatMessage) : Nat :=
  match m.content with
  | .arr parts => (parts.map partMedia).sum
  | _ => 0

/-- What has been collected, with more chunks and media parts. -/
def Collected.plus (c : Collected) (chunks : List String) (media : Nat) : Collected :=
  ⟨c.chunks ++ chunks, c.textParts + chunks.length, c.mediaParts + media⟩

theorem Collected.plus_plus (c : Collected) (chunks chunks' : List String) (media media' : Nat) :
    (c.plus chunks media).plus chunks' media' = c.plus (chunks ++ chunks') (media + media') := by
  simp only [plus, List.append_assoc, List.length_append, Nat.add_assoc]

theorem Collected.plus_nil (c : Collected) : c.plus [] 0 = c := by
  simp only [plus, List.append_nil, List.length_nil, Nat.add_zero]

theorem addText_eq (c : Collected) (text : String) :
    c.addText text = c.plus (textChunk (some text)) 0 := by
  rw [Collected.addText, textChunk]
  split
  · exact c.plus_nil.symm
  · rfl

theorem collectPart_eq (c : Collected) (part : Json) :
    collectPart c part = c.plus (partChunks part) (partMedia part) := by
  cases part with
  | obj fields =>
    rw [collectPart, partChunks, partMedia]
    by_cases htext : isTextPart fields = true
    · rw [if_pos htext, if_pos htext, if_pos htext]
      split
      · exact addText_eq c _
      · exact c.plus_nil.symm
    · rw [if_neg htext, if_neg htext, if_neg htext]
      simp only [Collected.plus, List.append_nil, List.length_nil, Nat.add_zero]
  | _ => exact c.plus_nil.symm

theorem collectParts_eq (c : Collected) (parts : List Json) :
    parts.foldl collectPart c = c.plus (parts.flatMap partChunks) (parts.map partMedia).sum := by
  induction parts generalizing c with
  | nil => exact c.plus_nil.symm
  | cons part parts ih =>
    rw [List.foldl_cons, ih, collectPart_eq, Collected.plus_plus, List.flatMap_cons,
      List.map_cons, List.sum_cons]

theorem collectMessage_eq (c : Collected) (m : ChatMessage) :
    collectMessage c m = c.plus (messageChunks m) (messageMedia m) := by
  rw [collectMessage, messageChunks, messageMedia]
  cases m.content with
  | str text => exact addText_eq c text
  | arr parts => exact collectParts_eq c parts
  | _ => exact c.plus_nil.symm

theorem collectMessages_eq (c : Collected) (messages : List ChatMessage) :
    messages.foldl collectMessage c =
      c.plus (messages.flatMap messageChunks) (messages.map messageMedia).sum := by
  induction messages generalizing c with
  | nil => exact c.plus_nil.symm
  | cons m messages ih =>
    rw [List.foldl_cons, ih, collectMessage_eq, Collected.plus_plus, List.flatMap_cons,
      List.map_cons, List.sum_cons]

theorem messageTextAndMedia_eq (messages : List ChatMessage) :
    messageTextAndMedia messages =
      ("\n".intercalate (messages.flatMap messageChunks), (messages.flatMap messageChunks).length,
        (messages.map messageMedia).sum) := by
  simp only [messageTextAndMedia, collectMessages_eq, Collected.plus, Collected.empty,
    List.nil_append, Nat.zero_add]

end Collect

/-- The length of the chunks, each with the separator after it. -/
def weight (chunks : List String) : Nat := (chunks.map fun c => c.length + 1).sum

theorem weight_append (l l' : List String) : weight (l ++ l') = weight l + weight l' := by
  rw [weight, List.map_append, List.sum_append]
  rfl

theorem length_intercalate_weight (chunks : List String) :
    ("\n".intercalate chunks).length = weight chunks - 1 :=
  Text.length_intercalate "\n" chunks

/-- The fallback tokens of chunks that are joined, rounded up. -/
def fallbackTokens (w : Nat) : Nat := (w + 2) / 4

theorem fallbackTokens_mono (h : w ≤ w') : fallbackTokens w ≤ fallbackTokens w' :=
  Nat.div_le_div_right (Nat.add_le_add_right h 2)

theorem countTokens_intercalate (chunks : List String) :
    countTokens ("\n".intercalate chunks) none =
      (((fallbackTokens (weight chunks) : Nat) : Int), false) := by
  have htokens : (weight chunks - 1 + (charsPerTokenFallback - 1)) / charsPerTokenFallback =
      fallbackTokens (weight chunks) := by
    rw [charsPerTokenFallback, fallbackTokens]
    omega
  simp only [countTokens, Option.bind_none, length_intercalate_weight, htokens]

/-- The weight of the structured part of a prompt. -/
def structuredWeight (chunks : List String) : Nat := weight (chunks.filter (· ≠ ""))

theorem structuredWeight_append (l l' : List String) :
    structuredWeight (l ++ l') = structuredWeight l + structuredWeight l' := by
  rw [structuredWeight, List.filter_append, weight_append]
  rfl

theorem structuredWeight_singleton (s : String) :
    structuredWeight [s] = if s = "" then 0 else s.length + 1 := by
  rw [structuredWeight]
  by_cases hs : s = ""
  · simp [hs, weight]
  · simp [hs, weight]

theorem structuredTokens_eq (r : ChatFields) :
    (if structuredPromptText r = "" then (0, true)
      else countTokens (structuredPromptText r) none).1 =
      ((fallbackTokens (structuredWeight (structuredPromptChunks r)) : Nat) : Int) := by
  split
  · next hempty =>
    have hlength := length_intercalate_weight ((structuredPromptChunks r).filter (· ≠ ""))
    rw [structuredPromptText] at hempty
    rw [hempty, String.length_empty] at hlength
    rw [fallbackTokens, structuredWeight]
    omega
  · rw [structuredPromptText, countTokens_intercalate, structuredWeight]

end Whooshd
