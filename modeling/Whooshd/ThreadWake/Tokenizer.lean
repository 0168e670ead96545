import Whooshd.ThreadWake.Policy

namespace Whooshd.ThreadWake
set_option autoImplicit true

abbrev TokenId := Int

structure TokenizedPrompt where
  tokenIds : List TokenId
  stablePrefixTokenIds : List TokenId
  dynamicTailTokenIds : List TokenId
  realTokenization : Bool
  unavailableReason : Option String
  deriving DecidableEq, Repr

namespace TokenizedPrompt

def stablePrefixTokenCount (t : TokenizedPrompt) : Nat := t.stablePrefixTokenIds.length

def dynamicTailTokenCount (t : TokenizedPrompt) : Nat := t.dynamicTailTokenIds.length

def unavailable (reason : String) : TokenizedPrompt := ⟨[], [], [], false, some reason⟩

/-- The prompt is its stable prefix followed by its dynamic tail. -/
def Split (t : TokenizedPrompt) : Prop :=
  t.tokenIds = t.stablePrefixTokenIds ++ t.dynamicTailTokenIds

theorem Split.replace_iff {t : TokenizedPrompt} (h : t.Split) (l : List TokenId) :
    l ++ t.dynamicTailTokenIds = t.tokenIds ↔ l = t.stablePrefixTokenIds := by
  rw [h, List.append_left_inj]

end TokenizedPrompt

/-- What the MLX adapter needs of the tokenizer object it wraps. A template or an encoder
that raises gives nothing; `str` is the text of a message content. -/
structure MlxTokenizer where
  applyChatTemplate : Option (List (String × String) → Option String)
  encode : String → Option (List TokenId)
  str : Json → String

/-- The role and the text of every message. -/
def extractChatMessages (tok : MlxTokenizer) (messages : List ChatMessage) :
    List (String × String) :=
  messages.map (fun m => (m.role, tok.str m.content))

def transcriptLine : String × String → String
  | (role, content) =>
    if role = "system" then "System: " ++ content
    else if role = "assistant" then "Assistant: " ++ content
    else "User: " ++ content

def renderMlxChatPrompt (tok : MlxTokenizer) (messages : List (String × String)) :
    Option String :=
  match tok.applyChatTemplate with
  | some template => template messages
  | none => some (String.intercalate "\n" (messages.map transcriptLine ++ ["Assistant: "]))

/-- The messages whose index is that of a segment of the stable prefix. -/
def stableMessages (segments : List PromptSegment) (messages : List α) : List α :=
  ((segments.zip messages).filter (fun p => p.1.inStablePrefix)).map Prod.snd

/-- The split that is accepted: a true prefix of the whole prompt, or none at all. -/
def splitTokens (all stable : List TokenId) : TokenizedPrompt :=
  if all.take stable.length = stable then
    ⟨all, stable, all.drop stable.length, true, none⟩
  else ⟨all, [], all, true, none⟩

theorem splitTokens_split (all stable : List TokenId) : (splitTokens all stable).Split := by
  simp only [splitTokens, TokenizedPrompt.Split]
  split
  · next h =>
    have ht := List.take_append_drop stable.length all
    rw [h] at ht
    exact ht.symm
  · rfl

@[simp] theorem splitTokens_tokenIds (all stable : List TokenId) :
    (splitTokens all stable).tokenIds = all := by
  unfold splitTokens
  split <;> rfl

/-- `MLXInProcessTokenizerAdapter.tokenize_prompt`. -/
def mlxTokenizePrompt (tok : Option MlxTokenizer) (graph : PromptGraph) (request : ChatRequest) :
    TokenizedPrompt :=
  match tok with
  | none => .unavailable "mlx_tokenizer_not_available"
  | some tok =>
    let messages := extractChatMessages tok request.messages
    if messages.isEmpty then .unavailable "no_messages_to_tokenize"
    else
      match renderMlxChatPrompt tok messages with
      | none => .unavailable "mlx_tokenizer_error"
      | some prompt =>
        match tok.encode prompt with
        | none => .unavailable "tokenization_failed"
        | some all =>
          let stable := stableMessages graph.segments messages
          if stable.isEmpty ∨ messages.length ≤ stable.length then ⟨all, [], all, true, none⟩
          else
            match renderMlxChatPrompt tok stable with
            | none => .unavailable "mlx_tokenizer_error"
            | some stablePrompt =>
              match tok.encode stablePrompt with
              | none => ⟨all, [], all, true, none⟩
              | some ids => splitTokens all ids

theorem mlxTokenizePrompt_split (tok : Option MlxTokenizer) (graph : PromptGraph)
    (request : ChatRequest) : (mlxTokenizePrompt tok graph request).Split := by
  unfold mlxTokenizePrompt
  split
  · rfl
  · dsimp only
    split
    · rfl
    · split
      · rfl
      · split
        · rfl
        · split
          · rfl
          · split
            · rfl
            · split
              · rfl
              · exact splitTokens_split _ _

theorem mlxTokenizePrompt_real {tok : Option MlxTokenizer} {graph : PromptGraph}
    {request : ChatRequest}
    (hreal : (mlxTokenizePrompt tok graph request).realTokenization = true) :
    ∃ t prompt, tok = some t ∧
      renderMlxChatPrompt t (extractChatMessages t request.messages) = some prompt ∧
      t.encode prompt = some (mlxTokenizePrompt tok graph request).tokenIds := by
  cases tok with
  | none => cases hreal
  | some t =>
    simp only [mlxTokenizePrompt] at hreal ⊢
    split at hreal
    · cases hreal
    · next hmessages =>
      split at hreal
      · cases hreal
      · next prompt hprompt =>
        split at hreal
        · cases hreal
        · next all hall =>
          refine ⟨t, prompt, rfl, hprompt, ?_⟩
          rw [if_neg hmessages, hall]
          split
          · rfl
          · next hstable =>
            rw [if_neg hstable] at hreal
            split at hreal
            · cases hreal
            · split
              · rfl
              · rw [splitTokens_tokenIds]

end Whooshd.ThreadWake
