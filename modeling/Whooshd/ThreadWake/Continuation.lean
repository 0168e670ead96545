import Whooshd.ThreadWake.Transparency

namespace Whooshd.ThreadWake
set_option autoImplicit true

theorem run_kv_grows (env : Env) (m : Manager) (calls : List Call) :
    m.kv <+: (m.run env calls).1.kv := by
  induction calls generalizing m with
  | nil => exact List.prefix_rfl
  | cons call calls ih => exact (Manager.step_moves m call).kv_grows.trans (ih _)

/-- The first call leaves a thread tip that the second one finds. -/
structure SharesTip (env : Env) (a b : PromptCall) : Prop where
  stores : a.Reuses env
  storable : a.Storable env
  nonempty : a.stableTokens env ≠ []
  reuses : b.Reuses env
  tip : ∃ k, a.tip env = some k ∧ b.tip env = some k

/-- The later request begins with all segments of the earlier one. -/
def Appends (env : Env) (a b : PromptCall) : Prop := a.hashes env <+: b.hashes env

instance (env : Env) : Trans (Appends env) (Appends env) (Appends env) where
  trans h h' := List.IsPrefix.trans h h'

/-- The turns of one thread, each a monotonic append of the one before it. -/
structure Conversation (env : Env) (thread : String) (turns : List PromptCall) : Prop where
  thread : ∀ c ∈ turns, c.request.threadId = some thread
  appends : turns.IsChain (Appends env)

/-- Every thread tip leads to the KV state of an earlier turn of its thread. -/
structure Tracked (env : Env) (past : List PromptCall) (es : List Event) (v : View) : Prop where
  prefilled : Prefilled env (· ∈ past) v.kv
  tip : ∀ {k hs handle}, v.tip k = some (hs, handle) → ∃ i p, handle = some i ∧
    v.kv[i]? = some p ∧ p.source.Storable env ∧ p.source.tip env = some k
  transparent : ∀ ev ∈ es, ev.TransparentBy .session v.kv

theorem Tracked.tip_move {v v' : View} (h : Tracked env past es v)
    (hm : Move env (.execute c outcome) v fs v') (ht : v'.tip k = some (hs, handle)) :
    ∃ i p, handle = some i ∧ v'.kv[i]? = some p ∧ p.source.Storable env ∧
      p.source.tip env = some k := by
  have hold : ∀ {hs'}, v.tip k = some (hs', handle) → ∃ i p, handle = some i ∧
      v'.kv[i]? = some p ∧ p.source.Storable env ∧ p.source.tip env = some k := by
    intro hs' ht
    obtain ⟨i, p, hi, hp, hrest⟩ := h.tip ht
    exact ⟨i, p, hi, getElem?_mono hm.kv_grows hp, hrest⟩
  cases hm with
  | fade hf => exact hold (hf.tip ht)
  | look => exact hold ht
  | reuse => exact hold ht
  | resume _ _ ht' _ _ _ htip =>
    obtain ht | ⟨rfl, heq⟩ := htip ht
    · exact hold ht
    · cases heq
      exact hold ht'
  | store _ _ hw =>
    obtain ht | ⟨hk, hst, heq⟩ := hw.tip ht
    · exact hold ht
    · cases heq
      exact ⟨_, _, rfl, hw.kv_new, hst, hk⟩

theorem Tracked.events {v v' : View} (hsplit : env.Splits)
    (hR : ∀ a ∈ past, SharesTip env a c → a.stableTokens env = c.stableTokens env)
    (h : Tracked env past es v) (hm : Move env (.execute c outcome) v fs v') :
    ∀ ev ∈ fs, ev.TransparentBy .session v'.kv := by
  cases hm with
  | fade _ hfs =>
    intro ev hev
    exact (hfs ev hev).transparent
  | look =>
    intro ev hev
    rw [List.mem_singleton.1 hev]
    trivial
  | reuse => exact resumptionEvents_transparent (fun hpath => by cases hpath) _
  | resume hc hk ht _ hkv =>
    apply resumptionEvents_transparent
    intro _
    obtain ⟨i, p, hi, hp, hst, hpk⟩ := h.tip ht
    obtain ⟨hpast, hr, htokens, hne⟩ := h.prefilled.source p (List.mem_of_getElem? hp)
    refine ⟨i, p, hi, hkv ▸ hp, ((tokenized_split hsplit c).replace_iff _).2 ?_⟩
    rw [htokens]
    exact hR p.source hpast ⟨hr, hst, htokens ▸ hne, hc, _, hpk, hk⟩
  | store _ _ _ hfs =>
    intro ev hev
    exact (hfs ev hev).transparent

theorem Tracked.move {v v' : View} (hsplit : env.Splits)
    (hR : ∀ a ∈ past, SharesTip env a c → a.stableTokens env = c.stableTokens env)
    (hx : c ∈ past) (h : Tracked env past es v) (hm : Move env (.execute c outcome) v fs v') :
    Tracked env past (es ++ fs) v' where
  prefilled := h.prefilled.move hx hm
  tip := h.tip_move hm
  transparent := hm.events (P := fun kv ev => ev.TransparentBy .session kv) .mono
    h.transparent (h.events hsplit hR hm)

theorem Tracked.mono (h : Tracked env past es v) (c : PromptCall) :
    Tracked env (past ++ [c]) es v where
  prefilled := by
    constructor
    intro p hp
    obtain ⟨hpast, hrest⟩ := h.prefilled.source p hp
    exact ⟨List.mem_append_left _ hpast, hrest⟩
  tip := h.tip
  transparent := h.transparent

/-- Turns that share a thread tip agree on the tokens of their stable prefix. -/
def TurnsAgree (env : Env) (a b : PromptCall) : Prop :=
  SharesTip env a b → a.stableTokens env = b.stableTokens env

theorem Tracked.run (hsplit : env.Splits) {xs : List (PromptCall × AdapterOutcome)} {m : Manager}
    (h : Tracked env past es m.view)
    (hagree : (past ++ xs.map Prod.fst).Pairwise (TurnsAgree env)) :
    Tracked env (past ++ xs.map Prod.fst) (es ++ (m.run env (executions xs)).2)
      (m.run env (executions xs)).1.view := by
  induction xs generalizing past es m with
  | nil => simpa [executions, Manager.run] using h
  | cons x xs ih =>
    obtain ⟨c, outcome⟩ := x
    have hassoc : past ++ ((c, outcome) :: xs).map Prod.fst = (past ++ [c]) ++ xs.map Prod.fst := by
      simp
    rw [hassoc] at hagree ⊢
    have hR : ∀ a ∈ past ++ [c], SharesTip env a c → a.stableTokens env = c.stableTokens env := by
      intro a ha hshares
      rcases List.mem_append.1 ha with ha | ha
      · have hpast := (List.pairwise_append.1 hagree).1
        exact (List.pairwise_append.1 hpast).2.2 a ha c (by simp) hshares
      · rw [List.mem_singleton.1 ha]
    have hstep := Moves.history (fun h hm => h.move hsplit hR (by simp) hm)
      (Manager.step_moves m (.execute c outcome)) (h.mono c)
    have hrest := ih hstep hagree
    rw [List.append_assoc es] at hrest
    exact hrest

theorem init_tracked (env : Env) (limits : IndexLimits) :
    Tracked env [] [] (Manager.init limits).view where
  prefilled := ⟨fun p hp => by cases hp⟩
  tip := fun ht => by cases ht
  transparent := fun ev hev => by cases hev

/-- A tip that stands for the first KV state, which every later turn appends to. -/
structure TipHeld (k : String) (p : Prefill) (later : List PromptCall) (env : Env) (m : Manager) :
    Prop where
  kv : m.kv[0]? = some p
  tip : ∃ hs, m.view.tip k = some (hs, some 0) ∧ ∀ c ∈ later, hs <+: c.hashes env

theorem TipHeld.step {m : Manager} (h : TipHeld k p (c :: later) env m)
    (happ : ∀ d ∈ later, Appends env c d) :
    TipHeld k p later env (m.executeEphemeral env c .succeeding).1 := by
  obtain ⟨hs, htip, hext⟩ := h.tip
  constructor
  · exact getElem?_mono (Manager.executeEphemeral_moves m c .succeeding).kv_grows h.kv
  · by_cases hc : c.Reuses env ∧ c.tip env = some k
    · obtain ⟨htip', -⟩ := Manager.executeEphemeral_continue hc.1 hc.2 htip
        (hext c (List.mem_cons_self ..)) (rfl : AdapterOutcome.succeeding.continuation = _)
      exact ⟨c.hashes env, htip', happ⟩
    · refine ⟨hs, ?_, fun d hd => hext d (List.mem_cons_of_mem _ hd)⟩
      rw [Manager.executeEphemeral_tip (fun hr hk => hc ⟨hr, hk⟩)]
      exact htip

/-- While the tip is held, every turn that finds it resumes from the first KV state. -/
theorem TipHeld.resumed {m : Manager} (h : TipHeld k p later env m)
    (happ : later.Pairwise (Appends env)) (hb : b ∈ later) (hr : b.Reuses env)
    (hk : b.tip env = some k) :
    Event.resumed .session (some 0) (b.tokenized env).dynamicTailTokenIds (b.tokenized env) ∈
      (m.run env (executions (later.map (·, .succeeding)))).2 := by
  induction later generalizing m with
  | nil => cases hb
  | cons c later ih =>
    obtain ⟨happ₁, happ₂⟩ := List.pairwise_cons.1 happ
    rcases List.mem_cons.1 hb with rfl | hb
    · obtain ⟨hs, htip, hext⟩ := h.tip
      obtain ⟨-, hev⟩ := Manager.executeEphemeral_continue hr hk htip
        (hext b (List.mem_cons_self ..)) (rfl : AdapterOutcome.succeeding.continuation = _)
      exact List.mem_append_left _ hev
    · exact List.mem_append_right _ (ih (h.step happ₁) happ₂ hb)

theorem run_append (env : Env) (m : Manager) (calls calls' : List Call) :
    m.run env (calls ++ calls') =
      (((m.run env calls).1.run env calls').1,
        (m.run env calls).2 ++ ((m.run env calls).1.run env calls').2) := by
  induction calls generalizing m with
  | nil => rfl
  | cons call calls ih => simp only [List.cons_append, Manager.run, ih, List.append_assoc]

/-- Turns whose prefills fail leave nothing behind. -/
theorem run_failing_blank {m : Manager} (hb : m.Blank) (turns : List PromptCall) :
    (m.run env (executions (turns.map (·, .failing)))).1.Blank := by
  induction turns generalizing m with
  | nil => exact hb
  | cons c turns ih => exact ih (Manager.executeEphemeral_failing hb)

/-- The adapter behaviour under which one turn is the first to be prefilled and all later
turns resume. -/
def firstPrefilled (before : List PromptCall) (a : PromptCall) (after : List PromptCall) :
    List (PromptCall × AdapterOutcome) :=
  before.map (·, .failing) ++ (a, .succeeding) :: after.map (·, .succeeding)

theorem firstPrefilled_turns (before : List PromptCall) (a : PromptCall)
    (after : List PromptCall) :
    (firstPrefilled before a after).map Prod.fst = before ++ a :: after := by
  simp [firstPrefilled, Function.comp_def]

/-- The state in which the first turn to be prefilled starts. -/
def beforeFirst (env : Env) (limits : IndexLimits) (before : List PromptCall) : Manager :=
  ((Manager.init limits).run env (executions (before.map (·, .failing)))).1

theorem run_firstPrefilled (env : Env) (limits : IndexLimits) (before after : List PromptCall)
    (a : PromptCall) :
    let m := ((beforeFirst env limits before).executeEphemeral env a .succeeding).1
    let r := (Manager.init limits).run env (executions (firstPrefilled before a after))
    r.1 = (m.run env (executions (after.map (·, .succeeding)))).1 ∧
      ∀ ev ∈ (m.run env (executions (after.map (·, .succeeding)))).2, ev ∈ r.2 := by
  intro m r
  have hcalls : executions (firstPrefilled before a after) =
      executions (before.map (·, .failing)) ++
        .execute a .succeeding :: executions (after.map (·, .succeeding)) := by
    simp [executions, firstPrefilled]
  have hr : r = _ := (congrArg ((Manager.init limits).run env) hcalls).trans (run_append ..)
  rw [hr]
  refine ⟨rfl, fun ev hev => ?_⟩
  exact List.mem_append_right _ (List.mem_append_right _ hev)

/-- A later turn that shares the tip of the first turn to be prefilled resumes from it. -/
theorem SharesTip.resumed (before : List PromptCall) {after : List PromptCall}
    (h : SharesTip env a b) (happ : (a :: after).Pairwise (Appends env)) (hb : b ∈ after)
    (limits : IndexLimits) :
    ((Manager.init limits).run env (executions (firstPrefilled before a after))).1.kv[0]? =
      some ⟨a.stableTokens env, a⟩ ∧
    Event.resumed .session (some 0) (b.tokenized env).dynamicTailTokenIds (b.tokenized env) ∈
      ((Manager.init limits).run env (executions (firstPrefilled before a after))).2 := by
  obtain ⟨k, hka, hkb⟩ := h.tip
  obtain ⟨happ₁, happ₂⟩ := List.pairwise_cons.1 happ
  have hblank : (beforeFirst env limits before).Blank :=
    run_failing_blank (Manager.init_blank limits) before
  obtain ⟨hkv, -, htip⟩ := Manager.executeEphemeral_first .succeeding hblank h.stores
    h.storable h.nonempty rfl rfl
  have hheld : TipHeld k ⟨a.stableTokens env, a⟩ after env
      ((beforeFirst env limits before).executeEphemeral env a .succeeding).1 :=
    ⟨by rw [hkv]; rfl, a.hashes env, htip k hka, happ₁⟩
  obtain ⟨hlast, hevents⟩ := run_firstPrefilled env limits before after a
  constructor
  · rw [hlast]
    exact getElem?_mono (run_kv_grows env _ _) hheld.kv
  · exact hevents _ (hheld.resumed happ₂ hb h.reuses hkb)

theorem agreement_of_continuation (hsplit : env.Splits) (before : List PromptCall)
    {after : List PromptCall} (happ : (a :: after).Pairwise (Appends env)) (hb : b ∈ after)
    (hshares : SharesTip env a b) (limits : IndexLimits)
    (htransparent : ∀ ev ∈ ((Manager.init limits).run env
      (executions (firstPrefilled before a after))).2, ev.TransparentBy .session
        ((Manager.init limits).run env (executions (firstPrefilled before a after))).1.kv) :
    a.stableTokens env = b.stableTokens env := by
  obtain ⟨hkv, hresumed⟩ := hshares.resumed before happ hb limits
  obtain ⟨i, p, hi, hp, htokens⟩ := htransparent _ hresumed rfl
  cases hi
  rw [hkv] at hp
  cases hp
  exact ((tokenized_split hsplit b).replace_iff _).1 htokens

/-- A turn of one thread that begins with a system message and a question. -/
def threadTurn (messages : List ChatMessage) : PromptCall where
  request :=
    { model := some "qwen"
      messages := textMessage "system" "be brief" :: textMessage "user" "hi" :: messages
      tools := none
      toolChoice := none
      threadwake := some (ephemeralIn .thread)
      threadwakeSegments := none
      threadId := some "t"
      userId := none
      projectId := none }
  backend := "mlx"
  options := .default

/-- The question is still the latest one, so the stable prefix has not grown. -/
def toolTurn : PromptCall :=
  threadTurn [textMessage "assistant" "let me see", textMessage "tool" "42"]

/-- The next question makes the first one and its answer part of the stable prefix. -/
def nextTurn : PromptCall :=
  threadTurn [textMessage "assistant" "hello", textMessage "user" "bye"]

theorem threadTurn_shares (hr : (threadTurn messages).Reuses charEnv)
    (htip : (threadTurn messages).tip charEnv = some "t:qwen:mlx") :
    SharesTip charEnv (threadTurn []) (threadTurn messages) where
  stores := ⟨by decide +kernel, by decide +kernel⟩
  storable := fun h => by cases h
  nonempty := by decide +kernel
  reuses := hr
  tip := ⟨"t:qwen:mlx", by decide +kernel, htip⟩

theorem threadTurn_conversation (happ : Appends charEnv (threadTurn []) (threadTurn messages)) :
    Conversation charEnv "t" [threadTurn [], threadTurn messages] where
  thread := by
    intro c hc
    rcases List.mem_pair.1 hc with rfl | rfl <;> rfl
  appends := List.IsChain.cons_cons happ (.singleton _)

theorem toolTurn_appends : Appends charEnv (threadTurn []) toolTurn := by
  simp only [Appends]
  decide +kernel

theorem nextTurn_appends : Appends charEnv (threadTurn []) nextTurn := by
  simp only [Appends]
  decide +kernel

/-- Session continuation is transparent at every turn of a conversation, however the adapter
behaves, exactly if every turn agrees with the earlier ones that share its tip on the tokens
of the stable prefix. -/
theorem continuation_transparent_iff {env : Env} (hsplit : env.Splits) {thread : String}
    {turns : List PromptCall} (hconv : Conversation env thread turns) :
    (∀ (limits : IndexLimits) (xs : List (PromptCall × AdapterOutcome)),
      xs.map Prod.fst = turns → ∀ ev ∈ ((Manager.init limits).run env (executions xs)).2,
        ev.TransparentBy .session ((Manager.init limits).run env (executions xs)).1.kv) ↔
    turns.Pairwise (TurnsAgree env) := by
  constructor
  · intro h
    have hsuffix : ∀ before rest, before ++ rest = turns → rest.Pairwise (TurnsAgree env) := by
      intro before rest
      induction rest generalizing before with
      | nil =>
        intro _
        exact List.Pairwise.nil
      | cons a after ih =>
        intro hturns
        apply List.Pairwise.cons
        · intro b hb hshares
          have hpair : turns.Pairwise (Appends env) := hconv.appends.pairwise
          rw [← hturns] at hpair
          have hafter := (List.pairwise_append.1 hpair).2.1
          apply agreement_of_continuation hsplit before hafter hb hshares .one
          apply h .one (firstPrefilled before a after)
          rw [firstPrefilled_turns, hturns]
        · apply ih (before ++ [a])
          rw [List.append_assoc]
          exact hturns
    exact hsuffix [] turns rfl
  · intro hagree limits xs hxs
    subst hxs
    exact ((init_tracked env limits).run hsplit hagree).transparent

theorem continuation_transparent_tool_turn :
    (∃ tail prompt, Event.resumed .session (some 0) tail prompt ∈ ((Manager.init .one).run charEnv
      (executions (firstPrefilled [] (threadTurn []) [toolTurn]))).2) ∧
    ∀ (limits : IndexLimits) (xs : List (PromptCall × AdapterOutcome)),
      xs.map Prod.fst = [threadTurn [], toolTurn] →
      ∀ ev ∈ ((Manager.init limits).run charEnv (executions xs)).2,
        ev.TransparentBy .session ((Manager.init limits).run charEnv (executions xs)).1.kv := by
  constructor
  · have hr : toolTurn.Reuses charEnv := ⟨by decide +kernel, by decide +kernel⟩
    have hshares := threadTurn_shares hr (by decide +kernel)
    exact ⟨_, _, (hshares.resumed [] (List.pairwise_pair.2 toolTurn_appends)
      (List.mem_singleton.2 rfl) .one).2⟩
  · apply (continuation_transparent_iff charEnv_splits
      (threadTurn_conversation toolTurn_appends)).2
    apply List.pairwise_pair.2
    intro _
    decide +kernel

/-- The second question is answered without the first one and its answer. -/
theorem continuation_skips_turn : ¬∀ (env : Env), env.Splits → Function.Injective env.sha256Hex →
    ∀ (thread : String) (turns : List PromptCall), Conversation env thread turns →
      ∀ (limits : IndexLimits) (xs : List (PromptCall × AdapterOutcome)),
        xs.map Prod.fst = turns → ∀ ev ∈ ((Manager.init limits).run env (executions xs)).2,
          ev.TransparentBy .session
            ((Manager.init limits).run env (executions xs)).1.kv := by
  intro hall
  have hr : nextTurn.Reuses charEnv := ⟨by decide +kernel, by decide +kernel⟩
  have hshares := threadTurn_shares hr (by decide +kernel)
  have hconv := threadTurn_conversation nextTurn_appends
  have hsame := agreement_of_continuation charEnv_splits []
    (List.pairwise_pair.2 nextTurn_appends) (List.mem_singleton.2 rfl) hshares .one
    (hall charEnv charEnv_splits Function.injective_id "t" _ hconv .one
      (firstPrefilled [] (threadTurn []) [nextTurn]) (firstPrefilled_turns ..))
  revert hsame
  decide +kernel

end Whooshd.ThreadWake
