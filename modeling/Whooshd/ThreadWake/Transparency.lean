import Whooshd.ThreadWake.Execution

namespace Whooshd.ThreadWake
set_option autoImplicit true

/-- What a resumption continues from, followed by the tail it is given, is the whole prompt. -/
def Event.TransparentBy (path : Path) (kv : List Prefill) : Event → Prop
  | resumed taken handle tail prompt =>
    taken = path → ∃ h p, handle = some h ∧ kv[h]? = some p ∧ p.tokens ++ tail = prompt.tokenIds
  | _ => True

/-- A sequence of executions. -/
def executions (xs : List (PromptCall × AdapterOutcome)) : List Call :=
  xs.map (fun x => .execute x.1 x.2)

/-- The first call leaves an entry that the second one finds. -/
structure SharesEntry (env : Env) (a b : PromptCall) : Prop where
  stores : a.Reuses env
  storable : a.Storable env
  nonempty : a.stableTokens env ≠ []
  reuses : b.Reuses env
  key : a.cacheKey env = b.cacheKey env
  inScope : (a.stored env 0).Visible env.sha256Hex env.allowGlobal b.context

theorem tokenized_split (hsplit : env.Splits) (c : PromptCall) : (c.tokenized env).Split := by
  simp only [PromptCall.tokenized]
  cases h : env.tokenizePrompt c.backend (c.graph env) c.request with
  | none => rfl
  | some t => exact hsplit _ _ _ _ h

theorem Event.TransparentBy.mono (hkv : kv <+: kv') (h : Event.TransparentBy path kv ev) :
    ev.TransparentBy path kv' := by
  cases ev with
  | resumed taken handle tail prompt =>
    intro ht
    obtain ⟨i, p, hi, hp, htokens⟩ := h ht
    exact ⟨i, p, hi, getElem?_mono hkv hp, htokens⟩
  | _ => trivial

theorem Event.Quiet.transparent {ev : Event} (h : ev.Quiet) : ev.TransparentBy path kv := by
  cases ev <;> trivial

theorem resumptionEvents_transparent {prompt : TokenizedPrompt} {taken : Path}
    (h : taken = path → ∃ i p, handle = some i ∧ kv[i]? = some p ∧
      p.tokens ++ prompt.dynamicTailTokenIds = prompt.tokenIds) (o : Resumption) :
    ∀ ev ∈ Manager.resumptionEvents taken handle ctx prompt o, ev.TransparentBy path kv := by
  intro ev hev
  cases o with
  | cloneRaised =>
    rw [List.mem_singleton.1 hev]
    trivial
  | generateRaised =>
    rcases List.mem_pair.1 hev with rfl | rfl
    · trivial
    · exact h
  | generated out =>
    rcases List.mem_pair.1 hev with rfl | rfl
    · trivial
    · exact h

/-- Every KV state holds the stable prefix of the request it was made for. -/
structure Prefilled (env : Env) (X : PromptCall → Prop) (kv : List Prefill) : Prop where
  source : ∀ p ∈ kv, X p.source ∧ p.source.Reuses env ∧
    p.tokens = p.source.stableTokens env ∧ p.tokens ≠ []

theorem Prefilled.move {v v' : View} (h : Prefilled env X v.kv) (hx : X c)
    (hm : Move env (.execute c outcome) v es v') : Prefilled env X v'.kv := by
  cases hm with
  | fade hf => exact hf.kv ▸ h
  | look => exact h
  | reuse => exact h
  | resume _ _ _ _ hkv => exact hkv ▸ h
  | store hc hne hw =>
    constructor
    intro p hp
    rw [hw.kv] at hp
    rcases List.mem_append.1 hp with hp | hp
    · exact h.source p hp
    · rw [List.mem_singleton.1 hp]
      exact ⟨hx, hc, rfl, hne⟩

/-- In executions alone, every entry is the one its handle was stored with. -/
structure Stamped (env : Env) (v : View) : Prop where
  entry : ∀ {k s}, v.entry k = some s → ∃ h p, s.handle = some h ∧ v.kv[h]? = some p ∧
    p.source.cacheKey env = k ∧ p.source.Storable env ∧ s.scope = p.source.scope env ∧
    s.scopeId = scopeIdFor env.sha256Hex (p.source.scope env) p.source.context

theorem Stamped.of_entries {v v' : View} (h : Stamped env v) (hkv : v'.kv = v.kv)
    (he : ∀ {k s'}, v'.entry k = some s' →
      ∃ s, v.entry k = some s ∧ (s' = s ∨ s' = { s with status := .stale })) :
    Stamped env v' where
  entry := by
    intro k s' hs'
    rw [hkv]
    obtain ⟨s, hs, rfl | rfl⟩ := he hs'
    · exact h.entry hs
    · obtain ⟨i, p, hrest⟩ := h.entry hs
      exact ⟨i, p, hrest⟩

theorem Stamped.stores {v v' : View} (h : Stamped env v) (hw : Stores env c v v') :
    Stamped env v' where
  entry := by
    intro k s' hs'
    obtain hs | ⟨rfl, hst, hsc, hid, hnew⟩ := hw.entry hs'
    · obtain ⟨i, p, hi, hkv, hrest⟩ := h.entry hs
      exact ⟨i, p, hi, getElem?_mono hw.kv_grows hkv, hrest⟩
    · exact ⟨_, _, hnew, hw.kv_new, rfl, hst, hsc, hid⟩

theorem Stamped.move {v v' : View} (h : Stamped env v)
    (hm : Move env (.execute c outcome) v es v') : Stamped env v' := by
  cases hm with
  | fade hf => exact h.of_entries hf.kv hf.entry
  | look => exact h
  | reuse => exact h
  | resume _ _ _ _ hkv hentry =>
    apply h.of_entries hkv
    intro k s hs
    exact ⟨s, hentry ▸ hs, .inl rfl⟩
  | store _ _ hw => exact h.stores hw

/-- An entry that a call finds was stored by a call that shares it. -/
theorem Stamped.shares {v : View} (h : Stamped env v) (hp : Prefilled env X v.kv)
    (hc : c.Reuses env) (hs : v.entry (c.cacheKey env) = some s)
    (hv : s.Visible env.sha256Hex env.allowGlobal c.context) :
    ∃ i p, s.handle = some i ∧ v.kv[i]? = some p ∧ X p.source ∧
      p.tokens = p.source.stableTokens env ∧ SharesEntry env p.source c := by
  obtain ⟨i, p, hi, hkv, hk, hst, hsc, hid⟩ := h.entry hs
  obtain ⟨hx, hr, ht, hne⟩ := hp.source p (List.mem_of_getElem? hkv)
  refine ⟨i, p, hi, hkv, hx, ht, hr, hst, ht ▸ hne, hc, hk, (fun hstale => by cases hstale), ?_⟩
  have hvis := hv.2
  rw [hsc, hid] at hvis
  exact hvis

/-- The calls so far have been transparent, and the state keeps them so. -/
structure Faithful (env : Env) (X : PromptCall → Prop) (es : List Event) (v : View) : Prop where
  prefilled : Prefilled env X v.kv
  stamped : Stamped env v
  transparent : ∀ ev ∈ es, ev.TransparentBy .exactPrefix v.kv

theorem Faithful.events {X : PromptCall → Prop} {v v' : View} (hsplit : env.Splits)
    (hX : ∀ a b, X a → X b → SharesEntry env a b → a.stableTokens env = b.stableTokens env)
    (hx : X c) (h : Faithful env X es v) (hm : Move env (.execute c outcome) v fs v') :
    ∀ ev ∈ fs, ev.TransparentBy .exactPrefix v'.kv := by
  cases hm with
  | fade _ hfs =>
    intro ev hev
    exact (hfs ev hev).transparent
  | look =>
    intro ev hev
    rw [List.mem_singleton.1 hev]
    trivial
  | reuse hc hs hv =>
    apply resumptionEvents_transparent
    intro _
    obtain ⟨i, p, hi, hkv, hxp, htokens, hshares⟩ := h.stamped.shares h.prefilled hc hs hv
    refine ⟨i, p, hi, hkv, ((tokenized_split hsplit c).replace_iff _).2 ?_⟩
    rw [htokens]
    exact hX p.source c hxp hx hshares
  | resume => exact resumptionEvents_transparent (fun hpath => by cases hpath) _
  | store _ _ _ hfs =>
    intro ev hev
    exact (hfs ev hev).transparent

theorem Faithful.move {X : PromptCall → Prop} {v v' : View} (hsplit : env.Splits)
    (hX : ∀ a b, X a → X b → SharesEntry env a b → a.stableTokens env = b.stableTokens env)
    (hx : X c) (h : Faithful env X es v) (hm : Move env (.execute c outcome) v fs v') :
    Faithful env X (es ++ fs) v' where
  prefilled := h.prefilled.move hx hm
  stamped := h.stamped.move hm
  transparent := hm.events (P := fun kv ev => ev.TransparentBy .exactPrefix kv) .mono
    h.transparent (h.events hsplit hX hx hm)

theorem init_faithful (env : Env) (X : PromptCall → Prop) (limits : IndexLimits) :
    Faithful env X [] (Manager.init limits).view where
  prefilled := ⟨fun p hp => by cases hp⟩
  stamped := ⟨fun hs => by cases hs⟩
  transparent := fun ev hev => by cases hev

theorem transparent_of_agreement {X : PromptCall → Prop} (hsplit : env.Splits)
    (hX : ∀ a b, X a → X b → SharesEntry env a b → a.stableTokens env = b.stableTokens env)
    (limits : IndexLimits) (xs : List (PromptCall × AdapterOutcome)) (hxs : ∀ x ∈ xs, X x.1) :
    ∀ ev ∈ ((Manager.init limits).run env (executions xs)).2,
      ev.TransparentBy .exactPrefix ((Manager.init limits).run env (executions xs)).1.kv := by
  have hcalls : ∀ call ∈ executions xs, ∃ c outcome, call = .execute c outcome ∧ X c := by
    intro call hcall
    obtain ⟨x, hx, rfl⟩ := List.mem_map.1 hcall
    exact ⟨x.1, x.2, rfl, hxs x hx⟩
  have hrun := Machine.exec_history (P := fun es m => Faithful env X es m.view)
    (fun {es m call m' out} h hc hs => by
      obtain ⟨c, outcome, rfl, hx⟩ := hc
      have hstep := Moves.history (fun h hm => h.move hsplit hX hx hm)
        (Manager.step_moves m (.execute c outcome)) h
      rwa [Option.some.inj hs] at hstep)
    (init_faithful env X limits) (Machine.eachStep_of_mem hcalls _) (exec_eq_run env _ _)
  exact hrun.transparent

/-- The second of two calls that share an entry resumes from what the first one prefilled. -/
theorem SharesEntry.resumed {a b : PromptCall} (h : SharesEntry env a b) :
    ((Manager.init .one).run env (executions [(a, .exact), (b, .exact)])).1.kv =
      [⟨a.stableTokens env, a⟩] ∧
    Event.resumed .exactPrefix (some 0) (b.tokenized env).dynamicTailTokenIds (b.tokenized env) ∈
      ((Manager.init .one).run env (executions [(a, .exact), (b, .exact)])).2 := by
  obtain ⟨hkv₁, hseal, -⟩ := Manager.executeEphemeral_first .exact (Manager.init_blank .one)
    h.stores h.storable h.nonempty rfl rfl
  have hs := hseal (by decide) (by decide)
  rw [h.key] at hs
  obtain ⟨hkv₂, -, hevents⟩ := Manager.executeEphemeral_hit .exact h.reuses rfl hs rfl h.inScope
  simp only [executions, List.map_cons, List.map_nil, Manager.run, Manager.step, List.append_nil]
  constructor
  · rw [hkv₂, hkv₁]
  · apply List.mem_append_right
    apply hevents
    exact List.mem_pair.2 (.inr rfl)

theorem agreement_of_transparent (hsplit : env.Splits) {a b : PromptCall}
    (hshares : SharesEntry env a b)
    (htransparent : ∀ ev ∈ ((Manager.init .one).run env
      (executions [(a, .exact), (b, .exact)])).2, ev.TransparentBy .exactPrefix
        ((Manager.init .one).run env (executions [(a, .exact), (b, .exact)])).1.kv) :
    a.stableTokens env = b.stableTokens env := by
  obtain ⟨hkv, hresumed⟩ := hshares.resumed
  obtain ⟨i, p, hi, hp, htokens⟩ := htransparent _ hresumed rfl
  cases hi
  rw [hkv] at hp
  cases hp
  exact ((tokenized_split hsplit b).replace_iff _).1 htokens

/-- A request for one user, whose stable prefix is one system message. -/
def systemChat (text : String) : PromptCall where
  request :=
    { model := some "qwen"
      messages := [textMessage "system" text, textMessage "user" "hi"]
      tools := none
      toolChoice := none
      threadwake := some (ephemeralIn .user)
      threadwakeSegments := none
      threadId := none
      userId := some "alice"
      projectId := none }
  backend := "mlx"
  options := .default

theorem systemChat_graph (h : canonicalizeContent (messagePayload (textMessage "system" text)) =
      canonicalizeContent (messagePayload (textMessage "system" text'))) :
    (systemChat text).graph charEnv = (systemChat text').graph charEnv := by
  apply compilePromptGraph_of_segments rfl rfl
  have hsegment : messageSegment id .user (some 1) 0 (textMessage "system" text) =
      messageSegment id .user (some 1) 0 (textMessage "system" text') := by
    simp only [messageSegment, h]
    rfl
  exact congrArg (· :: _) hsegment

theorem systemChat_shares (hr : (systemChat text).Reuses charEnv)
    (hr' : (systemChat text').Reuses charEnv) (hne : (systemChat text).stableTokens charEnv ≠ [])
    (hgraph : (systemChat text).graph charEnv = (systemChat text').graph charEnv) :
    SharesEntry charEnv (systemChat text) (systemChat text') where
  stores := hr
  storable := fun h => by cases h
  nonempty := hne
  reuses := hr'
  key := by
    simp only [PromptCall.cacheKey]
    rw [hgraph]
    rfl
  inScope := ⟨(fun h => by cases h), rfl⟩

/-- Exact-prefix reuse is transparent in every sequence of executions of some requests exactly
if the requests that share an entry agree on the tokens of their stable prefix. -/
theorem exact_prefix_transparent_iff {env : Env} (hsplit : env.Splits) (X : PromptCall → Prop) :
    (∀ (limits : IndexLimits) (xs : List (PromptCall × AdapterOutcome)), (∀ x ∈ xs, X x.1) →
      ∀ ev ∈ ((Manager.init limits).run env (executions xs)).2,
        ev.TransparentBy .exactPrefix ((Manager.init limits).run env (executions xs)).1.kv) ↔
    ∀ a b, X a → X b → SharesEntry env a b → a.stableTokens env = b.stableTokens env := by
  constructor
  · intro h a b ha hb hshares
    apply agreement_of_transparent hsplit hshares
    apply h .one
    intro x hx
    rcases List.mem_pair.1 hx with rfl | rfl
    · exact ha
    · exact hb
  · intro hX limits xs hxs
    exact transparent_of_agreement hsplit hX limits xs hxs

theorem exact_prefix_transparent_same_request :
    (∃ tail prompt, Event.resumed .exactPrefix (some 0) tail prompt ∈ ((Manager.init .one).run
      charEnv (executions [(systemChat "be brief", .exact), (systemChat "be brief", .exact)])).2) ∧
    ∀ ev ∈ ((Manager.init .one).run charEnv
      (executions [(systemChat "be brief", .exact), (systemChat "be brief", .exact)])).2,
      ev.TransparentBy .exactPrefix ((Manager.init .one).run charEnv
        (executions [(systemChat "be brief", .exact), (systemChat "be brief", .exact)])).1.kv := by
  constructor
  · have hr : (systemChat "be brief").Reuses charEnv := ⟨by decide +kernel, by decide +kernel⟩
    have hshares := systemChat_shares hr hr (by decide +kernel) rfl
    exact ⟨_, _, hshares.resumed.2⟩
  · apply (exact_prefix_transparent_iff charEnv_splits (· = systemChat "be brief")).2
    · intro a b ha hb _
      rw [ha, hb]
    · simp

/-- A prompt with one kind of line ending is resumed from a state prefilled with the other. -/
theorem line_ending_reused : ¬∀ (env : Env), env.Splits → Function.Injective env.sha256Hex →
    ∀ (limits : IndexLimits) (xs : List (PromptCall × AdapterOutcome)),
      ∀ ev ∈ ((Manager.init limits).run env (executions xs)).2,
        ev.TransparentBy .exactPrefix ((Manager.init limits).run env (executions xs)).1.kv := by
  intro hall
  have hshares : SharesEntry charEnv (systemChat "a\r\nb") (systemChat "a\nb") := by
    apply systemChat_shares
    · exact ⟨by decide +kernel, by decide +kernel⟩
    · exact ⟨by decide +kernel, by decide +kernel⟩
    · decide +kernel
    · apply systemChat_graph
      decide +kernel
  have hsame := agreement_of_transparent charEnv_splits hshares
    (hall charEnv charEnv_splits Function.injective_id .one _)
  revert hsame
  decide +kernel

end Whooshd.ThreadWake
