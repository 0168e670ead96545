import Whooshd.ThreadWake.Execution

namespace Whooshd.ThreadWake
set_option autoImplicit true

/-- The scopes that stand for an identity. -/
def ThreadWakeScope.Personal (scope : ThreadWakeScope) : Prop :=
  scope = .thread ∨ scope = .project ∨ scope = .user

/-- The identity a call has for its scope. -/
def PromptCall.identity (env : Env) (c : PromptCall) : Option String :=
  c.context.identity (c.scope env)

/-- The caller has the identity under which the KV state was prefilled. -/
def Prefill.Grants (env : Env) (p : Prefill) (ctx : ScopeContext) : Prop :=
  ∃ who, present (ctx.identity (p.source.scope env)) = some who ∧ p.source.identity env = some who

/-- A handle that a lookup returns, or that is cloned for an exact prefix, was stored by a
request with the identity of the one that gets it. -/
def Event.Isolated (env : Env) (kv : List Prefill) : Event → Prop
  | looked ctx (some e) =>
    ∀ h, e.kvHandleId = some h → ∃ p, kv[h]? = some p ∧ p.Grants env ctx
  | cloned .exactPrefix handle ctx =>
    ∀ h, handle = some h → ∃ p, kv[h]? = some p ∧ p.Grants env ctx
  | _ => True

def Call.Personal (env : Env) : Call → Prop
  | observe request _ _ => (requestConfig env request).scope.Personal
  | execute c _ => (c.scope env).Personal
  | _ => True

/-- An observation that is recorded under an identity finds no handle of another one: its
entry has no handle, or is stale, or was stored under the same identity. -/
def View.Respects (env : Env) (v : View) : Call → Prop
  | .observe request (some backend) options =>
    let c : PromptCall := ⟨request, backend, options⟩
    c.eligible env = true → ∀ s h p who, v.entry (c.cacheKey env) = some s → s.status ≠ .stale →
      s.handle = some h → v.kv[h]? = some p → present (c.identity env) = some who →
      p.source.identity env = some who
  | _ => True

/-- Every handle in the index is kept from all but the identity it was stored under. -/
structure Guarded (env : Env) (v : View) : Prop where
  entry : ∀ {k s h}, v.entry k = some s → s.handle = some h → ∃ p, v.kv[h]? = some p ∧
    p.source.cacheKey env = k ∧ s.scope = p.source.scope env ∧
    ∀ ctx, s.Visible env.sha256Hex env.allowGlobal ctx → p.Grants env ctx

theorem present_eq_some {i : Option String} : present i = some who ↔ i = some who ∧ who ≠ "" := by
  simp [present, Option.filter_eq_some_iff]

theorem visible_identity {env : Env} {s : Seal} (hsha : Function.Injective env.sha256Hex)
    (hp : s.scope.Personal) (hid : s.scopeId = scopeIdFor env.sha256Hex s.scope ctx₀)
    (hv : s.Visible env.sha256Hex env.allowGlobal ctx) :
    ∃ who, present (ctx.identity s.scope) = some who ∧
      present (ctx₀.identity s.scope) = some who := by
  have hmatch : idsMatch ((present (ctx.identity s.scope)).map env.sha256Hex)
      ((ctx₀.identity s.scope).map env.sha256Hex) = true := by
    have h := hv.2
    rw [hid] at h
    obtain hs | hs | hs := hp <;> rw [hs] at h ⊢ <;> exact h
  cases hi : present (ctx.identity s.scope) with
  | none => simp [hi, idsMatch] at hmatch
  | some who =>
    cases hj : ctx₀.identity s.scope with
    | none => simp [hi, hj, idsMatch] at hmatch
    | some who' =>
      have he : who = who' := hsha (by simpa [hi, hj, idsMatch] using hmatch)
      subst he
      exact ⟨who, rfl, present_eq_some.2 ⟨rfl, (present_eq_some.1 hi).2⟩⟩

theorem Event.Isolated.mono (hkv : kv <+: kv') (h : Event.Isolated env kv ev) :
    ev.Isolated env kv' := by
  simp only [Event.Isolated] at h ⊢
  split at h
  · intro i hi
    obtain ⟨p, hp, hg⟩ := h i hi
    exact ⟨p, getElem?_mono hkv hp, hg⟩
  · intro i hi
    obtain ⟨p, hp, hg⟩ := h i hi
    exact ⟨p, getElem?_mono hkv hp, hg⟩
  · trivial

theorem Event.Quiet.isolated {ev : Event} (h : ev.Quiet) : ev.Isolated env kv := by
  cases ev <;> trivial

theorem Guarded.of_entries {v v' : View} (h : Guarded env v) (hkv : v'.kv = v.kv)
    (he : ∀ {k s'}, v'.entry k = some s' →
      ∃ s, v.entry k = some s ∧ (s' = s ∨ s' = { s with status := .stale })) :
    Guarded env v' where
  entry := by
    intro k s' i hs' hi
    obtain ⟨s, hs, rfl | rfl⟩ := he hs'
    · obtain ⟨p, hp, hk, hsc, hg⟩ := h.entry hs hi
      exact ⟨p, hkv ▸ hp, hk, hsc, hg⟩
    · obtain ⟨p, hp, hk, hsc, -⟩ := h.entry hs hi
      exact ⟨p, hkv ▸ hp, hk, hsc, fun ctx hv => absurd rfl hv.1⟩

/-- An observation under another identity would hand the entry's handle over with it. -/
theorem Guarded.rewrites {v v' : View} (hsha : Function.Injective env.sha256Hex)
    (h : Guarded env v) (hp : (c.scope env).Personal) (hc : c.eligible env = true)
    (hr : v.Respects env (.observe c.request (some c.backend) c.options))
    (hw : Rewrites env c v v') : Guarded env v' where
  entry := by
    intro k s' i hs' hi
    obtain hs | ⟨rfl, rfl⟩ := hw.entry hs'
    · obtain ⟨p, hkv, hrest⟩ := h.entry hs hi
      exact ⟨p, hw.kv ▸ hkv, hrest⟩
    · cases hold : v.entry (c.cacheKey env) with
      | none => simp [hold, ThreadWakeIndex.putSeal, PromptCall.putArgs] at hi
      | some s =>
        have hsi : s.handle = some i := by
          simpa [hold, ThreadWakeIndex.putSeal, PromptCall.putArgs] using hi
        obtain ⟨p, hkv, hk, hsc, hg⟩ := h.entry hold hsi
        have hscope : c.scope env = p.source.scope env :=
          buildThreadwakeCacheKey_scope hsha hk.symm
        refine ⟨p, hw.kv ▸ hkv, hk, hscope, ?_⟩
        intro ctx hv
        obtain ⟨who, hctx, hown⟩ := visible_identity hsha hp rfl hv
        have hstale : s.status ≠ .stale := by
          simpa [hold, ThreadWakeIndex.putSeal] using hv.1
        have hid : p.source.identity env = some who := hr hc s i p who hold hstale hsi hkv hown
        exact ⟨who, hscope ▸ hctx, hid⟩

theorem Guarded.stores {v v' : View} (hsha : Function.Injective env.sha256Hex)
    (h : Guarded env v) (hp : (c.scope env).Personal) (hw : Stores env c v v') :
    Guarded env v' where
  entry := by
    intro k s' i hs' hi
    obtain hs | ⟨rfl, -, hsc, hid, hnew⟩ := hw.entry hs'
    · obtain ⟨p, hkv, hrest⟩ := h.entry hs hi
      exact ⟨p, getElem?_mono hw.kv_grows hkv, hrest⟩
    · rw [hnew] at hi
      cases hi
      refine ⟨_, hw.kv_new, rfl, hsc, ?_⟩
      intro ctx hv
      rw [← hsc] at hp hid
      obtain ⟨who, hctx, hown⟩ := visible_identity hsha hp hid hv
      rw [hsc] at hctx hown
      exact ⟨who, hctx, (present_eq_some.1 hown).1⟩

theorem resumptionEvents_isolated {path : Path}
    (h : path = .exactPrefix → ∀ i, handle = some i → ∃ p, kv[i]? = some p ∧ p.Grants env ctx)
    (prompt : TokenizedPrompt) (o : Resumption) :
    ∀ ev ∈ Manager.resumptionEvents path handle ctx prompt o, ev.Isolated env kv := by
  have hcloned : (Event.cloned path handle ctx).Isolated env kv := by
    cases path with
    | exactPrefix => exact h rfl
    | session => trivial
  intro ev hev
  cases o with
  | cloneRaised =>
    rw [List.mem_singleton.1 hev]
    exact hcloned
  | generateRaised =>
    rcases List.mem_pair.1 hev with rfl | rfl
    · exact hcloned
    · trivial
  | generated out =>
    rcases List.mem_pair.1 hev with rfl | rfl
    · exact hcloned
    · trivial

theorem Guarded.move {v v' : View} (hsha : Function.Injective env.sha256Hex)
    (h : Guarded env v) (hp : call.Personal env) (hr : v.Respects env call)
    (hm : Move env call v es v') : Guarded env v' := by
  cases hm with
  | fade hf => exact h.of_entries hf.kv hf.entry
  | look => exact h
  | reuse => exact h
  | resume _ _ _ _ hkv hentry =>
    apply h.of_entries hkv
    intro k s hs
    exact ⟨s, hentry ▸ hs, .inl rfl⟩
  | observe hc hw => exact h.rewrites hsha hp hc hr hw
  | store _ _ hw => exact h.stores hsha hp hw

theorem Guarded.events {v v' : View} (h : Guarded env v) (hm : Move env call v es v') :
    ∀ ev ∈ es, ev.Isolated env v'.kv := by
  have hgrants : ∀ {k s ctx}, v.entry k = some s →
      s.Visible env.sha256Hex env.allowGlobal ctx → ∀ i, s.handle = some i →
      ∃ p, v.kv[i]? = some p ∧ p.Grants env ctx := by
    intro k s ctx hs hv i hi
    obtain ⟨p, hkv, -, -, hg⟩ := h.entry hs hi
    exact ⟨p, hkv, hg ctx hv⟩
  cases hm with
  | fade _ hes =>
    intro ev hev
    exact (hes ev hev).isolated
  | @look found _ _ _ _ hfound =>
    intro ev hev
    rw [List.mem_singleton.1 hev]
    cases found with
    | none => trivial
    | some e =>
      obtain ⟨hs, hv⟩ := hfound e rfl
      exact hgrants hs hv
  | reuse _ hs hv => exact resumptionEvents_isolated (fun _ => hgrants hs hv) _ _
  | resume => exact resumptionEvents_isolated (fun hpath => by cases hpath) _ _
  | observe _ _ hes =>
    intro ev hev
    exact (hes ev hev).isolated
  | store _ _ _ hes =>
    intro ev hev
    exact (hes ev hev).isolated

/-- Isolation so far: of the index as it is and of all events shown. -/
structure Secure (env : Env) (es : List Event) (v : View) : Prop where
  guarded : Guarded env v
  isolated : ∀ ev ∈ es, ev.Isolated env v.kv

theorem Secure.move {v v' : View} (hsha : Function.Injective env.sha256Hex)
    (h : Secure env es v) (hp : call.Personal env) (hr : v.Respects env call)
    (hm : Move env call v fs v') : Secure env (es ++ fs) v' where
  guarded := h.guarded.move hsha hp hr hm
  isolated := hm.events (P := fun kv ev => ev.Isolated env kv) .mono h.isolated
    (h.guarded.events hm)

theorem Secure.step (hsha : Function.Injective env.sha256Hex) {m : Manager}
    (h : Secure env es m.view) (hp : call.Personal env) (hr : m.view.Respects env call) :
    Secure env (es ++ (m.step env call).2) (m.step env call).1.view := by
  cases call with
  | observe request backend options =>
    exact h.move hsha hp hr (Manager.observeRequest_move m request backend options)
  | execute c outcome =>
    exact Moves.history (fun h hm => h.move hsha hp trivial hm) (Manager.step_moves m _) h
  | flushCache scope modelId scopeId =>
    exact Moves.history (fun h hm => h.move hsha hp trivial hm) (Manager.step_moves m _) h
  | hasReadyEntry key =>
    exact Moves.history (fun h hm => h.move hsha hp trivial hm) (Manager.step_moves m _) h
  | markCandidateSelected key =>
    exact Moves.history (fun h hm => h.move hsha hp trivial hm) (Manager.step_moves m _) h

theorem init_secure (env : Env) (limits : IndexLimits) :
    Secure env [] (Manager.init limits).view where
  guarded := ⟨fun hs _ => by cases hs⟩
  isolated := fun ev hev => by cases hev

theorem PromptCall.Reuses.eligible {c : PromptCall} (h : c.Reuses env) :
    c.eligible env = true := by
  have hw := h.1
  simp only [PromptCall.wantsReuse, PromptCall.observation, Bool.and_eq_true,
    Manager.attachBackendKvStatus_eligible] at hw
  exact hw.2

theorem visible_of_present {s : Seal} (hp : s.scope.Personal) (hstatus : s.status ≠ .stale)
    (hid : s.scopeId = scopeIdFor sha256Hex s.scope ctx)
    (hpresent : present (ctx.identity s.scope) = some who) :
    s.Visible sha256Hex allowGlobal ctx := by
  have hmatch : idsMatch ((present (ctx.identity s.scope)).map sha256Hex)
      ((ctx.identity s.scope).map sha256Hex) = true := by
    rw [hpresent, (present_eq_some.1 hpresent).1]
    simp [idsMatch]
  refine ⟨hstatus, ?_⟩
  rw [hid]
  obtain hs | hs | hs := hp <;> rw [hs] at hmatch ⊢ <;> exact hmatch

/-- One request stores its prefix; another one observes and is then executed. -/
def rehoming (a b : PromptCall) : List Call :=
  [.execute a .exact, .observe b.request (some b.backend) b.options, .execute b .exact]

/-- The handle stored by the first request is found by the second. -/
theorem rehomed_handle_found {a b : PromptCall} (ha : a.Reuses env) (hb : b.Reuses env)
    (hkey : a.cacheKey env = b.cacheKey env) (hne : a.stableTokens env ≠ [])
    (hst : a.Storable env) (hp : (b.scope env).Personal)
    (hpresent : present (b.identity env) = some who) :
    ∃ e, e.kvHandleId = some 0 ∧
      Event.looked b.context (some e) ∈ ((Manager.init .one).run env (rehoming a b)).2 ∧
      ((Manager.init .one).run env (rehoming a b)).1.kv = [⟨a.stableTokens env, a⟩] := by
  have hstb : b.Storable env := by
    intro hg
    obtain h | h | h := hp <;> rw [hg] at h <;> cases h
  obtain ⟨hkv₁, hseal₁, -⟩ := Manager.executeEphemeral_first .exact
    (Manager.init_blank .one) ha hst hne rfl rfl
  have hs₁ := hseal₁ (by decide) (by decide)
  rw [hkey] at hs₁
  obtain ⟨hkv₂, hs₂⟩ := Manager.observeRequest_existing hb.eligible hstb hs₁
  have hv : (ThreadWakeIndex.putSeal env.sha256Hex (some (a.stored env 0))
      (b.putArgs env none)).Visible env.sha256Hex env.allowGlobal b.context :=
    visible_of_present hp (fun h => by cases h) rfl hpresent
  obtain ⟨hkv₃, ⟨e, he, hlook⟩, -⟩ := Manager.executeEphemeral_hit .exact hb rfl hs₂ rfl hv
  refine ⟨e, congrArg Seal.handle he, ?_, ?_⟩
  · simp only [rehoming, Manager.run, Manager.step, List.append_nil]
    exact List.mem_append_right _ (List.mem_append_right _ hlook)
  · simp only [rehoming, Manager.run, Manager.step]
    rw [hkv₃, hkv₂, hkv₁]

def userChat (user : String) : PromptCall where
  request :=
    { model := some "qwen"
      messages := [textMessage "system" "be brief", textMessage "user" "hi"]
      tools := none
      toolChoice := none
      threadwake := some (ephemeralIn .user)
      threadwakeSegments := none
      threadId := none
      userId := some user
      projectId := none }
  backend := "mlx"
  options := .default

theorem userChat_reuses (user : String) : (userChat user).Reuses charEnv := by
  have h : (userChat "").Reuses charEnv := ⟨by decide +kernel, by decide +kernel⟩
  exact h

theorem userChat_personal : ∀ call ∈ rehoming (userChat user) (userChat user'),
    call.Personal charEnv := by
  intro call hcall
  simp only [rehoming, List.mem_cons, List.not_mem_nil, or_false] at hcall
  rcases hcall with rfl | rfl | rfl <;> exact .inr (.inr rfl)

/-- The user's own observation does not stand in the way of the user's own handle. -/
theorem userChat_respects : (manager charEnv).EachStep
    (fun m call => m.view.Respects charEnv call) (Manager.init .one)
    (rehoming (userChat "alice") (userChat "alice")) := by
  obtain ⟨hkv, -, -⟩ := Manager.executeEphemeral_first .exact (Manager.init_blank .one)
    (userChat_reuses "alice") (fun h => by cases h) (by decide +kernel) rfl rfl
  constructor
  · trivial
  · intro m out hstep
    have hm : (Manager.executeEphemeral charEnv (.init .one) (userChat "alice") .exact).1 = m :=
      congrArg Prod.fst (Option.some.inj hstep)
    rw [hm] at hkv
    constructor
    · intro _ s h p who _ _ _ hp hwho
      have hkv' : p ∈ [⟨(userChat "alice").stableTokens charEnv, userChat "alice"⟩] := by
        rw [← hkv]
        exact List.mem_of_getElem? hp
      rw [List.mem_singleton.1 hkv']
      exact hwho
    · intro m' out' _
      exact ⟨trivial, fun _ _ _ => trivial⟩

/-- As long as no observation puts its identity over the handle of another one, no handle is
found or cloned for a request without the identity it was stored under. -/
theorem scope_isolation {env : Env} (hsha : Function.Injective env.sha256Hex)
    (limits : IndexLimits) (calls : List Call) (hscope : ∀ call ∈ calls, call.Personal env)
    (hrespects : (manager env).EachStep (fun m call => m.view.Respects env call)
      (Manager.init limits) calls) :
    ∀ ev ∈ ((Manager.init limits).run env calls).2,
      ev.Isolated env ((Manager.init limits).run env calls).1.kv := by
  have hsteps := (Machine.eachStep_of_mem hscope (Manager.init limits)).and hrespects
  have hrun := Machine.exec_history (P := fun es m => Secure env es m.view)
    (fun h hc hs => by
      have hstep := h.step hsha hc.1 hc.2
      rwa [Option.some.inj hs] at hstep)
    (init_secure env limits) hsteps (exec_eq_run env _ calls)
  exact hrun.isolated

theorem scope_isolation_one_user :
    (∃ e, e.kvHandleId = some 0 ∧ Event.looked (userChat "alice").context (some e) ∈
      ((Manager.init .one).run charEnv (rehoming (userChat "alice") (userChat "alice"))).2) ∧
    ∀ ev ∈ ((Manager.init .one).run charEnv
      (rehoming (userChat "alice") (userChat "alice"))).2, ev.Isolated charEnv
        ((Manager.init .one).run charEnv
          (rehoming (userChat "alice") (userChat "alice"))).1.kv := by
  constructor
  · obtain ⟨e, he, hlook, -⟩ := rehomed_handle_found (userChat_reuses "alice")
      (userChat_reuses "alice") rfl (by decide +kernel) (fun h => by cases h) (.inr (.inr rfl)) rfl
    exact ⟨e, he, hlook⟩
  · exact scope_isolation Function.injective_id .one _ userChat_personal userChat_respects

/-- One observation by another user, and the handle of the first is found by the second. -/
theorem observed_handle_leaks : ¬∀ (env : Env) (limits : IndexLimits) (calls : List Call),
    Function.Injective env.sha256Hex → env.allowGlobal = false →
    (∀ call ∈ calls, call.Personal env) →
    ∀ ev ∈ ((Manager.init limits).run env calls).2,
      ev.Isolated env ((Manager.init limits).run env calls).1.kv := by
  intro hall
  obtain ⟨e, he, hlook, hkv⟩ := rehomed_handle_found (userChat_reuses "alice")
    (userChat_reuses "bob") rfl (by decide +kernel) (fun h => by cases h) (.inr (.inr rfl)) rfl
  have hisolated := hall charEnv .one _ Function.injective_id rfl userChat_personal _ hlook
  obtain ⟨p, hp, who, hbob, halice⟩ := hisolated 0 he
  have hp' : p = ⟨(userChat "alice").stableTokens charEnv, userChat "alice"⟩ := by
    rw [hkv] at hp
    exact (Option.some.inj hp).symm
  subst hp'
  have h₁ : who = "bob" := (Option.some.inj hbob).symm
  have h₂ : who = "alice" := (Option.some.inj halice).symm
  exact absurd (h₁.symm.trans h₂) (by decide)

end Whooshd.ThreadWake
