import Whooshd.ThreadWake.Manager

namespace Whooshd.ThreadWake
set_option autoImplicit true

namespace PromptCall

def Reuses (env : Env) (c : PromptCall) : Prop :=
  c.wantsReuse env = true ∧ c.canReuse env = true

/-- The index takes entries of the call's scope. -/
def Storable (env : Env) (c : PromptCall) : Prop := c.scope env = .global → env.allowGlobal = true

def eligible (env : Env) (c : PromptCall) : Bool :=
  (evaluateThreadwakePolicy (some (c.graph env)) (c.config env)).eligible

def stableTokens (env : Env) (c : PromptCall) : List TokenId :=
  (c.tokenized env).stablePrefixTokenIds

def hashes (env : Env) (c : PromptCall) : List String := (c.graph env).orderedSegmentHashes

def tipKeyOf (c : PromptCall) (env : Env) (thread : String) : String :=
  tipKey env.sha256Hex thread c.modelId c.backend

/-- The key of the thread tip that the call reads and writes. -/
def tip (env : Env) (c : PromptCall) : Option String := (c.tipThread env).map (c.tipKeyOf env)

end PromptCall

/-- What the reuse of KV state depends on. -/
structure View where
  entry : String → Option Seal
  tip : String → Option (List String × Option HandleId)
  kv : List Prefill

def ThreadTip.link (t : ThreadTip) : List String × Option HandleId :=
  (t.orderedSegmentHashes, t.kvHandleId)

def Manager.view (m : Manager) : View where
  entry := m.index.sealOf
  tip key := (m.index.threadTips.get? key).map ThreadTip.link
  kv := m.kv

/-- Entries may only be dropped or become stale, and tips may only be dropped. -/
structure Fades (v v' : View) : Prop where
  kv : v'.kv = v.kv
  entry : ∀ {k s'}, v'.entry k = some s' →
    ∃ s, v.entry k = some s ∧ (s' = s ∨ s' = { s with status := .stale })
  tip : ∀ {k t}, v'.tip k = some t → v.tip k = some t

/-- Events that name no KV handle that was found. -/
def Event.Quiet : Event → Prop
  | looked .. | cloned .. | resumed .. => False
  | prefilled .. | observed .. | returned .. | flushed .. | answered .. | raised => True

/-- An observation has put the observer's scope on the entry under its key. -/
structure Rewrites (env : Env) (c : PromptCall) (v v' : View) : Prop where
  kv : v'.kv = v.kv
  entry : ∀ {k s'}, v'.entry k = some s' → v.entry k = some s' ∨
    k = c.cacheKey env ∧ s' = ThreadWakeIndex.putSeal env.sha256Hex (v.entry k) (c.putArgs env none)
  tip : ∀ {k t}, v'.tip k = some t → v.tip k = some t

/-- A call has prefilled its stable prefix and put the new handle into the index. -/
structure Stores (env : Env) (c : PromptCall) (v v' : View) : Prop where
  kv : v'.kv = v.kv ++ [⟨c.stableTokens env, c⟩]
  entry : ∀ {k s'}, v'.entry k = some s' → v.entry k = some s' ∨
    k = c.cacheKey env ∧ c.Storable env ∧ s'.scope = c.scope env ∧
      s'.scopeId = scopeIdFor env.sha256Hex (c.scope env) c.context ∧
      s'.handle = some v.kv.length
  tip : ∀ {k t}, v'.tip k = some t → v.tip k = some t ∨
    c.tip env = some k ∧ c.Storable env ∧ t = (c.hashes env, some v.kv.length)

/-- The atomic effects of a call on what reuse depends on, with the events they show. -/
inductive Move (env : Env) : Call → View → List Event → View → Prop where
  | fade (h : Fades v v') (hes : ∀ ev ∈ es, ev.Quiet) : Move env call v es v'
  | look (h : ∀ e, found = some e →
      v.entry k = some e.seal ∧ e.seal.Visible env.sha256Hex env.allowGlobal ctx) :
      Move env call v [.looked ctx found] v
  | reuse (hc : c.Reuses env) (hs : v.entry (c.cacheKey env) = some s)
      (hv : s.Visible env.sha256Hex env.allowGlobal c.context) :
      Move env (.execute c outcome) v
        (Manager.resumptionEvents .exactPrefix s.handle c.context (c.tokenized env)
          outcome.reuse) v
  | resume (hc : c.Reuses env) (hk : c.tip env = some k) (ht : v.tip k = some (hs, handle))
      (ha : validateMonotonicAppend hs (c.hashes env) = true)
      (hkv : v'.kv = v.kv) (hentry : v'.entry = v.entry)
      (htip : ∀ {k' t}, v'.tip k' = some t → v.tip k' = some t ∨
        k' = k ∧ t = (c.hashes env, handle)) :
      Move env (.execute c outcome) v
        (Manager.resumptionEvents .session handle c.context (c.tokenized env)
          outcome.continuation) v'
  | observe (hc : c.eligible env = true) (h : Rewrites env c v v') (hes : ∀ ev ∈ es, ev.Quiet) :
      Move env (.observe c.request (some c.backend) c.options) v es v'
  | store (hc : c.Reuses env) (hne : c.stableTokens env ≠ []) (h : Stores env c v v')
      (hes : ∀ ev ∈ es, ev.Quiet) : Move env (.execute c outcome) v es v'

/-- A sequence of effects of one call. -/
inductive Moves (env : Env) (call : Call) : View → List Event → View → Prop where
  | nil : Moves env call v [] v
  | cons (h : Move env call v es v') (hs : Moves env call v' fs v'') :
      Moves env call v (es ++ fs) v''

theorem Moves.single (h : Move env call v es v') : Moves env call v es v' := by
  rw [← List.append_nil es]
  exact .cons h .nil

theorem Moves.append (h : Moves env call v es v') (h' : Moves env call v' fs v'') :
    Moves env call v (es ++ fs) v'' := by
  induction h with
  | nil => exact h'
  | cons hm hs ih =>
    rw [List.append_assoc]
    exact .cons hm (ih h')

/-- What every effect keeps, a whole call keeps. -/
theorem Moves.history {P : List Event → View → Prop}
    (hstep : ∀ {es v fs v'}, P es v → Move env call v fs v' → P (es ++ fs) v')
    (h : Moves env call v fs v') (h₀ : P es v) : P (es ++ fs) v' := by
  induction h generalizing es with
  | nil => rwa [List.append_nil]
  | cons hm hs ih =>
    rw [← List.append_assoc]
    exact ih (hstep h₀ hm)

theorem Stores.kv_grows {v v' : View} (h : Stores env c v v') : v.kv <+: v'.kv :=
  h.kv ▸ List.prefix_append _ _

theorem Stores.kv_new {v v' : View} (h : Stores env c v v') :
    v'.kv[v.kv.length]? = some ⟨c.stableTokens env, c⟩ := by
  rw [h.kv, List.getElem?_concat_length]

theorem Move.kv_grows (h : Move env call v es v') : v.kv <+: v'.kv := by
  cases h with
  | fade hf => exact hf.kv ▸ List.prefix_rfl
  | look => exact List.prefix_rfl
  | reuse => exact List.prefix_rfl
  | resume _ _ _ _ hkv => exact hkv ▸ List.prefix_rfl
  | observe _ hw => exact hw.kv ▸ List.prefix_rfl
  | store _ _ hw => exact hw.kv_grows

theorem Moves.kv_grows (h : Moves env call v es v') : v.kv <+: v'.kv := by
  induction h with
  | nil => exact List.prefix_rfl
  | cons hm _ ih => exact hm.kv_grows.trans ih

/-- What is shown about the events so far stays true, so that only new events are left. -/
theorem Move.events {P : List Prefill → Event → Prop}
    (hmono : ∀ {kv kv' ev}, kv <+: kv' → P kv ev → P kv' ev) (hm : Move env call v fs v')
    (h : ∀ ev ∈ es, P v.kv ev) (hfs : ∀ ev ∈ fs, P v'.kv ev) : ∀ ev ∈ es ++ fs, P v'.kv ev := by
  intro ev hev
  rcases List.mem_append.1 hev with hev | hev
  · exact hmono hm.kv_grows (h ev hev)
  · exact hfs ev hev

theorem getElem?_mono {l l' : List α} {i : Nat} (hl : l <+: l') (h : l[i]? = some a) :
    l'[i]? = some a := by
  obtain ⟨m, rfl⟩ := hl
  rw [List.getElem?_append_left (List.getElem?_eq_some_iff.1 h).1]
  exact h

theorem Fades.refl (v : View) : Fades v v where
  kv := rfl
  entry := fun h => ⟨_, h, .inl rfl⟩
  tip := id

namespace Manager

variable {env : Env} {m : Manager} {c : PromptCall}

@[simp] theorem record_view (o : ThreadWakeObservation) : (m.record o).view = m.view := rfl

theorem fullGeneration_moves (o : ThreadWakeObservation) (output : Option (List String)) :
    Move env call m.view (m.fullGeneration o output).2 (m.fullGeneration o output).1.view := by
  cases output with
  | none => exact .fade (.refl _) (by simp [fullGeneration, Event.Quiet])
  | some out => exact .fade (.refl _) (by simp [fullGeneration, Event.Quiet])

theorem recorded_fullGeneration_moves (m : Manager) (o : ThreadWakeObservation)
    (output : Option (List String)) :
    Move env call m.view ((m.record o).fullGeneration o output).2
      ((m.record o).fullGeneration o output).1.view := by
  rw [← record_view o]
  exact fullGeneration_moves o output

@[simp] theorem get_view (key : String) (ctx : ScopeContext) :
    { m with index := (m.index.get env.sha256Hex env.allowGlobal key ctx).1 : Manager }.view =
      m.view := by
  simp only [view, ThreadWakeIndex.get_threadTips]
  congr 1
  exact funext (ThreadWakeIndex.get_sealOf key ctx)

theorem markStale_fades (key : String) :
    Fades m.view { m with index := m.index.markStale key : Manager }.view where
  kv := rfl
  entry := by
    intro k s' h
    simp only [view, ThreadWakeIndex.markStale_sealOf] at h
    split at h
    · obtain ⟨s, hs, rfl⟩ := Option.map_eq_some_iff.1 h
      exact ⟨s, hs, .inr rfl⟩
    · exact ⟨s', h, .inl rfl⟩
  tip := id

theorem storeTip_tip (thread : String) (handle : Option HandleId) (k : String) :
    (m.storeTip env c thread handle).view.tip k =
      if k = c.tipKeyOf env thread then some (c.hashes env, handle) else m.view.tip k := by
  by_cases hk : k = c.tipKeyOf env thread
  · rw [if_pos hk, hk]
    simp only [view, storeTip, ThreadWakeIndex.storeThreadTip, PromptCall.tipKeyOf,
      Dict.get?_set_self]
    split <;> rfl
  · rw [if_neg hk]
    exact congrArg (Option.map ThreadTip.link) (Dict.get?_set_ne hk _)

theorem clearTip_fades (thread : String) : Fades m.view (m.clearTip env c thread).view where
  kv := rfl
  entry := fun h => ⟨_, h, .inl rfl⟩
  tip := by
    intro k t h
    simp only [view, clearTip, ThreadWakeIndex.clearThreadTip, Dict.get?_erase] at h
    split at h
    · cases h
    · exact h

theorem ephemeralHit_moves (hc : c.Reuses env) (hs : m.index.sealOf (c.cacheKey env) = some e.seal)
    (hv : e.seal.Visible env.sha256Hex env.allowGlobal c.context) (o : ThreadWakeObservation)
    (outcome : AdapterOutcome) :
    Moves env (.execute c outcome) m.view (m.ephemeralHit env c e o outcome).2
      (m.ephemeralHit env c e o outcome).1.view := by
  have hm : Move env (.execute c outcome) m.view (resumptionEvents .exactPrefix e.kvHandleId
      c.context (c.tokenized env) outcome.reuse) m.view := .reuse hc hs hv
  have hstale : Moves env (.execute c outcome) m.view
      (fullGeneration { m with index := m.index.markStale (c.cacheKey env) } o outcome.full).2
      (fullGeneration { m with index := m.index.markStale (c.cacheKey env) } o
        outcome.full).1.view := by
    rw [← List.nil_append (fullGeneration _ _ _).2]
    apply Moves.cons (.fade (markStale_fades (c.cacheKey env)) (by simp))
    exact .single (fullGeneration_moves o outcome.full)
  unfold ephemeralHit
  dsimp only
  split
  · exact .cons hm (.single (.fade (.refl _) (by simp [Event.Quiet])))
  · exact .cons hm hstale

theorem storePrefix_entry {index : ThreadWakeIndex} {handle : HandleId}
    (hput : m.index.putObservation env.sha256Hex env.allowGlobal (c.putArgs env (some handle)) =
      (index, err)) (h : index.sealOf k = some s) :
    m.index.sealOf k = some s ∧ (k ≠ c.cacheKey env ∨ err = some .globalNotAllowed) ∨
      k = c.cacheKey env ∧ c.Storable env ∧ s.scope = c.scope env ∧
        s.scopeId = scopeIdFor env.sha256Hex (c.scope env) c.context ∧ s.handle = some handle := by
  have hp := ThreadWakeIndex.putObservation_sealOf (s := s) (k := k) (by rw [hput]; exact h)
  rw [hput] at hp
  obtain hs | ⟨hk, hg, rfl⟩ := hp
  · exact .inl hs
  · exact .inr ⟨hk, hg, rfl, rfl, rfl⟩

theorem putObservation_tips {a : PutArgs} {index : ThreadWakeIndex}
    (hput : m.index.putObservation env.sha256Hex env.allowGlobal a = (index, err)) :
    index.threadTips = m.index.threadTips := by
  have ht : (m.index.putObservation env.sha256Hex env.allowGlobal a).1.threadTips =
      m.index.threadTips := ThreadWakeIndex.putObservation_threadTips a
  rwa [hput] at ht

theorem storePrefix_moves (hc : c.Reuses env) (prefill : Bool) :
    Move env (.execute c outcome) m.view (m.storePrefix env c prefill).2
      (m.storePrefix env c prefill).1.view := by
  unfold storePrefix
  dsimp only
  split
  · exact .fade (.refl _) (by simp)
  · next hne =>
    have hstable : c.stableTokens env ≠ [] := fun h => hne (.inl h)
    split
    · next index err hput =>
      have hstores : Stores env c m.view
          { m with index, kv := m.kv ++ [⟨c.stableTokens env, c⟩] : Manager }.view :=
        { kv := rfl
          entry := fun h => (storePrefix_entry hput h).imp And.left id
          tip := by
            intro k t h
            simp only [view, putObservation_tips hput] at h
            exact .inl h }
      exact .store hc hstable hstores (by simp [Event.Quiet])
    · next index hput =>
      have hentry : ∀ {k s'}, (index.markReady (c.cacheKey env)).sealOf k = some s' →
          m.index.sealOf k = some s' ∨ k = c.cacheKey env ∧ c.Storable env ∧
            s'.scope = c.scope env ∧
            s'.scopeId = scopeIdFor env.sha256Hex (c.scope env) c.context ∧
            s'.handle = some m.kv.length := by
        intro k s' h
        rw [ThreadWakeIndex.markReady_sealOf] at h
        split at h
        · next hk =>
          obtain ⟨s, hs, rfl⟩ := Option.map_eq_some_iff.1 h
          obtain ⟨-, hn | hn⟩ | hnew := storePrefix_entry hput hs
          · exact absurd hk hn
          · cases hn
          · exact .inr hnew
        · exact (storePrefix_entry hput h).imp And.left id
      have hstorable : c.Storable env := ThreadWakeIndex.putObservation_storable hput
      split
      · have hstores : Stores env c m.view
            { m with
              index := index.markReady (c.cacheKey env)
              kv := m.kv ++ [⟨c.stableTokens env, c⟩] : Manager }.view :=
          { kv := rfl
            entry := hentry
            tip := by
              intro k t h
              simp only [view, ThreadWakeIndex.markReady_threadTips,
                putObservation_tips hput] at h
              exact .inl h }
        exact .store hc hstable hstores (by simp [Event.Quiet])
      · next thread hthread =>
        have hstores : Stores env c m.view
            (storeTip env { m with
              index := index.markReady (c.cacheKey env)
              kv := m.kv ++ [⟨c.stableTokens env, c⟩] } c thread (some m.kv.length)).view :=
          { kv := rfl
            entry := hentry
            tip := by
              intro k t h
              rw [storeTip_tip] at h
              split at h
              · next hk =>
                cases h
                exact .inr ⟨by simp [PromptCall.tip, hthread, hk], hstorable, rfl⟩
              · simp only [view, ThreadWakeIndex.markReady_threadTips,
                  putObservation_tips hput] at h
                exact .inl h }
        exact .store hc hstable hstores (by simp [Event.Quiet])

theorem ephemeralMiss_moves (hc : c.Reuses env) (o : ThreadWakeObservation)
    (outcome : AdapterOutcome) :
    Moves env (.execute c outcome) m.view (m.ephemeralMiss env c o outcome).2
      (m.ephemeralMiss env c o outcome).1.view := by
  simp only [ephemeralMiss]
  split
  · exact .single (.fade (.refl _) (by simp [Event.Quiet]))
  · next output hfull =>
    have hs : Move env (.execute c outcome) (m.record o).view
        ((m.record o).storePrefix env c outcome.prefill).2
        ((m.record o).storePrefix env c outcome.prefill).1.view :=
      storePrefix_moves hc outcome.prefill
    exact .cons hs (.single (.fade (.refl _) (by simp [fullGeneration, Event.Quiet])))

theorem exactPrefix_moves (hc : c.Reuses env) (o : ThreadWakeObservation)
    (outcome : AdapterOutcome) :
    Moves env (.execute c outcome) m.view (m.exactPrefix env c o outcome).2
      (m.exactPrefix env c o outcome).1.view := by
  simp only [exactPrefix]
  cases hget : m.index.get env.sha256Hex env.allowGlobal (c.cacheKey env) c.context with
  | mk index found =>
    have hview : { m with index : Manager }.view = m.view := by
      have h : { m with index := (m.index.get env.sha256Hex env.allowGlobal (c.cacheKey env)
          c.context).1 : Manager }.view = m.view := get_view (c.cacheKey env) c.context
      rwa [hget] at h
    have hfound : ∀ e, found = some e → m.index.sealOf (c.cacheKey env) = some e.seal ∧
        e.seal.Visible env.sha256Hex env.allowGlobal c.context := by
      intro e he
      apply ThreadWakeIndex.get_found
      rw [hget]
      exact he
    have hlook : Move env (.execute c outcome) m.view [.looked c.context found] m.view :=
      .look hfound
    dsimp only
    split
    · next e he =>
      obtain ⟨hs, hv⟩ := hfound e (Option.filter_eq_some_iff.1 he).1
      have hhit := ephemeralHit_moves (m := { m with index }) hc
        ((congrFun (congrArg View.entry hview) _).trans hs) hv o outcome
      rw [hview] at hhit
      exact .cons hlook hhit
    · have hmiss := ephemeralMiss_moves (m := { m with index }) hc o outcome
      rw [hview] at hmiss
      exact .cons hlook hmiss

theorem tip_of_thread (ht : c.tipThread env = some thread) :
    c.tip env = some (c.tipKeyOf env thread) := by
  simp only [PromptCall.tip, ht, Option.map_some]

theorem view_tip_of_latest
    (h : m.index.getLatestForThread env.sha256Hex thread c.modelId c.backend = some tip) :
    m.view.tip (c.tipKeyOf env thread) = some (tip.orderedSegmentHashes, tip.kvHandleId) :=
  congrArg (Option.map ThreadTip.link) h

/-- What `execute_ephemeral` goes on with after a continuation that gave no result. -/
theorem trySessionContinuation_passed (hc : c.Reuses env) (ht : c.tipThread env = some thread)
    (h : m.trySessionContinuation env c thread o outcome.continuation = .passed m' o' es) :
    Moves env (.execute c outcome) m.view es m'.view := by
  unfold trySessionContinuation at h
  split at h
  · cases h
    exact .nil
  · next tip htip =>
    split at h
    · cases h
      exact .single (.fade (clearTip_fades thread) (by simp))
    · next happ =>
      have hmove : Move env (.execute c outcome) m.view (resumptionEvents .session tip.kvHandleId
          c.context (c.tokenized env) outcome.continuation) m.view :=
        .resume hc (tip_of_thread ht) (view_tip_of_latest htip) (eq_true_of_ne_false happ) rfl rfl
          .inl
      dsimp only at h
      split at h
      · cases h
      · cases h
        rw [← List.append_nil (resumptionEvents _ _ _ _ _)]
        exact .cons hmove (.single (.fade (clearTip_fades thread) (by simp)))

theorem trySessionContinuation_finished (hc : c.Reuses env)
    (ht : c.tipThread env = some thread)
    (h : m.trySessionContinuation env c thread o outcome.continuation = .finished m' es) :
    Moves env (.execute c outcome) m.view es m'.view := by
  unfold trySessionContinuation at h
  split at h
  · cases h
  · next tip htip =>
    split at h
    · cases h
    · next happ =>
      dsimp only at h
      split at h
      · next output hout =>
        cases h
        have hstored : ∀ {k t}, (m.storeTip env c thread tip.kvHandleId).view.tip k = some t →
            m.view.tip k = some t ∨
              k = c.tipKeyOf env thread ∧ t = (c.hashes env, tip.kvHandleId) := by
          intro k t h
          rw [storeTip_tip] at h
          split at h
          · next hk =>
            cases h
            exact .inr ⟨hk, rfl⟩
          · exact .inl h
        have hmove : Move env (.execute c outcome) m.view (resumptionEvents .session
            tip.kvHandleId c.context (c.tokenized env) outcome.continuation)
            (m.storeTip env c thread tip.kvHandleId).view :=
          .resume hc (tip_of_thread ht) (view_tip_of_latest htip) (eq_true_of_ne_false happ)
            rfl rfl hstored
        exact .cons hmove (.single (.fade (.refl _) (by simp [Event.Quiet])))
      · cases h

theorem executeEphemeral_moves (m : Manager) (c : PromptCall) (outcome : AdapterOutcome) :
    Moves env (.execute c outcome) m.view (m.executeEphemeral env c outcome).2
      (m.executeEphemeral env c outcome).1.view := by
  unfold executeEphemeral
  dsimp only
  split
  · exact .single (recorded_fullGeneration_moves _ _ _)
  · next hwant =>
    split
    · exact .single (recorded_fullGeneration_moves _ _ _)
    · next hcan =>
      have hc : c.Reuses env := ⟨by simpa using hwant, by simpa using hcan⟩
      split
      · exact exactPrefix_moves hc _ outcome
      · next thread ht =>
        split
        · next m' es h => exact trySessionContinuation_finished hc ht h
        · next m' o' es h =>
          exact (trySessionContinuation_passed hc ht h).append (exactPrefix_moves hc o' outcome)

theorem attachTokenizerStatus_eligible (o : ThreadWakeObservation) (backend : Option String)
    (tokenized : Option TokenizedPrompt) :
    (attachTokenizerStatus env o backend tokenized).eligible = o.eligible := by
  unfold attachTokenizerStatus
  split
  · rfl
  · dsimp only
    split
    · rfl
    · rfl
    · split
      · rfl
      · split <;> rfl

@[simp] theorem attachBackendKvStatus_eligible (o : ThreadWakeObservation)
    (backend : Option String) (tokenized : Option TokenizedPrompt) :
    (attachBackendKvStatus env o backend tokenized).eligible = o.eligible := by
  unfold attachBackendKvStatus
  split
  · exact attachTokenizerStatus_eligible _ _ _
  · dsimp only
    rw [attachTokenizerStatus_eligible]
    split_ifs
    · rfl
    · rfl
    · split <;> rfl
    · rfl

theorem recordIndexObservation_rewrites {o : ThreadWakeObservation} (b : Bool)
    (h : m.recordIndexObservation env c o = (m', b)) :
    m'.view = m.view ∨ o.eligible = true ∧ Rewrites env c m.view m'.view := by
  simp only [recordIndexObservation] at h
  split at h
  · cases h
    exact .inl rfl
  · next he =>
    have hput : ∀ {index err}, m.index.putObservation env.sha256Hex env.allowGlobal
        (c.putArgs env none) = (index, err) →
        Rewrites env c m.view { m with index : Manager }.view := by
      intro index err hput
      constructor
      · rfl
      · intro k s' hs
        have hp := ThreadWakeIndex.putObservation_sealOf (s := s') (k := k) (by rw [hput]; exact hs)
        obtain ⟨hs', -⟩ | ⟨hk, -, rfl⟩ := hp
        · exact .inl hs'
        · subst hk
          exact .inr ⟨rfl, rfl⟩
      · intro k t ht
        simpa only [view, putObservation_tips hput] using ht
    split at h
    · next index key hp =>
      cases h
      exact .inr ⟨by simpa using he, hput hp⟩
    · next index err hne hp =>
      cases h
      exact .inr ⟨by simpa using he, hput hp⟩

theorem observeRequest_move (m : Manager) (request : ChatRequest) (backend : Option String)
    (options : CallOptions) :
    Move env (.observe request backend options) m.view
      (m.observeRequest env request backend options).2
      (m.observeRequest env request backend options).1.view := by
  unfold observeRequest
  dsimp only
  split
  · exact .fade (.refl _) (by simp [Event.Quiet])
  · split
    · exact .fade (.refl _) (by simp [Event.Quiet])
    · next name =>
      have hmove : ∀ {m' b es}, m.recordIndexObservation env ⟨request, name, options⟩
          (attachBackendKvStatus env (evaluateThreadwakePolicy
            (some (requestGraph env request (some name) options)) (requestConfig env request))
            (some name) none) = (m', b) → (∀ ev ∈ es, ev.Quiet) →
          Move env (.observe request (some name) options) m.view es m'.view := by
        intro m' b es h hes
        obtain hv | ⟨he, hr⟩ := recordIndexObservation_rewrites b h
        · rw [hv]
          exact .fade (.refl _) hes
        · rw [attachBackendKvStatus_eligible] at he
          exact .observe (c := ⟨request, name, options⟩) he hr hes
      split
      · next m' h =>
        dsimp only
        rw [record_view]
        exact hmove h (by simp [Event.Quiet])
      · next m' h => exact hmove h (by simp [Event.Quiet])

theorem flushCache_move (m : Manager) (scope : Option ThreadWakeScope)
    (modelId scopeId : Option String) :
    Move env (.flushCache scope modelId scopeId) m.view (m.flushCache env scope modelId scopeId).2
      (m.flushCache env scope modelId scopeId).1.view := by
  apply Move.fade
  · constructor
    · rfl
    · intro k s h
      exact ⟨s, ThreadWakeIndex.flush_sealOf h, .inl rfl⟩
    · intro k t h
      simpa only [view, flushCache, ThreadWakeIndex.flush_threadTips] using h
  · simp [flushCache, Event.Quiet]

theorem hasReadyEntry_moves (m : Manager) (key : Option String) :
    Moves env (.hasReadyEntry key) m.view (m.hasReadyEntry env key).2
      (m.hasReadyEntry env key).1.view := by
  cases key with
  | none => exact .single (.fade (.refl _) (by simp [hasReadyEntry, Event.Quiet]))
  | some key =>
    simp only [hasReadyEntry, get_view]
    apply Moves.cons (.look (k := key) fun e he => ThreadWakeIndex.get_found he)
    exact .single (.fade (.refl _) (by simp [Event.Quiet]))

theorem markCandidateSelected_fades (key : String) :
    Fades m.view { m with index := (m.index.markCandidateSelected key).1 : Manager }.view where
  kv := rfl
  entry := by
    intro k s h
    simp only [view, ThreadWakeIndex.markCandidateSelected_sealOf] at h
    exact ⟨s, h, .inl rfl⟩
  tip := by
    intro k t h
    simpa only [view, ThreadWakeIndex.markCandidateSelected_threadTips] using h

/-- Every call is a sequence of moves. -/
theorem step_moves (m : Manager) (call : Call) :
    Moves env call m.view (m.step env call).2 (m.step env call).1.view := by
  cases call with
  | observe request backend options => exact .single (observeRequest_move m request backend options)
  | execute c outcome => exact executeEphemeral_moves m c outcome
  | flushCache scope modelId scopeId => exact .single (flushCache_move m scope modelId scopeId)
  | hasReadyEntry key => exact hasReadyEntry_moves m key
  | markCandidateSelected key =>
    exact .single (.fade (markCandidateSelected_fades key) (by simp [step]))

end Manager

end Whooshd.ThreadWake
