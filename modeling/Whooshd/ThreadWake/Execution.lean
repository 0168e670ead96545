import Whooshd.ThreadWake.Moves

namespace Whooshd.ThreadWake
set_option autoImplicit true

namespace ThreadWakeIndex

variable {sha256Hex : String → String} {allowGlobal : Bool} {ix : ThreadWakeIndex}

theorem get_of_visible (hs : ix.sealOf k = some s) (hv : s.Visible sha256Hex allowGlobal ctx)
    (he : s.status ≠ .evicted) :
    ∃ e, (ix.get sha256Hex allowGlobal k ctx).2 = some e ∧ e.seal = s := by
  obtain ⟨e, hget, rfl⟩ := sealOf_eq_some hs
  have hmatch : scopeMatches sha256Hex allowGlobal e ctx = true := by
    have h := hv.2
    simp only [scopeMatches]
    revert h
    cases he' : e.scope <;> simp [ThreadWakeIndexEntry.seal, he']
  have hvis : ix.visible sha256Hex allowGlobal k ctx = some e := by
    have hev : e.status ≠ .evicted := he
    have hst : e.status ≠ .stale := hv.1
    simp [visible, hget, hmatch, hev, hst]
  exact ⟨e.touch, by simp [get, hvis], rfl⟩

theorem not_refused {scope : ThreadWakeScope} (h : scope = .global → allowGlobal = true) :
    ¬(scope = .global ∧ allowGlobal = false) := by
  rintro ⟨hs, hf⟩
  rw [h hs] at hf
  cases hf

theorem putObservation_existing {a : PutArgs} (hs : ix.sealOf a.cacheKey = some s)
    (hg : a.scope = .global → allowGlobal = true) :
    (ix.putObservation sha256Hex allowGlobal a).1.sealOf a.cacheKey =
        some (putSeal sha256Hex (some s) a) ∧
      (ix.putObservation sha256Hex allowGlobal a).2 = none := by
  obtain ⟨e, hget, rfl⟩ := sealOf_eq_some hs
  have hg' := not_refused hg
  simp [putObservation, hg', hget, promoteLru, sealOf, putEntry_seal]

theorem putObservation_first {a : PutArgs} (hempty : ix.entries = .empty) (hlru : ix.lru = [])
    (hmax : 1 ≤ ix.limits.maxEntries) (hmem : ix.limits.maxMemoryBytes ≤ 0)
    (hg : a.scope = .global → allowGlobal = true) :
    (ix.putObservation sha256Hex allowGlobal a).1.sealOf a.cacheKey =
        some (putSeal sha256Hex none a) ∧
      (ix.putObservation sha256Hex allowGlobal a).2 = none := by
  have hg' := not_refused hg
  have hnone : ix.entries.get? a.cacheKey = none := by rw [hempty]; rfl
  have hseal : (ix.putEntry sha256Hex a).seal = putSeal sha256Hex (ix.sealOf a.cacheKey) a :=
    putEntry_seal a
  have hover : overLimits { ix with
      entries := ix.entries.set a.cacheKey (ix.putEntry sha256Hex a)
      lru := [a.cacheKey] } = false := by
    simp [overLimits, hempty, Dict.set, Dict.empty, Dict.upsert, Dict.size, hmax, hmem]
  simp [putObservation, hg', hnone, hlru, evictIfNeeded, evictLoop, hover, sealOf, hseal]

/-- The first observation raises nothing, whether it stays or is evicted at once. -/
theorem putObservation_first_ok {a : PutArgs} (hempty : ix.entries = .empty)
    (hlru : ix.lru = []) (hg : a.scope = .global → allowGlobal = true) :
    (ix.putObservation sha256Hex allowGlobal a).2 = none := by
  have hg' := not_refused hg
  have hnone : ix.entries.get? a.cacheKey = none := by rw [hempty]; rfl
  simp only [putObservation, if_neg hg', hnone, hlru, evictIfNeeded, List.nil_append, evictLoop,
    Dict.get?_set_self]
  split <;> rfl

end ThreadWakeIndex

/-- The entry that a call leaves behind when it stores its prefix. -/
def PromptCall.stored (env : Env) (c : PromptCall) (handle : HandleId) : Seal :=
  ⟨.ready, c.scope env, scopeIdFor env.sha256Hex (c.scope env) c.context, some handle⟩

/-- Full generation and prefill succeed, and resuming a handle does too except for a session. -/
def AdapterOutcome.exact : AdapterOutcome := ⟨.cloneRaised, .generated ["ok"], true, some ["ok"]⟩

/-- Full generation succeeds, and nothing of the KV adapter does. -/
def AdapterOutcome.failing : AdapterOutcome := ⟨.cloneRaised, .cloneRaised, false, some ["ok"]⟩

/-- Every call of the KV adapter succeeds. -/
def AdapterOutcome.succeeding : AdapterOutcome :=
  ⟨.generated ["ok"], .generated ["ok"], true, some ["ok"]⟩

namespace Manager

variable {env : Env} {m : Manager} {c : PromptCall} {outcome : AdapterOutcome}

/-- Nothing has been put into the index yet. -/
structure Blank (m : Manager) : Prop where
  entries : m.index.entries = .empty
  lru : m.index.lru = []
  threadTips : m.index.threadTips = .empty
  kv : m.kv = []

theorem init_blank (limits : IndexLimits) : (Manager.init limits).Blank := ⟨rfl, rfl, rfl, rfl⟩

/-- With a continuation that fails, an execution comes to the lookup by key, and up to there
at most a thread tip has changed. -/
theorem executeEphemeral_exact (hc : c.Reuses env) (ho : outcome.continuation = .cloneRaised) :
    ∃ tips o es, m.executeEphemeral env c outcome =
      ((exactPrefix env { m with index := { m.index with threadTips := tips } } c o outcome).1,
        es ++ (exactPrefix env { m with index := { m.index with threadTips := tips } } c o
          outcome).2) := by
  simp only [executeEphemeral, hc.1, hc.2, Bool.true_eq_false, if_false]
  cases c.tipThread env with
  | none => exact ⟨m.index.threadTips, c.observation env, [], by simp⟩
  | some thread =>
    cases hlatest : m.index.getLatestForThread env.sha256Hex thread c.modelId c.backend with
    | none =>
      exact ⟨m.index.threadTips, c.observation env, [], by
        simp only [trySessionContinuation, hlatest]⟩
    | some tip =>
      cases ha : validateMonotonicAppend tip.orderedSegmentHashes
          (c.graph env).orderedSegmentHashes with
      | false =>
        simp only [trySessionContinuation, hlatest, ha, if_true]
        exact ⟨_, _, _, rfl⟩
      | true =>
        simp only [trySessionContinuation, hlatest, ha, ho, Bool.true_eq_false, if_false]
        exact ⟨_, _, _, rfl⟩

theorem executeEphemeral_blank (hb : m.Blank) (hc : c.Reuses env) :
    m.executeEphemeral env c outcome = m.exactPrefix env c (c.observation env) outcome := by
  simp only [executeEphemeral, hc.1, hc.2, Bool.true_eq_false, if_false]
  cases c.tipThread env with
  | none => rfl
  | some thread =>
    simp [trySessionContinuation, ThreadWakeIndex.getLatestForThread, hb.threadTips]

theorem exactPrefix_none (hs : m.index.sealOf (c.cacheKey env) = none) (o : ThreadWakeObservation) :
    ∃ ix, ix.entries = m.index.entries ∧ ix.lru = m.index.lru ∧ ix.limits = m.index.limits ∧
      ix.threadTips = m.index.threadTips ∧
      m.exactPrefix env c o outcome =
        ((ephemeralMiss env { m with index := ix } c o outcome).1,
          .looked c.context none :: (ephemeralMiss env { m with index := ix } c o outcome).2) := by
  have hget : m.index.entries.get? (c.cacheKey env) = none := by
    simpa [ThreadWakeIndex.sealOf] using hs
  refine ⟨{ m.index with missCount := m.index.missCount + 1 }, rfl, rfl, rfl, rfl, ?_⟩
  simp [exactPrefix, ThreadWakeIndex.get, ThreadWakeIndex.visible, hget]

theorem exactPrefix_ready (hs : m.index.sealOf (c.cacheKey env) = some s)
    (hr : s.status = .ready) (hv : s.Visible env.sha256Hex env.allowGlobal c.context)
    (o : ThreadWakeObservation) :
    ∃ e ix, e.seal = s ∧ m.exactPrefix env c o outcome =
      ((ephemeralHit env { m with index := ix } c e o outcome).1,
        .looked c.context (some e) ::
          (ephemeralHit env { m with index := ix } c e o outcome).2) := by
  obtain ⟨e, he, rfl⟩ := ThreadWakeIndex.get_of_visible hs hv (by rw [hr]; decide)
  have hready : e.status = .ready := hr
  refine ⟨e, (m.index.get env.sha256Hex env.allowGlobal (c.cacheKey env) c.context).1, rfl, ?_⟩
  have hfilter : (some e).filter (fun e => e.status = .ready) = some e := by
    simp [Option.filter, hready]
  simp only [exactPrefix, he, hfilter]

theorem storePrefix_ok (hne : c.stableTokens env ≠ [])
    (hput : (m.index.putObservation env.sha256Hex env.allowGlobal
      (c.putArgs env (some m.kv.length))).2 = none) :
    (m.storePrefix env c true).1.kv = m.kv ++ [⟨c.stableTokens env, c⟩] ∧
    (m.storePrefix env c true).1.index.sealOf (c.cacheKey env) =
      ((m.index.putObservation env.sha256Hex env.allowGlobal
        (c.putArgs env (some m.kv.length))).1.markReady (c.cacheKey env)).sealOf
          (c.cacheKey env) ∧
    ∀ k, c.tip env = some k →
      (m.storePrefix env c true).1.view.tip k = some (c.hashes env, some m.kv.length) := by
  have hne' : ¬((c.tokenized env).stablePrefixTokenIds = [] ∨ true = false) := by
    rintro (h | h)
    · exact hne h
    · cases h
  cases hp : m.index.putObservation env.sha256Hex env.allowGlobal
      (c.putArgs env (some m.kv.length)) with
  | mk index err =>
    rw [hp] at hput
    dsimp only at hput
    subst hput
    simp only [storePrefix, if_neg hne', hp]
    cases ht : c.tipThread env with
    | none => exact ⟨rfl, rfl, fun k hk => by simp [PromptCall.tip, ht] at hk⟩
    | some thread =>
      refine ⟨rfl, rfl, fun k hk => ?_⟩
      rw [tip_of_thread ht] at hk
      rw [storeTip_tip, if_pos (Option.some.inj hk).symm]

theorem ephemeralMiss_store (hf : outcome.full = some out) (hp : outcome.prefill = true)
    (o : ThreadWakeObservation) :
    (m.ephemeralMiss env c o outcome).1 = ((m.record o).storePrefix env c true).1 := by
  simp only [ephemeralMiss, hf, hp, fullGeneration]

/-- The first execution on a blank manager prefills its stable prefix. -/
theorem executeEphemeral_first (outcome : AdapterOutcome) (hb : m.Blank) (hc : c.Reuses env)
    (hst : c.Storable env) (hne : c.stableTokens env ≠ []) (hf : outcome.full = some out)
    (hp : outcome.prefill = true) :
    (m.executeEphemeral env c outcome).1.kv = [⟨c.stableTokens env, c⟩] ∧
    (1 ≤ m.index.limits.maxEntries → m.index.limits.maxMemoryBytes ≤ 0 →
      (m.executeEphemeral env c outcome).1.index.sealOf (c.cacheKey env) =
        some (c.stored env 0)) ∧
    ∀ k, c.tip env = some k →
      (m.executeEphemeral env c outcome).1.view.tip k = some (c.hashes env, some 0) := by
  have hs : m.index.sealOf (c.cacheKey env) = none := by
    simp [ThreadWakeIndex.sealOf, hb.entries]
  rw [executeEphemeral_blank hb hc]
  obtain ⟨ix, hentries, hlru, hlimits, -, hmiss⟩ := exactPrefix_none hs (c.observation env)
  rw [hmiss]
  dsimp only
  rw [ephemeralMiss_store hf hp]
  have hempty : ix.entries = .empty := hentries.trans hb.entries
  have hlru' : ix.lru = [] := hlru.trans hb.lru
  obtain ⟨hkv, hseal, htip⟩ := storePrefix_ok (m := record { m with index := ix }
    (c.observation env)) hne (ThreadWakeIndex.putObservation_first_ok hempty hlru' hst)
  have hkv₀ : (record { m with index := ix } (c.observation env)).kv = [] := hb.kv
  simp only [hkv₀, List.nil_append, List.length_nil] at hkv hseal htip
  refine ⟨hkv, ?_, htip⟩
  intro hmax hmem
  have hscope : (c.putArgs env (some 0)).scope = .global → env.allowGlobal = true := hst
  have hfirst : (ix.putObservation env.sha256Hex env.allowGlobal
      (c.putArgs env (some 0))).1.sealOf (c.cacheKey env) =
        some (ThreadWakeIndex.putSeal env.sha256Hex none (c.putArgs env (some 0))) := by
    rw [← hlimits] at hmax hmem
    exact (ThreadWakeIndex.putObservation_first hempty hlru' hmax hmem hscope).1
  rw [hseal, ThreadWakeIndex.markReady_sealOf, if_pos rfl]
  exact congrArg (Option.map _) hfirst

theorem ephemeralHit_events (e : ThreadWakeIndexEntry) (o : ThreadWakeObservation) :
    (m.ephemeralHit env c e o outcome).1.kv = m.kv ∧
    ∀ ev ∈ resumptionEvents .exactPrefix e.kvHandleId c.context (c.tokenized env) outcome.reuse,
      ev ∈ (m.ephemeralHit env c e o outcome).2 := by
  unfold ephemeralHit
  dsimp only
  split
  · exact ⟨rfl, fun ev hev => List.mem_append_left _ hev⟩
  · constructor
    · simp only [fullGeneration]
      split <;> rfl
    · intro ev hev
      exact List.mem_append_left _ hev

/-- An execution that finds a ready entry of its scope resumes from the entry's handle. -/
theorem executeEphemeral_hit (outcome : AdapterOutcome) (hc : c.Reuses env)
    (ho : outcome.continuation = .cloneRaised) (hs : m.index.sealOf (c.cacheKey env) = some s)
    (hr : s.status = .ready) (hv : s.Visible env.sha256Hex env.allowGlobal c.context) :
    (m.executeEphemeral env c outcome).1.kv = m.kv ∧
    (∃ e, e.seal = s ∧ Event.looked c.context (some e) ∈ (m.executeEphemeral env c outcome).2) ∧
    ∀ ev ∈ resumptionEvents .exactPrefix s.handle c.context (c.tokenized env) outcome.reuse,
      ev ∈ (m.executeEphemeral env c outcome).2 := by
  obtain ⟨tips, o, es, hexec⟩ := executeEphemeral_exact (m := m) hc ho
  have hs' : ({ m.index with threadTips := tips } : ThreadWakeIndex).sealOf (c.cacheKey env) =
      some s := hs
  obtain ⟨e, ix, rfl, hexact⟩ := exactPrefix_ready (m := { m with
    index := { m.index with threadTips := tips } }) hs' hr hv o
  obtain ⟨hkv, hevents⟩ := ephemeralHit_events (m := { m with index := ix }) e o
  rw [hexec, hexact]
  refine ⟨hkv, ⟨e, rfl, by simp⟩, fun ev hev => ?_⟩
  apply List.mem_append_right
  exact List.mem_cons_of_mem _ (hevents ev hev)

theorem enabled_of_eligible (h : c.eligible env = true) :
    ¬((requestConfig env c.request).enabled = false ∨
      (requestConfig env c.request).mode = .off) := by
  intro hoff
  have hoff' : (c.config env).enabled = false ∨ (c.config env).mode = .off := hoff
  simp [PromptCall.eligible, evaluateThreadwakePolicy, hoff', ThreadWakeObservation.blank] at h

theorem observeRequest_existing (he : c.eligible env = true) (hst : c.Storable env)
    (hs : m.index.sealOf (c.cacheKey env) = some s) :
    (m.observeRequest env c.request (some c.backend) c.options).1.kv = m.kv ∧
    (m.observeRequest env c.request (some c.backend) c.options).1.index.sealOf (c.cacheKey env) =
      some (ThreadWakeIndex.putSeal env.sha256Hex (some s) (c.putArgs env none)) := by
  have hscope : (c.putArgs env none).scope = .global → env.allowGlobal = true := hst
  have hput : (m.index.putObservation env.sha256Hex env.allowGlobal
      (c.putArgs env none)).1.sealOf (c.cacheKey env) =
        some (ThreadWakeIndex.putSeal env.sha256Hex (some s) (c.putArgs env none)) ∧
      (m.index.putObservation env.sha256Hex env.allowGlobal (c.putArgs env none)).2 = none :=
    ThreadWakeIndex.putObservation_existing hs hscope
  have heligible : (attachBackendKvStatus env (evaluateThreadwakePolicy
      (some (requestGraph env c.request (some c.backend) c.options))
      (requestConfig env c.request)) (some c.backend) none).eligible = true := by
    rw [attachBackendKvStatus_eligible]
    exact he
  cases hp : m.index.putObservation env.sha256Hex env.allowGlobal (c.putArgs env none) with
  | mk index err =>
    rw [hp] at hput
    obtain ⟨hseal, rfl⟩ := hput
    simp only [observeRequest, if_neg (enabled_of_eligible he), recordIndexObservation, heligible,
      Bool.true_eq_false, if_false, hp]
    exact ⟨rfl, hseal⟩

@[simp] theorem fullGeneration_index (o : ThreadWakeObservation) (output : Option (List String)) :
    (m.fullGeneration o output).1.index = m.index := by
  cases output <;> rfl

@[simp] theorem fullGeneration_kv (o : ThreadWakeObservation) (output : Option (List String)) :
    (m.fullGeneration o output).1.kv = m.kv := by
  cases output <;> rfl

theorem executeEphemeral_of_not_reuses (outcome : AdapterOutcome) (hc : ¬c.Reuses env) :
    (m.executeEphemeral env c outcome).1.index = m.index ∧
      (m.executeEphemeral env c outcome).1.kv = m.kv := by
  unfold executeEphemeral
  dsimp only
  split
  · simp only [fullGeneration_index, fullGeneration_kv]
    exact ⟨rfl, rfl⟩
  · next hwant =>
    split
    · simp only [fullGeneration_index, fullGeneration_kv]
      exact ⟨rfl, rfl⟩
    · next hcan =>
      exact absurd ⟨eq_true_of_ne_false hwant, eq_true_of_ne_false hcan⟩ hc

theorem executeEphemeral_failing (hb : m.Blank) :
    (m.executeEphemeral env c .failing).1.Blank := by
  by_cases hc : c.Reuses env
  · have hs : m.index.sealOf (c.cacheKey env) = none := by
      simp [ThreadWakeIndex.sealOf, hb.entries]
    rw [executeEphemeral_blank hb hc]
    obtain ⟨ix, hentries, hlru, -, htips, hmiss⟩ := exactPrefix_none hs (c.observation env)
    rw [hmiss]
    simp only [ephemeralMiss, AdapterOutcome.failing, fullGeneration, storePrefix, or_true, if_true]
    exact ⟨hentries.trans hb.entries, hlru.trans hb.lru, htips.trans hb.threadTips, hb.kv⟩
  · obtain ⟨hindex, hkv⟩ := executeEphemeral_of_not_reuses (m := m) .failing hc
    exact ⟨hindex ▸ hb.entries, hindex ▸ hb.lru, hindex ▸ hb.threadTips, hkv ▸ hb.kv⟩

theorem view_tip_eq {m' : Manager} (h : m'.index.threadTips = m.index.threadTips) (k : String) :
    m'.view.tip k = m.view.tip k := by
  simp only [view, h]

theorem ephemeralHit_tip (e : ThreadWakeIndexEntry) (o : ThreadWakeObservation) (k : String) :
    (m.ephemeralHit env c e o outcome).1.view.tip k = m.view.tip k := by
  apply view_tip_eq
  unfold ephemeralHit
  dsimp only
  split
  · rfl
  · simp only [fullGeneration_index]
    rfl

theorem storePrefix_tip (hk : c.tip env ≠ some k) (prefill : Bool) :
    (m.storePrefix env c prefill).1.view.tip k = m.view.tip k := by
  unfold storePrefix
  dsimp only
  split
  · rfl
  · split
    · next index err hput => exact view_tip_eq (putObservation_tips hput) k
    · next index hput =>
      have hready : { m with
          index := index.markReady (c.cacheKey env)
          kv := m.kv ++ [⟨c.stableTokens env, c⟩] : Manager }.view.tip k = m.view.tip k := by
        apply view_tip_eq
        simp only [ThreadWakeIndex.markReady_threadTips]
        exact putObservation_tips hput
      split
      · exact hready
      · next thread hthread =>
        have hne : k ≠ c.tipKeyOf env thread := by
          rintro rfl
          exact hk (tip_of_thread hthread)
        rw [storeTip_tip, if_neg hne]
        exact hready

theorem exactPrefix_tip (hk : c.tip env ≠ some k) (o : ThreadWakeObservation) :
    (m.exactPrefix env c o outcome).1.view.tip k = m.view.tip k := by
  have hget : { m with index := (m.index.get env.sha256Hex env.allowGlobal (c.cacheKey env)
      c.context).1 : Manager }.view.tip k = m.view.tip k :=
    view_tip_eq (ThreadWakeIndex.get_threadTips _ _) k
  unfold exactPrefix
  dsimp only
  split
  · rw [ephemeralHit_tip, hget]
  · simp only [ephemeralMiss]
    split
    · exact hget
    · dsimp only
      rw [storePrefix_tip hk]
      exact hget

theorem clearTip_tip {thread : String} (hk : k ≠ c.tipKeyOf env thread) :
    (m.clearTip env c thread).view.tip k = m.view.tip k :=
  congrArg (Option.map ThreadTip.link) (Dict.get?_erase_ne hk)

/-- The manager at the end of an attempt to continue. -/
def Attempt.manager : Attempt → Manager
  | finished m _ => m
  | passed m _ _ => m

theorem trySessionContinuation_tip {thread : String} (hk : k ≠ c.tipKeyOf env thread)
    (o : ThreadWakeObservation) (r : Resumption) :
    (m.trySessionContinuation env c thread o r).manager.view.tip k = m.view.tip k := by
  unfold trySessionContinuation
  split
  · rfl
  · split
    · exact clearTip_tip hk
    · dsimp only
      split
      · simp only [Attempt.manager]
        rw [storeTip_tip, if_neg hk]
        rfl
      · exact clearTip_tip hk

/-- A call changes no thread tip but its own. -/
theorem executeEphemeral_tip (hk : c.Reuses env → c.tip env ≠ some k) :
    (m.executeEphemeral env c outcome).1.view.tip k = m.view.tip k := by
  by_cases hc : c.Reuses env
  · have hk' := hk hc
    simp only [executeEphemeral, hc.1, hc.2, Bool.true_eq_false, if_false]
    split
    · exact exactPrefix_tip hk' _
    · next thread hthread =>
      have hne : k ≠ c.tipKeyOf env thread := by
        rintro rfl
        exact hk' (tip_of_thread hthread)
      have htry := trySessionContinuation_tip (m := m) hne (c.observation env)
        outcome.continuation
      split
      · next m' es h =>
        rw [h] at htry
        exact htry
      · next m' o' es h =>
        rw [h] at htry
        dsimp only
        rw [exactPrefix_tip hk']
        exact htry
  · exact view_tip_eq (congrArg _ (executeEphemeral_of_not_reuses outcome hc).1) k

/-- A turn that appends to the tip's turn resumes from the tip's handle and keeps it. -/
theorem executeEphemeral_continue (hc : c.Reuses env) (hk : c.tip env = some k)
    (ht : m.view.tip k = some (hs, handle)) (ha : hs <+: c.hashes env)
    (ho : outcome.continuation = .generated out) :
    (m.executeEphemeral env c outcome).1.view.tip k = some (c.hashes env, handle) ∧
    Event.resumed .session handle (c.tokenized env).dynamicTailTokenIds (c.tokenized env) ∈
      (m.executeEphemeral env c outcome).2 := by
  cases hthread : c.tipThread env with
  | none => simp [PromptCall.tip, hthread] at hk
  | some thread =>
    rw [tip_of_thread hthread] at hk
    cases hk
    cases hlatest : m.index.getLatestForThread env.sha256Hex thread c.modelId c.backend with
    | none =>
      have hnone : m.view.tip (c.tipKeyOf env thread) = none :=
        congrArg (Option.map ThreadTip.link) hlatest
      rw [hnone] at ht
      cases ht
    | some tip =>
      rw [view_tip_of_latest hlatest] at ht
      cases ht
      have happ : validateMonotonicAppend tip.orderedSegmentHashes
          (c.graph env).orderedSegmentHashes = true := (validateMonotonicAppend_iff _ _).2 ha
      simp only [executeEphemeral, hc.1, hc.2, Bool.true_eq_false, if_false, hthread,
        trySessionContinuation, hlatest, happ, ho]
      constructor
      · rw [storeTip_tip, if_pos rfl]
      · exact List.mem_append_left _ (List.mem_pair.2 (.inr rfl))

end Manager

/-- A tokenizer whose template joins the message texts and whose ids are code points. -/
def charTokenizer : MlxTokenizer where
  applyChatTemplate := some (fun messages => some (String.join (messages.map Prod.snd)))
  encode text := some (text.toList.map (fun ch => (ch.toNat : Int)))
  str
    | .str s => s
    | v => v.dumps

/-- A process with the default configuration and the MLX adapters for every backend. -/
def charEnv : Env where
  sha256Hex := id
  defaults := ⟨false, .off, .thread, 1024⟩
  allowGlobal := false
  kvCapability _ := .resumable
  tokenizerCapability _ := .tokenIds
  tokenizePrompt _ graph request := some (mlxTokenizePrompt (some charTokenizer) graph request)

theorem charEnv_splits : charEnv.Splits := by
  intro backend graph request t h
  cases h
  exact mlxTokenizePrompt_split _ _ _

def CallOptions.default : CallOptions := ⟨none, none, none, none⟩

/-- The configuration of a request that asks for reuse in a scope. -/
def ephemeralIn (scope : ThreadWakeScope) : ThreadWakeRequestConfig :=
  ⟨some true, some .ephemeral, some scope, some 1⟩

def textMessage (role text : String) : ChatMessage := ⟨role, .str text, none, none, none⟩

/-- Limits under which one entry fits. -/
def IndexLimits.one : IndexLimits := ⟨1, 0, 0⟩

end Whooshd.ThreadWake
