import Whooshd.ThreadWake.Isolation

namespace Whooshd.ThreadWake
set_option autoImplicit true

/-- One execution is counted: as an observation, as an eligible or an ineligible one, and if
eligible as a hit or a miss. -/
def ThreadWakeMetrics.CountedOnce (before after : ThreadWakeMetrics) (cacheHit : Bool) : Prop :=
  after.observations = before.observations + 1 ∧
    (after.eligible = before.eligible + 1 ∧ after.ineligible = before.ineligible ∧
        after.cacheHits = before.cacheHits + cacheHit.toNat ∧
        after.cacheMisses = before.cacheMisses + (!cacheHit).toNat ∨
      after.eligible = before.eligible ∧ after.ineligible = before.ineligible + 1)

/-- If the call returns, it is counted once, with the cache hit that its result reports. -/
def Metered (before : ThreadWakeMetrics) (after : Manager × List Event) : Prop :=
  ∀ r, .returned r ∈ after.2 → before.CountedOnce after.1.metrics r.cacheHit

namespace ThreadWakeMetrics

theorem record_observations (t : ThreadWakeMetrics) (o : ThreadWakeObservation) :
    (t.record o).observations = t.observations + 1 := by
  rw [record]
  split <;> rfl

theorem record_countedOnce (t : ThreadWakeMetrics) (o : ThreadWakeObservation) :
    t.CountedOnce (t.record o) o.cacheHit := by
  apply And.intro (t.record_observations o)
  rw [record]
  split
  · refine .inl ⟨rfl, rfl, ?_⟩
    cases hhit : o.cacheHit <;> exact ⟨rfl, rfl⟩
  · exact .inr ⟨rfl, rfl⟩

end ThreadWakeMetrics

@[simp] theorem attachTokenizerStatus_cacheHit (env : Env) (o : ThreadWakeObservation)
    (backend : Option String) (tokenized : Option TokenizedPrompt) :
    (attachTokenizerStatus env o backend tokenized).cacheHit = o.cacheHit := by
  simp only [attachTokenizerStatus]
  cases backend with
  | none => rfl
  | some backend =>
    dsimp only
    split
    · rfl
    · rfl
    · cases tokenized with
      | none => rfl
      | some t =>
        dsimp only
        split <;> rfl

@[simp] theorem attachBackendKvStatus_cacheHit (env : Env) (o : ThreadWakeObservation)
    (backend : Option String) (tokenized : Option TokenizedPrompt) :
    (attachBackendKvStatus env o backend tokenized).cacheHit = o.cacheHit := by
  simp only [attachBackendKvStatus]
  cases backend with
  | none => exact attachTokenizerStatus_cacheHit ..
  | some backend =>
    dsimp only
    rw [attachTokenizerStatus_cacheHit]
    split
    · rfl
    · split
      · rfl
      · split
        · split <;> rfl
        · rfl

theorem evaluateThreadwakePolicy_cacheHit (graph : Option PromptGraph) (config : ResolvedConfig) :
    (evaluateThreadwakePolicy graph config).cacheHit = false := by
  simp only [evaluateThreadwakePolicy]
  split
  · rfl
  · cases graph with
    | none => rfl
    | some graph =>
      dsimp only
      split <;> rfl

theorem PromptCall.observation_cacheHit (env : Env) (c : PromptCall) :
    (c.observation env).cacheHit = false := by
  rw [observation, attachBackendKvStatus_cacheHit, evaluateThreadwakePolicy_cacheHit]

namespace Manager

variable {env : Env} {m : Manager} {c : PromptCall} {o : ThreadWakeObservation}

/-- A full generation records its observation, which is no hit, before it returns. -/
theorem fullGeneration_metered (ho : o.cacheHit = false) (output : Option (List String)) :
    Metered m.metrics (m.fullGeneration o output) := by
  intro r hr
  cases output with
  | none => simp [fullGeneration] at hr
  | some output =>
    simp only [fullGeneration, List.mem_singleton, Event.returned.injEq] at hr
    rw [hr, ← ho]
    exact m.metrics.record_countedOnce o

theorem resumptionEvents_returned (path : Path) (handle : Option HandleId) (ctx : ScopeContext)
    (prompt : TokenizedPrompt) (resumption : Resumption) (r : EphemeralResult) :
    .returned r ∉ resumptionEvents path handle ctx prompt resumption := by
  cases resumption <;> simp [resumptionEvents]

/-- A hit is recorded where it returns; if it fails, the full generation records a miss. -/
theorem ephemeralHit_metered (ho : o.cacheHit = false) (e : ThreadWakeIndexEntry)
    (outcome : AdapterOutcome) : Metered m.metrics (m.ephemeralHit env c e o outcome) := by
  intro r hr
  have hevents := resumptionEvents_returned .exactPrefix e.kvHandleId c.context
    (c.tokenized env) outcome.reuse r
  rw [ephemeralHit] at hr ⊢
  cases hreuse : outcome.reuse with
  | generated output =>
    rw [hreuse] at hr hevents
    simp only [List.mem_append, hevents, false_or, List.mem_singleton,
      Event.returned.injEq] at hr
    rw [hr]
    exact m.metrics.record_countedOnce
      { o with cacheHit := true, estimatedPrefillReuseTokens := (c.graph env).stablePrefixTokens }
  | cloneRaised =>
    rw [hreuse] at hr hevents
    simp only [List.mem_append, hevents, false_or] at hr
    exact fullGeneration_metered ho outcome.full r hr
  | generateRaised =>
    rw [hreuse] at hr hevents
    simp only [List.mem_append, hevents, false_or] at hr
    exact fullGeneration_metered ho outcome.full r hr

theorem storePrefix_metrics (prefill : Bool) :
    (m.storePrefix env c prefill).1.metrics = m.metrics ∧
      ∀ r, .returned r ∉ (m.storePrefix env c prefill).2 := by
  simp only [storePrefix]
  split
  · exact ⟨rfl, by simp⟩
  · split
    · exact ⟨rfl, by simp⟩
    · split
      · exact ⟨rfl, by simp⟩
      · exact ⟨rfl, by simp⟩

theorem ephemeralMiss_metered (ho : o.cacheHit = false) (outcome : AdapterOutcome) :
    Metered m.metrics (m.ephemeralMiss env c o outcome) := by
  intro r hr
  rw [ephemeralMiss] at hr ⊢
  cases hfull : outcome.full with
  | none => simp [hfull] at hr
  | some output =>
    simp only [hfull] at hr ⊢
    obtain ⟨hmetrics, hquiet⟩ :=
      @storePrefix_metrics env (m.fullGeneration o (some output)).1 c outcome.prefill
    rw [hmetrics]
    rw [List.mem_append, or_iff_right (hquiet r)] at hr
    exact fullGeneration_metered ho (some output) r hr

theorem exactPrefix_metered (ho : o.cacheHit = false) (outcome : AdapterOutcome) :
    Metered m.metrics (m.exactPrefix env c o outcome) := by
  intro r hr
  simp only [exactPrefix, List.mem_cons, reduceCtorEq, false_or] at hr ⊢
  split at hr
  · exact ephemeralHit_metered ho _ outcome r hr
  · exact ephemeralMiss_metered ho outcome r hr

/-- A continuation that returns is recorded as a hit; one that does not leaves the counters and
the observation's hit as they were. -/
def Attempt.Metered (m : Manager) (o : ThreadWakeObservation) : Attempt → Prop
  | finished m' events => Whooshd.ThreadWake.Metered m.metrics (m', events)
  | passed m' o' events => m'.metrics = m.metrics ∧ o'.cacheHit = o.cacheHit ∧
      ∀ r, .returned r ∉ events

theorem trySessionContinuation_metered (thread : String) (outcome : Resumption) :
    (m.trySessionContinuation env c thread o outcome).Metered m o := by
  have hevents (handle : Option HandleId) :=
    resumptionEvents_returned .session handle c.context (c.tokenized env) outcome
  rw [trySessionContinuation]
  split
  · exact ⟨rfl, rfl, by simp⟩
  · next tip _ =>
    split
    · exact ⟨rfl, rfl, by simp⟩
    · cases outcome with
      | generated output =>
        intro r hr
        simp only [List.mem_append, hevents, false_or, List.mem_singleton,
          Event.returned.injEq] at hr
        rw [hr]
        exact m.metrics.record_countedOnce
          { o with
            cacheHit := true
            estimatedPrefillReuseTokens :=
              sumTokens ((c.graph env).segments.take tip.segmentCount) }
      | cloneRaised => exact ⟨rfl, rfl, hevents tip.kvHandleId⟩
      | generateRaised => exact ⟨rfl, rfl, hevents tip.kvHandleId⟩

/-- An execution that may reuse KV state is counted once, whichever way it takes. -/
theorem executeEphemeral_metered (hc : c.Reuses env) (outcome : AdapterOutcome) :
    Metered m.metrics (m.executeEphemeral env c outcome) := by
  have hmiss := c.observation_cacheHit env
  simp only [executeEphemeral, hc.1, hc.2, Bool.true_eq_false, if_false]
  cases c.tipThread env with
  | none => exact exactPrefix_metered hmiss outcome
  | some thread =>
    have htry :=
      @trySessionContinuation_metered env m c (c.observation env) thread outcome.continuation
    dsimp only
    cases hattempt : m.trySessionContinuation env c thread (c.observation env)
        outcome.continuation with
    | finished m' events =>
      rw [hattempt] at htry
      exact htry
    | passed m' o events =>
      rw [hattempt] at htry
      obtain ⟨hmetrics, hhit, hquiet⟩ := htry
      intro r hr
      rw [List.mem_append, or_iff_right (hquiet r)] at hr
      rw [← hmetrics]
      exact exactPrefix_metered (hhit.trans hmiss) outcome r hr

/-- An execution that may not reuse KV state has its observation recorded before the full
generation, which records it again. -/
theorem executeEphemeral_twice (hc : ¬c.Reuses env) (outcome : AdapterOutcome) :
    ∃ o, m.executeEphemeral env c outcome = fullGeneration (m.record o) o outcome.full := by
  rw [executeEphemeral]
  split
  · exact ⟨_, rfl⟩
  · next hwants =>
    have hcan : c.canReuse env = false := by
      by_contra h
      exact hc ⟨Bool.eq_true_of_not_eq_false hwants, Bool.eq_true_of_not_eq_false h⟩
    rw [if_pos hcan]
    exact ⟨_, rfl⟩

theorem executeEphemeral_overcounted {outcome : AdapterOutcome} (hc : ¬c.Reuses env)
    (hfull : outcome.full = some output) :
    ¬Metered m.metrics (m.executeEphemeral env c outcome) := by
  obtain ⟨o, ho⟩ := executeEphemeral_twice (m := m) hc outcome
  rw [ho, hfull]
  intro h
  have hcount : ((m.metrics.record o).record o).observations = m.metrics.observations + 1 :=
    (h _ (List.mem_singleton.mpr rfl)).1
  rw [ThreadWakeMetrics.record_observations, ThreadWakeMetrics.record_observations] at hcount
  omega

/-- An execution that returns is counted once exactly if it may reuse KV state. -/
theorem executeEphemeral_metered_iff (env : Env) (m : Manager) (c : PromptCall)
    (outcome : AdapterOutcome) :
    Metered m.metrics (m.executeEphemeral env c outcome) ↔
      c.Reuses env ∨ outcome.full = none := by
  by_cases hc : c.Reuses env
  · exact ⟨fun _ => .inl hc, fun _ => executeEphemeral_metered hc outcome⟩
  · rw [or_iff_right hc]
    cases hfull : outcome.full with
    | none =>
      obtain ⟨o, ho⟩ := executeEphemeral_twice (m := m) hc outcome
      rw [ho, hfull]
      exact ⟨fun _ => rfl, fun _ r hr => by simp [fullGeneration] at hr⟩
    | some output =>
      constructor
      · intro h
        exact absurd h (executeEphemeral_overcounted hc hfull)
      · intro h
        cases h

/-- A chat that asks for no reuse counts as two observations. -/
theorem plain_chat_counted_twice : ¬ ∀ (env : Env) (m : Manager) (c : PromptCall)
    (outcome : AdapterOutcome), Metered m.metrics (m.executeEphemeral env c outcome) := by
  intro h
  let plain : PromptCall :=
    { userChat "alice" with request := { (userChat "alice").request with threadwake := none } }
  have hplain : plain.wantsReuse charEnv = false := by decide +kernel
  refine executeEphemeral_overcounted (c := plain) (fun hr => ?_) rfl
    (h charEnv (.init .one) plain .exact)
  have hwants := hr.1
  rw [hplain] at hwants
  cases hwants

end Manager

end Whooshd.ThreadWake
