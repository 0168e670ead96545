import Whooshd.Continuous.Ending

namespace Whooshd.Continuous
set_option autoImplicit true

theorem slotViolations_eq_nil
    (hstate : ∀ slot ∈ slots, slot.requestId ≠ none → slot.state ≠ .released)
    (hseen : ∀ slot ∈ slots, ∀ rid, slot.requestId = some rid → rid ∉ seen)
    (hdistinct : slots.Pairwise fun slot slot' => ∀ rid, slot.requestId = some rid →
      slot'.requestId ≠ some rid) : slotViolations seen slots = [] := by
  induction slots generalizing seen with
  | nil => rfl
  | cons slot slots ih =>
    rw [List.pairwise_cons] at hdistinct
    have hstate' := fun slot hslot => hstate slot (List.mem_cons_of_mem _ hslot)
    rw [slotViolations]
    split
    · exact ih hstate' (fun slot hslot => hseen slot (List.mem_cons_of_mem _ hslot)) hdistinct.2
    · next rid hrid =>
      have hfree : slot.state ≠ .released :=
        hstate slot List.mem_cons_self (by rw [hrid]; exact nofun)
      rw [if_neg hfree, if_neg (hseen slot List.mem_cons_self rid hrid), List.nil_append,
        List.nil_append]
      refine ih hstate' (fun slot' hslot' rid' hrid' => ?_) hdistinct.2
      rw [List.mem_cons, not_or]
      constructor
      · rintro rfl
        exact hdistinct.1 slot' hslot' rid' hrid hrid'
      · exact hseen slot' (List.mem_cons_of_mem _ hslot') rid' hrid'

theorem demuxViolations_eq_nil {ids slotIds : List String} :
    demuxViolations ids slotIds seq chunks = [] ↔
      (∀ c ∈ chunks, c.requestId ∈ ids ∧ c.slotId ∈ slotIds ∧
        (seq.get? c.requestId).getD (-1) < c.sequenceIndex) ∧
      chunks.Pairwise fun c c' =>
        c.requestId = c'.requestId → c.sequenceIndex < c'.sequenceIndex := by
  have hif : ∀ (p : Prop) [Decidable p] (v : ContinuousBatchInvariantViolation),
      (if p then [v] else []) = [] ↔ ¬ p := by
    intro p _ v
    split <;> simp [*]
  induction chunks generalizing seq with
  | nil => simp [demuxViolations]
  | cons chunk chunks ih =>
    simp only [demuxViolations, List.append_eq_nil_iff, hif, Decidable.not_not, not_le, ih,
      List.forall_mem_cons, List.pairwise_cons, Dict.get?_set]
    constructor
    · rintro ⟨⟨⟨hid, hslot⟩, hseq⟩, hrest, hpair⟩
      refine ⟨⟨⟨hid, hslot, hseq⟩, fun c hc => ?_⟩, fun c hc he => ?_, hpair⟩
      · obtain ⟨hid', hslot', hseq'⟩ := hrest c hc
        refine ⟨hid', hslot', ?_⟩
        split at hseq'
        · next he =>
          rw [he]
          exact hseq.trans hseq'
        · exact hseq'
      · have hseq' := (hrest c hc).2.2
        rwa [if_pos he.symm] at hseq'
    · rintro ⟨⟨⟨hid, hslot, hseq⟩, hrest⟩, hhead, hpair⟩
      refine ⟨⟨⟨hid, hslot⟩, hseq⟩, fun c hc => ?_, hpair⟩
      obtain ⟨hid', hslot', hseq'⟩ := hrest c hc
      refine ⟨hid', hslot', ?_⟩
      split
      · next he => exact hhead c hc he.symm
      · exact hseq'

namespace FakeTokenLevelScheduler

variable {s : FakeTokenLevelScheduler}

/-- No chunk of a request that has ended is left. -/
def Fetched (s : FakeTokenLevelScheduler) : Prop := s.EndedAll (·.outputChunks = [])

theorem validateSlots_nil (h : SchedulerOk s) : validateSlotAssignments s.slots = [] := by
  apply slotViolations_eq_nil
  · intro slot hslot hrid
    obtain ⟨rid, hrid⟩ := Option.ne_none_iff_exists'.mp hrid
    rw [(h.seated.owned slot hslot rid hrid).1]
    exact nofun
  · exact fun _ _ _ _ => List.not_mem_nil
  · refine h.seated.ids.of_map.pairwise_of_forall_ne ?_
    intro slot hslot slot' hslot' hne rid hrid hrid'
    obtain ⟨-, phase, -, hseat⟩ := h.seated.owned slot hslot rid hrid
    obtain ⟨-, phase', -, hseat'⟩ := h.seated.owned slot' hslot' rid hrid'
    rw [hseat, Option.some.injEq, Prod.mk.injEq, Option.some.injEq] at hseat'
    exact hne (eq_of_slotId h.seated.ids hslot hslot' hseat'.2)

theorem mem_values : req ∈ s.requests.values ↔ ∃ rid, s.requests.get? rid = some req := by
  simp only [Dict.values, List.mem_map, Dict.get?_eq_some, Prod.exists, exists_eq_right]

theorem mem_live : req ∈ s.live ↔
    (∃ rid, s.requests.get? rid = some req) ∧ req.state.terminal = false := by
  rw [live, List.mem_filter, mem_values, Bool.not_eq_true']

theorem eq_of_handle (h : SchedulerOk s) (hget : s.requests.get? rid = some req)
    (hget' : s.requests.get? rid' = some req')
    (he : req.handle.requestId = req'.handle.requestId) : req = req' := by
  rw [(h.requests rid req hget).handle, (h.requests rid' req' hget').handle] at he
  rw [he, hget'] at hget
  exact (Option.some.inj hget).symm

theorem foldl_reasons_other {reqs : List FakeContinuousRequest}
    (h : ∀ req ∈ reqs, req.handle.requestId ≠ rid)
    (reasons : Dict String ContinuousRequestState) :
    (reqs.foldl (fun reasons req => reasons.set req.handle.requestId req.state) reasons).get? rid =
      reasons.get? rid := by
  induction reqs generalizing reasons with
  | nil => rfl
  | cons req reqs ih =>
    rw [List.forall_mem_cons] at h
    rw [List.foldl_cons, ih h.2, Dict.get?_set_ne h.1.symm]

theorem terminalReasons_none (h : SchedulerOk s) (hlive : req ∈ s.live) :
    s.terminalReasons.get? req.handle.requestId = none := by
  obtain ⟨⟨rid, hget⟩, hlive⟩ := mem_live.mp hlive
  refine foldl_reasons_other (fun req' hreq' he => ?_) _
  obtain ⟨hmem, hterminal⟩ := List.mem_filter.mp hreq'
  obtain ⟨rid', hget'⟩ := mem_values.mp hmem
  rw [eq_of_handle h hget' hget he, hlive] at hterminal
  cases hterminal

theorem validateTerminal_nil (h : SchedulerOk s) :
    validateTerminalStateNotReentered (s.live.map (·.handle)) s.terminalReasons = [] := by
  rw [validateTerminalStateNotReentered, List.flatMap_eq_nil_iff]
  intro handle hhandle
  obtain ⟨req, hlive, rfl⟩ := List.mem_map.mp hhandle
  rw [terminalReasons_none h hlive]
  rfl

theorem chunks_pairwise (h : SchedulerOk s) :
    (s.requests.values.flatMap (·.outputChunks)).Pairwise fun c c' =>
      c.requestId = c'.requestId → c.sequenceIndex < c'.sequenceIndex := by
  rw [List.pairwise_flatMap]
  constructor
  · intro req hreq
    obtain ⟨rid, hget⟩ := mem_values.mp hreq
    refine (h.requests rid req hget).rising.imp ?_
    exact fun hlt _ => hlt
  · rw [Dict.values, List.pairwise_map]
    refine (List.pairwise_map.mp s.requests.nodup).imp_of_mem ?_
    intro e e' he he' hne c hc c' hc' hid
    have hown := (h.requests e.1 e.2 (Dict.get?_eq_some.mpr he)).own c hc
    have hown' := (h.requests e'.1 e'.2 (Dict.get?_eq_some.mpr he')).own c' hc'
    rw [hown.1, hown'.1] at hid
    exact absurd hid hne

theorem validateDemux_nil (h : SchedulerOk s) :
    validateOutputDemux (s.requests.values.flatMap (·.outputChunks))
      ((s.live.map (·.handle)).map (·.requestId)) ((s.live.filterMap (·.slotId)).filter (· ≠ "")) =
        [] ↔ s.Fetched := by
  rw [validateOutputDemux, demuxViolations_eq_nil, and_iff_left (chunks_pairwise h)]
  constructor
  · intro hall rid req hget hterminal
    cases hchunks : req.outputChunks with
    | nil => rfl
    | cons c cs =>
      have hc : c ∈ req.outputChunks := by simp [hchunks]
      have hid := (hall c (List.mem_flatMap.mpr ⟨req, mem_values.mpr ⟨rid, hget⟩, hc⟩)).1
      obtain ⟨handle, hhandle, he⟩ := List.mem_map.mp hid
      obtain ⟨req', hlive, rfl⟩ := List.mem_map.mp hhandle
      obtain ⟨⟨rid', hget'⟩, hlive⟩ := mem_live.mp hlive
      have hok := h.requests rid req hget
      rw [(hok.own c hc).1, ← hok.handle] at he
      rw [eq_of_handle h hget' hget he, hterminal] at hlive
      cases hlive
  · intro hfetched c hc
    obtain ⟨req, hreq, hc⟩ := List.mem_flatMap.mp hc
    obtain ⟨rid, hget⟩ := mem_values.mp hreq
    have hok := h.requests rid req hget
    have hlive : req.state.terminal = false := by
      rw [← Bool.not_eq_true]
      intro hterminal
      rw [hfetched rid req hget hterminal] at hc
      cases hc
    obtain ⟨hid, hslot⟩ := hok.own c hc
    have hmem : req ∈ s.live := mem_live.mpr ⟨⟨rid, hget⟩, hlive⟩
    refine ⟨?_, ?_, ?_⟩
    · rw [hid, ← hok.handle, List.map_map]
      exact List.mem_map_of_mem hmem
    · have hseat : s.seats rid = some (req.phase, some c.slotId) := by
        rw [seats_of_get? hget, FakeContinuousRequest.seat, hslot]
      obtain ⟨slot, hin, he, -⟩ := h.seated.taken rid _ _ hseat
      refine List.mem_filter.mpr ⟨List.mem_filterMap.mpr ⟨req, hmem, hslot.symm⟩, ?_⟩
      rw [decide_eq_true_eq, ← he]
      exact h.seated.named slot hin
    · rw [Dict.get?_empty, Option.getD_none]
      have hbound := (hok.bounded c hc).1
      omega

/-- The validator finds nothing exactly when no chunk of an ended request is left. -/
theorem validate_nil_iff (h : SchedulerOk s) : s.validate = [] ↔ s.Fetched := by
  rw [validate, validateSlots_nil h, validateTerminal_nil h, List.nil_append, List.nil_append]
  exact validateDemux_nil h

/-- The call ends no request that has chunks left. -/
def EndsFetched (s : FakeTokenLevelScheduler) : SchedulerCall → Prop
  | .cancel rid | .timeout rid | .failRequest rid => ∀ req, s.requests.get? rid = some req →
      req.state.terminal = false → req.outputChunks = []
  | .tick => ∀ rid ∈ s.finishers, ∀ req, s.requests.get? rid = some req → req.outputChunks = []
  | .admitRequest _ | .drainOutputs _ => True

instance (s : FakeTokenLevelScheduler) : DecidablePred s.EndsFetched
  | .cancel rid | .timeout rid | .failRequest rid => inferInstanceAs (Decidable
      (∀ req ∈ s.requests.get? rid, req.state.terminal = false → req.outputChunks = []))
  | .tick => inferInstanceAs (Decidable
      (∀ rid ∈ s.finishers, ∀ req ∈ s.requests.get? rid, req.outputChunks = []))
  | .admitRequest _ | .drainOutputs _ => .isTrue trivial

theorem call_fetched (h : Between s (c :: calls)) (hs : s.Fetched) :
    (s.call c).Fetched ↔ s.EndsFetched c := by
  have hclosed : ∀ state reason req, (closed state reason req).outputChunks = [] ↔
      req.outputChunks = [] := by
    intro state reason req
    unfold closed
    split <;> exact Iff.rfl
  refine (call_endedAll h hclosed (fun _ _ => rfl) hs).trans ?_
  cases c with
  | tick =>
    have hticks := tick_ticks h.ok h.idle
    constructor
    · intro hends rid hrid req hget
      obtain ⟨old, new, -, hold, hnew, -, -, hchunks⟩ := hticks.finish rid hrid
      rw [hget] at hold
      cases hold
      exact hchunks.symm.trans (hends rid hrid new hnew)
    · intro hends rid hrid req hget
      obtain ⟨old, new, -, hold, hnew, -, -, hchunks⟩ := hticks.finish rid hrid
      rw [hget] at hnew
      cases hnew
      exact hchunks.trans (hends rid hrid old hold)
  | admitRequest | cancel | timeout | failRequest | drainOutputs => exact Iff.rfl

end FakeTokenLevelScheduler

/-- The validator finds nothing exactly while each request that ends has had its chunks fetched. -/
theorem validate_run_iff (config : FakeContinuousSchedulerConfig) (calls : List SchedulerCall)
    (hids : (admittedIds calls).Nodup) :
    tokenLevelScheduler.EachState (fun s => s.validate = []) (.init config) calls ↔
      tokenLevelScheduler.EachStep FakeTokenLevelScheduler.EndsFetched (.init config) calls := by
  have hstart := FakeTokenLevelScheduler.Between.init config hids
  obtain ⟨r, hrun⟩ := tokenLevelScheduler_exec calls (.init config)
  have hnil : ∀ {s calls}, FakeTokenLevelScheduler.Between s calls →
      (s.validate = [] ↔ s.Fetched) :=
    fun h => FakeTokenLevelScheduler.validate_nil_iff h.ok
  refine Machine.eachState_iff_eachStep_ahead scheduler_between ?_ hstart
    ((hnil hstart).mpr nofun) hrun
  intro s c calls s' out h hp hs
  rw [hnil (scheduler_between h hs)]
  cases hs
  exact FakeTokenLevelScheduler.call_fetched h ((hnil h).mp hp)

theorem validate_run_drained : tokenLevelScheduler.EachState (fun s => s.validate = []) (.init {})
    [.admitRequest ⟨"a"⟩, .tick, .tick, .drainOutputs "a", .cancel "a"] :=
  (validate_run_iff _ _ (by decide)).mpr (by decide +kernel)

/-- A request cancelled with a chunk in its buffer. -/
theorem cancelled_chunk_reported : ¬ tokenLevelScheduler.EachState (fun s => s.validate = [])
    (.init {}) [.admitRequest ⟨"a"⟩, .tick, .tick, .cancel "a"] := by
  decide +kernel

end Whooshd.Continuous
