import Mathlib
import Whooshd.TokenStep.Turns

namespace Whooshd.TokenStep
set_option autoImplicit true

variable {b : FakeTokenStepBackend}

/-- The handle of the sequence with a number. -/
def seqHandle (n : Nat) : FakeSequenceHandle := ⟨"seq-" ++ Nat.repr n⟩

theorem seqHandle_inj (h : (seqHandle m).sequenceId = (seqHandle n).sequenceId) : m = n :=
  Nat.repr_injective ((String.append_right_inj _).mp h)

theorem prefill_shows (b : FakeTokenStepBackend) (req : TokenStepRequest) :
    BackendShows (b.prefill req).1 req (seqHandle b.nextId) ⟨.readyToDecode, 0⟩ :=
  ⟨Dict.get?_set_self _ _, Dict.get?_set_self _ _, Dict.get?_set_self _ _, Dict.get?_set_self _ _,
    Dict.get?_set_self _ _⟩

theorem prefill_other (h : BackendShows b req (seqHandle n) t) (hn : n < b.nextId)
    (req' : TokenStepRequest) : BackendShows (b.prefill req').1 req (seqHandle n) t := by
  have hne : (seqHandle n).sequenceId ≠ (seqHandle b.nextId).sequenceId := by
    intro he
    exact absurd (seqHandle_inj he) (by omega)
  exact ⟨(Dict.get?_set_ne hne _).trans h.state, (Dict.get?_set_ne hne _).trans h.steps,
    (Dict.get?_set_ne hne _).trans h.maxTokens, (Dict.get?_set_ne hne _).trans h.sampler,
    (Dict.get?_set_ne hne _).trans h.rid⟩

theorem prefillAll_spec (b : FakeTokenStepBackend) (requests : List TokenStepRequest) :
    (prefillAll b requests).2 = (List.range' b.nextId requests.length).map seqHandle ∧
    (∀ p ∈ requests.zip (prefillAll b requests).2,
      BackendShows (prefillAll b requests).1 p.1 p.2 ⟨.readyToDecode, 0⟩) ∧
    ∀ req n t, n < b.nextId → BackendShows b req (seqHandle n) t →
      BackendShows (prefillAll b requests).1 req (seqHandle n) t := by
  induction requests generalizing b with
  | nil => exact ⟨rfl, nofun, fun _ _ _ _ h => h⟩
  | cons req requests ih =>
    obtain ⟨hhandles, hshows, hkeep⟩ := ih (b.prefill req).1
    have hfst : (prefillAll b (req :: requests)).1 = (prefillAll (b.prefill req).1 requests).1 :=
      rfl
    have hsnd : (prefillAll b (req :: requests)).2 =
        seqHandle b.nextId :: (prefillAll (b.prefill req).1 requests).2 := rfl
    refine ⟨?_, ?_, ?_⟩
    · rw [hsnd, hhandles, List.length_cons, List.range'_succ, List.map_cons]
      rfl
    · intro p hp
      rw [hsnd, List.zip_cons_cons] at hp
      rw [hfst]
      rcases List.mem_cons.mp hp with rfl | hp
      · exact hkeep _ _ _ (Nat.lt_succ_self _) (prefill_shows b req)
      · exact hshows p hp
    · intro req' n t hn h
      rw [hfst]
      exact hkeep req' n t (Nat.lt_succ_of_lt hn) (prefill_other h hn req)

section Setting

variable {pairs : List (TokenStepRequest × FakeSequenceHandle)}

theorem routesOf_get? (hrids : (pairs.map (·.1.requestId)).Nodup) (rid : String)
    (h : FakeSequenceHandle) :
    (routesOf (pairs.map Prod.fst) (pairs.map Prod.snd)).get? rid = some h ↔
      ∃ p ∈ pairs, p.1.requestId = rid ∧ p.2 = h := by
  have hentries : routesOf (pairs.map Prod.fst) (pairs.map Prod.snd) =
      (pairs.map fun p => (p.1.requestId, p.2)).foldl (fun d e => d.set e.1 e.2) .empty := by
    rw [routesOf, List.zip_map', List.foldl_map, List.foldl_map]
  rw [hentries, Dict.get?_foldl_entries (by rwa [List.map_map]), List.mem_map]
  simp only [Prod.mk.injEq]

theorem initAccumulators_get? {requests : List TokenStepRequest}
    (hids : (requests.map (·.requestId)).Nodup) (hreq : req ∈ requests) :
    (initAccumulators requests).get? req.requestId = some [] := by
  have hentries : initAccumulators requests =
      (requests.map fun req => (req.requestId, [])).foldl (fun d e => d.set e.1 e.2) .empty := by
    rw [initAccumulators, List.foldl_map]
  rw [hentries, Dict.get?_foldl_entries (by rwa [List.map_map])]
  exact List.mem_map_of_mem hreq

theorem settingOf_routed (hrids : (pairs.map (·.1.requestId)).Nodup)
    (hsids : (pairs.map (·.2.sequenceId)).Nodup) (plans : Plans) :
    Routed pairs (settingOf (pairs.map Prod.fst) (pairs.map Prod.snd) plans) := by
  have hroutes : ∀ p ∈ pairs, (routesOf (pairs.map Prod.fst) (pairs.map Prod.snd)).get?
      p.1.requestId = some p.2 := fun p hp => (routesOf_get? hrids _ _).mpr ⟨p, hp, rfl, rfl⟩
  refine ⟨hrids, hsids, rfl, hroutes, fun rid h => (routesOf_get? hrids rid h).mp, ?_⟩
  have hentries : reverseRoutesOf (pairs.map Prod.fst)
      (routesOf (pairs.map Prod.fst) (pairs.map Prod.snd)) =
      (pairs.map fun p => (p.2.sequenceId, p.1.requestId)).foldl (fun d e => d.set e.1 e.2)
        .empty := by
    rw [reverseRoutesOf, List.foldl_map, List.foldl_map]
    apply List.foldl_ext
    intro d p hp
    rw [hroutes p hp]
  intro p hp
  refine (congrArg (fun d => d.get? p.2.sequenceId) hentries).trans ?_
  rw [Dict.get?_foldl_entries (by rwa [List.map_map])]
  exact List.mem_map_of_mem hp

end Setting

/-- The finish reason of a sequence in a state. -/
def reasonOf : TokenStepSequenceState → String
  | .cancelled => "cancelled"
  | .timedOut => "timeout"
  | .failed => "error"
  | _ => "stop"

/-- What a request gets, whatever else runs with it. -/
def ownResult (plans : Plans) (req : TokenStepRequest) : TokenStepResult :=
  { requestId := req.requestId
    content := " ".intercalate ((List.range (final plans req).steps).map (tokenOf req))
    finishReason := reasonOf (final plans req).state }

theorem final_state (plans : Plans) (req : TokenStepRequest) :
    (final plans req).state = .finished ∨ (final plans req).state = .cancelled ∨
      (final plans req).state = .timedOut ∨ (final plans req).state = .failed := by
  have hdone := final_done plans req
  unfold Track.done at hdone
  split at hdone <;> simp_all

theorem resultsOf_eq {pairs : List (TokenStepRequest × FakeSequenceHandle)} {setting : Setting}
    {s : Run} (hr : Routed pairs setting) (h : Mirrors pairs s (final plans)) :
    resultsOf (pairs.map Prod.fst) setting.routes s =
      (pairs.map Prod.fst).map (ownResult plans) := by
  rw [resultsOf]
  apply List.map_congr_left
  intro req hreq
  obtain ⟨p, hp, rfl⟩ := List.mem_map.mp hreq
  rw [contentOf, h.texts p hp, hr.routes p hp, Option.getD_some, Option.elim_some, finishReason,
    (h.backend p hp).state, ownResult]
  cases (final plans p.1).state <;> rfl

/-- The counters of the report count the results. -/
structure Counts (report : TokenStepSchedulerReport) (results : List TokenStepResult) : Prop where
  finished : report.sequencesFinished = results.countP (·.finishReason = "stop")
  cancelled : report.sequencesCancelled = results.countP (·.finishReason = "cancelled")
  timedOut : report.sequencesTimedOut = results.countP (·.finishReason = "timeout")
  failed : report.sequencesFailed = results.countP (·.finishReason = "error")
  total : report.sequencesFinished + report.sequencesCancelled + report.sequencesTimedOut +
    report.sequencesFailed = report.requestCount

theorem countP_reason (plans : Plans) (requests : List TokenStepRequest)
    {state : TokenStepSequenceState} (hstate : state = .finished ∨ state = .cancelled ∨
      state = .timedOut ∨ state = .failed) (text : String) (htext : reasonOf state = text) :
    (requests.map (ownResult plans)).countP (·.finishReason = text) =
      requests.countP fun req => (final plans req).state = state := by
  subst htext
  rw [List.countP_map]
  apply List.countP_congr
  intro req _
  have hreason : (ownResult plans req).finishReason = reasonOf (final plans req).state := rfl
  rw [Function.comp, decide_eq_true_eq, decide_eq_true_eq, hreason]
  rcases final_state plans req with he | he | he | he <;>
    rcases hstate with rfl | rfl | rfl | rfl <;> rw [he] <;> decide

theorem countP_total (plans : Plans) (requests : List TokenStepRequest) :
    requests.length = requests.countP (fun req => (final plans req).state = .finished) +
      requests.countP (fun req => (final plans req).state = .cancelled) +
      requests.countP (fun req => (final plans req).state = .timedOut) +
      requests.countP (fun req => (final plans req).state = .failed) := by
  induction requests with
  | nil => rfl
  | cons req requests ih =>
    simp only [List.countP_cons, List.length_cons]
    rcases final_state plans req with he | he | he | he <;> simp [he] <;> omega

theorem loop_mono {setting : Setting} {s : Run} (h : Run.loop setting fuel s = some r)
    (hle : fuel ≤ fuel') : Run.loop setting fuel' s = some r := by
  induction fuel generalizing fuel' s with
  | zero => cases h
  | succ fuel ih =>
    obtain ⟨fuel', rfl⟩ : ∃ n, fuel' = n + 1 := ⟨fuel' - 1, by omega⟩
    rw [Run.loop] at h ⊢
    dsimp only at h ⊢
    split at h
    · next hactive => rwa [if_pos hactive]
    · next hactive =>
      rw [if_neg hactive]
      split at h
      · next hshared => rwa [if_pos hshared]
      · next hshared =>
        rw [if_neg hshared]
        split at h
        · next hactive' => rwa [if_pos hactive']
        · next hactive' =>
          rw [if_neg hactive']
          split at h
          · exact h
          · exact ih h (by omega)

theorem start_mirrors (requests : List TokenStepRequest) (backend : FakeTokenStepBackend)
    (plans : Plans) (hids : (requests.map (·.requestId)).Nodup) :
    ∃ pairs, pairs.map Prod.fst = requests ∧ pairs.map Prod.snd = (prefillAll backend requests).2 ∧
      Routed pairs (settingOf requests (prefillAll backend requests).2 plans) ∧
      Mirrors pairs { backend := (prefillAll backend requests).1
                      accumulators := initAccumulators requests }
        (fun req => track plans req 0) := by
  obtain ⟨hhandles, hshows, -⟩ := prefillAll_spec backend requests
  have hlength : (prefillAll backend requests).2.length = requests.length := by
    rw [hhandles, List.length_map, List.length_range']
  have hfst : (requests.zip (prefillAll backend requests).2).map Prod.fst = requests :=
    List.map_fst_zip (by omega)
  have hsnd : (requests.zip (prefillAll backend requests).2).map Prod.snd =
      (prefillAll backend requests).2 := List.map_snd_zip (by omega)
  have hrids : ((requests.zip (prefillAll backend requests).2).map (·.1.requestId)).Nodup := by
    rw [← hfst, List.map_map] at hids
    exact hids
  have hsids : ((requests.zip (prefillAll backend requests).2).map (·.2.sequenceId)).Nodup := by
    have hnodup : ((prefillAll backend requests).2.map (·.sequenceId)).Nodup := by
      rw [hhandles, List.map_map]
      exact List.Nodup.map (fun m n he => seqHandle_inj he) (List.nodup_range' _)
    rw [← hsnd, List.map_map] at hnodup
    exact hnodup
  have hrouted := settingOf_routed hrids hsids plans
  rw [hfst, hsnd] at hrouted
  refine ⟨_, hfst, hsnd, hrouted, hshows, fun _ _ _ => .inl rfl, ?_, ?_, ?_, ?_⟩
  · intro p hp
    have hreq : p.1 ∈ requests := by
      rw [← hfst]
      exact List.mem_map_of_mem hp
    exact initAccumulators_get? hids hreq
  · exact (List.countP_eq_zero.mpr fun _ _ => Bool.false_ne_true).symm
  · exact (List.countP_eq_zero.mpr fun _ _ => Bool.false_ne_true).symm
  · exact (List.countP_eq_zero.mpr fun _ _ => Bool.false_ne_true).symm

/-- A run ends, and every request has its own result. -/
theorem schedule_ends (requests : List TokenStepRequest) (backend : FakeTokenStepBackend)
    (plans : Plans) (hne : requests ≠ []) (hids : (requests.map (·.requestId)).Nodup) :
    ∃ out turns, (∀ fuel ≥ turns,
        runFakeTokenStepSchedule fuel requests backend plans = some (.ok out)) ∧
      out.results = requests.map (ownResult plans) ∧ Counts out.report out.results := by
  obtain ⟨pairs, hfst, hsnd, hrouted, hstart⟩ := start_mirrors requests backend plans hids
  have hfuel : ∀ p ∈ pairs, p.1.maxTokens.toNat + 1 ≤
      0 + (requests.map fun req => req.maxTokens.toNat + 1).sum := by
    intro p hp
    rw [Nat.zero_add]
    refine List.single_le_sum (fun _ _ => Nat.zero_le _) _ ?_
    rw [← hfst]
    exact List.mem_map.mpr ⟨p.1, List.mem_map_of_mem hp, rfl⟩
  obtain ⟨s, hloop, hend⟩ := loop_ends hrouted _ hstart hfuel
  have hresults : (s.outcome requests
      (settingOf requests (prefillAll backend requests).2 plans)).results =
        requests.map (ownResult plans) := by
    have hpairs := resultsOf_eq hrouted hend
    rwa [hfst] at hpairs
  have hcount : ∀ state, pairs.countP (fun p => (final plans p.1).state = state) =
      requests.countP fun req => (final plans req).state = state := by
    intro state
    rw [← hfst, List.countP_map]
    rfl
  refine ⟨s.outcome requests (settingOf requests (prefillAll backend requests).2 plans),
    (requests.map fun req => req.maxTokens.toNat + 1).sum + 1, fun fuel hle => ?_, hresults, ?_⟩
  · rw [runFakeTokenStepSchedule, if_neg hne]
    dsimp only
    rw [loop_mono hloop hle]
  · have hfinished := countP_total plans requests
    have hcancelled := hend.cancelled.trans (hcount .cancelled)
    have htimedOut := hend.timedOut.trans (hcount .timedOut)
    have hfailed := hend.failed.trans (hcount .failed)
    rw [← countP_reason plans requests (.inl rfl) "stop" rfl] at hfinished
    rw [← countP_reason plans requests (.inr (.inl rfl)) "cancelled" rfl] at hfinished hcancelled
    rw [← countP_reason plans requests (.inr (.inr (.inl rfl))) "timeout" rfl]
      at hfinished htimedOut
    rw [← countP_reason plans requests (.inr (.inr (.inr rfl))) "error" rfl] at hfinished hfailed
    rw [← hresults] at hfinished hcancelled htimedOut hfailed
    have hreport : (s.outcome requests (settingOf requests (prefillAll backend requests).2
        plans)).report.sequencesFinished =
          requests.length - s.cancelled - s.timedOut - s.failed := rfl
    refine ⟨?_, hcancelled, htimedOut, hfailed, ?_⟩
    · rw [hreport]
      omega
    · rw [hreport]
      simp only [Run.outcome, reportOf]
      omega

theorem schedule_eq_own (hfuel : runFakeTokenStepSchedule fuel requests backend plans =
    some (.ok out)) (hids : (requests.map (·.requestId)).Nodup) :
    out.results = requests.map (ownResult plans) := by
  have hne : requests ≠ [] := by
    rintro rfl
    cases hfuel
  obtain ⟨out', turns, hturns, hresults, -⟩ := schedule_ends requests backend plans hne hids
  have hmono : runFakeTokenStepSchedule (max fuel turns) requests backend plans =
      some (.ok out) := by
    rw [runFakeTokenStepSchedule, if_neg hne] at hfuel ⊢
    dsimp only at hfuel ⊢
    split at hfuel
    · cases hfuel
    · cases hfuel
    · next hloop =>
      rw [loop_mono hloop (Nat.le_max_left _ _)]
      exact hfuel
  rw [hturns _ (Nat.le_max_right _ _)] at hmono
  cases hmono
  exact hresults

/-- The first tokens of a request, all of them unless a plan ended it. -/
def OwnTokens (req : TokenStepRequest) (res : TokenStepResult) : Prop :=
  res.requestId = req.requestId ∧ ∃ k : Nat, (k : Int) ≤ max req.maxTokens 0 ∧
    res.content = " ".intercalate
      ((List.range k).map fun i => tokenText req.requestId req.samplerLabel i) ∧
    (res.finishReason = "stop" → (k : Int) = max req.maxTokens 0)

theorem ownResult_ownTokens (plans : Plans) (req : TokenStepRequest) :
    OwnTokens req (ownResult plans req) := by
  have hon := track_onTrack plans req (req.maxTokens.toNat + 1)
  have hbounded : (final plans req).steps ≤ req.maxTokens.toNat := hon.bounded
  refine ⟨rfl, (final plans req).steps, by omega, rfl, ?_⟩
  intro hstop
  have hreason : reasonOf (final plans req).state = "stop" := hstop
  have hfinished : (final plans req).state = .finished := by
    rcases final_state plans req with he | he | he | he
    · exact he
    all_goals
      rw [he] at hreason
      exact absurd hreason (by decide)
  have hsteps : (final plans req).steps = req.maxTokens.toNat := hon.finished hfinished
  omega

/-- Every schedule ends, with a result for each request that is its own alone and a report that
counts the results. -/
theorem schedule_contract (requests : List TokenStepRequest) (backend : FakeTokenStepBackend)
    (plans : Plans) (hne : requests ≠ []) (hids : (requests.map (·.requestId)).Nodup) :
    ∃ out turns, (∀ fuel ≥ turns,
        runFakeTokenStepSchedule fuel requests backend plans = some (.ok out)) ∧
      List.Forall₂ OwnTokens requests out.results ∧
      (∀ fuel requests' backend' out', (requests'.map (·.requestId)).Nodup →
        runFakeTokenStepSchedule fuel requests' backend' plans = some (.ok out') →
        ∀ req ∈ requests, req ∈ requests' → ∀ res ∈ out.results, ∀ res' ∈ out'.results,
          res.requestId = req.requestId → res'.requestId = req.requestId → res = res') ∧
      Counts out.report out.results := by
  obtain ⟨out, turns, hturns, hresults, hcounts⟩ := schedule_ends requests backend plans hne hids
  refine ⟨out, turns, hturns, ?_, ?_, hcounts⟩
  · rw [hresults, List.forall₂_map_right_iff, List.forall₂_same]
    exact fun req _ => ownResult_ownTokens plans req
  · intro fuel requests' backend' out' hids' hrun req hreq hreq' res hres res' hres' hid hid'
    have hown : ∀ {reqs : List TokenStepRequest}, (reqs.map (·.requestId)).Nodup → req ∈ reqs →
        ∀ r ∈ reqs.map (ownResult plans), r.requestId = req.requestId →
          r = ownResult plans req := by
      intro reqs hnodup hmem r hr he
      obtain ⟨req', hreq', rfl⟩ := List.mem_map.mp hr
      rw [List.inj_on_of_nodup_map hnodup hreq' hmem he]
    rw [hresults] at hres
    rw [schedule_eq_own hrun hids'] at hres'
    rw [hown hids hreq res hres hid, hown hids' hreq' res' hres' hid']

theorem schedule_contract_two :
    ∃ out turns, (∀ fuel ≥ turns,
        runFakeTokenStepSchedule fuel [⟨"a", 2, "x"⟩, ⟨"b", 3, "y"⟩] {}
          { cancellation := [⟨"b", 1⟩] } = some (.ok out)) ∧
      List.Forall₂ OwnTokens [⟨"a", 2, "x"⟩, ⟨"b", 3, "y"⟩] out.results ∧
      Counts out.report out.results := by
  obtain ⟨out, turns, hturns, howns, -, hcounts⟩ :=
    schedule_contract [⟨"a", 2, "x"⟩, ⟨"b", 3, "y"⟩] {} { cancellation := [⟨"b", 1⟩] }
      (by decide) (by decide)
  exact ⟨out, turns, hturns, howns, hcounts⟩

end Whooshd.TokenStep
