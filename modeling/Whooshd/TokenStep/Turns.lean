import Whooshd.TokenStep.Mirror

namespace Whooshd.TokenStep
set_option autoImplicit true

variable {pairs : List (TokenStepRequest × FakeSequenceHandle)} {setting : Setting} {s : Run}
  {f : TokenStepRequest → Track}

theorem Track.decoded_of_done {t : Track} (h : t.done = true) (n : Int) : t.decoded n = t :=
  if_pos h

theorem Track.decoded_of_live {t : Track} (h : t.done = false) (n : Int) :
    t.decoded n = if (t.steps : Int) < n then { state := .decoding, steps := t.steps + 1 }
      else { t with state := .finished } :=
  if_neg (by rw [h]; exact Bool.false_ne_true)

theorem Track.decoded_state {t : Track} {state : TokenStepSequenceState}
    (hstate : state = .cancelled ∨ state = .timedOut ∨ state = .failed)
    (hproper : t.done = false → t.state = .readyToDecode ∨ t.state = .decoding) (n : Int) :
    (t.decoded n).state = state ↔ t.state = state := by
  cases h : t.done with
  | true => rw [Track.decoded_of_done h]
  | false =>
    rw [Track.decoded_of_live h]
    rcases hstate with rfl | rfl | rfl <;> rcases hproper h with he | he <;> rw [he] <;> split <;>
      exact ⟨nofun, nofun⟩

theorem decoded_texts {t : Track} (h : t.done = false) (req : TokenStepRequest) :
    (List.range t.steps).map (tokenOf req) ++ (emitted t req).toList =
      (List.range (t.decoded req.maxTokens).steps).map (tokenOf req) := by
  rw [Track.decoded_of_live h, emitted]
  split
  · rw [Option.toList_some, List.range_succ, List.map_append, List.map_singleton]
  · rw [Option.toList_none, List.append_nil]

namespace Mirrors

theorem decode (h : Mirrors pairs s f) (hr : Routed pairs setting) :
    ∃ backend outputs accumulators,
      s.backend.decodeStep (s.active setting.handles) = (backend, outputs) ∧
      Run.deliver setting.reverseRoutes s.accumulators outputs.entries = .ok accumulators ∧
      Mirrors pairs { s with backend, accumulators, stepCount := s.stepCount + 1 }
        (fun req => (f req).decoded req.maxTokens) := by
  have hlive : ∀ q, q ∈ pairs.filter (fun p => !(f p.1).done) ↔
      q ∈ pairs ∧ (f q.1).done = false := by
    intro q
    rw [List.mem_filter, Bool.not_eq_true']
  have hqs : ∀ q ∈ pairs.filter fun p => !(f p.1).done, q ∈ pairs ∧
      BackendShows s.backend q.1 q.2 (f q.1) ∧ (f q.1).done = false ∧
        ((f q.1).state = .readyToDecode ∨ (f q.1).state = .decoding) := by
    intro q hq
    obtain ⟨hmem, hdone⟩ := (hlive q).mp hq
    exact ⟨hmem, h.backend q hmem, hdone, h.proper q hmem hdone⟩
  have hnodup := hr.nodup.filter fun p => !(f p.1).done
  obtain ⟨backend, outputs, heq, hdecoded, hothers, hentries⟩ :=
    decodeFold hr hnodup hqs .empty fun _ _ => rfl
  obtain ⟨accumulators, hok, htexts⟩ := deliver_outputs hr hnodup (fun q hq => (hqs q hq).1)
    (fun req => (List.range (f req).steps).map (tokenOf req)) h.texts
    (fun req => emitted (f req) req)
  refine ⟨backend, outputs, accumulators, ?_, ?_, ?_⟩
  · rw [h.active hr]
    exact heq
  · rw [hentries]
    exact hok
  · have hcount : ∀ state, (state = .cancelled ∨ state = .timedOut ∨ state = .failed) →
        pairs.countP (fun p => ((f p.1).decoded p.1.maxTokens).state = state) =
          pairs.countP fun p => (f p.1).state = state := by
      intro state hstate
      apply List.countP_congr
      intro p hp
      rw [decide_eq_true_eq, decide_eq_true_eq,
        Track.decoded_state hstate (h.proper p hp) p.1.maxTokens]
    constructor
    · intro p hp
      cases hdone : (f p.1).done with
      | true =>
        rw [Track.decoded_of_done hdone]
        refine hothers p hp (fun hmem => ?_) _ (h.backend p hp)
        rw [((hlive p).mp hmem).2] at hdone
        cases hdone
      | false => exact hdecoded p ((hlive p).mpr ⟨hp, hdone⟩)
    · intro p hp
      cases hdone : (f p.1).done with
      | true =>
        rw [Track.decoded_of_done hdone]
        exact h.proper p hp
      | false =>
        rw [Track.decoded_of_live hdone]
        split
        · exact fun _ => .inr rfl
        · exact nofun
    · intro p hp
      rw [htexts p hp]
      cases hdone : (f p.1).done with
      | true =>
        rw [Track.decoded_of_done hdone, if_neg]
        intro hmem
        rw [((hlive p).mp hmem).2] at hdone
        cases hdone
      | false => rw [if_pos ((hlive p).mpr ⟨hp, hdone⟩), decoded_texts hdone]
    · exact h.cancelled.trans (hcount _ (.inl rfl)).symm
    · exact h.timedOut.trans (hcount _ (.inr (.inl rfl))).symm
    · exact h.failed.trans (hcount _ (.inr (.inr rfl))).symm

theorem active_eq_nil (h : Mirrors pairs s f) (hr : Routed pairs setting) :
    s.active setting.handles = [] ↔ ∀ p ∈ pairs, (f p.1).done = true := by
  rw [h.active hr, List.map_eq_nil_iff, List.filter_eq_nil_iff]
  simp

end Mirrors

theorem applyOne_stepCount (routes : Dict String FakeSequenceHandle) (ending : Ending) (s : Run)
    (rid : String) : (Run.applyOne routes ending s rid).stepCount = s.stepCount := by
  unfold Run.applyOne
  split
  · rfl
  · split
    · rfl
    · cases ending <;> rfl

theorem apply_stepCount (s : Run) (setting : Setting) (plan : Dict Int (List String))
    (ending : Ending) : (s.apply setting plan ending).stepCount = s.stepCount := by
  unfold Run.apply
  generalize (plan.get? s.stepCount).getD [] = rids
  induction rids generalizing s with
  | nil => rfl
  | cons rid rids ih => exact (ih _).trans (applyOne_stepCount _ _ _ _)

theorem Mirrors.plans (h : Mirrors pairs s f) (hr : Routed pairs setting) :
    Mirrors pairs (((s.apply setting setting.plans.cancelAt .cancel).apply setting
      setting.plans.timeoutAt .timeout).apply setting setting.plans.failAt .fail)
      (fun req => (f req).planned setting.plans s.stepCount req.requestId) := by
  have hcancel := h.apply hr setting.plans.cancelAt .cancel
  have htimeout := hcancel.apply hr setting.plans.timeoutAt .timeout
  have hfail := htimeout.apply hr setting.plans.failAt .fail
  rw [apply_stepCount, apply_stepCount] at hfail
  exact hfail

/-- One turn ends the loop with every request where its own track ends, or moves every request on
by one turn. -/
theorem loop_turn (hr : Routed pairs setting) (fuel : Nat)
    (h : Mirrors pairs s (fun req => track setting.plans req s.stepCount)) :
    (∃ s', Run.loop setting (fuel + 1) s = some (.ok s') ∧
      Mirrors pairs s' (final setting.plans)) ∨
    ∃ s', Run.loop setting (fuel + 1) s = Run.loop setting fuel s' ∧
      s'.stepCount = s.stepCount + 1 ∧
      Mirrors pairs s' (fun req => track setting.plans req s'.stepCount) ∧
      ∃ p ∈ pairs, (track setting.plans p.1 s.stepCount).done = false := by
  rw [Run.loop]
  dsimp only
  split
  · next hactive =>
    have hdone := (h.active_eq_nil hr).mp hactive
    exact .inl ⟨s, rfl, h.congr fun p hp => (track_eq_final (hdone p hp)).symm⟩
  · next hactive =>
    have hlive : ∃ p ∈ pairs, (track setting.plans p.1 s.stepCount).done = false := by
      by_contra hnone
      apply hactive
      rw [h.active_eq_nil hr]
      intro p hp
      by_contra hdone
      exact hnone ⟨p, hp, Bool.eq_false_of_not_eq_true hdone⟩
    split
    · next hshared =>
      have hfail := h.failAll hr
      have hfinal : ∀ p ∈ pairs, final setting.plans p.1 =
          (track setting.plans p.1 s.stepCount).ended .failed := by
        intro p _
        have hturn : track setting.plans p.1 (s.stepCount + 1) =
            (track setting.plans p.1 s.stepCount).ended .failed := if_pos hshared
        rw [← hturn]
        refine (track_eq_final ?_).symm
        rw [hturn]
        cases hdone : (track setting.plans p.1 s.stepCount).done with
        | true => rwa [Track.ended_of_done hdone]
        | false =>
          rw [Track.ended_of_live hdone]
          rfl
      obtain ⟨hbackend, hproper, htexts, hcancelled, htimedOut, hfailed⟩ := hfail.congr hfinal
      exact .inl ⟨_, rfl, hbackend, hproper, htexts, hcancelled, htimedOut, hfailed⟩
    · next hshared =>
      have hplans := h.plans hr
      have hturn : ∀ p ∈ pairs, track setting.plans p.1 (s.stepCount + 1) =
          ((track setting.plans p.1 s.stepCount).planned setting.plans s.stepCount
            p.1.requestId).decoded p.1.maxTokens := fun p _ => if_neg hshared
      split
      · next hactive' =>
        have hdone := (hplans.active_eq_nil hr).mp hactive'
        refine .inl ⟨_, rfl, hplans.congr fun p hp => ?_⟩
        have hsame := hturn p hp
        rw [Track.decoded_of_done (hdone p hp)] at hsame
        rw [← hsame]
        exact (track_eq_final (hsame ▸ hdone p hp)).symm
      · obtain ⟨backend, outputs, accumulators, hdecode, hdeliver, hmirrors⟩ := hplans.decode hr
        rw [hdecode]
        dsimp only
        rw [hdeliver]
        refine .inr ⟨_, rfl, ?_, ?_, hlive⟩
        · simp only [apply_stepCount]
        · simp only [apply_stepCount] at hmirrors ⊢
          exact hmirrors.congr hturn

/-- With a turn for each token that may be left, the loop ends with every request where its own
track ends. -/
theorem loop_ends (hr : Routed pairs setting) (fuel : Nat)
    (h : Mirrors pairs s (fun req => track setting.plans req s.stepCount))
    (hfuel : ∀ p ∈ pairs, p.1.maxTokens.toNat + 1 ≤ s.stepCount + fuel) :
    ∃ s', Run.loop setting (fuel + 1) s = some (.ok s') ∧
      Mirrors pairs s' (final setting.plans) := by
  induction fuel generalizing s with
  | zero =>
    rcases loop_turn hr 0 h with hend | ⟨-, -, -, -, p, hp, hlive⟩
    · exact hend
    · have hlt := lt_of_live hlive
      have hle := hfuel p hp
      omega
  | succ fuel ih =>
    rcases loop_turn hr (fuel + 1) h with hend | ⟨s', heq, hstep, hmirrors, -⟩
    · exact hend
    · rw [heq]
      apply ih hmirrors
      intro p hp
      have hle := hfuel p hp
      omega

end Whooshd.TokenStep
