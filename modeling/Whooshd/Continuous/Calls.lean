import Whooshd.Continuous.Finishing

namespace Whooshd.Continuous
set_option autoImplicit true

namespace FakeTokenLevelScheduler

variable {s : FakeTokenLevelScheduler}

/-- What one tick does to the requests. -/
structure Ticks (s s' : FakeTokenLevelScheduler) : Prop where
  ok : SchedulerOk s'
  config : s'.config = s.config
  idle : ∀ rid req, s'.requests.get? rid = some req → req.state ≠ .streamDraining
  known : ∀ rid, s'.requests.get? rid = none ↔ s.requests.get? rid = none
  kept : ∀ rid req, req.state.terminal = true → s.requests.get? rid = some req →
    s'.requests.get? rid = some req
  ended : ∀ rid req, req.state.terminal = true → s'.requests.get? rid = some req →
    s.requests.get? rid = some req ∨ rid ∈ s.finishers
  finish : ∀ rid ∈ s.finishers, ∃ req req' x, s.requests.get? rid = some req ∧
    s'.requests.get? rid = some req' ∧ req'.state.terminal = true ∧ req'.slotId = some x ∧
    req'.outputChunks = req.outputChunks
  slot : ∀ rid req x, s.requests.get? rid = some req → req.slotId = some x →
    ∃ req', s'.requests.get? rid = some req' ∧ req'.slotId = some x

theorem drained_terminal {req : FakeContinuousRequest} (h : req.state.terminal = true) :
    drained req = req := by
  rw [drained, if_neg]
  intro hs
  rw [hs] at h
  cases h

theorem drained_slotId (req : FakeContinuousRequest) : (drained req).slotId = req.slotId := by
  unfold drained
  split <;> rfl

theorem atDecode_progress (h : SchedulerOk s) : Progress s s.atDecode ∧ Quiet s s.atDecode := by
  have h₀ : SchedulerOk { s with tickIndex := s.tickIndex + 1 } := ⟨h.seated, h.requests, h.size⟩
  obtain ⟨hadmission, hquiet⟩ := admissionLoop_progress h₀ s.pendingAdmission
  obtain ⟨hprefill, hquiet'⟩ := prefillLoop_progress hadmission.ok 0
    (processAdmission { s with tickIndex := s.tickIndex + 1 }).requests.keys
  obtain ⟨hok, hconfig, hended, hslot, hknown⟩ := hadmission.trans hprefill
  obtain ⟨hdrain, hchunks⟩ := hquiet.trans hquiet'
  exact ⟨⟨hok, hconfig, hended, hslot, hknown⟩, ⟨hdrain, hchunks⟩⟩

theorem mem_inState {state : ContinuousRequestState} : rid ∈ s.inState state ↔
    ∃ req, s.requests.get? rid = some req ∧ req.state = state := by
  simp only [inState, List.mem_map, List.mem_filter, decide_eq_true_eq, Dict.get?_eq_some]
  constructor
  · rintro ⟨⟨r, req⟩, ⟨hmem, hstate⟩, rfl⟩
    exact ⟨req, hmem, hstate⟩
  · rintro ⟨req, hmem, hstate⟩
    exact ⟨(rid, req), ⟨hmem, hstate⟩, rfl⟩

theorem inState_nodup (s : FakeTokenLevelScheduler) (state : ContinuousRequestState) :
    (s.inState state).Nodup :=
  s.requests.nodup.sublist (List.filter_sublist.map Prod.fst)

theorem processDecode_decodes (h : SchedulerOk s) :
    Decodes s.atDecode s.atDecode.processDecode s.finishers :=
  decodeLoop_decodes (atDecode_progress h).1.ok 0 (inState_nodup _ _) fun _ => mem_inState.mp

theorem tick_get? (h : SchedulerOk s) : SchedulerOk s.tick ∧ s.tick.config = s.config ∧
    ∀ rid, s.tick.requests.get? rid = (s.atDecode.processDecode.requests.get? rid).map drained := by
  have hall := (atDecode_progress h).1.trans (processDecode_decodes h).progress
  obtain ⟨hok, hconfig, hget⟩ := drainLoop_spec hall.ok s.atDecode.processDecode.requests.nodup
  refine ⟨hok, hconfig.trans hall.config, ?_⟩
  intro rid
  refine (hget rid).trans ?_
  split
  · rfl
  · next hrid =>
    have hnone : s.atDecode.processDecode.requests.get? rid = none := Dict.get?_eq_none.mpr hrid
    rw [hnone, Option.map_none]

theorem tick_ticks (h : SchedulerOk s)
    (hidle : ∀ rid req, s.requests.get? rid = some req → req.state ≠ .streamDraining) :
    Ticks s s.tick := by
  obtain ⟨hpre, hquiet⟩ := atDecode_progress h
  have hdecode := processDecode_decodes h
  have hall := hpre.trans hdecode.progress
  obtain ⟨hok, hconfig, hget⟩ := tick_get? h
  constructor
  · exact hok
  · exact hconfig
  · intro rid req' hreq'
    rw [hget, Option.map_eq_some_iff] at hreq'
    obtain ⟨req, -, rfl⟩ := hreq'
    unfold drained
    split
    · exact nofun
    · assumption
  · intro rid
    rw [hget, Option.map_eq_none_iff]
    exact hall.known rid
  · intro rid req hterminal hreq
    have hkept := (hall.ended rid req hterminal).mpr hreq
    rw [hget, hkept, Option.map_some, drained_terminal hterminal]
  · intro rid req' hterminal hreq'
    rw [hget, Option.map_eq_some_iff] at hreq'
    obtain ⟨req, hreq, rfl⟩ := hreq'
    by_cases hdrain : req.state = .streamDraining
    · refine .inr ?_
      by_contra hrid
      have hold := hquiet.drain rid req hdrain (hdecode.others rid req hrid hdrain hreq)
      exact hidle rid req hold hdrain
    · rw [drained, if_neg hdrain] at hterminal ⊢
      exact .inl ((hall.ended rid req hterminal).mp hreq)
  · intro rid hrid
    obtain ⟨req, hreq, hdrain⟩ := hdecode.finish rid hrid
    obtain ⟨old, hold, hchunks⟩ := hquiet.chunks rid req hreq
    obtain ⟨x, hx⟩ := running_slot hall.ok hdrain (draining_phase rfl)
    refine ⟨old, drained (draining req), x, hold, ?_, rfl, hx, hchunks⟩
    rw [hget, hdrain, Option.map_some]
  · intro rid req x hreq hx
    obtain ⟨req', hreq', hx'⟩ := hall.slot rid req x hreq hx
    refine ⟨drained req', ?_, (drained_slotId req').trans hx'⟩
    rw [hget, hreq', Option.map_some]

/-- The request as `cancel`, `timeout` and `fail_request` leave it. -/
def closed (state : ContinuousRequestState) (reason : ContinuousFinishReason)
    (req : FakeContinuousRequest) : FakeContinuousRequest :=
  if req.state.terminal then req else { req with state, finishReason := some reason }

theorem close_get? (s : FakeTokenLevelScheduler) (rid : String) (state : ContinuousRequestState)
    (reason : ContinuousFinishReason) (rid' : String) :
    (s.close rid state reason).requests.get? rid' =
      if rid' = rid then (s.requests.get? rid).map (closed state reason)
      else s.requests.get? rid' := by
  unfold close
  split
  · next hnone =>
    split
    · next he => rw [he, hnone, Option.map_none]
    · rfl
  · next req hget =>
    split
    · next hterminal =>
      split
      · next he => rw [he, hget, Option.map_some, closed, if_pos hterminal]
      · rfl
    · next hlive =>
      refine (s.setRequest_get? rid _ rid').trans ?_
      rw [hget, Option.map_some, closed, if_neg hlive]

theorem close_ok (h : SchedulerOk s) (rid : String) {state : ContinuousRequestState}
    (hstate : state.terminal = true) (reason : ContinuousFinishReason) :
    SchedulerOk (s.close rid state reason) := by
  unfold close
  split
  · exact h
  · next req hget =>
    split
    · exact h
    · next hlive =>
      have hok := h.requests rid req hget
      have hreq : RequestOk rid { req with state, finishReason := some reason } :=
        ⟨hok.handle, hok.own, hok.rising, hok.bounded⟩
      have hended : ({ req with state, finishReason := some reason } :
          FakeContinuousRequest).phase = .ended := FakeContinuousRequest.phase_ended.mpr hstate
      cases hphase : req.phase with
      | ended => exact absurd (FakeContinuousRequest.phase_ended.mp hphase) hlive
      | running =>
        exact SchedulerOk.finished h hget hphase hreq hended rfl
          (fun slot _ => decide_eq_true_iff) (fun _ => .released) (fun _ _ => by decide)
      | waiting =>
        have hseat := seats_of_get? hget
        rw [FakeContinuousRequest.seat, hphase] at hseat
        have hnone := h.seated.waiting rid _ hseat
        rw [hnone] at hseat
        -- A waiting request has no slot to release.
        have hfind : s.slots.find? (·.requestId = some rid) = none := by
          rw [List.find?_eq_none]
          intro slot hslot hown
          rw [decide_eq_true_eq] at hown
          obtain ⟨-, phase, -, hseat'⟩ := h.seated.owned slot hslot rid hown
          rw [hseat] at hseat'
          cases hseat'
        apply h.set hreq
        · rw [show updateFirst _ _ (s.setRequest _ _).slots = _ from updateFirst_of_none hfind _,
            FakeContinuousRequest.seat, hended, hnone]
          refine h.seated.unslotted (fun phase x hx => ?_) (by decide)
          rw [hseat] at hx
          cases hx
        · rw [show updateFirst _ _ (s.setRequest _ _).slots = _ from updateFirst_of_none hfind _]

theorem admit_ok (h : SchedulerOk s) {handle : ContinuousRequestHandle}
    (hfresh : s.requests.get? handle.requestId = none) : SchedulerOk ( s.admit handle) := by
  have hseat : s.seats handle.requestId = none := congrArg _ hfresh
  have hreq : RequestOk handle.requestId { handle } :=
    ⟨rfl, nofun, List.Pairwise.nil, nofun⟩
  have hbefore : ∀ phase x, s.seats handle.requestId ≠ some (phase, some x) := by
    intro _ _ hx
    rw [hseat] at hx
    cases hx
  have hok := h.set hreq (h.seated.unslotted hbefore nofun) rfl
  exact ⟨hok.seated, hok.requests, hok.size⟩

/-- The request once its chunks have been fetched. -/
def fetched (req : FakeContinuousRequest) : FakeContinuousRequest := { req with outputChunks := [] }

theorem drainOutputs_get? (s : FakeTokenLevelScheduler) (rid rid' : String) :
    (s.drainOutputs rid).1.requests.get? rid' =
      if rid' = rid then (s.requests.get? rid).map fetched else s.requests.get? rid' := by
  unfold drainOutputs
  split
  · next hnone =>
    split
    · next he => rw [he, hnone, Option.map_none]
    · rfl
  · next req hget =>
    refine (s.setRequest_get? rid _ rid').trans ?_
    rw [hget, Option.map_some, fetched]

theorem drainOutputs_ok (h : SchedulerOk s) (rid : String) :
    SchedulerOk (s.drainOutputs rid).1 := by
  unfold drainOutputs
  split
  · exact h
  · next req hget =>
    have hok := h.requests rid req hget
    exact h.setSame hget ⟨hok.handle, nofun, List.Pairwise.nil, nofun⟩ rfl

end FakeTokenLevelScheduler

end Whooshd.Continuous
