import Whooshd.Continuous.Progress

namespace Whooshd.Continuous
set_option autoImplicit true

namespace FakeTokenLevelScheduler

variable {s : FakeTokenLevelScheduler}

/-- The requests that a decode pass finds with all their decode steps. -/
def finishing (s : FakeTokenLevelScheduler) (decodeCount : Int) : List String → List String
  | [] => []
  | rid :: rids =>
    if decodeCount ≥ s.config.maxDecodePerTick then []
    else
      match s.requests.get? rid with
      | none => finishing s decodeCount rids
      | some req =>
        if atLimit s.config req then rid :: finishing s decodeCount rids
        else finishing s (decodeCount + 1) rids

/-- The scheduler when the decode pass of its next tick begins. -/
def atDecode (s : FakeTokenLevelScheduler) : FakeTokenLevelScheduler :=
  let next : FakeTokenLevelScheduler := { s with tickIndex := s.tickIndex + 1 }
  next.processAdmission.processPrefill

/-- The requests that the next tick completes. -/
def finishers (s : FakeTokenLevelScheduler) : List String :=
  s.atDecode.finishing 0 (s.atDecode.inState .decodeActive)

theorem finishing_setRequest (s : FakeTokenLevelScheduler) (req : FakeContinuousRequest)
    {rids : List String} (hrid : rid ∉ rids) (count : Int) :
    (s.setRequest rid req).finishing count rids = s.finishing count rids := by
  induction rids generalizing count with
  | nil => rfl
  | cons r rids ih =>
    rw [List.mem_cons, not_or] at hrid
    simp only [finishing, setRequest_get?, if_neg (Ne.symm hrid.1), ih hrid.2]
    rfl

theorem mem_of_mem_finishing {rids : List String} (h : rid ∈ s.finishing count rids) :
    rid ∈ rids := by
  induction rids generalizing count with
  | nil => exact h
  | cons r rids ih =>
    rw [finishing] at h
    split at h
    · cases h
    · split at h
      · exact List.mem_cons_of_mem _ (ih h)
      · split at h
        · rcases List.mem_cons.mp h with rfl | h
          · exact List.mem_cons_self
          · exact List.mem_cons_of_mem _ (ih h)
        · exact List.mem_cons_of_mem _ (ih h)

/-- The request with one more decode step. -/
def decoded (req : FakeContinuousRequest) : FakeContinuousRequest :=
  { req with
    outputChunks := req.outputChunks ++ [nextChunk req]
    decodeStepsCompleted := req.decodeStepsCompleted + 1 }

/-- The request in the drain phase. -/
def draining (req : FakeContinuousRequest) : FakeContinuousRequest :=
  { req with state := .streamDraining, finishReason := some .stop }

theorem decodeActive_phase {req : FakeContinuousRequest} (h : req.state = .decodeActive) :
    req.phase = .running := by
  simp [FakeContinuousRequest.phase, h, ContinuousRequestState.terminal]

theorem decoded_ok (h : SchedulerOk s) (hget : s.requests.get? rid = some req)
    (hstate : req.state = .decodeActive) : RequestOk rid (decoded req) := by
  have hok := h.requests rid req hget
  have hslot : some (req.slotId.getD "") = req.slotId := by
    cases hx : req.slotId with
    | some x => rfl
    | none =>
      have hseat := seats_of_get? hget
      rw [FakeContinuousRequest.seat, decodeActive_phase hstate, hx] at hseat
      exact absurd hseat (h.seated.running rid)
  constructor
  · exact hok.handle
  · intro c hc
    rcases List.mem_append.mp hc with hc | hc
    · exact hok.own c hc
    · rw [List.mem_singleton.mp hc]
      exact ⟨hok.handle, hslot⟩
  · rw [decoded, List.pairwise_append]
    refine ⟨hok.rising, List.pairwise_singleton _ _, ?_⟩
    intro c hc c' hc'
    rw [List.mem_singleton.mp hc']
    exact (hok.bounded c hc).2
  · intro c hc
    rcases List.mem_append.mp hc with hc | hc
    · have hb := hok.bounded c hc
      simp only [decoded]
      omega
    · rw [List.mem_singleton.mp hc]
      simp only [decoded, nextChunk]
      omega

/-- What a decode pass does to the requests it is given. -/
structure Decodes (s s' : FakeTokenLevelScheduler) (finished : List String) : Prop where
  progress : Progress s s'
  finish : ∀ rid ∈ finished, ∃ req, s.requests.get? rid = some req ∧
    s'.requests.get? rid = some (draining req)
  others : ∀ rid req, rid ∉ finished → req.state = .streamDraining →
    s'.requests.get? rid = some req → s.requests.get? rid = some req

theorem decodeLoop_frame (s : FakeTokenLevelScheduler) (count : Int) {rids : List String}
    (hrid : rid ∉ rids) : (s.decodeLoop count rids).requests.get? rid = s.requests.get? rid := by
  induction rids generalizing s count with
  | nil => rfl
  | cons r rids ih =>
    rw [List.mem_cons, not_or] at hrid
    rw [decodeLoop]
    split
    · rfl
    · split
      · exact ih s count hrid.2
      · split
        · rw [updateSlotState_eq, ih _ count hrid.2, setRequest_get?, if_neg hrid.1]
        · rw [ih _ (count + 1) hrid.2, setRequest_get?, if_neg hrid.1]

theorem decodeLoop_decodes (h : SchedulerOk s) (count : Int) {rids : List String}
    (hnodup : rids.Nodup)
    (hactive : ∀ rid ∈ rids, ∃ req, s.requests.get? rid = some req ∧ req.state = .decodeActive) :
    Decodes s (s.decodeLoop count rids) (s.finishing count rids) := by
  induction rids generalizing s count with
  | nil => exact ⟨.refl h, nofun, fun _ _ _ _ => id⟩
  | cons rid rids ih =>
    obtain ⟨req, hget, hstate⟩ := hactive rid List.mem_cons_self
    rw [List.nodup_cons] at hnodup
    rw [decodeLoop, finishing]
    by_cases hbudget : count ≥ s.config.maxDecodePerTick
    · rw [if_pos hbudget, if_pos hbudget]
      exact ⟨.refl h, nofun, fun _ _ _ _ => id⟩
    · rw [if_neg hbudget, if_neg hbudget]
      simp only [hget, updateSlotState_eq]
      have hphase := decodeActive_phase hstate
      have hok := h.requests rid req hget
      have hother : ∀ req' : FakeContinuousRequest, ∀ r ∈ rids,
          (s.setRequest rid req').requests.get? r = s.requests.get? r := by
        intro req' r hr
        rw [setRequest_get?, if_neg (by rintro rfl; exact hnodup.1 hr)]
      have hactive' : ∀ req' : FakeContinuousRequest, ∀ r ∈ rids, ∃ q,
          (s.setRequest rid req').requests.get? r = some q ∧ q.state = .decodeActive := by
        intro req' r hr
        rw [hother req' r hr]
        exact hactive r (List.mem_cons_of_mem _ hr)
      by_cases hlimit : atLimit s.config req = true
      · rw [if_pos hlimit, if_pos hlimit]
        have hrun : Progress s (s.setRequest rid (draining req)) :=
          running_progress h hget (draining req) hphase rfl rfl
            ⟨hok.handle, hok.own, hok.rising, hok.bounded⟩
        have hrec := ih hrun.ok count hnodup.2 (hactive' _)
        rw [finishing_setRequest s _ hnodup.1] at hrec
        constructor
        · exact hrun.trans hrec.progress
        · intro r hr
          rcases List.mem_cons.mp hr with rfl | hr
          · refine ⟨req, hget, ?_⟩
            rw [← draining, decodeLoop_frame _ _ hnodup.1, setRequest_get?, if_pos rfl]
          · obtain ⟨q, hq, hq'⟩ := hrec.finish r hr
            rw [hother _ r (mem_of_mem_finishing hr)] at hq
            exact ⟨q, hq, hq'⟩
        · intro r q hr hq hget'
          rw [List.mem_cons, not_or] at hr
          have hq' := hrec.others r q hr.2 hq hget'
          rwa [setRequest_get?, if_neg hr.1] at hq'
      · rw [if_neg hlimit, if_neg hlimit]
        have hrun : Progress s (s.setRequest rid (decoded req)) :=
          running_progress h hget (decoded req) hphase hphase rfl (decoded_ok h hget hstate)
        have hrec := ih hrun.ok (count + 1) hnodup.2 (hactive' _)
        rw [finishing_setRequest s _ hnodup.1] at hrec
        constructor
        · exact hrun.trans hrec.progress
        · intro r hr
          obtain ⟨q, hq, hq'⟩ := hrec.finish r hr
          rw [hother _ r (mem_of_mem_finishing hr)] at hq
          exact ⟨q, hq, hq'⟩
        · intro r q hr hq hget'
          have hq' := hrec.others r q hr hq hget'
          rw [setRequest_get?] at hq'
          split at hq'
          · cases hq'
            simp only [decoded, hstate] at hq
            cases hq
          · exact hq'

/-- The request at the end of a tick. -/
def drained (req : FakeContinuousRequest) : FakeContinuousRequest :=
  if req.state = .streamDraining then { req with state := .completed } else req

theorem running_slot (h : SchedulerOk s) (hget : s.requests.get? rid = some req)
    (hphase : req.phase = .running) : ∃ x, req.slotId = some x := by
  cases hx : req.slotId with
  | some x => exact ⟨x, rfl⟩
  | none =>
    have hseat := seats_of_get? hget
    rw [FakeContinuousRequest.seat, hphase, hx] at hseat
    exact absurd hseat (h.seated.running rid)

/-- A request with a slot ends: the slot that belongs to it is the one that changes. -/
theorem SchedulerOk.finished (h : SchedulerOk s) (hget : s.requests.get? rid = some req)
    (hphase : req.phase = .running) (hreq : RequestOk rid req') (hended : req'.phase = .ended)
    (hslot : req'.slotId = req.slotId) {p : ContinuousSlot → Bool}
    (hp : ∀ slot ∈ s.slots, p slot = true ↔ slot.requestId = some rid)
    (state : ContinuousSlot → ContinuousSlotState)
    (hstate : ∀ slot, slot.state ≠ .empty → state slot ≠ .empty) :
    SchedulerOk { s.setRequest rid req' with
      slots := updateFirst p (fun slot => { slot with state := state slot, requestId := none })
        s.slots } := by
  obtain ⟨x, hx⟩ := running_slot h hget hphase
  have hseat : s.seats rid = some (.running, some x) := by
    rw [seats_of_get? hget, FakeContinuousRequest.seat, hphase, hx]
  obtain ⟨slot, hmem, -, hown⟩ := h.seated.slot_of_seat hseat (by decide)
  obtain ⟨a, hfind⟩ : ∃ a, s.slots.find? p = some a := by
    cases hfind : s.slots.find? p with
    | some a => exact ⟨a, rfl⟩
    | none =>
      have hfalse := List.find?_eq_none.mp hfind slot hmem
      rw [hp slot hmem] at hfalse
      exact absurd hown hfalse
  have ha := List.mem_of_find?_eq_some hfind
  have hreqA := (hp a ha).mp (List.find?_some hfind)
  obtain ⟨hreserved, phase, -, hseatA⟩ := h.seated.owned a ha rid hreqA
  obtain ⟨before, after, hslots, hupdate⟩ := updateFirst_eq hfind
    (fun slot => { slot with state := state slot, requestId := none })
  have hseated := h.seated
  rw [hslots] at hseated
  have hleave := hseated.leave hreqA (hstate a (by rw [hreserved]; decide))
  rw [hseat] at hseatA
  cases hseatA
  apply h.set hreq
  · rw [hupdate, FakeContinuousRequest.seat, hended, hslot, hx]
    exact hleave
  · rw [hupdate, hslots]
    simp

theorem draining_phase {req : FakeContinuousRequest} (h : req.state = .streamDraining) :
    req.phase = .running := by
  simp [FakeContinuousRequest.phase, h, ContinuousRequestState.terminal]

theorem complete_ok (h : SchedulerOk s) (hget : s.requests.get? rid = some req)
    (hstate : req.state = .streamDraining) :
    SchedulerOk ((s.setRequest rid { req with state := .completed }).vacate req.slotId) := by
  obtain ⟨x, hx⟩ := running_slot h hget (draining_phase hstate)
  have hseat : s.seats rid = some (.running, some x) := by
    rw [seats_of_get? hget, FakeContinuousRequest.seat, draining_phase hstate, hx]
  have hok := h.requests rid req hget
  have hcompleted : RequestOk rid { req with state := .completed } :=
    ⟨hok.handle, hok.own, hok.rising, hok.bounded⟩
  refine SchedulerOk.finished h hget (draining_phase hstate) hcompleted rfl rfl ?_ (·.state)
    (fun _ => id)
  intro slot hslot
  rw [decide_eq_true_eq, hx, Option.some.injEq]
  constructor
  · intro hid
    obtain ⟨a, ha, hida, hown⟩ := h.seated.slot_of_seat hseat (by decide)
    rwa [eq_of_slotId h.seated.ids hslot ha (hid.trans hida.symm)]
  · intro hown
    obtain ⟨-, phase, -, hseat'⟩ := h.seated.owned slot hslot rid hown
    rw [hseat] at hseat'
    cases hseat'
    rfl

/-- The last pass completes the requests in the drain phase and frees nothing. -/
theorem drainLoop_spec (h : SchedulerOk s) {rids : List String} (hnodup : rids.Nodup) :
    SchedulerOk (s.drainLoop rids) ∧ (s.drainLoop rids).config = s.config ∧
      ∀ rid, (s.drainLoop rids).requests.get? rid =
        if rid ∈ rids then (s.requests.get? rid).map drained else s.requests.get? rid := by
  induction rids generalizing s with
  | nil => exact ⟨h, rfl, fun rid => rfl⟩
  | cons r rids ih =>
    rw [List.nodup_cons] at hnodup
    rw [drainLoop]
    split
    · next hnone =>
      obtain ⟨hok, hconfig, hget⟩ := ih h hnodup.2
      refine ⟨hok, hconfig, ?_⟩
      intro rid
      rw [hget rid]
      by_cases he : rid = r
      · subst he
        rw [if_neg hnodup.1, if_pos List.mem_cons_self]
        cases hreq : s.requests.get? rid with
        | none => rfl
        | some req =>
          rw [hreq] at hnone
          have hstate : req.state ≠ .streamDraining := by simpa using hnone
          rw [Option.map_some, drained, if_neg hstate]
      · simp only [List.mem_cons, he, false_or]
    · next req hreq =>
      obtain ⟨hget, hstate⟩ := Option.filter_eq_some_iff.mp hreq
      rw [decide_eq_true_eq] at hstate
      rw [updateSlotState_eq]
      obtain ⟨hok, hconfig, hget'⟩ := ih (complete_ok h hget hstate) hnodup.2
      refine ⟨hok, hconfig, ?_⟩
      intro rid
      rw [hget' rid, show ((s.setRequest r _).vacate req.slotId).requests.get? rid = _ from
        s.setRequest_get? r _ rid]
      by_cases he : rid = r
      · subst he
        rw [if_neg hnodup.1, if_pos rfl, if_pos List.mem_cons_self, hget, Option.map_some, drained,
          if_pos hstate]
      · simp only [List.mem_cons, he, false_or, if_false]

end FakeTokenLevelScheduler

end Whooshd.Continuous
