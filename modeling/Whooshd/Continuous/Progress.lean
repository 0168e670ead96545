import Whooshd.Continuous.Seating

namespace Whooshd.Continuous
set_option autoImplicit true

namespace FakeTokenLevelScheduler

@[simp] theorem updateSlotState_eq (s : FakeTokenLevelScheduler) (slotId : Option String)
    (state : ContinuousSlotState) : s.updateSlotState slotId state = s := rfl

variable {s : FakeTokenLevelScheduler}

theorem setRequest_get? (s : FakeTokenLevelScheduler) (rid : String) (req : FakeContinuousRequest)
    (rid' : String) : (s.setRequest rid req).requests.get? rid' =
      if rid' = rid then some req else s.requests.get? rid' := Dict.get?_set _ _ _

theorem setRequest_seats (s : FakeTokenLevelScheduler) (rid : String)
    (req : FakeContinuousRequest) :
    (s.setRequest rid req).seats = Function.update s.seats rid (some req.seat) := by
  funext rid'
  by_cases he : rid' = rid
  · subst he
    rw [Function.update_self, seats, setRequest_get?, if_pos rfl]
    rfl
  · rw [Function.update_of_ne he, seats, setRequest_get?, if_neg he]
    rfl

theorem seats_of_get? (h : s.requests.get? rid = some req) : s.seats rid = some req.seat :=
  congrArg (Option.map FakeContinuousRequest.seat) h

theorem seats_eq_some (h : s.seats rid = some (phase, x)) :
    ∃ req, s.requests.get? rid = some req ∧ req.phase = phase ∧ req.slotId = x := by
  obtain ⟨req, hget, hseat⟩ := Option.map_eq_some_iff.mp h
  cases hseat
  exact ⟨req, hget, rfl, rfl⟩

end FakeTokenLevelScheduler

theorem FakeContinuousRequest.phase_ended {req : FakeContinuousRequest} :
    req.phase = .ended ↔ req.state.terminal = true := by
  cases hs : req.state <;> simp [phase, hs, ContinuousRequestState.terminal]

/-- A request's chunks are its own, from its own slot, in the order of its decode steps. -/
structure RequestOk (rid : String) (req : FakeContinuousRequest) : Prop where
  handle : req.handle.requestId = rid
  own : ∀ c ∈ req.outputChunks, c.requestId = rid ∧ some c.slotId = req.slotId
  rising : req.outputChunks.Pairwise fun c c' => c.sequenceIndex < c'.sequenceIndex
  bounded : ∀ c ∈ req.outputChunks, 0 ≤ c.sequenceIndex ∧ c.sequenceIndex < req.decodeStepsCompleted

/-- Between two calls: requests and slots agree, and none is left in the drain phase. -/
structure SchedulerOk (s : FakeTokenLevelScheduler) : Prop where
  seated : Seated s.seats s.slots
  requests : ∀ rid req, s.requests.get? rid = some req → RequestOk rid req
  size : s.slots.length = s.config.maxSlots.toNat

/-- The phases of a tick up to the last: every request goes on, and none ends. -/
structure Progress (s s' : FakeTokenLevelScheduler) : Prop where
  ok : SchedulerOk s'
  config : s'.config = s.config
  ended : ∀ rid req, req.state.terminal = true →
    (s'.requests.get? rid = some req ↔ s.requests.get? rid = some req)
  slot : ∀ rid req x, s.requests.get? rid = some req → req.slotId = some x →
    ∃ req', s'.requests.get? rid = some req' ∧ req'.slotId = some x
  known : ∀ rid, s'.requests.get? rid = none ↔ s.requests.get? rid = none

namespace Progress

variable {s s' s'' : FakeTokenLevelScheduler}

theorem refl (h : SchedulerOk s) : Progress s s where
  ok := h
  config := rfl
  ended := fun _ _ _ => Iff.rfl
  slot := fun _ req _ hget hslot => ⟨req, hget, hslot⟩
  known := fun _ => Iff.rfl

theorem trans (h : Progress s s') (h' : Progress s' s'') : Progress s s'' where
  ok := h'.ok
  config := h'.config.trans h.config
  ended := fun rid req hreq => (h'.ended rid req hreq).trans (h.ended rid req hreq)
  slot := by
    intro rid req x hget hslot
    obtain ⟨req', hget', hslot'⟩ := h.slot rid req x hget hslot
    exact h'.slot rid req' x hget' hslot'
  known := fun rid => (h'.known rid).trans (h.known rid)

theorem setRequest (hget : s.requests.get? rid = some req) (hlive : req.state.terminal = false)
    (hlive' : req'.state.terminal = false)
    (hslot : ∀ x, req.slotId = some x → req'.slotId = some x)
    (hok : SchedulerOk s')
    (hs' : s'.requests = (s.setRequest rid req').requests) (hconfig : s'.config = s.config) :
    Progress s s' where
  ok := hok
  config := hconfig
  ended := by
    intro rid' r hr
    rw [hs', FakeTokenLevelScheduler.setRequest_get?]
    split
    · next he =>
      subst he
      rw [hget]
      constructor
      · rintro h
        cases h
        rw [hlive'] at hr
        cases hr
      · rintro h
        cases h
        rw [hlive] at hr
        cases hr
    · exact Iff.rfl
  slot := by
    intro rid' r x hr hx
    rw [hs', FakeTokenLevelScheduler.setRequest_get?]
    split
    · next he =>
      subst he
      rw [hget] at hr
      cases hr
      exact ⟨req', rfl, hslot x hx⟩
    · exact ⟨r, hr, hx⟩
  known := by
    intro rid'
    rw [hs', FakeTokenLevelScheduler.setRequest_get?]
    split
    · next he =>
      subst he
      rw [hget]
      exact iff_of_false (Option.some_ne_none _) (Option.some_ne_none _)
    · exact Iff.rfl

end Progress

namespace SchedulerOk

variable {s : FakeTokenLevelScheduler}

theorem set (h : SchedulerOk s) (hreq : RequestOk rid req)
    (hseated : Seated (Function.update s.seats rid (some req.seat)) slots)
    (hsize : slots.length = s.slots.length) : SchedulerOk { s.setRequest rid req with slots } where
  seated := by
    have hseats : FakeTokenLevelScheduler.seats { s.setRequest rid req with slots } =
        (s.setRequest rid req).seats := rfl
    rw [hseats, FakeTokenLevelScheduler.setRequest_seats]
    exact hseated
  requests := by
    intro rid' r hr
    rw [show ({ s.setRequest rid req with slots } : FakeTokenLevelScheduler).requests.get? rid' =
      _ from s.setRequest_get? rid req rid'] at hr
    split at hr
    · next he =>
      cases hr
      exact he ▸ hreq
    · exact h.requests rid' r hr
  size := hsize.trans h.size

theorem setSame (h : SchedulerOk s) (hget : s.requests.get? rid = some req)
    (hreq : RequestOk rid req') (hseat : req'.seat = req.seat) :
    SchedulerOk (s.setRequest rid req') := by
  have hseated : Seated (Function.update s.seats rid (some req'.seat)) s.slots := by
    rw [hseat, ← FakeTokenLevelScheduler.seats_of_get? hget, Function.update_eq_self]
    exact h.seated
  exact h.set hreq hseated rfl

end SchedulerOk

namespace FakeTokenLevelScheduler

variable {s : FakeTokenLevelScheduler}

/-- The passes before the decode pass: none sends a request into the drain phase, and the
chunks stay as they are. -/
structure Quiet (s s' : FakeTokenLevelScheduler) : Prop where
  drain : ∀ rid req, req.state = .streamDraining → s'.requests.get? rid = some req →
    s.requests.get? rid = some req
  chunks : ∀ rid req', s'.requests.get? rid = some req' → ∃ req,
    s.requests.get? rid = some req ∧ req'.outputChunks = req.outputChunks

theorem Quiet.refl (s : FakeTokenLevelScheduler) : Quiet s s :=
  ⟨fun _ _ _ => id, fun _ req hget => ⟨req, hget, rfl⟩⟩

theorem Quiet.setRequest (hget : s.requests.get? rid = some req) (req' : FakeContinuousRequest)
    (hreq : req'.state ≠ .streamDraining) (hchunks : req'.outputChunks = req.outputChunks)
    (hs' : s'.requests = (s.setRequest rid req').requests) : Quiet s s' := by
  constructor
  · intro rid' r hr hget'
    rw [hs', setRequest_get?] at hget'
    split at hget'
    · cases hget'
      exact absurd hr hreq
    · exact hget'
  · intro rid' r hget'
    rw [hs', setRequest_get?] at hget'
    split at hget'
    · next he =>
      cases hget'
      exact ⟨req, he ▸ hget, hchunks⟩
    · exact ⟨r, hget', rfl⟩

theorem Quiet.trans (h : Quiet s s') (h' : Quiet s' s'') : Quiet s s'' := by
  constructor
  · exact fun rid req hreq hget => h.drain rid req hreq (h'.drain rid req hreq hget)
  · intro rid r hget
    obtain ⟨r', hget', hr⟩ := h'.chunks rid r hget
    obtain ⟨r'', hget'', hr'⟩ := h.chunks rid r' hget'
    exact ⟨r'', hget'', hr.trans hr'⟩

theorem SchedulerOk.dropPending (h : SchedulerOk s) (rid : String) :
    SchedulerOk (s.dropPending rid) := ⟨h.seated, h.requests, h.size⟩

theorem dropPending_progress (h : SchedulerOk s) (rid : String) :
    Progress s (s.dropPending rid) where
  ok := SchedulerOk.dropPending h rid
  config := rfl
  ended := fun _ _ _ => Iff.rfl
  slot := fun _ req _ hget hslot => ⟨req, hget, hslot⟩
  known := fun _ => Iff.rfl

theorem admitted_phase {req : FakeContinuousRequest} (h : req.state = .admitted) :
    req.phase = .waiting := by
  simp [FakeContinuousRequest.phase, h, ContinuousRequestState.terminal]

theorem SchedulerOk.waiting (h : SchedulerOk s) (hget : s.requests.get? rid = some req)
    (hstate : req.state = .admitted) : req.slotId = none ∧ req.outputChunks = [] := by
  have hslot : req.slotId = none := by
    apply h.seated.waiting rid
    rw [seats_of_get? hget, FakeContinuousRequest.seat, admitted_phase hstate]
  refine ⟨hslot, ?_⟩
  cases hchunks : req.outputChunks with
  | nil => rfl
  | cons c cs =>
    have hown := ((h.requests rid req hget).own c (by simp [hchunks])).2
    rw [hslot] at hown
    cases hown

theorem seat_progress (h : SchedulerOk s) (hget : s.requests.get? rid = some req)
    (hstate : req.state = .admitted) (hslot : s.findEmptySlot = some slot) :
    Progress s (s.seat rid req slot) := by
  obtain ⟨hnone, hchunks⟩ := SchedulerOk.waiting h hget hstate
  have hempty : slot.state = .empty := by simpa using List.find?_some hslot
  obtain ⟨before, after, hslots, hupdate⟩ := updateFirst_eq hslot
    (fun slot => { slot with state := .reserved, requestId := some rid })
  have hseat : s.seats rid = some (.waiting, none) := by
    rw [seats_of_get? hget, FakeContinuousRequest.seat, admitted_phase hstate, hnone]
  have hseated := h.seated
  rw [hslots] at hseated
  have hreq : RequestOk rid
      { req with state := .prefillPending, slotId := some slot.slotId } := by
    constructor
    · exact (h.requests rid req hget).handle
    · simp [hchunks]
    · simp [hchunks]
    · simp [hchunks]
  have hok : SchedulerOk (s.seat rid req slot) := by
    apply h.set hreq
    · rw [show updateFirst _ _ (s.setRequest _ _).slots = _ from hupdate]
      exact hseated.sit hseat hempty
    · rw [show updateFirst _ _ (s.setRequest _ _).slots = _ from hupdate, hslots]
      simp
  have hkeep : ∀ x, req.slotId = some x → some slot.slotId = some x := by
    intro x hx
    rw [hnone] at hx
    cases hx
  exact .setRequest hget (by rw [hstate]; rfl) rfl hkeep hok rfl rfl

/-- The first pass of a tick: requests wait or take their slots. -/
theorem admissionLoop_progress (h : SchedulerOk s) (rids : List String) :
    Progress s (s.admissionLoop rids) ∧ Quiet s (s.admissionLoop rids) := by
  induction rids generalizing s with
  | nil => exact ⟨.refl h, .refl _⟩
  | cons rid rids ih =>
    rw [admissionLoop]
    split
    · have hdrop := dropPending_progress h rid
      obtain ⟨hprogress, hquiet⟩ := ih hdrop.ok
      exact ⟨hdrop.trans hprogress, hquiet.drain, hquiet.chunks⟩
    · next req hreq =>
      obtain ⟨hget, hstate⟩ := Option.filter_eq_some_iff.mp hreq
      rw [decide_eq_true_eq] at hstate
      split
      · exact ⟨.refl h, .refl _⟩
      · next slot hslot =>
        have hseat := seat_progress h hget hstate hslot
        have hdrop := dropPending_progress hseat.ok rid
        obtain ⟨hprogress, hquiet⟩ := ih hdrop.ok
        refine ⟨(hseat.trans hdrop).trans hprogress, ?_⟩
        have hnew : Quiet s ((s.seat rid req slot).dropPending rid) :=
          .setRequest hget { req with
            state := .prefillPending, slotId := some slot.slotId } nofun rfl rfl
        exact hnew.trans hquiet

theorem running_progress (h : SchedulerOk s) (hget : s.requests.get? rid = some req)
    (req' : FakeContinuousRequest) (hphase : req.phase = .running) (hphase' : req'.phase = .running)
    (hslot : req'.slotId = req.slotId) (hreq : RequestOk rid req') :
    Progress s (s.setRequest rid req') := by
  have hlive : ∀ {r : FakeContinuousRequest}, r.phase = .running → r.state.terminal = false := by
    intro r hr
    rw [← Bool.not_eq_true, ← FakeContinuousRequest.phase_ended, hr]
    exact nofun
  have hseat : req'.seat = req.seat := by
    rw [FakeContinuousRequest.seat, FakeContinuousRequest.seat, hphase, hphase', hslot]
  exact .setRequest hget (hlive hphase) (hlive hphase') (fun x hx => hslot.trans hx)
    (SchedulerOk.setSame h hget hreq hseat) rfl rfl

theorem running_quiet (h : SchedulerOk s) (hget : s.requests.get? rid = some req)
    (req' : FakeContinuousRequest) (hphase : req.phase = .running) (hphase' : req'.phase = .running)
    (hslot : req'.slotId = req.slotId) (hchunks : req'.outputChunks = req.outputChunks)
    (hdrain : req'.state ≠ .streamDraining) (hreq : RequestOk rid req') :
    Progress s (s.setRequest rid req') ∧ Quiet s (s.setRequest rid req') :=
  ⟨running_progress h hget req' hphase hphase' hslot hreq,
    .setRequest hget req' hdrain hchunks rfl⟩

theorem prefillLoop_progress (h : SchedulerOk s) (count : Int) (rids : List String) :
    Progress s (s.prefillLoop count rids) ∧ Quiet s (s.prefillLoop count rids) := by
  induction rids generalizing s count with
  | nil => exact ⟨.refl h, .refl _⟩
  | cons rid rids ih =>
    rw [prefillLoop]
    split
    · exact ⟨.refl h, .refl _⟩
    · split
      · exact ih h count
      · next req hget =>
        have hok := h.requests rid req hget
        split
        · next hstate =>
          have hphase : req.phase = .running := by
            simp [FakeContinuousRequest.phase, hstate, ContinuousRequestState.terminal]
          obtain ⟨hrun, hnew⟩ := running_quiet h hget { req with state := .prefillRunning }
            hphase rfl rfl rfl nofun ⟨hok.handle, hok.own, hok.rising, hok.bounded⟩
          obtain ⟨hprogress, hquiet⟩ := ih hrun.ok (count + 1)
          exact ⟨hrun.trans hprogress, hnew.trans hquiet⟩
        · next hstate =>
          have hphase : req.phase = .running := by
            simp [FakeContinuousRequest.phase, hstate, ContinuousRequestState.terminal]
          dsimp only
          split
          · obtain ⟨hrun, hnew⟩ := running_quiet h hget
              { req with
                state := .decodeActive, prefillTicksRemaining := req.prefillTicksRemaining - 1 }
              hphase rfl rfl rfl nofun ⟨hok.handle, hok.own, hok.rising, hok.bounded⟩
            obtain ⟨hprogress, hquiet⟩ := ih hrun.ok count
            exact ⟨hrun.trans hprogress, hnew.trans hquiet⟩
          · obtain ⟨hrun, hnew⟩ := running_quiet h hget
              { req with prefillTicksRemaining := req.prefillTicksRemaining - 1 }
              hphase hphase rfl rfl (by simp [hstate])
              ⟨hok.handle, hok.own, hok.rising, hok.bounded⟩
            obtain ⟨hprogress, hquiet⟩ := ih hrun.ok count
            exact ⟨hrun.trans hprogress, hnew.trans hquiet⟩
        · exact ih h count

end FakeTokenLevelScheduler

end Whooshd.Continuous
