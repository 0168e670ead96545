import Whooshd.Slots

namespace Whooshd
set_option autoImplicit true

/-- How often a request is counted in `active_jobs`. -/
def RuntimeState.timesCounted (rt : RuntimeState) (rid : RequestId) : Nat :=
  (if (rt.requests.get? rid).any (·.status.isActive) then 1 else 0) +
    if rt.reservations.contains rid then 1 else 0

namespace System

/-- The request's adapter call has started and not ended, or its stream was left open. -/
def executing (s : System) (rid : RequestId) : Bool :=
  (s.handlers.get? rid).any (·.phase.inProgress) || decide (rid ∈ s.unfinalised)

/-- Adapter executions in progress. -/
def executions (s : System) : Nat := (s.handlers.keys.filter s.executing).length

def CountsExecutions (s : System) : Prop :=
  ∀ rid, s.executing rid = true → s.rt.timesCounted rid = 1

/-- The record of an execution in progress is cancelled: the cancel endpoint is called for it,
or its response body is closed between two chunks. -/
def CancelsExecution (s : System) (l : Label) : Prop :=
  (∃ rid, l = .cancel rid ∧ s.executing rid = true) ∨
    ∃ rid h, l = .body rid .close ∧ s.handlers.get? rid = some h ∧ h.phase = .bodyOpen

/-- The streams that were left open are those of handlers that have ended. -/
def StreamsLeft (s : System) : Prop :=
  ∀ rid ∈ s.unfinalised, ∃ h, s.handlers.get? rid = some h ∧ h.phase = .ended

end System

/-- A step ends the handler and leaves its adapter's stream open. The record stays as it was,
unless the response body was closed between two chunks. -/
structure Leaves (s : System) (l : Label) (rid : RequestId) (s' : System) : Prop where
  unfinalised : s'.unfinalised = rid :: s.unfinalised
  executing : s.executing rid = true
  ended : ∃ h, s'.handlers.get? rid = some h ∧ h.phase = .ended
  record : s'.rt = s.rt ∨ s.CancelsExecution l

theorem leaves_passedOver {s : System} (hh : s.handlers.get? rid = some h)
    (hp : h.phase.inProgress = true) :
    Leaves s l rid ((s.setPhase rid .ended).leaveStream rid) where
  unfinalised := rfl
  executing := by simp [System.executing, hh, hp]
  ended := ⟨{ h with phase := .ended },
    by simp [System.leaveStream, System.setPhase, Dict.get?_modify, hh], rfl⟩
  record := .inl rfl

theorem leaves_closed {s : System} (hh : s.handlers.get? rid = some h) (hp : h.phase = .bodyOpen) :
    Leaves s (.body rid .close) rid ((s.disconnect rid).leaveStream rid) where
  unfinalised := rfl
  executing := by simp [System.executing, hh, hp, Phase.inProgress]
  ended := ⟨{ h with phase := .ended },
    by simp [System.leaveStream, System.disconnect, System.setPhase, Dict.get?_modify, hh], rfl⟩
  record := .inr (.inr ⟨rid, h, rfl, hh, hp⟩)

theorem Stepped.leaves {s : System} (h : Stepped s l x) :
    x.1.unfinalised ⊆ s.unfinalised ∨ ∃ rid, Leaves s l rid x.1 := by
  have hsame : ∀ {t : System}, t.surroundings = s.surroundings →
      t.unfinalised ⊆ s.unfinalised := by
    intro t ht
    rw [show t.unfinalised = s.unfinalised from congrArg Prod.snd ht]
    exact List.Subset.refl _
  cases h with
  | chat hn => exact .inl (hsame (s.chatCompletions_surroundings _ _))
  | generate hn => exact .inl (hsame (s.generate_surroundings _ _))
  | resume hh hp => exact .inl (hsame (s.runWaiter_surroundings _ _ _))
  | @adapter rid h o x hh hs =>
    simp only [System.adapterStep] at hs
    split at hs <;> cases hs <;> try exact .inl (List.Subset.refl _)
    next hp => exact .inr ⟨rid, leaves_passedOver hh (by rw [hp]; rfl)⟩
  | @body rid h b x hh hs =>
    simp only [System.bodyStep] at hs
    split at hs <;> cases hs <;> try exact .inl (List.Subset.refl _)
    · next hp => exact .inr ⟨rid, leaves_passedOver hh (by rw [hp]; rfl)⟩
    · next hp => exact .inr ⟨rid, leaves_closed hh hp⟩
  | finalise => exact .inl (List.filter_subset_self _)
  | cancel => exact .inl (hsame (s.runtimeCancelRequest_surroundings _))
  | kill hh hs => exact .inl (hsame (s.kill_surroundings _ hs))
  | memoryPressure => exact .inl (List.Subset.refl _)
  | configure => exact .inl (List.Subset.refl _)
  | tick => exact .inl (List.Subset.refl _)

/-- The handler of the request has ended. -/
def View.Ended (v : View) : Prop := ∃ h, v.handler = some h ∧ h.phase = .ended

theorem Act.of_ended (ha : Act env c rid v evs v') (hv : Placed rid v)
    (hh : v.handler = some h) (hp : h.phase = .ended) :
    env.label = .cancel rid ∧ c = env.start ∧ v'.handler = some h := by
  cases ha with
  | accept => cases hh
  | enter => cases hh
  | grant =>
    cases hh
    cases hv with
    | queued hr he hg hp' => rcases hp' with hp' | hp' <;> rw [hp] at hp' <;> cases hp'
  | take hp' =>
    cases hh
    rw [hp] at hp'
    cases hp'
  | drop hp' =>
    cases hh
    rw [hp] at hp'
    cases hp'
  | settle hst hp' =>
    cases hh
    rw [hp] at hp'
    cases hp'
  | cancel hl hst => exact ⟨hl, hst, hh⟩
  | kill hl hst hp' =>
    cases hh
    rw [hp] at hp'
    rcases hp' with hp' | hp' <;> cases hp'

theorem Act.ended (ha : Act env c rid v evs v') (hv : Placed rid v) (h : v.Ended) : v'.Ended := by
  obtain ⟨hd, hh, hp⟩ := h
  exact ⟨hd, (ha.of_ended hv hh hp).2.2, hp⟩

/-- A request whose adapter call is in progress, or whose stream was left open, is counted. -/
def View.Counted (left : Prop) (v : View) : Prop :=
  ∀ h, v.handler = some h → h.phase.inProgress = true ∨ left → v.slots (fun _ => true) = 1

theorem View.counted_of_not_inProgress (hl : ¬left) (h : hd.phase.inProgress = false) :
    View.Counted left ⟨r, v, some hd, e⟩ := by
  rintro h' hh (hp | hp)
  · cases hh
    rw [h] at hp
    cases hp
  · exact absurd hp hl

theorem Starts.counted (h : Starts rid r hd evs) (hl : ¬left) :
    View.Counted left ⟨some r, none, some hd, none⟩ := by
  obtain ⟨-, ⟨ha, -⟩ | ⟨-, hp, -⟩⟩ := h
  · intro _ _ _
    simp [View.slots, ha]
  · exact View.counted_of_not_inProgress hl (by rw [hp]; rfl)

theorem Act.counted (ha : Act env c rid v evs v') (hv : Placed rid v) (hleft : left → v.Ended)
    (hn : ∀ h, env.label = .cancel rid → c = env.start → v.handler = some h →
      ¬(h.phase.inProgress = true ∨ left))
    (h : v.Counted left) : v'.Counted left := by
  by_cases hl : left
  · obtain ⟨hd, hh, hp⟩ := hleft hl
    obtain ⟨hlab, hst, -⟩ := ha.of_ended hv hh hp
    exact absurd (.inr hl) (hn hd hlab hst hh)
  cases ha with
  | accept hd hroom hs => exact hs.counted hl
  | enter hchat hd hst hroom hr hs hc hm hg hp =>
    exact View.counted_of_not_inProgress hl (by rw [hp]; rfl)
  | grant hx hroom hfront =>
    cases hv with
    | queued hr he hg hp =>
      apply View.counted_of_not_inProgress hl
      rcases hp with hp | hp
      · rw [noteGrant_phase hp]
        rfl
      · rw [noteGrant_of_not_waiting (by rw [hp]; rfl), hp]
        rfl
  | take hp hg hx hs hc hn he hlane hst => exact hst.counted hl
  | drop hp hx hr ht hf hp' hq => exact View.counted_of_not_inProgress hl (by rw [hp']; rfl)
  | settle hst hp hs hq =>
    obtain ⟨rfl, -, hi⟩ | ⟨-, -, hp', -⟩ := hs
    · rintro _ ⟨⟩ hp'
      exact h _ rfl (hp'.imp_left hi)
    · exact View.counted_of_not_inProgress hl (by rw [hp']; rfl)
  | cancel hlab hst =>
    have hno := hn _ hlab hst rfl
    exact View.counted_of_not_inProgress hl (by simpa using fun hp => hno (.inl hp))
  | kill hlab hst hp hp' hq => exact View.counted_of_not_inProgress hl (by rw [hp']; rfl)

theorem view_slots (s : System) (rid : RequestId) :
    (s.core.view rid).slots (fun _ => true) = s.rt.timesCounted rid := by
  cases hv : s.rt.reservations.get? rid <;>
    simp [View.slots, Core.view, System.core, RuntimeState.timesCounted, Dict.weight,
      Dict.contains, hv]

theorem executing_iff (s : System) (rid : RequestId) :
    s.executing rid = true ↔
      (∃ h, s.handlers.get? rid = some h ∧ h.phase.inProgress = true) ∨ rid ∈ s.unfinalised := by
  simp [System.executing, Option.any_eq_true]

/-- The record of an execution in progress, which holds its slot itself. -/
theorem executing_view {s : System} (hc : Coherent s.core) (hl : s.StreamsLeft)
    (he : s.executing rid = true) :
    ∃ r h, s.core.view rid = ⟨some r, none, some h, none⟩ := by
  have hv := hc.placed rid
  rcases (executing_iff s rid).mp he with ⟨h, hh, hp⟩ | hm
  · obtain ⟨r, hv, -⟩ := hv.of_serving hh (Phase.inProgress_serving hp)
    exact ⟨r, h, hv⟩
  · obtain ⟨h, hh, hp⟩ := hl rid hm
    change (s.core.view rid).handler = some h at hh
    revert hv hh
    generalize s.core.view rid = v
    intro hv hh
    cases hv with
    | absent => cases hh
    | queued _ _ _ hp' => cases hh; rcases hp' with hp' | hp' <;> rw [hp] at hp' <;> cases hp'
    | granted _ _ _ hp' =>
      cases hh
      rcases hp' with ⟨_, hp', -⟩ | hp' <;> rw [hp] at hp' <;> cases hp'
    | serving => exact ⟨_, _, rfl⟩
    | done => exact ⟨_, _, rfl⟩

theorem step_ended {s : System} (hc : Coherent s.core) (hl : s.StreamsLeft)
    (hs : broker.step s l = some (s', out)) :
    ∀ rid, rid ∈ s.unfinalised → (s'.core.view rid).Ended :=
  (step_moves hc hs).invariant (P := fun c => ∀ rid, rid ∈ s.unfinalised → (c.view rid).Ended)
    (fun hc hp hmv => hmv.views (P := fun rid v => rid ∈ s.unfinalised → v.Ended)
      (fun ha hv h hm => ha.ended (hv ▸ hc.placed _) (h hm)) hp) hc hl

theorem step_streamsLeft {s : System} (hc : Coherent s.core) (hl : s.StreamsLeft)
    (hs : broker.step s l = some (s', out)) : s'.StreamsLeft := by
  have hended := step_ended hc hl hs
  rcases (stepped_of_step hs).leaves with hsub | ⟨k, hk⟩
  · exact fun rid hm => hended rid (hsub hm)
  · intro rid hm
    rw [hk.unfinalised] at hm
    rcases List.mem_cons.mp hm with rfl | hm
    · exact hk.ended
    · exact hended rid hm

/-- What was in progress, or open, before a step that cancels no execution is counted after it. -/
theorem step_counted {s : System} (hc : Coherent s.core) (hl : s.StreamsLeft)
    (h : s.CountsExecutions) (hn : ¬s.CancelsExecution l)
    (hs : broker.step s l = some (s', out)) (rid : RequestId) :
    (s'.core.view rid).Counted (rid ∈ s.unfinalised) := by
  have hboth := (step_moves hc hs).invariant
    (P := fun c => ∀ rid, (rid ∈ s.unfinalised → (c.view rid).Ended) ∧
      (c.view rid).Counted (rid ∈ s.unfinalised)) ?_ hc ?_
  · exact (hboth rid).2
  · intro c evs c' hc hp hmv
    apply hmv.views (P := fun rid v => (rid ∈ s.unfinalised → v.Ended) ∧
      v.Counted (rid ∈ s.unfinalised)) _ hp
    rintro rid v v' ha hv ⟨hended, hcounted⟩
    have hplaced : Placed rid v := hv ▸ hc.placed rid
    apply And.intro (fun hm => ha.ended hplaced (hended hm))
    apply ha.counted hplaced hended _ hcounted
    intro hd hlab hst hh hon
    subst hv hst
    exact hn (.inl ⟨rid, hlab, (executing_iff s rid).mpr (hon.imp_left fun hp => ⟨hd, hh, hp⟩)⟩)
  · intro rid
    apply And.intro (hl rid)
    intro hd hh hp
    rw [view_slots]
    exact h rid ((executing_iff s rid).mpr (hp.imp_left fun hp => ⟨hd, hh, hp⟩))

/-- A step that cancels no execution in progress leaves every execution counted once. -/
theorem step_counts {s : System} (hc : Coherent s.core) (hl : s.StreamsLeft)
    (h : s.CountsExecutions) (hn : ¬s.CancelsExecution l)
    (hs : broker.step s l = some (s', out)) : s'.CountsExecutions := by
  have hcounted := step_counted hc hl h hn hs
  have hleft : ∀ rid, rid ∈ s.unfinalised → s'.rt.timesCounted rid = 1 := by
    intro rid hm
    obtain ⟨hd, hh, hp⟩ := step_ended hc hl hs rid hm
    rw [← view_slots]
    exact hcounted rid hd hh (.inr hm)
  intro rid he
  rcases (executing_iff s' rid).mp he with ⟨hd, hh, hp⟩ | hm
  · rw [← view_slots]
    exact hcounted rid hd hh (.inl hp)
  rcases (stepped_of_step hs).leaves with hsub | ⟨k, hk⟩
  · exact hleft rid (hsub hm)
  rw [hk.unfinalised] at hm
  rcases List.mem_cons.mp hm with rfl | hm
  · -- its stream has just been left open
    rcases hk.record with hrt | hcancel
    · rw [hrt]
      exact h rid hk.executing
    · exact absurd hcancel hn
  · exact hleft rid hm

theorem timesCounted_cancelRequest (rt : RuntimeState) (rid : RequestId) (now : Time) :
    (rt.cancelRequest rid now).timesCounted rid = 0 := by
  simp only [RuntimeState.timesCounted, RuntimeState.cancelRequest_requests,
    RuntimeState.cancelRequest_reservations, Dict.get?_modify, if_pos, Dict.contains,
    Dict.get?_erase_self]
  cases rt.requests.get? rid <;> rfl

/-- Cancelling the record of an execution gives its slot away while it goes on. -/
theorem cancel_uncounts {s : System} (hc : Coherent s.core) (hl : s.StreamsLeft)
    (h : s.CountsExecutions) (hcancel : s.CancelsExecution l)
    (hs : broker.step s l = some (s', out)) : ¬s'.CountsExecutions := by
  intro h'
  obtain ⟨rid, rfl, he⟩ | ⟨rid, hd, rfl, hh, hp⟩ := hcancel
  · obtain ⟨r, hd, hv⟩ := executing_view hc hl he
    have hr : s.rt.requests.get? rid = some r := congrArg View.record hv
    have hn : r.status.isTerminal = false := by
      by_contra ht
      have hone := h rid he
      rw [← view_slots, hv] at hone
      have hended : r.status.isTerminal = true := by simpa using ht
      simp [View.slots, terminal_not_active hended] at hone
    change some (s.runtimeCancelRequest rid) = _ at hs
    simp only [System.runtimeCancelRequest, hr, hn, Bool.false_eq_true, if_false,
      RuntimeState.requestCancellation, if_true, Option.some.injEq, Prod.mk.injEq] at hs
    obtain ⟨rfl, -⟩ := hs
    have hone := h' rid he
    rw [timesCounted_cancelRequest] at hone
    cases hone
  · simp only [broker, System.step, hh, System.bodyStep, hp] at hs
    cases hs
    have hone := h' rid (by simp [System.executing, System.leaveStream])
    change (RuntimeState.cancelRequest _ rid s.wall).timesCounted rid = 1 at hone
    rw [timesCounted_cancelRequest] at hone
    cases hone

theorem System.CountsExecutions.executions_le {s : System} (h : s.CountsExecutions)
    (hc : Coherent s.core) (hl : s.StreamsLeft) : s.executions ≤ s.rt.activeJobs := by
  apply Nat.le_trans _ (Nat.le_add_right _ _)
  apply Dict.length_le_count (s.handlers.nodup.filter _)
  intro rid hm
  have he := (List.mem_filter.mp hm).2
  obtain ⟨r, hd, hv⟩ := executing_view hc hl he
  refine ⟨r, congrArg View.record hv, ?_⟩
  have hone := h rid he
  rw [← view_slots, hv] at hone
  simpa [View.slots] using hone

/-- A running request is cancelled and the slot it leaves is given to the next one. -/
def overcommit : List Label :=
  [.chat "a" (shortChat false), .cancel "a", .chat "b" (shortChat false)]

/-- The client goes away between two chunks, and the next request starts on the slot of the
stream that nobody closed. -/
def abandonedStream : List Label :=
  [.chat "a" (shortChat true), .adapter "a" .chunk, .body "a" .start, .body "a" .close,
    .chat "b" (shortChat false)]

/-- Under a limit of one, two executions are in progress and the first is not counted. -/
def Overcommits (ls : List Label) : Prop :=
  broker.EachState (fun s => effectiveLimit s.cfg s.rt = 1) (.init oneSlot 0 0) ls ∧
    ∃ s out, broker.exec (.init oneSlot 0 0) ls = some (s, out) ∧
      s.executions = 2 ∧ s.rt.timesCounted "a" = 0 ∧ s.executing "a" = true

instance (s : System) (l : Label) : Decidable (s.CancelsExecution l) :=
  match l with
  | .cancel rid => decidable_of_iff (s.executing rid = true) (by simp [System.CancelsExecution])
  | .body rid .close =>
    decidable_of_iff ((s.handlers.get? rid).any (·.phase = .bodyOpen) = true)
      (by simp [System.CancelsExecution, Option.any_eq_true])
  | .chat .. | .generate .. | .resume .. | .adapter .. | .finalise .. | .kill ..
  | .body _ .start | .body _ .chunk | .body _ .exhausted | .body _ .upstreamError
  | .body _ .exception | .body _ .finish | .memoryPressure .. | .configure .. | .tick .. =>
    .isFalse (by simp [System.CancelsExecution])

end Whooshd
