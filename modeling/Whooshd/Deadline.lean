import Whooshd.Ownership

namespace Whooshd
set_option autoImplicit true

theorem Act.inTime (ha : Act env c rid v evs v') (hv : Placed rid v)
    (hev : .returned e true ∈ evs) : InTime env e := by
  obtain hq | h | ⟨h, -⟩ | ⟨e', ready, h, -, ht⟩ := ha.events hv hev
  · cases hq
  · cases h
  · cases h
  · cases h
    exact ht rfl

/-- No wait succeeds at or after its deadline, or after its token was cancelled. -/
theorem step_inTime {s : System} (hc : Coherent s.core) (hs : broker.step s l = some (s', out))
    (hev : .returned e true ∈ out) : InTime (s.env l) e := by
  have h := (step_moves hc hs).history (h := [])
    (P := fun hist _ => ∀ e, .returned e true ∈ hist → InTime (s.env l) e) ?_ hc nofun
  · exact h e (by simpa using hev)
  · intro hist c evs c' hc ih hm e he
    rcases List.mem_append.1 he with he | he
    · exact ih e he
    · cases hm with
      | refuse => cases List.mem_singleton.1 he
      | note hq => exact absurd (hq _ he) nofun
      | act ht ha => exact ha.inTime (hc.placed _) he

/-- The request can no longer reach an adapter: its wait is over time or cancelled, or its
handler is gone. -/
def View.Doomed (now : Time) (v : View) : Prop :=
  ∃ h, v.handler = some h ∧ (h.phase = .ended ∨ h.phase = .killed ∨
    ∃ e, h.phase = .waiting e ∧
      (v.record.any (·.cancelToken.cancelled) = true ∨ e.isExpired now = true))

theorem Act.doomed (ha : Act env c rid v evs v') (hd : v.Doomed env.mono) :
    v'.Doomed env.mono ∧ .adapterStarted rid ∉ evs := by
  have hq : ∀ {evs}, Quiet evs → .adapterStarted rid ∉ evs := fun hq hev => nomatch hq _ hev
  obtain ⟨h, hh, hd⟩ := hd
  cases ha with
  | accept => cases hh
  | enter => cases hh
  | grant =>
    cases hh
    refine ⟨⟨_, rfl, ?_⟩, by simp⟩
    rcases hd with hp | hp | ⟨e, hp, hx⟩
    · rw [noteGrant_of_not_waiting (by rw [hp]; rfl)]
      exact .inl hp
    · rw [noteGrant_of_not_waiting (by rw [hp]; rfl)]
      exact .inr (.inl hp)
    · exact .inr (.inr ⟨_, noteGrant_phase hp, hx⟩)
  | take hp hg hx hs hc =>
    cases hh
    rcases hd with hp' | hp' | ⟨e, hp', hx'⟩ <;> rw [hp] at hp' <;> cases hp'
    rcases hx' with hc' | hx'
    · simp [hc] at hc'
    · rw [hx] at hx'
      cases hx'
  | drop hp hx hr ht hf hp' hq' =>
    refine ⟨⟨_, rfl, .inl hp'⟩, fun hev => ?_⟩
    rcases List.mem_cons.1 hev with heq | hev
    · cases heq
    · exact hq hq' hev
  | settle hst hp =>
    cases hh
    rcases hd with hp' | hp' | ⟨e, hp', -⟩ <;> rw [hp'] at hp <;> cases hp
  | cancel hl hst hn hr hlane hs hc hq' =>
    cases hh
    refine ⟨⟨_, rfl, hd.imp id (Or.imp id fun ⟨e, hp, _⟩ => ⟨e, hp, .inl ?_⟩)⟩, hq hq'⟩
    simpa using hc
  | kill hl hst hp hp' hq' => exact ⟨⟨_, rfl, .inr (.inl hp')⟩, hq hq'⟩

theorem Move.doomed (hm : Move env c evs c') (hc : Coherent c)
    (hd : (c.view rid).Doomed env.mono) :
    (c'.view rid).Doomed env.mono ∧ .adapterStarted rid ∉ evs := by
  cases hm with
  | refuse => exact ⟨hd, by simp⟩
  | note hq => exact ⟨hd, fun hev => nomatch hq _ hev⟩
  | @act rid' c c' evs ht ha =>
    by_cases hr : rid = rid'
    · subst hr
      exact ha.doomed hd
    · refine ⟨ht.others rid hr ▸ hd, fun hev => ?_⟩
      rcases ha.owner (hc.placed rid') hev with h | h <;> cases h
      exact hr rfl

theorem System.adapterStep_mono {s s' : System} (hs : s.adapterStep rid p o = some (s', out)) :
    s'.mono = s.mono := by
  simp only [System.adapterStep] at hs
  split at hs <;> cases hs <;> rfl

theorem System.bodyStep_mono {s s' : System} (hs : s.bodyStep rid p b = some (s', out)) :
    s'.mono = s.mono := by
  simp only [System.bodyStep] at hs
  split at hs <;> cases hs <;> rfl

theorem Stepped.mono {s : System} (h : Stepped s l x) : s.mono ≤ x.1.mono := by
  cases h with
  | chat hn => exact Int.le_of_eq (congrArg Prod.fst (s.chatCompletions_surroundings _ _)).symm
  | generate hn => exact Int.le_of_eq (congrArg Prod.fst (s.generate_surroundings _ _)).symm
  | resume hh hp => exact Int.le_of_eq (congrArg Prod.fst (s.runWaiter_surroundings _ _ _)).symm
  | adapter hh hs => exact Int.le_of_eq (System.adapterStep_mono hs).symm
  | body hh hs => exact Int.le_of_eq (System.bodyStep_mono hs).symm
  | finalise => exact Int.le_refl _
  | cancel => exact Int.le_of_eq (congrArg Prod.fst (s.runtimeCancelRequest_surroundings _)).symm
  | kill hh hs => exact Int.le_of_eq (congrArg Prod.fst (s.kill_surroundings _ hs)).symm
  | memoryPressure => exact Int.le_refl _
  | configure => exact Int.le_refl _
  | tick hm => exact hm

theorem step_mono {s : System} (hs : broker.step s l = some (s', out)) : s.mono ≤ s'.mono :=
  (stepped_of_step hs).mono

theorem isExpired_mono {e : QueueEntry} (h : e.isExpired now = true) (hle : now ≤ now') :
    e.isExpired now' = true := by
  simp only [QueueEntry.isExpired] at h ⊢
  split at h
  · cases h
  · exact decide_eq_true (Int.le_trans (of_decide_eq_true h) hle)

theorem View.Doomed.later (h : View.Doomed now v) (hle : now ≤ now') : View.Doomed now' v := by
  obtain ⟨hd, hh, hp⟩ := h
  refine ⟨hd, hh, hp.imp id (Or.imp id fun ⟨e, hp, hx⟩ => ⟨e, hp, hx.imp id fun hx => ?_⟩)⟩
  exact isExpired_mono hx hle

theorem step_doomed {s : System} (hc : Coherent s.core) (hd : (s.core.view rid).Doomed s.mono)
    (hs : broker.step s l = some (s', out)) :
    (s'.core.view rid).Doomed s'.mono ∧ .adapterStarted rid ∉ out := by
  have h := (step_moves hc hs).history (h := [])
    (P := fun hist c => (c.view rid).Doomed s.mono ∧ .adapterStarted rid ∉ hist) ?_ hc ⟨hd, nofun⟩
  · exact ⟨h.1.later (step_mono hs), by simpa using h.2⟩
  · intro hist c evs c' hc hp hm
    obtain ⟨hd, hn⟩ := hm.doomed hc hp.1
    refine ⟨hd, fun hev => ?_⟩
    rcases List.mem_append.1 hev with hev | hev
    · exact hp.2 hev
    · exact hn hev

theorem exec_doomed (hc : Coherent (System.core s)) (hd : (s.core.view rid).Doomed s.mono)
    (hrun : broker.exec s ls = some (t, out)) : .adapterStarted rid ∉ out := by
  have h := Machine.exec_history (h := []) (C := fun _ _ => True)
    (P := fun hist s => Coherent s.core ∧ (s.core.view rid).Doomed s.mono ∧
      .adapterStarted rid ∉ hist) ?_ ⟨hc, hd, nofun⟩ (Machine.eachStep_true _ _) hrun
  · exact h.2.2
  · intro hist s l s' out hp _ hs
    obtain ⟨hd', hn⟩ := step_doomed hp.1 hp.2.1 hs
    refine ⟨step_coherent hp.1 hs, hd', fun hev => ?_⟩
    rcases List.mem_append.1 hev with hev | hev
    · exact hp.2.2 hev
    · exact hn hev

theorem resume_gives_up {s : System} (hc : Coherent s.core) (hh : s.handlers.get? rid = some h)
    (hp : h.phase = .waiting e)
    (hx : s.rt.tokenCancelled rid = true ∨ e.isExpired s.mono = true) :
    ∃ s' out, broker.step s (.resume rid) = some (s', out) ∧ .returned e false ∈ out := by
  obtain ⟨r, hr, hwt, hm, -⟩ := (hc.placed rid).of_waiting hh hp
  have hid : e.requestId = rid := hm.1.trans hwt.1
  have hstep : broker.step s (.resume rid) = some (s.runWaiter rid h e) := by
    simp only [broker, System.step, hh, hp]
  generalize hout : s.runWaiter rid h e = r at hstep
  obtain ⟨s', out⟩ := r
  refine ⟨s', out, hstep, ?_⟩
  simp only [System.runWaiter] at hout
  generalize hw : s.queue.waitForExecution s.cfg s.mono e (s.rt.tokenCancelled rid)
    (activeCapacityAvailable s.cfg s.rt none none)
    (fun c => activeCapacityAvailable s.cfg s.rt c.lane c.laneMaxConcurrent) = w at hout
  obtain ⟨mid, -, hret⟩ := RequestQueue.waitForExecution_cases hc.distinct hw
  obtain ⟨-, hcf, hxf, -⟩ | ⟨hrt, -⟩ | ⟨hrt, -⟩ := hret
  · rw [hcf, hxf] at hx
    simp at hx
  · rw [hrt] at hout
    cases hout
    simp
  · rw [hrt] at hout
    cases hout
    obtain ⟨⟨d, hd, hlt⟩, hcan⟩ := step_inTime (e := e) hc hstep (by simp)
    rcases hx with hx | hx
    · rw [hid] at hcan
      rw [← s.core_cancelled] at hx
      exact absurd (hx.symm.trans hcan) (by decide)
    · have hle : d ≤ s.mono := by simpa [QueueEntry.isExpired, hd] using hx
      exact absurd hlt (Int.not_lt.2 hle)

/-- From every reachable state: a wait that succeeds in a step does so before its deadline and
with its token not cancelled; a waiter that is over time or cancelled gives up in its next pass
and its request reaches no adapter in any continuation. -/
theorem expired_or_cancelled_not_executed (cfg : Settings) (mono wall : Time) (ls : List Label)
    (hrun : broker.exec (.init cfg mono wall) ls = some (s, out)) :
    (∀ l s' out' e, broker.step s l = some (s', out') → .returned e true ∈ out' →
      (∃ d, e.deadlineAt = some d ∧ s.mono < d) ∧ s.rt.tokenCancelled e.requestId = false) ∧
    ∀ rid h e, s.handlers.get? rid = some h → h.phase = .waiting e →
      s.rt.tokenCancelled rid = true ∨ e.isExpired s.mono = true →
      (∃ s' out', broker.step s (.resume rid) = some (s', out') ∧ .returned e false ∈ out') ∧
      ∀ ls' t out', broker.exec s ls' = some (t, out') → .adapterStarted rid ∉ out' := by
  have hc := exec_coherent (init_coherent cfg mono wall) hrun
  constructor
  · intro l s' out' e hs hev
    obtain ⟨hd, hcan⟩ := step_inTime hc hs hev
    exact ⟨hd, (s.core_cancelled _).symm.trans hcan⟩
  · intro rid h e hh hp hx
    refine ⟨resume_gives_up hc hh hp hx, fun ls' t out' hrun' => ?_⟩
    refine exec_doomed hc ⟨h, hh, .inr (.inr ⟨e, hp, ?_⟩)⟩ hrun'
    rw [← s.core_cancelled] at hx
    exact hx

/-- A queued request is overtaken by its deadline. -/
def overdue : List Label :=
  [.chat "a" (shortChat false), .chat "b" (shortChat false), .tick 120000 120000]

theorem expired_or_cancelled_not_executed_overdue :
    ∃ s out h e, broker.exec (.init oneSlot 0 0) overdue = some (s, out) ∧
      s.handlers.get? "b" = some h ∧ h.phase = .waiting e ∧ e.isExpired s.mono = true ∧
      ∃ s' out', broker.step s (.resume "b") = some (s', out') ∧ .returned e false ∈ out' := by
  refine ⟨_, _, _, _, rfl, rfl, rfl, by decide, ?_⟩
  exact ((expired_or_cancelled_not_executed oneSlot 0 0 overdue rfl).2 "b" _ _ rfl rfl
    (.inr (by decide))).1

end Whooshd
