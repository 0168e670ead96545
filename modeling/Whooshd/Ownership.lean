import Whooshd.Slots

namespace Whooshd
set_option autoImplicit true

namespace Event

def isGrant (rid : RequestId) : Event → Bool
  | granted r => r = rid
  | _ => false

def isReturn (rid : RequestId) (ready : Bool) : Event → Bool
  | returned e b => e.requestId = rid && b = ready
  | _ => false

def isCall (rid : RequestId) : Event → Bool
  | adapterStarted r => r = rid
  | _ => false

/-- The request whose ownership of a slot or an entry the event is about. -/
def owner : Event → Option RequestId
  | granted r | adapterStarted r => some r
  | returned e _ => some e.requestId
  | adapterEnded _ | answered _ _ | cancelAnswered _ _ => none

end Event

/-- What a history says about one request: grants of its entry, successful and failed waits,
and adapter calls. -/
structure Tally where
  grants : Nat
  wins : Nat
  losses : Nat
  calls : Nat
  deriving DecidableEq, Repr

instance : Add Tally where
  add a b := ⟨a.grants + b.grants, a.wins + b.wins, a.losses + b.losses, a.calls + b.calls⟩

theorem Tally.add_def (a b : Tally) :
    a + b = ⟨a.grants + b.grants, a.wins + b.wins, a.losses + b.losses, a.calls + b.calls⟩ := rfl

def tally (rid : RequestId) (evs : List Event) : Tally :=
  { grants := evs.countP (Event.isGrant rid)
    wins := evs.countP (Event.isReturn rid true)
    losses := evs.countP (Event.isReturn rid false)
    calls := evs.countP (Event.isCall rid) }

theorem tally_append (rid : RequestId) (evs evs' : List Event) :
    tally rid (evs ++ evs') = tally rid evs + tally rid evs' := by
  simp only [tally, List.countP_append, Tally.add_def]

theorem tally_cons (rid : RequestId) (ev : Event) (evs : List Event) :
    tally rid (ev :: evs) = tally rid [ev] + tally rid evs :=
  tally_append rid [ev] evs

theorem tally_granted (rid : RequestId) : tally rid [.granted rid] = ⟨1, 0, 0, 0⟩ := by
  simp [tally, Event.isGrant, Event.isReturn, Event.isCall]

theorem tally_returned (h : e.requestId = rid) (ready : Bool) :
    tally rid [.returned e ready] = if ready then ⟨0, 1, 0, 0⟩ else ⟨0, 0, 1, 0⟩ := by
  cases ready <;> simp [tally, Event.isGrant, Event.isReturn, Event.isCall, h]

theorem tally_started (rid : RequestId) : tally rid [.adapterStarted rid] = ⟨0, 0, 0, 1⟩ := by
  simp [tally, Event.isGrant, Event.isReturn, Event.isCall]

theorem tally_eq_zero (h : ∀ ev ∈ evs, ev.owner ≠ some rid) : tally rid evs = ⟨0, 0, 0, 0⟩ := by
  have hno : ∀ ev ∈ evs, ev.isGrant rid = false ∧ (∀ b, ev.isReturn rid b = false) ∧
      ev.isCall rid = false := by
    intro ev hev
    have hne := h ev hev
    cases ev <;> simp_all [Event.owner, Event.isGrant, Event.isReturn, Event.isCall]
  simp only [tally, Tally.mk.injEq, List.countP_eq_zero]
  exact ⟨fun ev hev => by simp [(hno ev hev).1], fun ev hev => by simp [(hno ev hev).2.1],
    fun ev hev => by simp [(hno ev hev).2.1], fun ev hev => by simp [(hno ev hev).2.2]⟩

theorem Event.owner_of_quiet {ev : Event} (h : ev.isQuiet = true) : ev.owner = none := by
  cases ev <;> first | rfl | cases h

theorem Quiet.tally (h : Quiet evs) (rid : RequestId) : tally rid evs = ⟨0, 0, 0, 0⟩ :=
  tally_eq_zero fun ev hev he => by rw [Event.owner_of_quiet (h ev hev)] at he; cases he

/-- How the history of a request agrees with where it stands. -/
inductive Owned (t : Tally) (v : View) : Prop where
  | fresh (ht : t = ⟨0, 0, 0, 0⟩) (hv : v.handler = none ∨ v.entry.isSome = true)
  | held (ht : t = ⟨1, 0, 0, 0⟩) (he : v.entry = none)
      (hv : ∃ h, v.handler = some h ∧
        ((∃ e, h.phase = .waiting e ∧ e.granted = true) ∨ h.phase = .killed))
  | gone (hw : t.wins ≤ t.grants) (hg : t.grants ≤ t.wins + t.losses)
      (hr : t.wins + t.losses ≤ 1) (hc : t.calls + t.losses ≤ 1) (he : v.entry = none)
      (hv : v.reservation = none) (hh : ∃ h, v.handler = some h ∧ h.phase.isWaiting = false)

theorem Starts.tally (h : Starts rid r hd evs) :
    tally rid evs = ⟨0, 0, 0, 0⟩ ∨ tally rid evs = ⟨0, 0, 0, 1⟩ := by
  obtain ⟨-, ⟨-, -, -, rfl⟩ | ⟨-, -, hq⟩⟩ := h
  · exact .inr (tally_started rid)
  · exact .inl (hq.tally rid)

theorem Starts.not_waiting (h : Starts rid r hd evs) : hd.phase.isWaiting = false := by
  obtain ⟨-, ⟨-, -, hp, -⟩ | ⟨-, hp, -⟩⟩ := h
  · exact Phase.inProgress_not_waiting hp
  · rw [hp]; rfl

theorem Owned.of_entry (ho : Owned t v) (he : v.entry.isSome = true) : t = ⟨0, 0, 0, 0⟩ := by
  cases ho with
  | fresh ht => exact ht
  | held _ hn => rw [hn] at he; cases he
  | gone _ _ _ _ hn => rw [hn] at he; cases he

theorem Owned.of_granted (ho : Owned t v) (hn : v.entry = none) (hh : v.handler = some h)
    (hp : h.phase.isWaiting = true) : t = ⟨1, 0, 0, 0⟩ := by
  cases ho with
  | fresh _ hv =>
    rcases hv with hv | hv
    · rw [hh] at hv; cases hv
    · rw [hn] at hv; cases hv
  | held ht => exact ht
  | gone _ _ _ _ _ _ hd =>
    obtain ⟨h', hh', hw⟩ := hd
    cases hh.symm.trans hh'
    rw [hp] at hw
    cases hw

theorem Act.owned (ha : Act env c rid v evs v') (hv : Placed rid v) (ho : Owned t v) :
    Owned (t + tally rid evs) v' := by
  cases ha with
  | accept hl hroom hs =>
    cases ho with
    | fresh ht =>
      subst ht
      have hw := hs.not_waiting
      rcases hs.tally with h | h <;> rw [h]
      · exact .gone (by decide) (by decide) (by decide) (by decide) rfl rfl ⟨_, rfl, hw⟩
      · exact .gone (by decide) (by decide) (by decide) (by decide) rfl rfl ⟨_, rfl, hw⟩
    | held _ _ h => obtain ⟨_, h, -⟩ := h; cases h
    | gone _ _ _ _ _ _ h => obtain ⟨_, h, -⟩ := h; cases h
  | enter =>
    cases ho with
    | fresh ht => subst ht; exact .fresh rfl (.inr rfl)
    | held _ _ h => obtain ⟨_, h, -⟩ := h; cases h
    | gone _ _ _ _ _ _ h => obtain ⟨_, h, -⟩ := h; cases h
  | grant hx hroom hfront =>
    obtain rfl := ho.of_entry rfl
    rw [tally_granted]
    cases hv with
    | queued hr he hg hp =>
      refine .held rfl rfl ⟨_, rfl, ?_⟩
      rcases hp with hp | hp
      · exact .inl ⟨_, noteGrant_phase hp, rfl⟩
      · right
        rw [noteGrant_of_not_waiting (by rw [hp]; rfl), hp]
  | take hp hg hx hs hc hn he hlane hst =>
    obtain rfl := ho.of_granted rfl rfl (by rw [hp]; rfl)
    obtain ⟨r, -, hw, hm, -⟩ := hv.of_waiting rfl hp
    have hid := hm.1.trans hw.1
    rw [← he, QueueEntry.markGranted_requestId] at hid
    rw [tally_cons, tally_returned hid]
    have hw := hst.not_waiting
    rcases hst.tally with h | h <;> rw [h]
    · exact .gone (by decide) (by decide) (by decide) (by decide) rfl rfl ⟨_, rfl, hw⟩
    · exact .gone (by decide) (by decide) (by decide) (by decide) rfl rfl ⟨_, rfl, hw⟩
  | drop hp hx hr ht hf hp' hq =>
    obtain ⟨r, -, hw, hm, hown⟩ := hv.of_waiting rfl hp
    rw [tally_cons, tally_returned (hm.1.trans hw.1), hq.tally]
    rcases hown with ⟨-, he⟩ | ⟨-, he⟩
    · obtain rfl := ho.of_entry (by rw [he]; rfl)
      exact .gone (by decide) (by decide) (by decide) (by decide) rfl rfl
        ⟨_, rfl, by rw [hp']; rfl⟩
    · obtain rfl := ho.of_granted he rfl (by rw [hp]; rfl)
      exact .gone (by decide) (by decide) (by decide) (by decide) rfl rfl
        ⟨_, rfl, by rw [hp']; rfl⟩
  | settle hst hp hs hq =>
    rw [hq.tally]
    have hw : ∀ {h' : Handler}, h'.phase.serving = true ∨ h'.phase = .ended →
        h'.phase.isWaiting = false := by
      rintro h' (h | h)
      · exact Phase.serving_not_waiting h
      · rw [h]; rfl
    cases ho with
    | fresh _ h => rcases h with h | h <;> cases h
    | held _ _ h =>
      obtain ⟨_, hh, ⟨e, hp', -⟩ | hp'⟩ := h <;> cases hh <;> rw [hp'] at hp <;> cases hp
    | gone h₁ h₂ h₃ h₄ =>
      refine .gone h₁ h₂ h₃ h₄ rfl rfl ⟨_, rfl, ?_⟩
      obtain ⟨-, hp', -⟩ | ⟨-, -, hp', -⟩ := hs
      · exact hw hp'
      · exact hw (.inr hp')
  | cancel hl hst hn hr hlane hs hc hq =>
    rw [hq.tally]
    cases ho with
    | fresh ht h => subst ht; exact .fresh rfl (h.imp id id)
    | held ht he h => subst ht; exact .held rfl he h
    | gone h₁ h₂ h₃ h₄ he h₅ h₆ => exact .gone h₁ h₂ h₃ h₄ he rfl h₆
  | kill hl hst hp hp' hq =>
    rw [hq.tally]
    cases ho with
    | fresh ht h =>
      subst ht
      refine .fresh rfl (h.imp (fun h => ?_) id)
      cases h
    | held ht he h => subst ht; exact .held rfl he ⟨_, rfl, .inr hp'⟩
    | gone h₁ h₂ h₃ h₄ he h₅ h₆ =>
      exact .gone h₁ h₂ h₃ h₄ he h₅ ⟨_, rfl, by rw [hp']; rfl⟩

theorem Act.owner (ha : Act env c rid v evs v') (hv : Placed rid v) (hev : ev ∈ evs) :
    ev.owner = none ∨ ev.owner = some rid := by
  obtain hq | rfl | ⟨rfl, -⟩ | ⟨e, ready, rfl, rfl, -⟩ := ha.events hv hev
  · exact .inl (Event.owner_of_quiet hq)
  · exact .inr rfl
  · exact .inr rfl
  · exact .inr rfl

def Core.Owned (hist : List Event) (c : Core) : Prop :=
  ∀ rid, Whooshd.Owned (tally rid hist) (c.view rid)

theorem Move.owned (hm : Move env c evs c') (hc : Coherent c) (ho : c.Owned hist) :
    c'.Owned (hist ++ evs) := by
  intro rid
  rw [tally_append]
  cases hm with
  | refuse => exact ho rid
  | note hq =>
    rw [hq.tally]
    exact ho rid
  | @act rid' c c' evs ht ha =>
    by_cases hr : rid = rid'
    · subst hr
      exact ha.owned (hc.placed rid) (ho rid)
    · have hz : tally rid evs = ⟨0, 0, 0, 0⟩ := by
        apply tally_eq_zero
        intro ev hev he
        rcases ha.owner (hc.placed rid') hev with h | h <;> rw [he] at h <;> cases h
        exact hr rfl
      rw [hz, ht.others rid hr]
      exact ho rid

theorem step_owned {s : System} (hc : Coherent s.core) (ho : s.core.Owned hist)
    (hs : broker.step s l = some (s', out)) : s'.core.Owned (hist ++ out) :=
  (step_moves hc hs).history (P := fun hist c => c.Owned hist)
    (fun hc ho hm => hm.owned hc ho) hc ho

theorem exec_owned (hrun : broker.exec (.init cfg mono wall) ls = some (s, out)) :
    Coherent s.core ∧ s.core.Owned out := by
  have h := Machine.exec_history (P := fun hist s => Coherent s.core ∧ s.core.Owned hist)
    (C := fun _ _ => True)
    (fun hp _ hs => ⟨step_coherent hp.1 hs, step_owned hp.1 hp.2 hs⟩)
    (h := []) ⟨init_coherent cfg mono wall, fun _ => .fresh rfl (.inl rfl)⟩
    (Machine.eachStep_true _ _) hrun
  exact h

theorem exists_returned {out : List Event} (h : 0 < out.countP (Event.isReturn rid ready)) :
    ∃ e ready, Event.returned e ready ∈ out ∧ e.requestId = rid := by
  obtain ⟨ev, hev, hp⟩ := List.countP_pos_iff.1 h
  cases ev with
  | returned e b =>
    simp only [Event.isReturn, Bool.and_eq_true, decide_eq_true_eq] at hp
    exact ⟨e, b, hev, hp.1⟩
  | granted | adapterStarted | adapterEnded | answered | cancelAnswered => cases hp

/-- A granted request that still waits holds its slot, unless it was cancelled. -/
theorem Placed.holds (hv : Placed rid v) (hh : v.handler = some h) (hp : h.phase = .waiting e)
    (hg : e.granted = true) :
    v.record.any (·.cancelToken.cancelled) = true ∨ v.reservation.isSome = true := by
  cases hv with
  | absent => cases hh
  | queued _ _ hg' hp' =>
    cases hh
    rcases hp' with hp' | hp' <;> rw [hp] at hp' <;> cases hp'
    rw [hg] at hg'
    cases hg'
  | granted _ _ hc => exact hc
  | serving _ hp' => cases hh; rw [hp] at hp'; cases hp'
  | done _ _ hp' => cases hh; rcases hp' with hp' | hp' <;> rw [hp] at hp' <;> cases hp'

/-- In every reachable state: an entry was granted at most once; a wait that succeeded had its
own entry granted once and out of the deque; a wait that failed left neither an entry nor a
reservation; no request was executed twice; and a granted request has been returned, is still
awaited by its handler, or lost its handler to a task cancellation. -/
theorem queue_ownership (cfg : Settings) (mono wall : Time) (ls : List Label)
    (hrun : broker.exec (.init cfg mono wall) ls = some (s, out)) (rid : RequestId) :
    out.countP (Event.isGrant rid) ≤ 1 ∧
      (∀ e, .returned e true ∈ out → e.requestId = rid →
        out.countP (Event.isGrant rid) = 1 ∧ s.queue.find rid = none) ∧
      (∀ e, .returned e false ∈ out → e.requestId = rid →
        s.queue.find rid = none ∧ s.rt.reservations.get? rid = none) ∧
      out.countP (Event.isCall rid) ≤ 1 ∧
      (.granted rid ∈ out → (∃ e ready, .returned e ready ∈ out ∧ e.requestId = rid) ∨
        ∃ h, s.handlers.get? rid = some h ∧
          ((∃ e, h.phase = .waiting e ∧ e.granted = true ∧
            (s.rt.tokenCancelled rid = true ∨ s.rt.reservations.contains rid = true)) ∨
          h.phase = .killed)) := by
  obtain ⟨hc, ho⟩ := exec_owned hrun
  have hpos : ∀ {p : Event → Bool} {ev}, ev ∈ out → p ev = true → 0 < out.countP p :=
    fun hev hp => List.countP_pos_iff.2 ⟨_, hev, hp⟩
  have hwin : ∀ e, .returned e true ∈ out → e.requestId = rid → 0 < (tally rid out).wins :=
    fun e he hid => hpos he (by simp [Event.isReturn, hid])
  have hloss : ∀ e, .returned e false ∈ out → e.requestId = rid → 0 < (tally rid out).losses :=
    fun e he hid => hpos he (by simp [Event.isReturn, hid])
  have hgrant : .granted rid ∈ out → 0 < (tally rid out).grants :=
    fun he => hpos he (by simp [Event.isGrant])
  have hplaced := hc.placed rid
  change (tally rid out).grants ≤ 1 ∧ (∀ e, _ → _ → (tally rid out).grants = 1 ∧ _) ∧ _ ∧
    (tally rid out).calls ≤ 1 ∧ _
  cases ho rid with
  | fresh ht hv =>
    rw [ht] at hwin hloss hgrant ⊢
    exact ⟨Nat.zero_le _, fun e he hid => absurd (hwin e he hid) (Nat.lt_irrefl 0),
      fun e he hid => absurd (hloss e he hid) (Nat.lt_irrefl 0), Nat.zero_le _,
      fun he => absurd (hgrant he) (Nat.lt_irrefl 0)⟩
  | held ht he hv =>
    rw [ht] at hwin hloss hgrant ⊢
    refine ⟨Nat.le_refl _, fun e he hid => absurd (hwin e he hid) (Nat.lt_irrefl 0),
      fun e he hid => absurd (hloss e he hid) (Nat.lt_irrefl 0), Nat.zero_le _, fun _ => .inr ?_⟩
    obtain ⟨h, hh, ⟨e, hp, hg⟩ | hp⟩ := hv
    · refine ⟨h, hh, .inl ⟨e, hp, hg, ?_⟩⟩
      rw [← s.core_cancelled]
      exact hplaced.holds hh hp hg
    · exact ⟨h, hh, .inr hp⟩
  | gone hw hg hr hcall he hv hh =>
    refine ⟨by omega, fun e hev hid => ⟨?_, he⟩, fun e hev hid => ⟨he, hv⟩, by omega,
      fun hev => .inl ?_⟩
    · have := hwin e hev hid
      omega
    · have := hgrant hev
      by_cases hwins : 0 < (tally rid out).wins
      · exact exists_returned hwins
      · have hl : 0 < (tally rid out).losses := by omega
        exact exists_returned hl

theorem queue_ownership_handover :
    ∃ s out, broker.exec (.init oneSlot 0 0) handover = some (s, out) ∧
      .granted "b" ∈ out ∧ (out.any (Event.isReturn "b" true)) = true ∧
      out.countP (Event.isGrant "b") ≤ 1 ∧ out.countP (Event.isCall "b") ≤ 1 := by
  refine ⟨_, _, rfl, by decide, by decide, ?_⟩
  have h := queue_ownership oneSlot 0 0 handover rfl "b"
  exact ⟨h.1, h.2.2.2.1⟩

end Whooshd
