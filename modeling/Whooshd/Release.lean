import Whooshd.Ledger
import Whooshd.Slots

namespace Whooshd
set_option autoImplicit true

/-- The runtime state as if the request had never taken a slot. -/
def RuntimeState.without (rt : RuntimeState) (rid : RequestId) : RuntimeState :=
  { rt with requests := rt.requests.erase rid, reservations := rt.reservations.erase rid }

/-- A request whose handler has ended, with its response body where there is one, holds no
slot any more. -/
def System.Released (s : System) : Prop :=
  ∀ rid h, s.handlers.get? rid = some h → h.phase = .ended →
    (∃ r, s.rt.requests.get? rid = some r ∧ r.status.isTerminal = true) ∧
      s.rt.reservations.get? rid = none ∧ s.rt.activeJobs = (s.rt.without rid).activeJobs

/-- The steps in which a handler ends without a look at its record: a response body is closed
before its first item was requested, or no response can be built to a first chunk. -/
def Label.passesOver : Label → Option (RequestId × Phase)
  | .body rid .close => some (rid, .bodyPending)
  | .adapter rid .chunkUnsent => some (rid, .firstChunk)
  | _ => none

/-- The bridge does not raise for an arriving request, and no handler passes over its record,
unless the request had been cancelled. -/
def System.LeavesNoSlot (s : System) (l : Label) : Prop :=
  (∀ rid a, l = .chat rid a → ¬ a.BridgeRaises) ∧
    ∀ rid p, l.passesOver = some (rid, p) → ∀ h r, s.handlers.get? rid = some h →
      h.phase = p → s.rt.requests.get? rid = some r → r.status.isTerminal = true

/-- No raising bridge is ahead of the handler, and its record is terminal once it has ended. -/
def Line.Released (v : Line) : Prop :=
  ∀ h, v.handler = some h → ¬ h.BridgeRaises ∧
    (h.phase = .ended → ∃ r, v.record = some r ∧ r.status.isTerminal = true)

/-- What the condition on a step comes down to for one request. -/
def Line.LeavesNoSlot (v : Line) (l : Label) (rid : RequestId) : Prop :=
  (∀ a, l = .chat rid a → ¬ a.BridgeRaises) ∧
    ∀ p, l.passesOver = some (rid, p) → ∀ h r, v.handler = some h → h.phase = p →
      v.record = some r → r.status.isTerminal = true

theorem completed_isTerminal (now : Time) (r : RequestRecord) :
    (RuntimeState.completed now r).status.isTerminal = true := by
  simp only [RuntimeState.completed]
  split
  · next h => rcases h with h | h | h <;> rw [h] <;> rfl
  · rfl

theorem Launches.released (h : Launches rid r hd evs) (hb : ¬ hd.BridgeRaises) :
    Line.Released ⟨some r, some hd⟩ := by
  rintro h' ⟨⟩
  apply And.intro hb
  intro he
  cases h with
  | started hs hp => rcases hp with hp | hp | hp <;> rw [hp] at he <;> cases he
  | cached hs hp => exact ⟨r, rfl, by rw [hs]; rfl⟩
  | unsupported hs hp => exact ⟨r, rfl, by rw [hs]; rfl⟩
  | bridgeRaised hr => exact absurd hr hb

theorem Line.Released.ended (hv : Line.Released ⟨x, some h⟩) (ht : r.status.isTerminal = true)
    (phase : Phase) : Line.Released ⟨some r, some { h with phase }⟩ := by
  rintro h' ⟨⟩
  exact ⟨(hv h rfl).1, fun _ => ⟨r, rfl, ht⟩⟩

theorem Shifts.released (h : Shifts rid l p evs phase) (hp : phase = .ended) :
    l.passesOver = some (rid, p) := by
  cases h <;> first | rfl | cases hp

theorem Turn.released (h : Turn l rid a v evs a' v') (hv : v.Released)
    (hc : v.LeavesNoSlot l rid) : v'.Released := by
  cases h with
  | launch ht hb hs =>
    apply hs.released
    intro hr
    obtain ⟨x, hl, hx⟩ := hb hr
    exact hc.1 x hl hx
  | enqueue hl hs ht hp =>
    obtain ⟨x, rfl, hb⟩ := hl
    rintro h' ⟨⟩
    apply And.intro (fun hr => hc.1 x rfl (hb hr))
    intro he
    rw [hp] at he
    cases he
  | take hp he hs ht htok hb hs' => exact hs'.released (fun hr => (hv _ rfl).1 (hb hr))
  | dropCancelled => exact hv.ended rfl _
  | dropTimedOut => exact hv.ended rfl _
  | @shift evs phase r h hs =>
    rintro h' ⟨⟩
    apply And.intro (hv h rfl).1
    intro he
    exact ⟨r, rfl, hc.2 _ (hs.released he) h r rfl rfl rfl⟩
  | complete hs => exact hv.ended (completed_isTerminal _ _) _
  | fail => exact hv.ended rfl _
  | disconnect => exact hv.ended rfl _
  | cancel hl hs =>
    intro h' hh
    exact ⟨(hv h' hh).1, fun _ => ⟨_, rfl, rfl⟩⟩

theorem noteGrant_bridgeRaises (h : Handler) :
    (System.noteGrant h).BridgeRaises ↔ h.BridgeRaises := by
  simp only [System.noteGrant]
  split <;> rfl

theorem noteGrant_phase_eq (hp : (System.noteGrant h).phase = p) (hw : p.isWaiting = false) :
    h.phase = p := by
  simp only [System.noteGrant] at hp
  split at hp
  · rw [← hp] at hw
    cases hw
  · exact hp

theorem Change.released (h : Change l L evs L') (hi : ∀ rid, (L.line rid).Released)
    (hcond : ∀ rid, (L.line rid).LeavesNoSlot l rid) : ∀ rid, (L'.line rid).Released := by
  intro k
  cases h with
  | refuse => exact hi k
  | refuseCancel => exact hi k
  | finalised => exact hi k
  | @grant L rid =>
    intro h hh
    simp only [Ledger.line, Dict.get?_modify] at hh
    split at hh
    · next hk =>
      obtain ⟨h₀, hh₀, rfl⟩ := Option.map_eq_some_iff.mp hh
      obtain ⟨hb, he⟩ := hi k h₀ (hk ▸ hh₀)
      rw [noteGrant_bridgeRaises]
      exact ⟨hb, fun hp => he (noteGrant_phase_eq hp rfl)⟩
    · exact hi k h hh
  | @turn rid L' L evs hreq hh ht =>
    by_cases hk : k = rid
    · subst hk
      exact ht.released (hi k) (hcond k)
    · have hline : L'.line k = L.line k := by
        simp only [Ledger.line, hreq k hk, hh k hk]
      rw [hline]
      exact hi k

theorem Changes.released (hm : Changes l L evs L') (hpass : l.passesOver = none)
    (hb : ∀ rid a, l = .chat rid a → ¬ a.BridgeRaises) (hi : ∀ rid, (L.line rid).Released) :
    ∀ rid, (L'.line rid).Released := by
  refine hm.history (P := fun _ L => ∀ rid, (L.line rid).Released) (h := []) ?_ hi
  intro hist L evs L' hi hch
  refine hch.released hi fun rid => ⟨hb rid, ?_⟩
  intro p hp
  rw [hpass] at hp
  cases hp

/-- The part of a release that the records show. -/
def System.RecordsReleased (s : System) : Prop := ∀ rid, (s.ledger.line rid).Released

theorem Stepped.one_change (hc : Coherent (System.core s)) (h : Stepped s l x)
    (hpass : l.passesOver = some y) :
    x.2 = [] ∧ x.1 = s ∨ Change l s.ledger x.2 x.1.ledger := by
  cases h with
  | adapter hh hs => exact .inr (adapterStep_change hc hh hs)
  | body hh hs => exact bodyStep_change hc hh hs
  | _ => cases hpass

theorem step_released (hc : Coherent (System.core s)) (hi : s.RecordsReleased)
    (hcond : s.LeavesNoSlot l) (hs : broker.step s l = some (s', out)) : s'.RecordsReleased := by
  cases hpass : l.passesOver with
  | none => exact (step_changes hc hs).released hpass hcond.1 hi
  | some x =>
    obtain ⟨-, rfl⟩ | hch := (stepped_of_step hs).one_change hc hpass
    · exact hi
    · exact hch.released hi fun rid => ⟨hcond.1 rid, hcond.2 rid⟩

theorem Placed.of_ended (hv : Placed rid v) (hh : v.handler = some h) (hp : h.phase = .ended) :
    v.reservation = none := by
  cases hv with
  | absent => rfl
  | queued => rfl
  | granted hr hv hc hw =>
    cases hh
    rcases hw with ⟨e, hw, -⟩ | hw <;> rw [hw] at hp <;> cases hp
  | serving => rfl
  | done => rfl

theorem activeJobs_without (hr : rt.requests.get? rid = some r) (ht : r.status.isTerminal = true)
    (hn : rt.reservations.get? rid = none) :
    RuntimeState.activeJobs rt = (rt.without rid).activeJobs := by
  have hcount := Dict.count_erase_add rt.requests rid (fun r => r.status.isActive)
  have hact := terminal_not_active ht
  rw [hr, Dict.weight_some, hact] at hcount
  simp only [RuntimeState.activeJobs, RuntimeState.without, Dict.erase_of_get?_none hn]
  simp at hcount
  omega

theorem released_of_records (hc : Coherent (System.core s)) (h : s.RecordsReleased) :
    s.Released := by
  intro rid hd hh hp
  obtain ⟨r, hr, ht⟩ := (h rid hd hh).2 hp
  have hn : s.rt.reservations.get? rid = none := (hc.placed rid).of_ended hh hp
  exact ⟨⟨r, hr, ht⟩, hn, activeJobs_without hr ht hn⟩

/-- In a run in which the bridge never raises, no unread body of a running request is closed and
a response can be built to its first chunk, every ended request has given its slot back, in every
state. -/
theorem no_slot_leak (cfg : Settings) (mono wall : Time) (ls : List Label)
    (hcond : broker.EachStep System.LeavesNoSlot (.init cfg mono wall) ls) :
    broker.EachState System.Released (.init cfg mono wall) ls := by
  have hall : broker.EachState (fun s => Coherent s.core ∧ s.RecordsReleased)
      (.init cfg mono wall) ls := by
    apply Machine.eachState_of_step _ _ hcond
    · rintro s l s' out ⟨hc, hi⟩ hl hs
      exact ⟨step_coherent hc hs, step_released hc hi hl hs⟩
    · apply And.intro (init_coherent cfg mono wall)
      intro rid h hh
      cases hh
  exact hall.imp fun s h => released_of_records h.1 h.2

theorem no_slot_leak_handover :
    broker.EachStep System.LeavesNoSlot (.init oneSlot 0 0) handover ∧
      broker.EachState System.Released (.init oneSlot 0 0) handover := by
  have hcond : broker.EachStep System.LeavesNoSlot (.init oneSlot 0 0) handover := by
    apply Machine.EachStep.imp (C := fun _ l =>
      (∀ rid a, l = .chat rid a → a.bridge = .miss) ∧ l.passesOver = none)
    · rintro s l ⟨hchat, hpass⟩
      constructor
      · rintro rid a rfl ⟨-, hb⟩
        rw [hchat rid a rfl] at hb
        cases hb
      · intro rid p hp
        rw [hpass] at hp
        cases hp
    · apply Machine.eachStep_of_mem
      simp [handover, shortChat, Label.passesOver]
  exact ⟨hcond, no_slot_leak oneSlot 0 0 handover hcond⟩

/-- The client goes away before the first item of the response body is requested. -/
def unreadBody : List Label :=
  [.chat "a" (shortChat true), .adapter "a" .chunk, .body "a" .close]

/-- The first chunk of a stream comes with texts that no header takes. -/
def unsentChunk : List Label := [.chat "a" (shortChat true), .adapter "a" .chunkUnsent]

/-- The bridge raises for a request that was admitted at once. -/
def raisingBridge : List Label := [.chat "a" { shortChat false with bridge := .raised }]

theorem slot_leaks :
    (∃ s out h r, broker.exec (.init oneSlot 0 0) unreadBody = some (s, out) ∧
      s.handlers.get? "a" = some h ∧ h.phase = .ended ∧ s.rt.requests.get? "a" = some r ∧
      r.status = .streaming ∧ s.rt.activeJobs = 1 ∧ ¬ s.Released) ∧
    (∃ s out h r, broker.exec (.init oneSlot 0 0) raisingBridge = some (s, out) ∧
      s.handlers.get? "a" = some h ∧ h.phase = .ended ∧ s.rt.requests.get? "a" = some r ∧
      r.status = .running ∧ s.rt.activeJobs = 1 ∧ ¬ s.Released) ∧
    ∃ s out h r, broker.exec (.init oneSlot 0 0) unsentChunk = some (s, out) ∧
      s.handlers.get? "a" = some h ∧ h.phase = .ended ∧ s.rt.requests.get? "a" = some r ∧
      r.status = .streaming ∧ s.rt.activeJobs = 1 ∧ ¬ s.Released := by
  have hleak : ∀ {s : System} {h r}, s.handlers.get? "a" = some h → h.phase = .ended →
      s.rt.requests.get? "a" = some r → r.status.isTerminal = false → ¬ s.Released := by
    intro s h r hh hp hr hn hrel
    obtain ⟨⟨r', hr', ht⟩, -⟩ := hrel "a" h hh hp
    rw [hr] at hr'
    cases hr'
    rw [hn] at ht
    cases ht
  refine ⟨?_, ?_, ?_⟩
  · exact ⟨_, _, _, _, rfl, rfl, rfl, rfl, rfl, by decide, hleak rfl rfl rfl rfl⟩
  · exact ⟨_, _, _, _, rfl, rfl, rfl, rfl, rfl, by decide, hleak rfl rfl rfl rfl⟩
  · exact ⟨_, _, _, _, rfl, rfl, rfl, rfl, rfl, by decide, hleak rfl rfl rfl rfl⟩

end Whooshd
