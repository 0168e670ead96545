import Mathlib
import Whooshd.Continuous.Calls

namespace Whooshd.Continuous
set_option autoImplicit true

namespace FakeTokenLevelScheduler

variable {s : FakeTokenLevelScheduler}

/-- Between two calls of a run whose later admissions bring new request ids. -/
structure Between (s : FakeTokenLevelScheduler) (calls : List SchedulerCall) : Prop where
  ok : SchedulerOk s
  idle : ∀ rid req, s.requests.get? rid = some req → req.state ≠ .streamDraining
  fresh : ∀ rid ∈ admittedIds calls, s.requests.get? rid = none
  distinct : (admittedIds calls).Nodup

theorem initSlots_ids (config : FakeContinuousSchedulerConfig) :
    ((initSlots config).map (·.slotId)).Nodup := by
  rw [initSlots, List.map_map]
  apply List.Nodup.map _ List.nodup_range
  intro i j he
  exact Nat.repr_injective ((String.append_right_inj _).mp he)

theorem init_ok (config : FakeContinuousSchedulerConfig) : SchedulerOk (init config) where
  seated := by
    have hempty : ∀ slot ∈ initSlots config, slot.state = .empty ∧ slot.requestId = none ∧
        slot.slotId ≠ "" := by
      intro slot hslot
      obtain ⟨i, -, rfl⟩ := List.mem_map.mp hslot
      exact ⟨rfl, rfl, by simp⟩
    constructor
    · exact initSlots_ids config
    · exact fun slot hslot => (hempty slot hslot).2.2
    · exact nofun
    · exact nofun
    · exact nofun
    · intro slot hslot rid hrid
      rw [(hempty slot hslot).2.1] at hrid
      cases hrid
    · intro slot hslot hstate
      exact absurd (hempty slot hslot).1 hstate
    · exact nofun
  requests := nofun
  size := by simp [init, initSlots]

theorem Between.init (config : FakeContinuousSchedulerConfig) (h : (admittedIds calls).Nodup) :
    Between (init config) calls :=
  ⟨init_ok config, nofun, fun _ _ => rfl, h⟩

theorem call_known (h : SchedulerOk s)
    (hidle : ∀ rid req, s.requests.get? rid = some req → req.state ≠ .streamDraining)
    (c : SchedulerCall) (hrid : ∀ handle, c = .admitRequest handle → rid ≠ handle.requestId) :
    (s.call c).requests.get? rid = none ↔ s.requests.get? rid = none := by
  have hmap : ∀ (f : FakeContinuousRequest → FakeContinuousRequest) (rid' : String),
      (if rid = rid' then (s.requests.get? rid').map f else s.requests.get? rid) = none ↔
        s.requests.get? rid = none := by
    intro f rid'
    split
    · next he => rw [he, Option.map_eq_none_iff]
    · exact Iff.rfl
  cases c with
  | admitRequest handle =>
    rw [show (s.call (.admitRequest handle)).requests.get? rid = _ from s.setRequest_get? _ _ rid,
      if_neg (hrid handle rfl)]
  | cancel rid' => exact (close_get? s rid' _ _ rid) ▸ hmap _ rid'
  | timeout rid' => exact (close_get? s rid' _ _ rid) ▸ hmap _ rid'
  | failRequest rid' => exact (close_get? s rid' _ _ rid) ▸ hmap _ rid'
  | tick => exact (tick_ticks h hidle).known rid
  | drainOutputs rid' => exact (drainOutputs_get? s rid' rid) ▸ hmap _ rid'

theorem closed_state (h : state.terminal = true) {req : FakeContinuousRequest} :
    (closed state reason req).state.terminal = true := by
  unfold closed
  split
  · assumption
  · exact h

theorem close_idle
    (hidle : ∀ rid req, s.requests.get? rid = some req → req.state ≠ .streamDraining)
    (rid : String) (hstate : state.terminal = true) (reason : ContinuousFinishReason) :
    ∀ rid' req, (s.close rid state reason).requests.get? rid' = some req →
      req.state ≠ .streamDraining := by
  intro rid' req hget
  rw [close_get?] at hget
  split at hget
  · obtain ⟨old, -, rfl⟩ := Option.map_eq_some_iff.mp hget
    intro he
    have hterminal : (closed state reason old).state.terminal = true := closed_state hstate
    rw [he] at hterminal
    cases hterminal
  · exact hidle rid' req hget

theorem call_ok (h : Between s (c :: calls)) : SchedulerOk (s.call c) := by
  cases c with
  | admitRequest handle => exact admit_ok h.ok (h.fresh _ (by simp [admittedIds]))
  | cancel rid => exact close_ok h.ok rid rfl _
  | timeout rid => exact close_ok h.ok rid rfl _
  | failRequest rid => exact close_ok h.ok rid rfl _
  | tick => exact (tick_ticks h.ok h.idle).ok
  | drainOutputs rid => exact drainOutputs_ok h.ok rid

theorem call_idle (h : Between s (c :: calls)) :
    ∀ rid req, (s.call c).requests.get? rid = some req → req.state ≠ .streamDraining := by
  cases c with
  | admitRequest handle =>
    intro rid req hget
    have hset : (s.call (.admitRequest handle)).requests.get? rid = _ := s.setRequest_get? _ _ rid
    rw [hset] at hget
    split at hget
    · cases hget
      intro hstate
      cases hstate
    · exact h.idle rid req hget
  | cancel rid => exact close_idle h.idle rid rfl _
  | timeout rid => exact close_idle h.idle rid rfl _
  | failRequest rid => exact close_idle h.idle rid rfl _
  | tick => exact (tick_ticks h.ok h.idle).idle
  | drainOutputs rid =>
    intro rid' req hget
    rw [show (s.call (.drainOutputs rid)).requests.get? rid' = _ from
      drainOutputs_get? s rid rid'] at hget
    split at hget
    · obtain ⟨old, hold, rfl⟩ := Option.map_eq_some_iff.mp hget
      exact h.idle rid old hold
    · exact h.idle rid' req hget

theorem admittedIds_cons (c : SchedulerCall) (calls : List SchedulerCall) :
    admittedIds (c :: calls) = admittedIds [c] ++ admittedIds calls :=
  List.filterMap_append (l := [c])

theorem Between.step (h : Between s (c :: calls)) : Between (s.call c) calls := by
  have hdistinct := h.distinct
  rw [admittedIds_cons, List.nodup_append] at hdistinct
  refine ⟨call_ok h, call_idle h, ?_, hdistinct.2.1⟩
  intro rid hrid
  have hnew : ∀ handle, c = .admitRequest handle → rid ≠ handle.requestId := by
    rintro handle rfl rfl
    exact hdistinct.2.2 _ (by simp [admittedIds]) _ hrid rfl
  rw [call_known h.ok h.idle c hnew]
  exact h.fresh rid (by rw [admittedIds_cons]; exact List.mem_append_right _ hrid)

/-- Every request that has ended meets the condition. -/
def EndedAll (Q : FakeContinuousRequest → Prop) (s : FakeTokenLevelScheduler) : Prop :=
  ∀ rid req, s.requests.get? rid = some req → req.state.terminal = true → Q req

/-- The requests that the call ends meet the condition. -/
def EndsAll (Q : FakeContinuousRequest → Prop) (s : FakeTokenLevelScheduler) :
    SchedulerCall → Prop
  | .cancel rid | .timeout rid | .failRequest rid => ∀ req, s.requests.get? rid = some req →
      req.state.terminal = false → Q req
  | .tick => ∀ rid ∈ s.finishers, ∀ req, s.tick.requests.get? rid = some req → Q req
  | .admitRequest _ | .drainOutputs _ => True

section Ended

variable {Q : FakeContinuousRequest → Prop}

theorem close_endedAll (hclosed : ∀ state reason req, Q (closed state reason req) ↔ Q req)
    (h : s.EndedAll Q) (rid : String) (hstate : state.terminal = true)
    (reason : ContinuousFinishReason) : (s.close rid state reason).EndedAll Q ↔
      ∀ req, s.requests.get? rid = some req → req.state.terminal = false → Q req := by
  constructor
  · intro hended req hget hlive
    rw [← hclosed state reason]
    refine hended rid _ ?_ (closed_state hstate)
    rw [close_get?, if_pos rfl, hget, Option.map_some]
  · intro hends rid' req hget hterminal
    rw [close_get?] at hget
    split at hget
    · obtain ⟨old, hold, rfl⟩ := Option.map_eq_some_iff.mp hget
      rw [hclosed]
      cases hlive : old.state.terminal with
      | true => exact h rid old hold hlive
      | false => exact hends old hold hlive
    · exact h rid' req hget hterminal

/-- A condition on the slot and the chunks holds of all ended requests after a call exactly if it
holds of those that the call ends. -/
theorem call_endedAll (h : Between s (c :: calls))
    (hclosed : ∀ state reason req, Q (closed state reason req) ↔ Q req)
    (hfetched : ∀ req, Q req → Q (fetched req)) (hs : s.EndedAll Q) :
    (s.call c).EndedAll Q ↔ s.EndsAll Q c := by
  cases c with
  | admitRequest handle =>
    refine ⟨fun _ => trivial, fun _ rid req hget hterminal => ?_⟩
    have hset : (s.call (.admitRequest handle)).requests.get? rid = _ := s.setRequest_get? _ _ rid
    rw [hset] at hget
    split at hget
    · cases hget
      cases hterminal
    · exact hs rid req hget hterminal
  | cancel rid => exact close_endedAll hclosed hs rid rfl _
  | timeout rid => exact close_endedAll hclosed hs rid rfl _
  | failRequest rid => exact close_endedAll hclosed hs rid rfl _
  | tick =>
    have hticks := tick_ticks h.ok h.idle
    constructor
    · intro hended rid hrid req hget
      obtain ⟨-, req', -, -, hreq', hterminal, -⟩ := hticks.finish rid hrid
      rw [hget] at hreq'
      cases hreq'
      exact hended rid req hget hterminal
    · intro hends rid req hget hterminal
      rcases hticks.ended rid req hterminal hget with hold | hrid
      · exact hs rid req hold hterminal
      · exact hends rid hrid req hget
  | drainOutputs rid =>
    refine ⟨fun _ => trivial, fun _ rid' req hget hterminal => ?_⟩
    rw [show (s.call (.drainOutputs rid)).requests.get? rid' = _ from
      drainOutputs_get? s rid rid'] at hget
    split at hget
    · obtain ⟨old, hold, rfl⟩ := Option.map_eq_some_iff.mp hget
      exact hfetched old (hs rid old hold hterminal)
    · exact hs rid' req hget hterminal

end Ended

end FakeTokenLevelScheduler

theorem scheduler_between (h : FakeTokenLevelScheduler.Between s (c :: calls))
    (hs : tokenLevelScheduler.step s c = some (s', out)) :
    FakeTokenLevelScheduler.Between s' calls := by
  cases hs
  exact h.step

theorem tokenLevelScheduler_exec (calls : List SchedulerCall) (s : FakeTokenLevelScheduler) :
    ∃ r, tokenLevelScheduler.exec s calls = some r := by
  induction calls generalizing s with
  | nil => exact ⟨_, rfl⟩
  | cons c calls ih =>
    obtain ⟨⟨t, out⟩, ht⟩ := ih (s.call c)
    exact ⟨(t, out), Machine.exec_cons.mpr ⟨_, [], out, rfl, ht, rfl⟩⟩

end Whooshd.Continuous
