import Whooshd.Continuous.Ending

namespace Whooshd.Continuous
set_option autoImplicit true

namespace FakeTokenLevelScheduler

variable {s : FakeTokenLevelScheduler}

/-- No two live requests hold one slot. -/
def Exclusive (s : FakeTokenLevelScheduler) : Prop :=
  ∀ rid rid' req req' x, s.requests.get? rid = some req → s.requests.get? rid' = some req' →
    req.state.terminal = false → req'.state.terminal = false →
    req.slotId = some x → req'.slotId = some x → rid = rid'

/-- The slot of a request that has ended can be taken, or has been taken again. -/
def SlotsFreed (s : FakeTokenLevelScheduler) : Prop :=
  ∀ rid req x, s.requests.get? rid = some req → req.state.terminal = true → req.slotId = some x →
    (∃ slot ∈ s.slots, slot.slotId = x ∧ slot.state = .empty) ∨
      ∃ rid' req', s.requests.get? rid' = some req' ∧ req'.state.terminal = false ∧
        req'.slotId = some x

/-- The live requests that hold a slot. -/
def holders (s : FakeTokenLevelScheduler) : List FakeContinuousRequest :=
  s.live.filter (·.slotId.isSome)

/-- A tick gives a pending request, or one before it, a slot while fewer hold one than there are. -/
def Serves (s : FakeTokenLevelScheduler) : SchedulerCall → Prop
  | .tick => ∀ before rid after req, s.pendingAdmission = before ++ rid :: after →
      s.requests.get? rid = some req → req.state = .admitted →
      s.holders.length < s.config.maxSlots →
      ∃ rid' ∈ before ++ [rid], ∃ old new x, s.requests.get? rid' = some old ∧
        old.state = .admitted ∧ s.tick.requests.get? rid' = some new ∧ new.slotId = some x
  | _ => True

/-- The call ends no request that has a slot. -/
def KeepsSeats (s : FakeTokenLevelScheduler) : SchedulerCall → Prop
  | .cancel rid | .timeout rid | .failRequest rid => ∀ req, s.requests.get? rid = some req →
      req.state.terminal = false → req.slotId = none
  | .tick => s.finishers = []
  | .admitRequest _ | .drainOutputs _ => True

instance (s : FakeTokenLevelScheduler) : DecidablePred s.KeepsSeats
  | .cancel rid | .timeout rid | .failRequest rid => inferInstanceAs (Decidable
      (∀ req ∈ s.requests.get? rid, req.state.terminal = false → req.slotId = none))
  | .tick => inferInstanceAs (Decidable (s.finishers = []))
  | .admitRequest _ | .drainOutputs _ => .isTrue trivial

/-- No request that has ended has had a slot. -/
def Settled (s : FakeTokenLevelScheduler) : Prop := s.EndedAll (·.slotId = none)

theorem call_settled (h : Between s (c :: calls)) (hs : s.Settled) :
    (s.call c).Settled ↔ s.KeepsSeats c := by
  have hclosed : ∀ state reason req, (closed state reason req).slotId = none ↔
      req.slotId = none := by
    intro state reason req
    unfold closed
    split <;> exact Iff.rfl
  refine (call_endedAll h hclosed (fun _ => id) hs).trans ?_
  cases c with
  | tick =>
    have hticks := tick_ticks h.ok h.idle
    constructor
    · intro hends
      apply List.eq_nil_iff_forall_not_mem.mpr
      intro rid hrid
      obtain ⟨-, req, x, -, hreq, -, hx, -⟩ := hticks.finish rid hrid
      rw [hends rid hrid req hreq] at hx
      cases hx
    · intro hnone rid hrid
      rw [show s.finishers = [] from hnone] at hrid
      cases hrid
  | admitRequest | cancel | timeout | failRequest | drainOutputs => exact Iff.rfl

theorem phase_of_live {req : FakeContinuousRequest} (h : req.state.terminal = false) :
    req.phase ≠ .ended := by
  intro hended
  rw [FakeContinuousRequest.phase_ended, h] at hended
  cases hended

theorem SchedulerOk.exclusive (h : SchedulerOk s) : s.Exclusive := by
  intro rid rid' req req' x hget hget' _ _ hx hx'
  refine h.seated.alone rid rid' req.phase req'.phase x ?_ ?_
  · rw [seats_of_get? hget, FakeContinuousRequest.seat, hx]
  · rw [seats_of_get? hget', FakeContinuousRequest.seat, hx']

/-- A slot that was held once is not emptied, so none may be given up. -/
theorem SchedulerOk.slotsFreed_iff (h : SchedulerOk s) : s.SlotsFreed ↔ s.Settled := by
  constructor
  · intro hfreed rid req hget hterminal
    cases hx : req.slotId with
    | none => rfl
    | some x =>
      have hseat : s.seats rid = some (req.phase, some x) := by
        rw [seats_of_get? hget, FakeContinuousRequest.seat, hx]
      rcases hfreed rid req x hget hterminal hx with hslot | ⟨rid', req', hget', hlive, hx'⟩
      · obtain ⟨slot, hslot, hid, hempty⟩ := hslot
        obtain ⟨taken, htaken, hid', hfull, -⟩ := h.seated.taken rid _ x hseat
        rw [eq_of_slotId h.seated.ids htaken hslot (hid'.trans hid.symm)] at hfull
        exact absurd hempty hfull
      · have hseat' : s.seats rid' = some (req'.phase, some x) := by
          rw [seats_of_get? hget', FakeContinuousRequest.seat, hx']
        have he := h.seated.alone rid rid' _ _ x hseat hseat'
        rw [← he, hget] at hget'
        cases hget'
        rw [hlive] at hterminal
        cases hterminal
  · intro hsettled rid req x hget hterminal hx
    rw [hsettled rid req hget hterminal] at hx
    cases hx

theorem exists_emptySlot (h : SchedulerOk s) (hs : s.Settled)
    (hfew : s.holders.length < s.config.maxSlots) : ∃ slot, s.findEmptySlot = some slot := by
  cases hfind : s.findEmptySlot with
  | some slot => exact ⟨slot, rfl⟩
  | none =>
    have hfull : ∀ slot ∈ s.slots, slot.state ≠ .empty := by
      simpa [findEmptySlot] using hfind
    have howner : ∀ slot ∈ s.slots, ∃ rid req, slot.requestId = some rid ∧
        s.requests.get? rid = some req ∧ req.state.terminal = false ∧
          req.slotId = some slot.slotId := by
      intro slot hslot
      obtain ⟨rid, phase, hseat⟩ := h.seated.filled slot hslot (hfull slot hslot)
      obtain ⟨req, hget, rfl, hx⟩ := seats_eq_some hseat
      have hlive : req.state.terminal = false := by
        rw [← Bool.not_eq_true]
        intro hterminal
        rw [hs rid req hget hterminal] at hx
        cases hx
      obtain ⟨a, ha, hid, hown⟩ := h.seated.slot_of_seat hseat (phase_of_live hlive)
      rw [eq_of_slotId h.seated.ids ha hslot hid] at hown
      exact ⟨rid, req, hown, hget, hlive, hx⟩
    have hnodup : (s.slots.map fun slot => slot.requestId.getD "").Nodup := by
      apply List.Nodup.map_on _ h.seated.ids.of_map
      intro slot hslot slot' hslot' he
      obtain ⟨rid, req, hown, hget, -, hx⟩ := howner slot hslot
      obtain ⟨rid', req', hown', hget', -, hx'⟩ := howner slot' hslot'
      rw [hown, hown', Option.getD_some, Option.getD_some] at he
      subst he
      rw [hget] at hget'
      cases hget'
      exact eq_of_slotId h.seated.ids hslot hslot' (Option.some.inj (hx.symm.trans hx'))
    have hcount := Dict.length_le_count (d := s.requests)
      (p := fun req => !req.state.terminal && req.slotId.isSome) hnodup (by
        intro rid hrid
        obtain ⟨slot, hslot, rfl⟩ := List.mem_map.mp hrid
        obtain ⟨rid, req, hown, hget, hlive, hx⟩ := howner slot hslot
        refine ⟨req, by rw [hown]; exact hget, ?_⟩
        rw [hlive, hx]
        rfl)
    have hholders : s.requests.count (fun req => !req.state.terminal && req.slotId.isSome) =
        s.holders.length := by
      rw [holders, live, List.filter_filter, Dict.count, List.countP_eq_length_filter]
      congr 2
      funext req
      exact Bool.and_comm _ _
    rw [List.length_map, h.size, hholders] at hcount
    omega

theorem admissionLoop_head (h : SchedulerOk s) (hslot : s.findEmptySlot = some slot)
    (hget : s.requests.get? rid = some req) (hstate : req.state = .admitted) (rids : List String) :
    ∃ new x, (s.admissionLoop (rid :: rids)).requests.get? rid = some new ∧
      new.slotId = some x := by
  have hseat := seat_progress h hget hstate hslot
  have hdrop := dropPending_progress hseat.ok rid
  have hrest := (admissionLoop_progress hdrop.ok rids).1
  have hself : ((s.seat rid req slot).dropPending rid).requests.get? rid =
      some { req with state := .prefillPending, slotId := some slot.slotId } := by
    refine (s.setRequest_get? rid _ rid).trans ?_
    rw [if_pos rfl]
  obtain ⟨new, hnew, hx⟩ := hrest.slot rid _ slot.slotId hself rfl
  refine ⟨new, slot.slotId, ?_, hx⟩
  rw [admissionLoop, hget, Option.filter_some, if_pos (by rw [hstate]; rfl)]
  simp only [hslot]
  exact hnew

/-- The first pending request that is still admitted takes the empty slot. -/
theorem admissionLoop_serves (h : SchedulerOk s) (hslot : s.findEmptySlot = some slot)
    (hget : s.requests.get? rid = some req) (hstate : req.state = .admitted)
    (before after : List String) : ∃ rid' ∈ before ++ [rid], ∃ old new x,
      s.requests.get? rid' = some old ∧ old.state = .admitted ∧
        (s.admissionLoop (before ++ rid :: after)).requests.get? rid' = some new ∧
          new.slotId = some x := by
  induction before generalizing s with
  | nil =>
    obtain ⟨new, x, hnew, hx⟩ := admissionLoop_head h hslot hget hstate after
    exact ⟨rid, by simp, req, new, x, hget, hstate, hnew, hx⟩
  | cons r before ih =>
    cases hr : (s.requests.get? r).filter (·.state = .admitted) with
    | none =>
      obtain ⟨rid', hmem, hserved⟩ := ih (SchedulerOk.dropPending h r) hslot hget
      refine ⟨rid', List.mem_cons_of_mem _ hmem, ?_⟩
      rw [List.cons_append, admissionLoop, hr]
      exact hserved
    | some q =>
      obtain ⟨hq, hadmitted⟩ := Option.filter_eq_some_iff.mp hr
      rw [decide_eq_true_eq] at hadmitted
      obtain ⟨new, x, hnew, hx⟩ := admissionLoop_head h hslot hq hadmitted (before ++ rid :: after)
      exact ⟨r, by simp, q, new, x, hq, hadmitted, hnew, hx⟩

theorem tick_slot (h : SchedulerOk s)
    (hget : (processAdmission { s with tickIndex := s.tickIndex + 1 }).requests.get? rid = some req)
    (hx : req.slotId = some x) :
    ∃ new, s.tick.requests.get? rid = some new ∧ new.slotId = some x := by
  have h₀ : SchedulerOk { s with tickIndex := s.tickIndex + 1 } := ⟨h.seated, h.requests, h.size⟩
  have hadmission := (admissionLoop_progress h₀ s.pendingAdmission).1
  have hprefill : Progress (processAdmission { s with tickIndex := s.tickIndex + 1 }) s.atDecode :=
    (prefillLoop_progress hadmission.ok 0 _).1
  have hall := hprefill.trans (processDecode_decodes h).progress
  obtain ⟨new, hnew, hx'⟩ := hall.slot rid req x hget hx
  refine ⟨drained new, ?_, (drained_slotId new).trans hx'⟩
  rw [(tick_get? h).2.2, hnew, Option.map_some]

theorem serves_of_settled (h : SchedulerOk s) (hs : s.Settled) (c : SchedulerCall) :
    s.Serves c := by
  cases c with
  | tick =>
    intro before rid after req hpending hget hstate hfew
    obtain ⟨slot, hslot⟩ := exists_emptySlot h hs hfew
    have h₀ : SchedulerOk { s with tickIndex := s.tickIndex + 1 } := ⟨h.seated, h.requests, h.size⟩
    obtain ⟨rid', hmem, old, new, x, hold, hadmitted, hnew, hx⟩ :=
      admissionLoop_serves h₀ hslot hget hstate before after
    rw [← hpending] at hnew
    obtain ⟨last, hlast, hx'⟩ := tick_slot h hnew hx
    exact ⟨rid', hmem, old, last, x, hold, hadmitted, hlast, hx'⟩
  | admitRequest | cancel | timeout | failRequest | drainOutputs => trivial

end FakeTokenLevelScheduler

/-- Slots are held by one live request each, are given back and are given out again. -/
def RecyclesSlots (config : FakeContinuousSchedulerConfig) (calls : List SchedulerCall) : Prop :=
  tokenLevelScheduler.EachState (fun s => s.Exclusive ∧ s.SlotsFreed) (.init config) calls ∧
    tokenLevelScheduler.EachStep FakeTokenLevelScheduler.Serves (.init config) calls

/-- Slots are recycled exactly while none has to be: until the first request with a slot ends. -/
theorem recyclesSlots_iff (config : FakeContinuousSchedulerConfig) (calls : List SchedulerCall)
    (hids : (admittedIds calls).Nodup) : RecyclesSlots config calls ↔
      tokenLevelScheduler.EachStep FakeTokenLevelScheduler.KeepsSeats (.init config) calls := by
  have hstart := FakeTokenLevelScheduler.Between.init config hids
  obtain ⟨r, hrun⟩ := tokenLevelScheduler_exec calls (.init config)
  have hsettled : tokenLevelScheduler.EachState FakeTokenLevelScheduler.Settled (.init config) calls
      ↔ tokenLevelScheduler.EachStep FakeTokenLevelScheduler.KeepsSeats (.init config) calls := by
    refine Machine.eachState_iff_eachStep_ahead scheduler_between ?_ hstart nofun hrun
    intro s c calls s' out h hp hs
    cases hs
    exact FakeTokenLevelScheduler.call_settled h hp
  rw [← hsettled]
  refine Machine.eachState_and_eachStep scheduler_between ?_ (fun h hs => ?_) hstart
  · intro s calls h
    rw [FakeTokenLevelScheduler.SchedulerOk.slotsFreed_iff h.ok]
    exact and_iff_right (FakeTokenLevelScheduler.SchedulerOk.exclusive h.ok)
  · exact FakeTokenLevelScheduler.serves_of_settled h.ok hs _

theorem recyclesSlots_admit_tick :
    RecyclesSlots {}
      [.admitRequest ⟨"a"⟩, .tick, .admitRequest ⟨"b"⟩, .admitRequest ⟨"c"⟩, .cancel "c", .tick] :=
  (recyclesSlots_iff _ _ (by decide)).mpr (by decide +kernel)

/-- The slot of a cancelled request is released, and a released slot is not empty. -/
theorem cancelled_slot_not_freed :
    ¬ RecyclesSlots { maxSlots := 1 } [.admitRequest ⟨"a"⟩, .tick, .cancel "a"] := by
  rintro ⟨hstates, -⟩
  have hfreed := (((hstates.2 _ _ rfl).2 _ _ rfl).2 _ _ rfl).2
  rcases hfreed "a" _ "slot-0" rfl rfl rfl with hslot | ⟨rid, req, hget, hlive, -⟩
  · revert hslot
    decide +kernel
  · have hall : ∀ p ∈ ((((FakeTokenLevelScheduler.init { maxSlots := 1 }).call
        (.admitRequest ⟨"a"⟩)).call .tick).call (.cancel "a")).requests.entries,
        p.2.state.terminal = true := by
      decide +kernel
    rw [hall (rid, req) (Dict.get?_eq_some.mp hget)] at hlive
    cases hlive

end Whooshd.Continuous
