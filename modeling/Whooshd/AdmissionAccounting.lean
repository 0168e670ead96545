import Whooshd.Slots

namespace Whooshd
set_option autoImplicit true

/-- The books of admission: both totals, and the requests that have a lifecycle record. -/
structure Admissions where
  accepted : Nat
  rejected : Nat
  recorded : List RequestId
  deriving DecidableEq

def RuntimeState.admissions (rt : RuntimeState) : Admissions :=
  ⟨rt.counters.accepted, rt.counters.rejected, rt.requests.keys⟩

/-- The requests that reached a handler. -/
def handled (ls : List Label) : Nat :=
  ls.countP fun
    | .chat .. | .generate .. => true
    | _ => false

/-- An arrival adds to exactly one total, and has a record when it counts as accepted;
nothing else touches the totals. -/
def CountsOnce (s : System) (l : Label) (s' : System) : Prop :=
  let c := s.rt.counters
  let c' := s'.rt.counters
  match l with
  | .chat rid _ | .generate rid _ =>
    c'.accepted = c.accepted + 1 ∧ c'.rejected = c.rejected ∧ s'.rt.requests.contains rid = true ∨
      c'.accepted = c.accepted ∧ c'.rejected = c.rejected + 1
  | _ => c'.accepted = c.accepted ∧ c'.rejected = c.rejected

/-- The refusals of `chat_completions` that follow its `record_accepted`. -/
def ChatArrival.refusedLate (a : ChatArrival) (res : RuntimeResolution) (queued : Bool) : Bool :=
  a.request.hasImage && !res.supportsVision || a.fault = some .observing ||
    !a.request.fieldsSupported || !queued && a.request.stream && !res.supportsStreaming

/-- An arrival that raises out of the resolution or out of an estimate, or that is refused once
it has been counted as accepted. -/
def System.miscounts (s : System) : Label → Bool
  | .chat _ a =>
    a.fault = some .resolving || a.resolution.any fun res =>
      let admission := evaluateChatRequest s.cfg s.rt a.request res.lane res.laneMaxConcurrent
      evaluationRaises s.cfg a || (admission.accepted || admission.reason = .queued) &&
        a.refusedLate res (admission.reason = .queued)
  | .generate _ a =>
    a.fault = some .resolving || a.resolution.isSome && a.fault = some .estimating
  | _ => false

namespace RuntimeState

variable (rt : RuntimeState) (rid : RequestId)

@[simp] theorem admissions_updateRecord (f : RequestRecord → RequestRecord) :
    (rt.updateRecord rid f).admissions = rt.admissions := by
  simp only [admissions, updateRecord, Dict.keys_modify]

@[simp] theorem admissions_reserveCapacity (lane : Option Lane) :
    (rt.reserveCapacity rid lane).admissions = rt.admissions := by
  simp only [reserveCapacity]
  split <;> rfl

@[simp] theorem admissions_markQueued : (rt.markQueued rid).admissions = rt.admissions := by
  simp only [markQueued]
  split
  · exact rt.admissions_updateRecord rid _
  · rfl

@[simp] theorem admissions_markStarted (status : RequestLifecycleState) :
    (rt.markStarted rid status).admissions = rt.admissions := by
  simp only [markStarted]
  split
  · split
    · exact rt.admissions_updateRecord rid _
    · rfl
  · rfl

@[simp] theorem admissions_markTimedOut (now : Time) :
    (rt.markTimedOut rid now).admissions = rt.admissions := by
  simp only [markTimedOut]
  split
  · exact rt.admissions_updateRecord rid _
  · rfl

@[simp] theorem admissions_completeRequest (now : Time) :
    (rt.completeRequest rid now).admissions = rt.admissions := by
  simp only [completeRequest]
  split
  · split
    · rfl
    · exact rt.admissions_updateRecord rid _
  · rfl

@[simp] theorem admissions_cancelRequest (now : Time) :
    (rt.cancelRequest rid now).admissions = rt.admissions := by
  simp only [cancelRequest]
  split
  · exact rt.admissions_updateRecord rid _
  · rfl

@[simp] theorem admissions_failRequest (now : Time) (code : Option String) :
    (rt.failRequest rid now code).admissions = rt.admissions :=
  rt.admissions_updateRecord rid _

theorem admissions_recordRejected (reason : RejectionReason) :
    (rt.recordRejected reason).admissions =
      { rt.admissions with rejected := rt.admissions.rejected + 1 } := by
  cases reason <;> rfl

theorem admissions_beginRequest (hn : rt.requests.contains rid = false) (model : String)
    (stream : Bool) (upstream : Option String) (lane : Option Lane) (now : Time) :
    (rt.beginRequest rid model stream upstream lane now).admissions =
      { rt.admissions with recorded := rt.admissions.recorded ++ [rid] } := by
  simp only [admissions, beginRequest, Dict.keys_set, hn, Bool.false_eq_true, if_false]

end RuntimeState

namespace System

variable (s : System) (rid : RequestId)

theorem admissions_grant (granted : Option QueueEntry) :
    (s.grant granted).1.rt.admissions = s.rt.admissions := by
  cases granted with
  | none => rfl
  | some e => exact s.rt.admissions_reserveCapacity e.requestId e.lane

theorem admissions_executeNonStreaming (h : Handler) :
    (s.executeNonStreaming rid h).1.rt.admissions = s.rt.admissions := by
  have hrun : (s.rt.markRunning rid).admissions = s.rt.admissions :=
    s.rt.admissions_markStarted rid .running
  simp only [executeNonStreaming]
  split
  · exact ((s.rt.markRunning rid).admissions_completeRequest rid s.wall).trans hrun
  · exact hrun
  · exact hrun

theorem admissions_executeStreaming :
    (s.executeStreaming rid).1.rt.admissions = s.rt.admissions :=
  s.rt.admissions_markStarted rid .streaming

theorem admissions_afterWait (h : Handler) (ready : Bool) :
    (s.afterWait rid h ready).1.rt.admissions = s.rt.admissions := by
  simp only [afterWait]
  split
  · split
    · exact s.rt.admissions_cancelRequest rid s.wall
    · exact s.rt.admissions_markTimedOut rid s.wall
  · split
    · exact admissions_executeNonStreaming _ rid h
    · split
      · exact s.rt.markDequeued.admissions_failRequest rid s.wall none
      · exact admissions_executeStreaming _ rid

theorem admissions_runWaiter (h : Handler) (e : QueueEntry) :
    (s.runWaiter rid h e).1.rt.admissions = s.rt.admissions := by
  simp only [runWaiter]
  split
  · exact admissions_grant _ _
  · exact (admissions_afterWait _ rid h _).trans (admissions_grant _ _)

theorem admissions_runtimeCancelRequest :
    (s.runtimeCancelRequest rid).1.rt.admissions = s.rt.admissions := by
  simp only [runtimeCancelRequest]
  split
  · rfl
  next r hr =>
  split
  · rfl
  next hn =>
  simp only [RuntimeState.requestCancellation, hr, if_neg hn, if_true,
    RuntimeState.admissions_cancelRequest]
  exact s.rt.admissions_updateRecord rid _

theorem admissions_adapterStep (hs : s.adapterStep rid p o = some (s', out)) :
    s'.rt.admissions = s.rt.admissions := by
  have hdone := s.rt.admissions_completeRequest rid s.wall
  have hfail := s.rt.admissions_failRequest rid s.wall none
  simp only [adapterStep] at hs
  split at hs <;> cases hs
  any_goals exact hdone
  any_goals exact hfail
  all_goals rfl

theorem admissions_bodyStep (hs : s.bodyStep rid p b = some (s', out)) :
    s'.rt.admissions = s.rt.admissions := by
  have hdone := s.rt.admissions_completeRequest rid s.wall
  have hgone : (s.disconnect rid).rt.admissions = s.rt.admissions :=
    s.rt.recordStreamDisconnect.admissions_cancelRequest rid s.wall
  simp only [bodyStep] at hs
  split at hs <;> cases hs
  any_goals exact hdone
  any_goals exact hgone
  all_goals rfl

theorem admissions_kill (hs : s.kill rid p = some (s', out)) :
    s'.rt.admissions = s.rt.admissions := by
  simp only [kill] at hs
  split at hs <;> cases hs <;> rfl

end System

/-- An arrival that opens a lifecycle record after it was counted as accepted. -/
def Admissions.admit (b : Admissions) (rid : RequestId) : Admissions :=
  ⟨b.accepted + 1, b.rejected, b.recorded ++ [rid]⟩

def Admissions.refuse (b : Admissions) : Admissions := { b with rejected := b.rejected + 1 }

section Arrivals

variable {s : System} (hn : s.rt.requests.contains rid = false)

include hn

theorem admissions_enterQueue (a : ChatArrival) (res : RuntimeResolution) (h : Handler) :
    ({ s with rt := s.rt.recordAccepted }.enterQueue rid a res h).1.rt.admissions =
      s.rt.admissions.admit rid := by
  simp only [System.enterQueue, System.admissions_runWaiter]
  simp only [System.joinQueue, RuntimeState.admissions_markQueued]
  exact s.rt.recordAccepted.admissions_beginRequest rid hn ..

theorem admissions_runNow (a : ChatArrival) (res : RuntimeResolution) (h : Handler)
    (hst : ¬(a.request.stream = true ∧ res.supportsStreaming = false)) :
    ({ s with rt := s.rt.recordAccepted }.runNow rid a res h).1.rt.admissions =
      s.rt.admissions.admit rid := by
  have hbegin := s.rt.recordAccepted.admissions_beginRequest rid hn
  simp only [System.runNow, if_neg hst]
  split
  · exact (System.admissions_executeNonStreaming _ rid h).trans (hbegin ..)
  · exact (System.admissions_executeStreaming _ rid).trans (hbegin ..)

end Arrivals

/-- What an arrival does to the books, by whether it is miscounted. -/
def Booked (miscounted : Bool) (rid : RequestId) (b b' : Admissions) : Prop :=
  if miscounted then
    b'.recorded = b.recorded ∧ ¬(b'.accepted = b.accepted ∧ b'.rejected = b.rejected + 1)
  else b' = b.admit rid ∨ b' = b.refuse

theorem Booked.refused (h : b' = b.refuse) : Booked false rid b b' := .inr h

theorem Booked.admitted (h : b' = b.admit rid) : Booked false rid b b' := .inl h

/-- Counted as accepted and then refused or raised, without a record. -/
theorem Booked.late (ha : b'.accepted = b.accepted + 1) (hr : b'.recorded = b.recorded) :
    Booked true rid b b' := by
  apply And.intro hr
  intro h
  omega

theorem chatCompletions_booked {s : System} (hn : s.rt.requests.contains rid = false)
    (a : ChatArrival) : Booked (s.miscounts (.chat rid a)) rid s.rt.admissions
      (s.chatCompletions rid a).1.rt.admissions := by
  simp only [System.chatCompletions, System.miscounts]
  split
  · next hf => simp [Booked, hf]
  next hf =>
  simp only [hf, decide_false, Bool.false_or]
  split
  · next hres =>
    rw [hres]
    exact .refused (s.rt.admissions_recordRejected _)
  next res hres =>
  rw [hres, Option.any_some]
  split
  · next hraise => simp [Booked, hraise]
  next hraise =>
  simp only [hraise, Bool.false_or]
  have hreason : (evaluateChatRequest s.cfg s.rt a.request res.lane
      res.laneMaxConcurrent).accepted = true → _ := evaluateChatRequest_reason
  generalize evaluateChatRequest s.cfg s.rt a.request res.lane res.laneMaxConcurrent = adm at *
  split
  · next hfull =>
    have hacc : adm.accepted = false := by
      by_contra h
      rw [hreason (by simpa using h)] at hfull
      cases hfull
    simp only [hacc, hfull, reduceCtorEq, decide_false, Bool.or_self, Bool.false_and]
    exact .refused (s.rt.recordQueueRejected.admissions_recordRejected .queueFull)
  split
  · next hno =>
    simp only [hno.1, hno.2, decide_false, Bool.or_self, Bool.false_and]
    exact .refused (s.rt.admissions_recordRejected _)
  next hno =>
  have hok : (adm.accepted || adm.reason = .queued) = true := by
    by_contra h
    simp only [Bool.or_eq_true, decide_eq_true_eq, not_or, Bool.not_eq_true] at h
    exact hno h
  rw [hok, Bool.true_and, ChatArrival.refusedLate]
  split
  · next hi =>
    simp only [hi.1, hi.2, Bool.not_false, Bool.and_self, Bool.true_or]
    exact .late rfl rfl
  next hi =>
  have himg : (a.request.hasImage && !res.supportsVision) = false := by
    by_contra h
    simp only [Bool.not_eq_false, Bool.and_eq_true, Bool.not_eq_true'] at h
    exact hi h
  rw [himg, Bool.false_or]
  split
  · next ho =>
    simp only [ho, decide_true, Bool.true_or]
    exact .late rfl rfl
  next ho =>
  simp only [ho, decide_false, Bool.false_or]
  split
  · next hfld =>
    simp only [hfld, Bool.not_false, Bool.true_or]
    exact .late rfl rfl
  next hfld =>
  simp only [Bool.not_eq_false] at hfld
  rw [hfld, Bool.not_true, Bool.false_or]
  split
  · next hq =>
    simp only [hq, decide_true, Bool.not_true, Bool.false_and]
    exact .admitted (admissions_enterQueue hn a res _)
  next hq =>
  simp only [hq, decide_false, Bool.not_false, Bool.true_and]
  by_cases hst : a.request.stream = true ∧ res.supportsStreaming = false
  · simp only [System.runNow, hst.1, hst.2, Bool.not_false, Bool.and_self]
    exact .late rfl rfl
  · have hb : (a.request.stream && !res.supportsStreaming) = false := by
      by_contra h
      simp only [Bool.not_eq_false, Bool.and_eq_true, Bool.not_eq_true'] at h
      exact hst h
    rw [hb]
    exact .admitted (admissions_runNow hn a res _ hst)

theorem generate_booked {s : System} (hn : s.rt.requests.contains rid = false)
    (a : GenerateArrival) : Booked (s.miscounts (.generate rid a)) rid s.rt.admissions
      (s.generate rid a).1.rt.admissions := by
  simp only [System.generate, System.miscounts]
  split
  · next hf => simp [Booked, hf]
  next hf =>
  rw [decide_eq_false hf, Bool.false_or]
  split
  · next hres =>
    rw [hres]
    exact .refused (s.rt.admissions_recordRejected _)
  next res hres =>
  rw [hres, Option.isSome_some, Bool.true_and]
  split
  · next hraise => simp [Booked, hraise]
  next hraise =>
  rw [decide_eq_false hraise]
  split
  · exact .refused (s.rt.admissions_recordRejected _)
  split
  · exact .refused (s.rt.admissions_recordRejected _)
  · apply Booked.admitted
    exact (RuntimeState.admissions_markStarted _ rid .running).trans
      (s.rt.recordAccepted.admissions_beginRequest rid hn ..)

/-- The request an arrival is about. -/
def Label.arrival? : Label → Option RequestId
  | .chat rid _ | .generate rid _ => some rid
  | _ => none

theorem Stepped.booked (h : Stepped s l x) (hl : l.arrival? = some rid) :
    s.rt.requests.contains rid = false ∧
      Booked (s.miscounts l) rid s.rt.admissions x.1.rt.admissions := by
  cases h with
  | chat hn =>
    cases hl
    exact ⟨hn, chatCompletions_booked hn _⟩
  | generate hn =>
    cases hl
    exact ⟨hn, generate_booked hn _⟩
  | _ => cases hl

theorem Stepped.admissions (h : Stepped s l x) (hl : l.arrival? = none) :
    x.1.rt.admissions = s.rt.admissions := by
  cases h with
  | chat hn => cases hl
  | generate hn => cases hl
  | resume hh hp => exact s.admissions_runWaiter _ _ _
  | adapter hh hs => exact s.admissions_adapterStep _ hs
  | body hh hs => exact s.admissions_bodyStep _ hs
  | finalise => rfl
  | cancel => exact s.admissions_runtimeCancelRequest _
  | kill hh hs => exact s.admissions_kill _ hs
  | memoryPressure => rfl
  | configure => rfl
  | tick => rfl

/-- The books balance after the given number of arrivals. -/
def Admissions.Balanced (b : Admissions) (n : Nat) : Prop :=
  b.accepted + b.rejected = n ∧ b.accepted = b.recorded.length

theorem countsOnce_of_arrival_none (hl : l.arrival? = none) (h : Stepped s l x) :
    CountsOnce s l x.1 := by
  have hb := h.admissions hl
  have ha := congrArg Admissions.accepted hb
  have hr := congrArg Admissions.rejected hb
  cases l with
  | chat => cases hl
  | generate => cases hl
  | _ => exact ⟨ha, hr⟩

theorem countsOnce_arrival (hl : l.arrival? = some rid) : CountsOnce s l s' ↔
    s'.rt.counters.accepted = s.rt.counters.accepted + 1 ∧
        s'.rt.counters.rejected = s.rt.counters.rejected ∧
        s'.rt.requests.contains rid = true ∨
      s'.rt.counters.accepted = s.rt.counters.accepted ∧
        s'.rt.counters.rejected = s.rt.counters.rejected + 1 := by
  cases l with
  | chat => cases hl; rfl
  | generate => cases hl; rfl
  | _ => cases hl

/-- A step counts as claimed exactly when it is not one of the miscounted arrivals. -/
theorem Stepped.countsOnce_iff (h : Stepped s l x) :
    CountsOnce s l x.1 ↔ s.miscounts l = false := by
  cases hl : l.arrival? with
  | none =>
    have hm : s.miscounts l = false := by
      cases l with
      | chat => cases hl
      | generate => cases hl
      | _ => rfl
    exact iff_of_true (countsOnce_of_arrival_none hl h) hm
  | some rid =>
    obtain ⟨hn, hb⟩ := h.booked hl
    rw [countsOnce_arrival hl]
    cases hm : s.miscounts l with
    | true =>
      rw [hm] at hb
      obtain ⟨hrec, hno⟩ := hb
      simp only [Bool.true_eq_false, iff_false, not_or]
      refine ⟨?_, hno⟩
      rintro ⟨-, -, hc⟩
      have hk : rid ∈ x.1.rt.requests.keys := Dict.mem_keys.mpr hc
      rw [show x.1.rt.requests.keys = s.rt.requests.keys from hrec, Dict.mem_keys, hn] at hk
      cases hk
    | false =>
      rw [hm] at hb
      simp only [iff_true]
      rcases hb with hb | hb
      · left
        have hk : x.1.rt.requests.keys = s.rt.requests.keys ++ [rid] :=
          congrArg Admissions.recorded hb
        exact ⟨congrArg Admissions.accepted hb, congrArg Admissions.rejected hb,
          Dict.mem_keys.mp (by rw [hk]; simp)⟩
      · right
        exact ⟨congrArg Admissions.accepted hb, congrArg Admissions.rejected hb⟩

theorem handled_cons (l : Label) (ls : List Label) :
    handled (l :: ls) = (l.arrival?.isSome).toNat + handled ls := by
  cases l <;> simp [handled, Label.arrival?, Nat.add_comm]

theorem Stepped.balanced (h : Stepped s l x) (hm : s.miscounts l = false)
    (hb : s.rt.admissions.Balanced n) :
    x.1.rt.admissions.Balanced (n + (l.arrival?.isSome).toNat) := by
  obtain ⟨hsum, hrec⟩ := hb
  cases hl : l.arrival? with
  | none =>
    rw [h.admissions hl]
    exact ⟨hsum, hrec⟩
  | some rid =>
    obtain ⟨-, hbook⟩ := h.booked hl
    rw [hm] at hbook
    rcases hbook with he | he
    · rw [he]
      constructor
      · simp only [ Admissions.admit, Option.isSome_some, Bool.toNat_true]
        omega
      · simp only [ Admissions.admit, List.length_append, List.length_singleton, hrec]
    · rw [he]
      constructor
      · simp only [Admissions.refuse, Option.isSome_some, Bool.toNat_true]
        omega
      · exact hrec

theorem exec_balanced (hb : s.rt.admissions.Balanced n)
    (hm : broker.EachStep (fun s l => s.miscounts l = false) s ls)
    (hrun : broker.exec s ls = some (t, evs)) :
    t.rt.admissions.Balanced (n + handled ls) := by
  induction ls generalizing s n evs with
  | nil =>
    cases hrun
    exact hb
  | cons l ls ih =>
    obtain ⟨s', out, evs', hs, hrest, -⟩ := Machine.exec_cons.1 hrun
    have hstep := (stepped_of_step hs).balanced hm.1 hb
    rw [handled_cons, ← Nat.add_assoc]
    exact ih hstep (hm.2 s' out hs) hrest

/-- An image request for a text lane: admitted, counted as accepted, then refused. -/
def imageChat : ChatArrival :=
  { shortChat false with request := { (shortChat false).request with hasImage := true } }

end Whooshd
