import Whooshd.Protocol

namespace Whooshd
set_option autoImplicit true

def System.core (s : System) : Core :=
  ⟨s.rt.requests, s.rt.reservations, s.handlers, s.queue.deque⟩

/-- The arriving chat request meets the memory-pressure override. -/
def System.Held (s : System) : Label → Prop
  | .chat _ a => ∃ res, a.resolution = some res ∧
      s.cfg.pressureOverride
        (capacityContext s.cfg s.rt a.request res.lane res.laneMaxConcurrent)
        (effectiveLimit s.cfg s.rt) = true
  | _ => False

def System.env (s : System) (l : Label) : Env :=
  { limit := effectiveLimit s.cfg s.rt, depth := s.cfg.maxQueueDepth, held := s.Held l
    label := l, start := s.core, mono := s.mono }

/-- Two runtime states hold the same about every request but one. -/
def AgreeOff (rid : RequestId) (rt rt' : RuntimeState) : Prop :=
  ∀ k ≠ rid, rt'.requests.get? k = rt.requests.get? k ∧
    rt'.reservations.get? k = rt.reservations.get? k

namespace AgreeOff

theorem refl (rid : RequestId) (rt : RuntimeState) : AgreeOff rid rt rt :=
  fun _ _ => ⟨rfl, rfl⟩

theorem trans (h : AgreeOff rid rt rt') (h' : AgreeOff rid rt' rt'') : AgreeOff rid rt rt'' :=
  fun k hk => ⟨(h' k hk).1.trans (h k hk).1, (h' k hk).2.trans (h k hk).2⟩

theorem ofModify (hreq : rt'.requests = rt.requests.modify rid f)
    (hres : rt'.reservations = rt.reservations.erase rid) : AgreeOff rid rt rt' := by
  intro k hk
  rw [hreq, hres, Dict.get?_modify, if_neg hk, Dict.get?_erase_ne hk]
  exact ⟨rfl, rfl⟩

theorem ofSet (hreq : rt'.requests = rt.requests.set rid r)
    (hres : rt'.reservations = rt.reservations.erase rid) : AgreeOff rid rt rt' := by
  intro k hk
  rw [hreq, hres, Dict.get?_set_ne hk, Dict.get?_erase_ne hk]
  exact ⟨rfl, rfl⟩

end AgreeOff

theorem touches_of (hrt : AgreeOff rid s.rt s'.rt)
    (hh : ∀ k ≠ rid, s'.handlers.get? k = s.handlers.get? k)
    (hd : s'.queue.deque = s.queue.deque) :
    Touches rid (System.core s) (System.core s') := by
  refine ⟨fun k hk => ?_, .inl hd⟩
  simp only [Core.view, System.core, (hrt k hk).1, (hrt k hk).2, hh k hk, hd]

theorem touches_setPhase (hrt : AgreeOff rid s.rt rt) (phase : Phase) :
    Touches rid (System.core s) (System.setPhase { s with rt } rid phase).core :=
  touches_of hrt (fun k hk => by simp only [System.setPhase, Dict.get?_modify, if_neg hk]) rfl

theorem view_setPhase {s : System} (hh : s.handlers.get? rid = some h) (rt : RuntimeState)
    (phase : Phase) :
    (System.setPhase { s with rt } rid phase).core.view rid =
      ⟨rt.requests.get? rid, rt.reservations.get? rid, some { h with phase },
        findEntry s.queue.deque rid⟩ := by
  simp only [Core.view, System.core, System.setPhase, Dict.get?_modify, if_pos, hh, Option.map_some]

/-- A started record, as `Starts` leaves it, seen from the state before the start. -/
structure Started (s : System) (rid : RequestId) (r : RequestRecord)
    (out : System × List Event) : Prop where
  touches : Touches rid s.core out.1.core
  deque : out.1.queue.deque = s.queue.deque
  view : ∃ r' h', out.1.core.view rid =
      ⟨some r', none, some h', findEntry s.queue.deque rid⟩ ∧
    r'.lane = r.lane ∧ Starts rid r' h' out.2

section Start

variable {s : System} {rid : RequestId} {r : RequestRecord} {h₁ : Handler}
  (hr : s.rt.requests.get? rid = some r) (hid : r.requestId = rid)
  (hs : r.status = .accepted ∨ r.status = .queued) (hc : r.cancelToken.cancelled = false)
  (hh : s.handlers.get? rid = some h₁)

include hr hid hs hc hh

theorem startAdapter_started (status : RequestLifecycleState) (ha : status.isActive = true)
    (hp : phase.inProgress = true) :
    Started s rid r (s.startAdapter rid (s.rt.markStarted rid status) phase) := by
  obtain ⟨hreq, hres⟩ := s.rt.markStarted_of rid hr hs status
  refine ⟨touches_setPhase (.ofSet hreq hres) _, rfl, ?_⟩
  refine ⟨{ r with status }, { h₁ with phase }, ?_, rfl, hid, .inl ⟨ha, hc, hp, rfl⟩⟩
  rw [System.startAdapter, view_setPhase hh, hreq, hres, Dict.get?_set_self, Dict.get?_erase_self]

theorem executeNonStreaming_started (h : Handler) :
    Started s rid r (s.executeNonStreaming rid h) := by
  obtain ⟨hreq, hres⟩ := s.rt.markStarted_of rid hr hs .running
  have hget : (s.rt.markRunning rid).requests.get? rid = some { r with status := .running } := by
    rw [RuntimeState.markRunning, hreq, Dict.get?_set_self]
  have hoff : AgreeOff rid s.rt (s.rt.markRunning rid) := .ofSet hreq hres
  simp only [System.executeNonStreaming]
  split
  · obtain ⟨hreq', hres'⟩ := (s.rt.markRunning rid).completeRequest_of rid hget s.wall
    refine ⟨touches_setPhase (hoff.trans (.ofSet hreq' hres')) _, rfl, ?_⟩
    refine ⟨{ r with status := .completed, endedAt := some s.wall }, { h₁ with phase := .ended },
      ?_, rfl, hid, .inr ⟨(by simp), rfl, ?_⟩⟩
    · rw [System.finish, view_setPhase hh, hreq', hres', Dict.get?_set_self, Dict.get?_erase_self]
      rfl
    · simp [System.finish, Quiet, Event.isQuiet]
  · exact startAdapter_started hr hid hs hc hh .running rfl rfl
  · refine ⟨touches_setPhase hoff _, rfl, ?_⟩
    refine ⟨{ r with status := .running }, { h₁ with phase := .ended }, ?_, rfl, hid,
      .inr ⟨(by simp), rfl, ?_⟩⟩
    · rw [System.finish, view_setPhase hh, hget, RuntimeState.markRunning, hres,
        Dict.get?_erase_self]
    · simp [System.finish, Quiet, Event.isQuiet]

theorem executeStreaming_started : Started s rid r (s.executeStreaming rid) :=
  startAdapter_started hr hid hs hc hh .streaming rfl rfl

omit hs hc in
theorem unsupportedStream_started :
    Started s rid r (s.finish rid (s.rt.failRequest rid s.wall none)
      (.error .unsupportedCapability 422)) := by
  refine ⟨touches_setPhase (.ofModify (s.rt.failRequest_requests rid s.wall none)
    (s.rt.failRequest_reservations rid s.wall none)) _, rfl, ?_⟩
  refine ⟨{ r with status := .failed, endedAt := some s.wall, errorCode := none },
    { h₁ with phase := .ended }, ?_, rfl, hid, .inr ⟨nofun, rfl, ?_⟩⟩
  · rw [System.finish, view_setPhase hh, RuntimeState.failRequest_requests,
      RuntimeState.failRequest_reservations, Dict.get?_modify, if_pos rfl, hr,
      Dict.get?_erase_self]
    rfl
  · simp [System.finish, Quiet, Event.isQuiet]

theorem afterWait_started (h : Handler) : Started s rid r (s.afterWait rid h true) := by
  have hs' : Started { s with rt := s.rt.markDequeued } rid r (s.afterWait rid h true) := by
    simp only [System.afterWait, Bool.true_eq_false, if_false]
    split
    · exact executeNonStreaming_started (s := { s with rt := s.rt.markDequeued }) hr hid hs hc hh h
    · split
      · exact unsupportedStream_started (s := { s with rt := s.rt.markDequeued }) hr hid hh
      · exact executeStreaming_started (s := { s with rt := s.rt.markDequeued }) hr hid hs hc hh
  exact ⟨hs'.touches, hs'.deque, hs'.view⟩

end Start

theorem System.core_activeJobs (s : System) :
    s.core.occupancy (fun _ => true) = s.rt.activeJobs := s.rt.activeJobs_eq.symm

theorem System.core_activeJobsForLane (s : System) (hl : l ≠ "") :
    s.core.occupancy (fun lane => lane = some l) = s.rt.activeJobsForLane (some l) :=
  (s.rt.activeJobsForLane_eq hl).symm

theorem room_of_available (h : activeCapacityAvailable s.cfg s.rt lane ceiling = true)
    (hl : env.limit = effectiveLimit s.cfg s.rt) : Room env (System.core s) lane ceiling := by
  constructor
  · rw [hl, s.core_activeJobs]
    exact activeCapacityAvailable_global h
  · rintro l k rfl hne rfl
    rw [s.core_activeJobsForLane hne]
    exact activeCapacityAvailable_lane h

theorem room_of_accepted {s : System} {req : ChatRequest}
    (h : (evaluateChatRequest s.cfg s.rt req lane ceiling).reason = .accepted)
    (hl : env.limit = effectiveLimit s.cfg s.rt) : Room env s.core lane ceiling := by
  obtain ⟨hg, hlane⟩ := evaluateChatRequest_accepted h
  constructor
  · rw [hl, s.core_activeJobs]
    exact hg
  · rintro l k rfl hne rfl
    rw [s.core_activeJobsForLane hne]
    exact hlane k rfl

theorem reserveCapacity_reservations (h : rt.reservations.get? rid = none) :
    (RuntimeState.reserveCapacity rt rid lane).reservations = rt.reservations.set rid lane := by
  simp only [RuntimeState.reserveCapacity, Dict.contains, h, Option.isSome_none,
    Bool.false_eq_true, if_false]

theorem reserveCapacity_requests :
    (RuntimeState.reserveCapacity rt rid lane).requests = rt.requests := by
  simp only [RuntimeState.reserveCapacity]
  split <;> rfl

/-- The core after a grant: the entry is out of the deque and its slot is reserved. -/
def Core.granted (c : Core) (e : QueueEntry) : Core :=
  { c with reservations := c.reservations.set e.requestId e.lane
           handlers := c.handlers.modify e.requestId System.noteGrant
           deque := c.deque.eraseP (·.requestId = e.requestId) }

theorem Core.granted_touches (c : Core) (e : QueueEntry) : Touches e.requestId c (c.granted e) := by
  refine ⟨fun k hk => ?_, .inr (.inl rfl)⟩
  simp only [view, granted, Dict.get?_set_ne hk, Dict.get?_modify, if_neg hk,
    findEntry_eraseP_ne _ hk]

theorem grant_move (hc : Coherent c) (he : e ∈ c.deque) (hx : e.isExpired env.mono = false)
    (hroom : Room env c e.lane e.laneMaxConcurrent)
    (hfront : ∃ f w, c.deque.head? = some f ∧ c.handlers.get? f.requestId = some w ∧
      w.phase.isWaiting = true) :
    Move env c [.granted e.requestId] (c.granted e) := by
  obtain ⟨r, h, hv, -⟩ := (hc.placed e.requestId).of_entry (hc.distinct.find_mem he)
  have hv' : (c.granted e).view e.requestId =
      ⟨some r, some e.lane, some (System.noteGrant h), none⟩ := by
    simp only [Core.view, View.mk.injEq] at hv
    simp only [Core.view, Core.granted, hv.1, Dict.get?_set_self, Dict.get?_modify, if_pos,
      hv.2.2.1, Option.map_some, hc.distinct.findEntry_eraseP]
  refine .act (c.granted_touches e) ?_
  rw [hv, hv']
  exact .grant hx hroom hfront

theorem grant_core {s : System} (hn : s.rt.reservations.get? e.requestId = none)
    (q : RequestQueue) :
    (System.grant { s with queue := q } (some e.markGranted)).1.core =
      { s.core.granted e with deque := q.deque } := by
  simp only [System.grant, System.core, Core.granted, QueueEntry.markGranted,
    reserveCapacity_requests, reserveCapacity_reservations hn]

theorem afterWait_false (s : System) (rid : RequestId) (h : Handler) :
    ∃ rt f evs, s.afterWait rid h false = (System.setPhase { s with rt } rid .ended, evs) ∧
      rt.requests = s.rt.requests.modify rid f ∧ rt.reservations = s.rt.reservations.erase rid ∧
      (∀ r, (f r).requestId = r.requestId ∧ (f r).status.isTerminal = true) ∧ Quiet evs := by
  simp only [System.afterWait, if_true]
  split
  · exact ⟨_, _, _, rfl, s.rt.cancelRequest_requests rid s.wall,
      s.rt.cancelRequest_reservations rid s.wall, fun _ => ⟨rfl, rfl⟩,
      by simp [Quiet, Event.isQuiet]⟩
  · exact ⟨_, _, _, rfl, s.rt.markTimedOut_requests rid s.wall,
      s.rt.markTimedOut_reservations rid s.wall, fun _ => ⟨rfl, rfl⟩,
      by simp [Quiet, Event.isQuiet]⟩

theorem drop_move {s : System} (hd : DistinctIds mid)
    (hq : s.queue.deque = mid.eraseP (·.requestId = rid))
    (hr : s.rt.requests.get? rid = some r) (hh : s.handlers.get? rid = some h)
    (hp : h.phase = .waiting e)
    (hx : r.cancelToken.cancelled = true ∨ e.isExpired env.mono = true)
    (hl : r.status.isTerminal = false ∨
      env.label = .resume rid ∧ env.start.requests.get? rid = some r) (h₀ : Handler) :
    Move env { s.core with deque := mid } (.returned e false :: (s.afterWait rid h₀ false).2)
      (s.afterWait rid h₀ false).1.core := by
  obtain ⟨rt, f, evs, heq, hreq, hres, hf, hquiet⟩ := afterWait_false s rid h₀
  rw [heq]
  have hv : Core.view { s.core with deque := mid } rid =
      ⟨some r, s.rt.reservations.get? rid, some h, findEntry mid rid⟩ := by
    simp only [Core.view, System.core, hr, hh]
  have hv' : (System.setPhase { s with rt } rid .ended).core.view rid =
      ⟨some (f r), none, some { h with phase := .ended }, none⟩ := by
    rw [view_setPhase hh, hreq, hres, Dict.get?_modify, if_pos rfl, hr, Dict.get?_erase_self, hq,
      hd.findEntry_eraseP]
    rfl
  refine .act ⟨fun k hk => ?_, .inr (.inl hq)⟩ ?_
  · rw [(touches_setPhase (.ofModify hreq hres) _).others k hk]
    simp only [Core.view, System.core, hq, findEntry_eraseP_ne _ hk]
  · rw [hv, hv']
    refine .drop hp hx (hf r).1 (hf r).2 ?_ rfl hquiet
    rcases hl with hl | hl
    · exact .inl fun ht => by rw [hl] at ht; cases ht
    · exact .inr hl

theorem take_move {s : System} (hr : s.rt.requests.get? rid = some r) (hw : Waits rid r)
    (hc : r.cancelToken.cancelled = false) (hh : s.handlers.get? rid = some h)
    (hp : h.phase = .waiting e.markGranted) (hx : e.isExpired env.mono = false)
    (hn : env.start.cancelled rid = false) (he : findEntry s.queue.deque rid = none)
    (h₀ : Handler) :
    Move env s.core (.returned e true :: (s.afterWait rid h₀ true).2)
      (s.afterWait rid h₀ true).1.core := by
  have hs : r.status = .queued := by
    obtain ⟨-, ⟨hs, -⟩ | ⟨-, hc'⟩⟩ := hw
    · exact hs
    · rw [hc] at hc'; cases hc'
  have hst := afterWait_started hr hw.1 (.inr hs) hc hh h₀
  obtain ⟨r', h', hv', hlane, hstart⟩ := hst.view
  refine .act hst.touches ?_
  have hv : s.core.view rid = ⟨some r, s.rt.reservations.get? rid, some h, none⟩ := by
    simp only [Core.view, System.core, hr, hh, he]
  rw [hv, hv', he]
  exact .take hp rfl hx hs hc hn rfl hlane hstart

theorem System.core_cancelled (s : System) (rid : RequestId) :
    s.core.cancelled rid = s.rt.tokenCancelled rid := by
  simp only [Core.cancelled, core, RuntimeState.tokenCancelled, RuntimeState.getCancellationToken]
  cases s.rt.requests.get? rid <;> rfl

theorem tokenCancelled_of {rt : RuntimeState} (h : rt.requests.get? rid = some r) :
    rt.tokenCancelled rid = r.cancelToken.cancelled := by
  simp only [RuntimeState.tokenCancelled, RuntimeState.getCancellationToken, h, Option.map_some,
    Option.any_some]

section Pass

variable {s : System} {rid : RequestId} {h : Handler} {e : QueueEntry} {env : Env}
  (hc : Coherent s.core) (hh : s.handlers.get? rid = some h) (hp : h.phase = .waiting e)
  (hlim : env.limit = effectiveLimit s.cfg s.rt) (hmono : env.mono = s.mono)

include hc hh hp hlim hmono

theorem pass_grant {w : WaitResult} {mid : List QueueEntry}
    (hw : w.granted = none ∧ mid = s.queue.deque ∨
      ∃ e' ∈ s.queue.deque, s.rt.tokenCancelled rid = false ∧ e.granted = false ∧
        s.queue.peek.any (·.requestId = e.requestId) = true ∧ e'.isExpired s.mono = false ∧
        activeCapacityAvailable s.cfg s.rt e'.lane e'.laneMaxConcurrent = true ∧
        w.granted = some e'.markGranted ∧
        mid = s.queue.deque.eraseP (·.requestId = e'.requestId)) :
    Moves env s.core (System.grant { s with queue := w.queue } w.granted).2
        { (System.grant { s with queue := w.queue } w.granted).1.core with deque := mid } ∧
      (System.grant { s with queue := w.queue } w.granted).1.rt.requests = s.rt.requests ∧
      (System.grant { s with queue := w.queue } w.granted).1.queue = w.queue ∧
      (System.grant { s with queue := w.queue } w.granted).1.handlers.get? rid =
        some (if w.granted.any (·.requestId = rid) then System.noteGrant h else h) := by
  obtain ⟨r, -, hwt, hm, -⟩ := (hc.placed rid).of_waiting hh hp
  have hid : e.requestId = rid := hm.1.trans hwt.1
  obtain ⟨hg, rfl⟩ | ⟨e', he', -, -, hf, hx, hav, hg, rfl⟩ := hw
  · rw [hg]
    exact ⟨.nil, rfl, rfl, hh⟩
  · rw [hg]
    obtain ⟨r', h', hv, -⟩ := (hc.placed e'.requestId).of_entry (hc.distinct.find_mem he')
    have hn : s.rt.reservations.get? e'.requestId = none := congrArg View.reservation hv
    obtain ⟨f, hpeek, hfid⟩ := (Option.any_eq_true _ _).1 hf
    have hfront : ∃ f w, s.core.deque.head? = some f ∧ s.core.handlers.get? f.requestId = some w ∧
        w.phase.isWaiting = true := by
      refine ⟨f, h, hpeek, ?_, by rw [hp]; rfl⟩
      rw [of_decide_eq_true hfid, hid]
      exact hh
    have hmove := grant_move hc he' (hmono ▸ hx) (room_of_available hav hlim) hfront
    refine ⟨?_, reserveCapacity_requests, rfl, ?_⟩
    · rw [grant_core hn]
      exact .single hmove
    · simp only [System.grant, QueueEntry.markGranted, Dict.get?_modify, Option.any_some,
        decide_eq_true_eq]
      by_cases hr : e'.requestId = rid
      · rw [if_pos hr.symm, if_pos hr, hr, hh, Option.map_some]
      · rw [if_neg (Ne.symm hr), if_neg hr, hh]

theorem runWaiter_moves (hcan : s.rt.tokenCancelled rid = false → env.start.cancelled rid = false)
    (hl : s.rt.tokenCancelled rid = false ∨ env.label = .resume rid ∧ env.start = s.core) :
    Moves env s.core (s.runWaiter rid h e).2 (s.runWaiter rid h e).1.core := by
  obtain ⟨r, hr, hwt, hm, hown⟩ := (hc.placed rid).of_waiting hh hp
  have hid : e.requestId = rid := hm.1.trans hwt.1
  have htok : s.rt.tokenCancelled rid = r.cancelToken.cancelled := tokenCancelled_of hr
  simp only [System.runWaiter]
  generalize hw : s.queue.waitForExecution s.cfg s.mono e (s.rt.tokenCancelled rid)
    (activeCapacityAvailable s.cfg s.rt none none)
    (fun c => activeCapacityAvailable s.cfg s.rt c.lane c.laneMaxConcurrent) = w
  obtain ⟨mid, hgrant, hret⟩ := RequestQueue.waitForExecution_cases hc.distinct hw
  obtain ⟨hmoves, hreq, hqueue, hhand⟩ := pass_grant hc hh hp hlim hmono hgrant
  have hc₁ := hmoves.coherent hc
  generalize hs₁ : System.grant { s with queue := w.queue } w.granted = g at *
  obtain ⟨s₁, evs⟩ := g
  simp only at hmoves hreq hqueue hhand hc₁ ⊢
  replace hr : s₁.rt.requests.get? rid = some r := hreq ▸ hr
  rw [hid] at hret
  obtain ⟨hrt, -, -, hd⟩ | ⟨hrt, hx, hd, hno⟩ | ⟨hrt, hcf, hd, hwhy⟩ := hret
  · rw [hrt]
    rw [← hd, ← hqueue] at hmoves
    exact hmoves
  · rw [hrt]
    rw [hno, if_neg (by simp)] at hhand
    rw [← hqueue] at hd
    refine hmoves.append (.single (drop_move hc₁.distinct hd hr hhand hp ?_ ?_ h))
    · rw [hmono, ← htok]
      exact hx
    · refine hl.imp (fun ht => ?_) fun hl => ⟨hl.1, ?_⟩
      · rw [htok] at ht
        obtain ⟨-, ⟨hs, -⟩ | ⟨-, hc'⟩⟩ := hwt
        · rw [hs]; rfl
        · rw [ht] at hc'; cases hc'
      · rw [hl.2]
        exact (congrArg (·.get? rid) hreq).symm.trans hr
  · rw [hrt]
    rw [← hqueue] at hd
    rw [← hd] at hmoves hc₁
    apply hmoves.append (.single _)
    have hn := hcan hcf
    rw [htok] at hcf
    obtain ⟨hg, hx⟩ | hany := hwhy
    · obtain ⟨hnone, rfl⟩ | ⟨e', -, -, hg', -⟩ := hgrant
      · rw [hnone] at hhand
        have hp' : h.phase = .waiting e.markGranted := by
          rw [hp, QueueEntry.markGranted, ← hg]
        have he : findEntry s₁.queue.deque rid = none := by
          obtain ⟨hg', -⟩ | ⟨-, he⟩ := hown
          · rw [hg] at hg'; cases hg'
          · rw [hd]; exact he
        exact take_move hr hwt hcf hhand hp' (hmono ▸ hx) hn he h
      · rw [hg] at hg'; cases hg'
    · obtain ⟨hnone, -⟩ | ⟨e', he', -, hg', -, hx, -, hsome, rfl⟩ := hgrant
      · rw [hnone] at hany; cases hany
      · have hid' : e'.requestId = rid := by simpa [hsome, QueueEntry.markGranted] using hany
        obtain rfl : e' = e := by
          obtain ⟨-, he⟩ | ⟨hg, -⟩ := hown
          · have hf := hc.distinct.find_mem he'
            rw [hid'] at hf
            exact Option.some.inj (hf.symm.trans he)
          · rw [hg] at hg'; cases hg'
        rw [if_pos hany] at hhand
        have he : findEntry s₁.queue.deque rid = none := by
          rw [hd, hid']
          exact hc.distinct.findEntry_eraseP rid
        exact take_move hr hwt hcf hhand (noteGrant_phase hp) (hmono ▸ hx) hn he h

end Pass

theorem Touches.trans (h : Touches rid c c') (hd : c'.deque = c.deque) (h' : Touches rid c' c'') :
    Touches rid c c'' := by
  refine ⟨fun k hk => (h'.others k hk).trans (h.others k hk), ?_⟩
  rw [← hd]
  exact h'.deque

theorem view_absent {s : System} (hc : Coherent s.core) (h : s.rt.requests.contains rid = false) :
    s.core.view rid = .absent := by
  have hn : s.rt.requests.get? rid = none := by simpa [Dict.contains] using h
  exact (hc.placed rid).of_record_none hn

def freshRecord (rid : RequestId) (model : String) (stream : Bool) (upstream : Option String)
    (lane : Option Lane) (now : Time) : RequestRecord :=
  { requestId := rid, model, stream, upstreamRequestId := upstream, lane, status := .accepted
    cancelRequested := false, cancelToken := ⟨rid, false⟩, startedAt := now, endedAt := none
    errorCode := none }

theorem freshRecord_requestId :
    (freshRecord rid model stream upstream lane now).requestId = rid := rfl

theorem agreeOff_beginRequest (rt : RuntimeState) :
    AgreeOff rid rt (rt.beginRequest rid model stream upstream lane now) :=
  fun _ hk => ⟨Dict.get?_set_ne hk _, rfl⟩

theorem get?_beginRequest (rt : RuntimeState) :
    (rt.beginRequest rid model stream upstream lane now).requests.get? rid =
      some (freshRecord rid model stream upstream lane now) := Dict.get?_set_self rid _

theorem accept_move {s : System} (habs : s.core.view rid = .absent)
    (hl : env.label.Declares lane ceiling) (hroom : Room env s.core lane ceiling)
    (hst : Started
      { s with rt := s.rt.beginRequest rid model stream upstream lane now
               handlers := s.handlers.set rid h }
      rid (freshRecord rid model stream upstream lane now) out) :
    Move env s.core out.2 out.1.core := by
  have ht : Touches rid s.core (System.core
      { s with rt := s.rt.beginRequest rid model stream upstream lane now
               handlers := s.handlers.set rid h }) :=
    touches_of (agreeOff_beginRequest s.rt) (fun k hk => Dict.get?_set_ne hk _) rfl
  obtain ⟨r', h', hv, hlane, hstart⟩ := hst.view
  have he : findEntry s.queue.deque rid = none := congrArg View.entry habs
  refine .act (ht.trans rfl hst.touches) ?_
  rw [habs, hv, he]
  replace hlane : r'.lane = lane := hlane
  rw [← hlane] at hl hroom
  exact .accept hl hroom hstart

theorem runNow_moves {s : System} (hst : s.core = env.start) (habs : s.core.view rid = .absent)
    (hl : env.label.Declares res.lane res.laneMaxConcurrent)
    (hroom : Room env s.core res.lane res.laneMaxConcurrent) (a : ChatArrival) (h : Handler) :
    Moves env s.core (s.runNow rid a res h).2 (s.runNow rid a res h).1.core := by
  simp only [System.runNow]
  split
  · exact .refuse_error hst
  split
  · exact .single (accept_move habs hl hroom (executeNonStreaming_started
      (get?_beginRequest s.rt) freshRecord_requestId (.inl rfl) rfl (Dict.get?_set_self rid h) h))
  · exact .single (accept_move habs hl hroom (executeStreaming_started
      (get?_beginRequest s.rt) freshRecord_requestId (.inl rfl) rfl (Dict.get?_set_self rid h)))

theorem generate_moves {s : System} (hc : Coherent s.core)
    (hn : s.rt.requests.contains rid = false) (a : GenerateArrival) :
    Moves (s.env (.generate rid a)) s.core (s.generate rid a).2 (s.generate rid a).1.core := by
  simp only [System.generate]
  split
  · exact .raised rfl
  split
  · exact .refuse_error rfl
  next res hres =>
  split
  · exact .raised rfl
  split
  · exact .single (.refuse rfl (fun res h hr => by cases h; cases hr))
  split
  · exact .refuse_error rfl
  next hav =>
  have hroom : Room (s.env (.generate rid a)) s.core res.lane res.laneMaxConcurrent :=
    room_of_available (by simpa using hav) rfl
  exact .single (accept_move (s := { s with rt := s.rt.recordAccepted }) (view_absent hc hn)
    ⟨res, hres, rfl, rfl⟩ hroom (startAdapter_started (get?_beginRequest s.rt.recordAccepted)
      freshRecord_requestId (.inl rfl) rfl (Dict.get?_set_self rid _) .running rfl rfl))

theorem effectiveLimit_congr {rt rt' : RuntimeState} (h : rt'.memoryPressure = rt.memoryPressure)
    (cfg : Settings) : effectiveLimit cfg rt' = effectiveLimit cfg rt := by
  simp only [effectiveLimit, memoryPressureFromRuntime, h]

section Join

variable {s : System} {rid : RequestId} {a : ChatArrival} {res : RuntimeResolution} {h : Handler}

theorem joinQueue_record :
    (s.joinQueue rid a res h).1.rt.requests.get? rid =
      some { freshRecord rid a.request.model a.request.stream a.request.upstreamRequestId res.lane
        s.wall with status := .queued } := by
  simp only [System.joinQueue, RuntimeState.markQueued_requests, Dict.get?_modify, if_pos,
    get?_beginRequest, Option.map_some]

theorem joinQueue_memoryPressure :
    (s.joinQueue rid a res h).1.rt.memoryPressure = s.rt.memoryPressure := by
  simp only [System.joinQueue, RuntimeState.markQueued]
  split <;> rfl

theorem joinQueue_requestId : (s.joinQueue rid a res h).2.requestId = rid := rfl

theorem joinQueue_deque :
    (s.joinQueue rid a res h).1.queue.deque = s.queue.deque ++ [(s.joinQueue rid a res h).2] := rfl

theorem joinQueue_handler :
    (s.joinQueue rid a res h).1.handlers.get? rid =
      some { h with phase := .waiting (s.joinQueue rid a res h).2 } := Dict.get?_set_self rid _

theorem joinQueue_touches (hn : findEntry s.queue.deque rid = none) :
    Touches rid s.core (s.joinQueue rid a res h).1.core := by
  refine ⟨fun k hk => ?_, .inr (.inr ⟨(s.joinQueue rid a res h).2, rfl, hn, rfl⟩)⟩
  have he : findEntry (s.joinQueue rid a res h).1.queue.deque k = findEntry s.queue.deque k := by
    rw [joinQueue_deque, findEntry_append, joinQueue_requestId, if_neg (Ne.symm hk),
      Option.or_none]
  have hreq : (s.joinQueue rid a res h).1.rt.requests.get? k = s.rt.requests.get? k := by
    simp only [System.joinQueue, RuntimeState.markQueued_requests, Dict.get?_modify, if_neg hk]
    exact Dict.get?_set_ne hk _
  have hres : (s.joinQueue rid a res h).1.rt.reservations = s.rt.reservations :=
    RuntimeState.markQueued_reservations _ _
  have hh : (s.joinQueue rid a res h).1.handlers.get? k = s.handlers.get? k :=
    Dict.get?_set_ne hk _
  simp only [Core.view, System.core, he, hreq, hres, hh]

theorem joinQueue_view (habs : s.core.view rid = .absent) :
    (s.joinQueue rid a res h).1.core.view rid =
      ⟨some { freshRecord rid a.request.model a.request.stream a.request.upstreamRequestId res.lane
          s.wall with status := .queued }, none,
        some { h with phase := .waiting (s.joinQueue rid a res h).2 },
        some (s.joinQueue rid a res h).2⟩ := by
  have hn : findEntry s.queue.deque rid = none := congrArg View.entry habs
  have hnone : s.rt.reservations.get? rid = none := congrArg View.reservation habs
  have hres : (s.joinQueue rid a res h).1.rt.reservations = s.rt.reservations :=
    RuntimeState.markQueued_reservations _ _
  have he : findEntry (s.joinQueue rid a res h).1.queue.deque rid =
      some (s.joinQueue rid a res h).2 := by
    rw [joinQueue_deque, findEntry_append, hn, joinQueue_requestId, if_pos rfl, Option.none_or]
  simp only [Core.view, System.core, joinQueue_record, hres, hnone, joinQueue_handler, he]

theorem enterQueue_moves (hc : Coherent s.core) (habs : s.core.view rid = .absent)
    (hchat : ∃ a, env.label = .chat rid a)
    (hl : env.label.Declares res.lane res.laneMaxConcurrent) (hst : s.core = env.start)
    (hroom : (s.core.queueDepth : Int) < env.depth ∨ env.held)
    (hlim : env.limit = effectiveLimit s.cfg s.rt) (hmono : env.mono = s.mono)
    (hcan : env.start.cancelled rid = false) :
    Moves env s.core (s.enterQueue rid a res h).2 (s.enterQueue rid a res h).1.core := by
  have hm : Move env s.core [] (s.joinQueue rid a res h).1.core := by
    refine .act (joinQueue_touches (congrArg View.entry habs)) ?_
    rw [habs, joinQueue_view habs]
    exact .enter hchat hl hst hroom rfl rfl rfl ⟨rfl, rfl, rfl⟩ rfl rfl
  have htok : (s.joinQueue rid a res h).1.rt.tokenCancelled rid = false := by
    rw [tokenCancelled_of joinQueue_record]
    rfl
  refine .cons hm (runWaiter_moves (hm.coherent hc) joinQueue_handler rfl ?_ hmono
    (fun _ => hcan) (.inl htok))
  rw [hlim]
  exact (effectiveLimit_congr joinQueue_memoryPressure s.cfg).symm

end Join

theorem chatCompletions_moves {s : System} (hc : Coherent s.core)
    (hn : s.rt.requests.contains rid = false) (a : ChatArrival) :
    Moves (s.env (.chat rid a)) s.core (s.chatCompletions rid a).2
      (s.chatCompletions rid a).1.core := by
  have habs := view_absent hc hn
  have hcan : s.core.cancelled rid = false := by
    have hr : s.core.requests.get? rid = none := congrArg View.record habs
    simp [Core.cancelled, hr]
  simp only [System.chatCompletions]
  split
  · exact .raised rfl
  split
  · exact .refuse_error rfl
  next res hres =>
  split
  · exact .raised rfl
  have hl : (Label.chat rid a).Declares res.lane res.laneMaxConcurrent := ⟨res, hres, rfl, rfl⟩
  split
  · next hfull =>
    refine .single (.refuse rfl fun _ _ _ => ?_)
    exact evaluateChatRequest_queueFull hfull
  next hfull =>
  split
  · refine .single (.refuse rfl fun res' h hr => ?_)
    cases h
    exact absurd hr hfull
  next hok =>
  split
  · exact .refuse_error rfl
  split
  · exact .raised rfl
  split
  · exact .refuse_error rfl
  split
  · next hq =>
    have hroom : (s.core.queueDepth : Int) < (s.env (.chat rid a)).depth ∨
        (s.env (.chat rid a)).held :=
      (evaluateChatRequest_queued hq).2.imp_right fun h => ⟨res, hres, h⟩
    exact enterQueue_moves (s := { s with rt := s.rt.recordAccepted }) hc habs ⟨a, rfl⟩ hl rfl
      hroom rfl rfl hcan
  · next hq =>
    have hacc : (evaluateChatRequest s.cfg s.rt a.request res.lane
        res.laneMaxConcurrent).accepted = true := by
      by_contra h
      exact hok ⟨by simpa using h, hq⟩
    exact runNow_moves (s := { s with rt := s.rt.recordAccepted }) rfl habs hl
      (room_of_accepted (evaluateChatRequest_reason hacc) rfl) a _

theorem runtimeCancelRequest_moves {s : System} (hc : Coherent s.core) :
    Moves (s.env (.cancel rid)) s.core (s.runtimeCancelRequest rid).2
      (s.runtimeCancelRequest rid).1.core := by
  have hq : ∀ a, Quiet [.cancelAnswered rid a] := fun a => by simp [Quiet, Event.isQuiet]
  simp only [System.runtimeCancelRequest]
  split
  · exact .single (.note (hq _))
  next r hr =>
  split
  · exact .single (.note (hq _))
  next hn =>
  obtain ⟨h, hh⟩ := (hc.placed rid).of_record hr
  simp only [RuntimeState.requestCancellation, hr, if_neg hn, if_true]
  refine .single (.act (touches_of (show AgreeOff rid _ _ from ?_) (fun _ _ => rfl) rfl) ?_)
  · intro k hk
    simp only [RuntimeState.cancelRequest_requests, RuntimeState.cancelRequest_reservations,
      RuntimeState.updateRecord, Dict.get?_modify, if_neg hk, Dict.get?_erase_ne hk, and_self]
  · have hv : s.core.view rid =
        ⟨some r, s.rt.reservations.get? rid, some h, findEntry s.queue.deque rid⟩ := by
      simp only [Core.view, System.core, hr]
      exact congrArg (View.mk _ _ · _) hh
    rw [hv]
    simp only [Core.view, System.core, RuntimeState.cancelRequest_requests,
      RuntimeState.cancelRequest_reservations, RuntimeState.updateRecord, Dict.get?_modify, if_pos,
      hr, Option.map_some, Dict.get?_erase_self]
    rw [show s.handlers.get? rid = some h from hh]
    exact .cancel rfl rfl (by simpa using hn) rfl rfl rfl rfl (hq _)

section Serve

variable {s : System} {rid : RequestId} {h : Handler} {env : Env}
  (hst : s.core = env.start) (hc : Coherent s.core) (hh : s.handlers.get? rid = some h)
  (hserv : h.phase.serving = true)

include hst hc hh hserv

theorem settle_move {rt : RuntimeState} {r' : RequestRecord} (hoff : AgreeOff rid s.rt rt)
    (hrec : rt.requests.get? rid = some r') (hres : rt.reservations.get? rid = none)
    (phase : Phase)
    (hs : ∀ r, s.rt.requests.get? rid = some r → Runs rid r →
      Settles rid env.label r h r' { h with phase })
    (hq : Quiet evs) :
    Moves env s.core evs (System.setPhase { s with rt } rid phase).core := by
  obtain ⟨r, hv, hruns⟩ := (hc.placed rid).of_serving hh hserv
  have hr : s.rt.requests.get? rid = some r := congrArg View.record hv
  have he : findEntry s.queue.deque rid = none := congrArg View.entry hv
  refine .single (.act (touches_setPhase hoff phase) ?_)
  rw [hv, view_setPhase hh, hrec, hres, he]
  exact .settle hst hserv (hs r hr hruns) hq

theorem shift_move (phase : Phase) (hp : phase.serving = true ∨ phase = .ended)
    (hi : phase.inProgress = true → h.phase.inProgress = true) (hq : Quiet evs) :
    Moves env s.core evs (s.setPhase rid phase).core := by
  obtain ⟨r, hv, -⟩ := (hc.placed rid).of_serving hh hserv
  refine settle_move hst hc hh hserv (.refl rid s.rt) (congrArg View.record hv)
    (congrArg View.reservation hv) phase (fun r' hr' _ => ?_) hq
  obtain rfl : r' = r := Option.some.inj (hr'.symm.trans (congrArg View.record hv))
  exact .inl ⟨rfl, hp, hi⟩

theorem complete_move (hq : Quiet evs) :
    Moves env s.core evs
      (System.setPhase { s with rt := s.rt.completeRequest rid s.wall } rid .ended).core := by
  obtain ⟨r, hv, hruns⟩ := (hc.placed rid).of_serving hh hserv
  have hr : s.rt.requests.get? rid = some r := congrArg View.record hv
  obtain ⟨hreq, hres⟩ := s.rt.completeRequest_of rid hr s.wall
  refine settle_move hst hc hh hserv (.ofSet hreq hres) (by rw [hreq, Dict.get?_set_self])
    (by rw [hres, Dict.get?_erase_self]) .ended (fun r' hr' _ => ?_) hq
  obtain rfl : r' = r := Option.some.inj (hr'.symm.trans hr)
  right
  obtain ⟨-, ⟨ha, -⟩ | ⟨hs, -⟩⟩ := hruns
  · have hn : ¬(r'.status = .cancelled ∨ r'.status = .failed ∨ r'.status = .timedOut) := by
      rintro (he | he | he) <;> rw [he] at ha <;> cases ha
    rw [RuntimeState.completed, if_neg hn]
    refine ⟨rfl, rfl, rfl, .inl fun ht => ?_⟩
    rw [terminal_not_active ht] at ha
    cases ha
  · rw [RuntimeState.completed, if_pos (.inl hs)]
    exact ⟨rfl, by rw [hs]; rfl, rfl, .inl fun _ => ⟨rfl, rfl⟩⟩

theorem rewrite_move {rt : RuntimeState} {f : RequestRecord → RequestRecord}
    (hreq : rt.requests = s.rt.requests.modify rid f)
    (hres : rt.reservations = s.rt.reservations.erase rid)
    (hf : ∀ r, (f r).requestId = r.requestId ∧ (f r).status.isTerminal = true)
    (hl : Rewrites rid env.label h.phase) (hq : Quiet evs) :
    Moves env s.core evs (System.setPhase { s with rt } rid .ended).core := by
  obtain ⟨r, hv, hruns⟩ := (hc.placed rid).of_serving hh hserv
  have hr : s.rt.requests.get? rid = some r := congrArg View.record hv
  have hrec : rt.requests.get? rid = some (f r) := by
    rw [hreq, Dict.get?_modify, if_pos rfl, hr]
    rfl
  have hfree : rt.reservations.get? rid = none := by rw [hres, Dict.get?_erase_self]
  apply settle_move hst hc hh hserv (.ofModify hreq hres) hrec hfree .ended _ hq
  intro r' hr' _
  obtain rfl : r' = r := Option.some.inj (hr'.symm.trans hr)
  exact .inr ⟨(hf r').1, (hf r').2, rfl, .inr hl⟩

theorem fail_move (hl : Rewrites rid env.label h.phase) (hq : Quiet evs) :
    Moves env s.core evs
      (System.setPhase { s with rt := s.rt.failRequest rid s.wall none } rid .ended).core :=
  rewrite_move hst hc hh hserv (s.rt.failRequest_requests rid s.wall none)
    (s.rt.failRequest_reservations rid s.wall none) (fun _ => ⟨rfl, rfl⟩) hl hq

theorem disconnect_move (hl : Rewrites rid env.label h.phase) (hq : Quiet evs) :
    Moves env s.core evs (s.disconnect rid).core :=
  rewrite_move hst hc hh hserv (RuntimeState.cancelRequest_requests _ rid s.wall)
    (RuntimeState.cancelRequest_reservations _ rid s.wall) (fun _ => ⟨rfl, rfl⟩) hl hq

end Serve

theorem adapterStep_moves {s : System} (hc : Coherent s.core)
    (hh : s.handlers.get? rid = some h) (hs : s.adapterStep rid h.phase o = some (s', out)) :
    Moves (s.env (.adapter rid o)) s.core out s'.core := by
  have hq : ∀ a, Quiet [.adapterEnded rid, .answered (some rid) a] :=
    fun a => by simp [Quiet, Event.isQuiet]
  simp only [System.adapterStep] at hs
  split at hs <;> cases hs <;> next hp =>
    have hserv : h.phase.serving = true := by rw [hp]; rfl
    first
    | exact complete_move rfl hc hh hserv (hq _)
    | exact fail_move rfl hc hh hserv ⟨rfl, .inl rfl⟩ (hq _)
    | exact fail_move rfl hc hh hserv ⟨rfl, .inr rfl⟩ (hq _)
    | exact shift_move rfl hc hh hserv .bodyPending (.inl rfl) (fun _ => by rw [hp]; rfl)
        (by simp [Quiet, Event.isQuiet])
    | exact shift_move rfl hc hh hserv .ended (.inr rfl) nofun (by simp [Quiet, Event.isQuiet])

theorem bodyStep_moves {s : System} (hc : Coherent s.core)
    (hh : s.handlers.get? rid = some h) (hs : s.bodyStep rid h.phase b = some (s', out)) :
    Moves (s.env (.body rid b)) s.core out s'.core := by
  have hq : Quiet [.adapterEnded rid] := by simp [Quiet, Event.isQuiet]
  have hw : ∀ {p}, h.phase = p → Rewrites rid (.body rid b) p →
      Rewrites rid (.body rid b) h.phase := fun hp hr => hp ▸ hr
  simp only [System.bodyStep] at hs
  split at hs <;> cases hs <;> next hp =>
    have hserv : h.phase.serving = true := by rw [hp]; rfl
    first
    | exact shift_move rfl hc hh hserv .bodyOpen (.inl rfl) (fun _ => by rw [hp]; rfl) .nil
    | exact shift_move rfl hc hh hserv .ended (.inr rfl) nofun .nil
    | exact .nil
    | exact shift_move rfl hc hh hserv .bodyDone (.inl rfl) nofun hq
    | exact shift_move rfl hc hh hserv .bodyError (.inl rfl) nofun hq
    | exact disconnect_move rfl hc hh hserv (hw hp ⟨rfl, .inl rfl⟩) hq
    | exact disconnect_move rfl hc hh hserv (hw hp ⟨rfl, .inr rfl⟩) .nil
    | exact complete_move rfl hc hh hserv .nil
    | exact disconnect_move rfl hc hh hserv (hw hp ⟨rfl, rfl⟩) .nil
    | exact disconnect_move rfl hc hh hserv (hw hp ⟨rfl, .inl rfl⟩) .nil

theorem kill_moves {s : System} (hc : Coherent s.core) (hh : s.handlers.get? rid = some h)
    (hs : s.kill rid h.phase = some (s', out)) :
    Moves (s.env (.kill rid)) s.core out s'.core := by
  have hact : ∀ {evs}, h.phase.isWaiting = true ∨ h.phase.inProgress = true → Quiet evs →
      Moves (s.env (.kill rid)) s.core evs (s.setPhase rid .killed).core := by
    intro evs hp hq
    have hne : ∃ r, s.rt.requests.get? rid = some r := by
      rcases hr : s.rt.requests.get? rid with _ | r
      · have habs := (hc.placed rid).of_record_none hr
        have hn : s.handlers.get? rid = none := congrArg View.handler habs
        rw [hh] at hn
        cases hn
      · exact ⟨r, rfl⟩
    obtain ⟨r, hr⟩ := hne
    refine .single (.act (touches_setPhase (.refl rid s.rt) .killed) ?_)
    rw [view_setPhase hh]
    simp only [Core.view, System.core, hr, hh]
    exact .kill rfl rfl hp rfl hq
  simp only [System.kill] at hs
  split at hs <;> cases hs <;> next hp =>
    first
    | exact hact (.inl (by rw [hp]; rfl)) .nil
    | exact hact (.inr (by rw [hp]; rfl)) (by simp [Quiet, Event.isQuiet])

theorem Stepped.moves {s : System} (hc : Coherent s.core) (h : Stepped s l x) :
    Moves (s.env l) s.core x.2 x.1.core := by
  cases h with
  | chat hn => exact chatCompletions_moves hc hn _
  | generate hn => exact generate_moves hc hn _
  | resume hh hp =>
    exact runWaiter_moves hc hh hp rfl rfl (fun ht => (s.core_cancelled _).trans ht)
      (.inr ⟨rfl, rfl⟩)
  | adapter hh hs => exact adapterStep_moves hc hh hs
  | body hh hs => exact bodyStep_moves hc hh hs
  | finalise => exact .single (.note (by simp [System.finalise, Quiet, Event.isQuiet]))
  | cancel => exact runtimeCancelRequest_moves hc
  | kill hh hs => exact kill_moves hc hh hs
  | memoryPressure => exact .nil
  | configure => exact .nil
  | tick hm => exact .nil

/-- Every step of the broker is a sequence of transitions of single requests. -/
theorem step_moves {s : System} (hc : Coherent s.core) (hs : s.step l = some (s', out)) :
    Moves (s.env l) s.core out s'.core :=
  (stepped_of_step hs).moves hc

theorem step_coherent {s : System} (hc : Coherent s.core) (hs : broker.step s l = some (s', out)) :
    Coherent s'.core :=
  (step_moves hc hs).coherent hc

theorem init_coherent (cfg : Settings) (mono wall : Time) :
    Coherent (System.init cfg mono wall).core :=
  ⟨List.nodup_nil, fun _ => .absent⟩

theorem exec_coherent (hc : Coherent (System.core s)) (hrun : broker.exec s ls = some (t, out)) :
    Coherent t.core :=
  Machine.exec_invariant (P := fun s => Coherent s.core) (C := fun _ _ => True)
    (fun hc _ hs => step_coherent hc hs) hc (Machine.eachStep_true _ _) hrun

end Whooshd
