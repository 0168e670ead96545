import Whooshd.Refinement

namespace Whooshd
set_option autoImplicit true

/-- The counters that follow a request through the queue and to its end. -/
structure Accounts where
  queued : Nat
  dequeued : Nat
  queueTimeout : Nat
  queueCancelled : Nat
  cancelled : Nat
  streamDisconnects : Nat
  deriving DecidableEq, Repr

def Counters.accounts (c : Counters) : Accounts :=
  ⟨c.queued, c.dequeued, c.queueTimeout, c.queueCancelled, c.cancelled, c.streamDisconnects⟩

/-- The lifecycle records, the handlers and the accounts kept about them. -/
structure Ledger where
  requests : Dict RequestId RequestRecord
  handlers : Dict RequestId Handler
  accounts : Accounts

def System.ledger (s : System) : Ledger := ⟨s.rt.requests, s.handlers, s.rt.counters.accounts⟩

/-- What the ledger holds about one request. -/
structure Line where
  record : Option RequestRecord
  handler : Option Handler

def Ledger.line (L : Ledger) (rid : RequestId) : Line :=
  ⟨L.requests.get? rid, L.handlers.get? rid⟩

/-- The handler will call the bridge, and the bridge will raise. -/
def Handler.BridgeRaises (h : Handler) : Prop := h.stream = false ∧ h.bridge = .raised

def ChatArrival.BridgeRaises (x : ChatArrival) : Prop :=
  x.request.stream = false ∧ x.bridge = .raised

/-- A request is started: its adapter call begins, it is served from the cache, its stream is
refused, or the bridge raises and leaves the record running. -/
inductive Launches (rid : RequestId) (r : RequestRecord) (h : Handler) : List Event → Prop where
  | started (hs : r.status.isTerminal = false)
      (hp : h.phase = .calling ∨ h.phase = .generating ∨ h.phase = .firstChunk) :
      Launches rid r h [.adapterStarted rid]
  | cached (hs : r.status = .completed) (hp : h.phase = .ended) :
      Launches rid r h [.answered (some rid) .cached]
  | unsupported (hs : r.status = .failed) (hp : h.phase = .ended) :
      Launches rid r h [.answered (some rid) (.error .unsupportedCapability 422)]
  | bridgeRaised (hb : h.BridgeRaises) (hs : r.status.isTerminal = false) (hp : h.phase = .ended) :
      Launches rid r h [.answered (some rid) .raised]

/-- The handler goes on to another phase and leaves its record as it is. -/
inductive Shifts (rid : RequestId) : Label → Phase → List Event → Phase → Prop where
  | firstChunk : Shifts rid (.adapter rid .chunk) .firstChunk [.answered (some rid) .stream]
      .bodyPending
  /-- The response to the first chunk cannot be built. -/
  | unsent : Shifts rid (.adapter rid .chunkUnsent) .firstChunk [.answered (some rid) .raised]
      .ended
  | bodyStart : Shifts rid (.body rid .start) .bodyPending [] .bodyOpen
  | bodyUnread : Shifts rid (.body rid .close) .bodyPending [] .ended
  | bodyExhausted : Shifts rid (.body rid .exhausted) .bodyOpen [.adapterEnded rid] .bodyDone
  | bodyFailed : Shifts rid (.body rid .upstreamError) .bodyOpen [.adapterEnded rid] .bodyError
  | killed (hp : p.isWaiting = true ∨ p.serving = true)
      (he : evs = [] ∨ evs = [.adapterEnded rid]) : Shifts rid (.kill rid) p evs .killed

/-- The handler ends and completes its record, unless that had ended abnormally. -/
inductive Completes (rid : RequestId) : Label → Phase → List Event → Prop where
  | returned (hp : p = .calling ∨ p = .generating) : Completes rid (.adapter rid .returned) p
      [.adapterEnded rid, .answered (some rid) .completion]
  | emptyStream : Completes rid (.adapter rid .exhausted) .firstChunk
      [.adapterEnded rid, .answered (some rid) .emptyStream]
  | emptyUnsent : Completes rid (.adapter rid .exhaustedUnsent) .firstChunk
      [.adapterEnded rid, .answered (some rid) .raised]
  | bodyFinished : Completes rid (.body rid .finish) .bodyDone []

/-- The response body ends without having finished normally. -/
inductive Disconnects : Phase → BodyEvent → Prop where
  | exception : Disconnects .bodyOpen .exception
  | openClosed : Disconnects .bodyOpen .close
  | doneClosed : Disconnects .bodyDone .close
  | errorFinished : Disconnects .bodyError .finish
  | errorClosed : Disconnects .bodyError .close

/-- One entry made about one request, with the accounts before and after. -/
inductive Turn (l : Label) (rid : RequestId) (a : Accounts) :
    Line → List Event → Accounts → Line → Prop where
  | launch (hc : r.cancelToken.cancelled = false)
      (hb : h.BridgeRaises → ∃ x, l = .chat rid x ∧ x.BridgeRaises) (hs : Launches rid r h evs) :
      Turn l rid a ⟨none, none⟩ evs a ⟨some r, some h⟩
  | enqueue (hl : ∃ x, l = .chat rid x ∧ (h.BridgeRaises → x.BridgeRaises))
      (hs : r.status = .queued) (hc : r.cancelToken.cancelled = false)
      (hp : h.phase = .waiting e) :
      Turn l rid a ⟨none, none⟩ [] { a with queued := a.queued + 1 } ⟨some r, some h⟩
  | take (hp : h.phase = .waiting e') (he : e.requestId = rid) (hs : r.status = .queued)
      (hc : r.cancelToken.cancelled = false) (ht : r'.cancelToken = r.cancelToken)
      (hb : h'.BridgeRaises → h.BridgeRaises) (hs' : Launches rid r' h' evs) :
      Turn l rid a ⟨some r, some h⟩ (.returned e true :: evs)
        { a with dequeued := a.dequeued + 1 } ⟨some r', some h'⟩
  | dropCancelled (hl : l = .resume rid) (hp : h.phase = .waiting e') (he : e.requestId = rid)
      (hc : r.cancelToken.cancelled = true) (hs : r.status = .cancelled) :
      Turn l rid a ⟨some r, some h⟩
        [.returned e false, .answered (some rid) (.error .cancelled 409)]
        { a with queueCancelled := a.queueCancelled + 1, cancelled := a.cancelled + 1 }
        ⟨some { r with status := .cancelled, endedAt := some now },
          some { h with phase := .ended }⟩
  | dropTimedOut (hp : h.phase = .waiting e') (he : e.requestId = rid)
      (hc : r.cancelToken.cancelled = false) :
      Turn l rid a ⟨some r, some h⟩
        [.returned e false, .answered (some rid) (.error .timeout 504)]
        { a with queueTimeout := a.queueTimeout + 1 }
        ⟨some { r with status := .timedOut, endedAt := some now },
          some { h with phase := .ended }⟩
  | shift (hs : Shifts rid l h.phase evs phase) :
      Turn l rid a ⟨some r, some h⟩ evs a ⟨some r, some { h with phase }⟩
  | complete (hs : Completes rid l h.phase evs) :
      Turn l rid a ⟨some r, some h⟩ evs a
        ⟨some (RuntimeState.completed now r), some { h with phase := .ended }⟩
  | fail (hl : l = .adapter rid .upstreamError ∨ l = .adapter rid .exception)
      (hp : h.phase.serving = true)
      (ha : ans = .upstreamError ∨ ans = .raised ∨ ans = .error .internalError 500) :
      Turn l rid a ⟨some r, some h⟩ [.adapterEnded rid, .answered (some rid) ans] a
        ⟨some { r with status := .failed, endedAt := some now, errorCode := code },
          some { h with phase := .ended }⟩
  | disconnect (hl : l = .body rid b) (hp : Disconnects h.phase b)
      (hs : r.status.isTerminal = false ∨ r.status = .cancelled)
      (he : evs = [] ∨ evs = [.adapterEnded rid]) :
      Turn l rid a ⟨some r, some h⟩ evs
        { a with cancelled := a.cancelled + 1, streamDisconnects := a.streamDisconnects + 1 }
        ⟨some { r with status := .cancelled, endedAt := some now },
          some { h with phase := .ended }⟩
  | cancel (hl : l = .cancel rid) (hs : r.status.isTerminal = false) :
      Turn l rid a ⟨some r, hd⟩ [.cancelAnswered rid (.ok true)]
        { a with cancelled := a.cancelled + 1 }
        ⟨some { r with cancelRequested := true, cancelToken := r.cancelToken.cancel
                       status := .cancelled, endedAt := some now }, hd⟩

/-- One change of the ledger. -/
inductive Change (l : Label) : Ledger → List Event → Ledger → Prop where
  | refuse : Change l L [.answered none ans] L
  | refuseCancel (ha : ∀ b, ans ≠ .ok b) : Change l L [.cancelAnswered rid ans] L
  /-- An adapter's stream that was left open is closed. -/
  | finalised : Change l L [.adapterEnded rid] L
  | grant : Change l L [.granted rid]
      { L with handlers := L.handlers.modify rid System.noteGrant }
  | turn (hreq : ∀ k ≠ rid, L'.requests.get? k = L.requests.get? k)
      (hh : ∀ k ≠ rid, L'.handlers.get? k = L.handlers.get? k)
      (ht : Turn l rid L.accounts (L.line rid) evs L'.accounts (L'.line rid)) :
      Change l L evs L'

/-- The changes made in one step of the broker. -/
inductive Changes (l : Label) : Ledger → List Event → Ledger → Prop where
  | nil : Changes l L [] L
  | cons (h : Change l L evs L') (hs : Changes l L' evs' L'') : Changes l L (evs ++ evs') L''

theorem Changes.single (h : Change l L evs L') : Changes l L evs L' := by
  simpa only [List.append_nil] using Changes.cons h .nil

theorem Changes.append (h : Changes l L evs L') (h' : Changes l L' evs' L'') :
    Changes l L (evs ++ evs') L'' := by
  induction h with
  | nil => exact h'
  | cons hc _ ih =>
    rw [List.append_assoc]
    exact .cons hc (ih h')

/-- The induction rule for a property of the ledger and of the events so far. -/
theorem Changes.history {P : List Event → Ledger → Prop}
    (hstep : ∀ {h L evs L'}, P h L → Change l L evs L' → P (h ++ evs) L')
    (hm : Changes l L evs L') (h₀ : P h L) : P (h ++ evs) L' := by
  induction hm generalizing h with
  | nil => simpa only [List.append_nil] using h₀
  | cons hc _ ih =>
    rw [← List.append_assoc]
    exact ih (hstep h₀ hc)

section Step

variable {s : System} {rid : RequestId} {l : Label}

theorem change_setPhase (rt : RuntimeState) (hh : s.handlers.get? rid = some h)
    (hoff : ∀ k ≠ rid, rt.requests.get? k = s.rt.requests.get? k)
    (ht : Turn l rid s.rt.counters.accounts ⟨s.rt.requests.get? rid, some h⟩ evs
      rt.counters.accounts ⟨rt.requests.get? rid, some { h with phase }⟩) :
    Change l s.ledger evs (System.setPhase { s with rt } rid phase).ledger := by
  apply Change.turn hoff
  · intro k hk
    simp only [System.ledger, System.setPhase, Dict.get?_modify, if_neg hk]
  · simpa only [Ledger.line, System.ledger, System.setPhase, Dict.get?_modify, if_pos, hh,
      Option.map_some] using ht

/-- A started request, seen from the state before the start. -/
structure Launched (s : System) (rid : RequestId) (r : RequestRecord) (h₁ : Handler)
    (out : System × List Event) : Prop where
  requests : ∀ k ≠ rid, out.1.rt.requests.get? k = s.rt.requests.get? k
  handlers : ∀ k ≠ rid, out.1.handlers.get? k = s.handlers.get? k
  accounts : out.1.rt.counters.accounts = s.rt.counters.accounts
  line : ∃ r' phase, out.1.ledger.line rid = ⟨some r', some { h₁ with phase }⟩ ∧
    r'.cancelToken = r.cancelToken ∧ Launches rid r' { h₁ with phase } out.2

theorem launched_setPhase {rt : RuntimeState} (hh : s.handlers.get? rid = some h₁)
    (hreq : rt.requests = s.rt.requests.set rid r') (htok : r'.cancelToken = r.cancelToken)
    (hacc : rt.counters.accounts = s.rt.counters.accounts)
    (hl : Launches rid r' { h₁ with phase } evs) :
    Launched s rid r h₁ (System.setPhase { s with rt } rid phase, evs) := by
  constructor
  · intro k hk
    simp only [System.setPhase, hreq, Dict.get?_set_ne hk]
  · intro k hk
    simp only [System.setPhase, Dict.get?_modify, if_neg hk]
  · exact hacc
  · refine ⟨r', phase, ?_, htok, hl⟩
    simp only [Ledger.line, System.ledger, System.setPhase, hreq, Dict.get?_set_self,
      Dict.get?_modify, if_pos, hh, Option.map_some]

theorem markStarted_accounts (rt : RuntimeState) (status : RequestLifecycleState) :
    (rt.markStarted rid status).counters = rt.counters := by
  simp only [RuntimeState.markStarted]
  split
  · split <;> rfl
  · rfl

theorem completeRequest_accounts (rt : RuntimeState) (now : Time) :
    (rt.completeRequest rid now).counters = rt.counters := by
  simp only [RuntimeState.completeRequest]
  split
  · split <;> rfl
  · rfl

theorem executeNonStreaming_launched {h : Handler} (hr : s.rt.requests.get? rid = some r)
    (hs : r.status = .accepted ∨ r.status = .queued) (hh : s.handlers.get? rid = some h₁)
    (hb : h.bridge = h₁.bridge) (hn : h₁.stream = false) :
    Launched s rid r h₁ (s.executeNonStreaming rid h) := by
  obtain ⟨hreq, -⟩ := s.rt.markStarted_of rid hr hs .running
  have hget : (s.rt.markRunning rid).requests.get? rid = some { r with status := .running } := by
    rw [RuntimeState.markRunning, hreq, Dict.get?_set_self]
  have hacc : (s.rt.markRunning rid).counters = s.rt.counters := markStarted_accounts _ _
  simp only [System.executeNonStreaming]
  split
  · obtain ⟨hreq', -⟩ := (s.rt.markRunning rid).completeRequest_of rid hget s.wall
    have hset : ((s.rt.markRunning rid).completeRequest rid s.wall).requests =
        s.rt.requests.set rid { r with status := .completed, endedAt := some s.wall } := by
      rw [hreq', RuntimeState.markRunning, hreq, Dict.set_set]
      rfl
    apply launched_setPhase hh hset
    · rfl
    · rw [completeRequest_accounts, hacc]
    · exact .cached rfl rfl
  · exact launched_setPhase hh hreq rfl (congrArg _ hacc) (.started rfl (.inl rfl))
  · next hraise =>
    exact launched_setPhase hh hreq rfl (congrArg _ hacc)
      (.bridgeRaised ⟨hn, hb.symm.trans hraise⟩ rfl rfl)

theorem executeStreaming_launched (hr : s.rt.requests.get? rid = some r)
    (hs : r.status = .accepted ∨ r.status = .queued) (hh : s.handlers.get? rid = some h₁) :
    Launched s rid r h₁ (s.executeStreaming rid) := by
  obtain ⟨hreq, -⟩ := s.rt.markStarted_of rid hr hs .streaming
  exact launched_setPhase hh hreq rfl (congrArg _ (markStarted_accounts _ _))
    (.started rfl (.inr (.inr rfl)))

theorem unsupported_launched (hr : s.rt.requests.get? rid = some r)
    (hh : s.handlers.get? rid = some h₁) :
    Launched s rid r h₁ (s.finish rid (s.rt.failRequest rid s.wall none)
      (.error .unsupportedCapability 422)) := by
  have hset : (s.rt.failRequest rid s.wall none).requests = s.rt.requests.set rid
      { r with status := .failed, endedAt := some s.wall, errorCode := none } := by
    rw [RuntimeState.failRequest_requests, Dict.modify, hr]
  exact launched_setPhase hh hset rfl rfl (.unsupported rfl rfl)

theorem take_change {h : Handler} (hr : s.rt.requests.get? rid = some r) (hs : r.status = .queued)
    (hc : r.cancelToken.cancelled = false) (hh : s.handlers.get? rid = some h₁)
    (hp : h₁.phase = .waiting e') (hst : h.stream = h₁.stream) (hb : h.bridge = h₁.bridge)
    (he : e.requestId = rid) :
    Change l s.ledger (.returned e true :: (s.afterWait rid h true).2)
      (s.afterWait rid h true).1.ledger := by
  have hlaunch : Launched { s with rt := s.rt.markDequeued } rid r h₁ (s.afterWait rid h true) := by
    simp only [System.afterWait, Bool.true_eq_false, if_false]
    split
    · next hn =>
      exact executeNonStreaming_launched (s := { s with rt := s.rt.markDequeued }) hr (.inr hs) hh
        hb (hst.symm.trans hn)
    · split
      · exact unsupported_launched (s := { s with rt := s.rt.markDequeued }) hr hh
      · exact executeStreaming_launched (s := { s with rt := s.rt.markDequeued }) hr (.inr hs) hh
  obtain ⟨r', phase, hline, htok, hl⟩ := hlaunch.line
  apply Change.turn hlaunch.requests hlaunch.handlers
  have hacc : (s.afterWait rid h true).1.ledger.accounts =
      { s.ledger.accounts with dequeued := s.ledger.accounts.dequeued + 1 } := hlaunch.accounts
  have hline₀ : s.ledger.line rid = ⟨some r, some h₁⟩ := by
    simp only [Ledger.line, System.ledger, hr, hh]
  rw [hline, hacc, hline₀]
  exact .take hp he hs hc htok id hl

theorem cancelRequest_counters {rt : RuntimeState} (hr : rt.requests.get? rid = some r)
    (now : Time) : (rt.cancelRequest rid now).counters =
      { rt.counters with cancelled := rt.counters.cancelled + 1 } := by
  have hcontains : rt.requests.contains rid = true := by simp [Dict.contains, hr]
  simp only [RuntimeState.cancelRequest, hcontains, if_true]
  rfl

theorem markTimedOut_counters {rt : RuntimeState} (hr : rt.requests.get? rid = some r)
    (now : Time) : (rt.markTimedOut rid now).counters =
      { rt.counters with queueTimeout := rt.counters.queueTimeout + 1 } := by
  have hcontains : rt.requests.contains rid = true := by simp [Dict.contains, hr]
  simp only [RuntimeState.markTimedOut, hcontains, if_true]
  rfl

theorem dropCancelled_change (hr : s.rt.requests.get? rid = some r) (hw : Waits rid r)
    (hh : s.handlers.get? rid = some h₁) (hp : h₁.phase = .waiting e') (he : e.requestId = rid)
    (hset : r.cancelToken.cancelled = true) :
    Change (.resume rid) s.ledger
      (.returned e false :: (s.finish rid (s.rt.cancelRequest rid s.wall).recordQueueCancelled
        (.error .cancelled 409)).2)
      (s.finish rid (s.rt.cancelRequest rid s.wall).recordQueueCancelled
        (.error .cancelled 409)).1.ledger := by
  have hs : r.status = .cancelled := by
    obtain ⟨-, ⟨-, hno⟩ | ⟨hs, -⟩⟩ := hw
    · rw [hset] at hno
      cases hno
    · exact hs
  apply change_setPhase _ hh
  · intro k hk
    simp only [RuntimeState.recordQueueCancelled, RuntimeState.cancelRequest_requests,
      Dict.get?_modify, if_neg hk]
  · simp only [RuntimeState.recordQueueCancelled, RuntimeState.cancelRequest_requests,
      Dict.get?_modify, if_pos, hr, Option.map_some, cancelRequest_counters hr]
    exact .dropCancelled rfl hp he hset hs

theorem dropTimedOut_change (hr : s.rt.requests.get? rid = some r)
    (hh : s.handlers.get? rid = some h₁) (hp : h₁.phase = .waiting e') (he : e.requestId = rid)
    (hc : r.cancelToken.cancelled = false) :
    Change l s.ledger
      (.returned e false ::
        (s.finish rid (s.rt.markTimedOut rid s.wall) (.error .timeout 504)).2)
      (s.finish rid (s.rt.markTimedOut rid s.wall) (.error .timeout 504)).1.ledger := by
  apply change_setPhase _ hh
  · intro k hk
    simp only [RuntimeState.markTimedOut_requests, Dict.get?_modify, if_neg hk]
  · simp only [RuntimeState.markTimedOut_requests, Dict.get?_modify, if_pos, hr, Option.map_some,
      markTimedOut_counters hr]
    exact .dropTimedOut hp he hc

theorem drop_change {h : Handler} (hr : s.rt.requests.get? rid = some r) (hw : Waits rid r)
    (hh : s.handlers.get? rid = some h₁) (hp : h₁.phase = .waiting e') (he : e.requestId = rid)
    (hl : s.rt.tokenCancelled rid = true → l = .resume rid) :
    Change l s.ledger (.returned e false :: (s.afterWait rid h false).2)
      (s.afterWait rid h false).1.ledger := by
  have htok := tokenCancelled_of hr
  simp only [System.afterWait, if_true]
  split
  · next hc =>
    rw [hl hc]
    exact dropCancelled_change hr hw hh hp he (htok.symm.trans hc)
  · next hc =>
    exact dropTimedOut_change hr hh hp he (htok.symm.trans (by simpa using hc))

theorem grant_changes (s : System) (q : RequestQueue) (granted : Option QueueEntry) :
    Changes l s.ledger (System.grant { s with queue := q } granted).2
      (System.grant { s with queue := q } granted).1.ledger := by
  cases granted with
  | none => exact .nil
  | some e =>
    have hl : (System.grant { s with queue := q } (some e)).1.ledger =
        { s.ledger with handlers := s.ledger.handlers.modify e.requestId System.noteGrant } := by
      simp only [System.grant, System.ledger, reserveCapacity_requests]
      congr 2
      simp only [RuntimeState.reserveCapacity]
      split <;> rfl
    rw [hl]
    exact .single .grant

theorem noteGrant_waiting (hp : h.phase = .waiting e) :
    ∃ e', (System.noteGrant h).phase = .waiting e' ∧ (System.noteGrant h).stream = h.stream ∧
      (System.noteGrant h).bridge = h.bridge := by
  refine ⟨e.markGranted, noteGrant_phase hp, ?_⟩
  simp only [System.noteGrant, hp, and_self]

theorem runWaiter_changes {h : Handler} {e : QueueEntry} (hc : Coherent s.core)
    (hh : s.handlers.get? rid = some h) (hp : h.phase = .waiting e)
    (hl : s.rt.tokenCancelled rid = true → l = .resume rid) :
    Changes l s.ledger (s.runWaiter rid h e).2 (s.runWaiter rid h e).1.ledger := by
  obtain ⟨r, hr, hwt, hm, -⟩ := (hc.placed rid).of_waiting hh hp
  have hid : e.requestId = rid := hm.1.trans hwt.1
  have htok : s.rt.tokenCancelled rid = r.cancelToken.cancelled := tokenCancelled_of hr
  simp only [System.runWaiter]
  generalize hw : s.queue.waitForExecution s.cfg s.mono e (s.rt.tokenCancelled rid)
    (activeCapacityAvailable s.cfg s.rt none none)
    (fun c => activeCapacityAvailable s.cfg s.rt c.lane c.laneMaxConcurrent) = w
  obtain ⟨mid, hgrant, hret⟩ := RequestQueue.waitForExecution_cases hc.distinct hw
  have hgc := grant_changes (l := l) s w.queue w.granted
  obtain ⟨-, hreq, -, hhand⟩ :=
    (pass_grant hc hh hp rfl rfl hgrant : Moves (s.env l) _ _ _ ∧ _)
  generalize hs₁ : System.grant { s with queue := w.queue } w.granted = g at *
  obtain ⟨s₁, evs⟩ := g
  simp only at hgc hreq hhand ⊢
  replace hr : s₁.rt.requests.get? rid = some r := hreq ▸ hr
  have htok₁ : s₁.rt.tokenCancelled rid = s.rt.tokenCancelled rid := by
    rw [htok, tokenCancelled_of hr]
  obtain ⟨h₁, hh₁, e₁, hp₁, hst, hb⟩ : ∃ h₁, s₁.handlers.get? rid = some h₁ ∧
      ∃ e₁, h₁.phase = .waiting e₁ ∧ h.stream = h₁.stream ∧ h.bridge = h₁.bridge := by
    refine ⟨_, hhand, ?_⟩
    split
    · obtain ⟨e₁, hp₁, hst, hb⟩ := noteGrant_waiting hp
      exact ⟨e₁, hp₁, hst.symm, hb.symm⟩
    · exact ⟨e, hp, rfl, rfl⟩
  obtain ⟨hrt, -⟩ | ⟨hrt, -⟩ | ⟨hrt, hcf, -⟩ := hret
  · rw [hrt]
    exact hgc
  · rw [hrt]
    exact hgc.append (.single (drop_change hr hwt hh₁ hp₁ hid (htok₁ ▸ hl)))
  · rw [hrt]
    rw [htok] at hcf
    have hs : r.status = .queued := by
      obtain ⟨-, ⟨hs, -⟩ | ⟨-, hc'⟩⟩ := hwt
      · exact hs
      · rw [hcf] at hc'
        cases hc'
    exact hgc.append (.single (take_change hr hs hcf hh₁ hp₁ hst hb hid))

theorem line_absent (habs : s.core.view rid = .absent) : s.ledger.line rid = ⟨none, none⟩ :=
  congrArg₂ Line.mk (congrArg View.record habs) (congrArg View.handler habs)

theorem joinQueue_coherent (hc : Coherent s.core) (habs : s.core.view rid = .absent)
    (hres : a.resolution = some res) : Coherent (s.joinQueue rid a res h).1.core := by
  have hm : Move { s.env (.chat rid a) with held := True } s.core []
      (s.joinQueue rid a res h).1.core := by
    apply Move.act (joinQueue_touches (congrArg View.entry habs))
    rw [habs, joinQueue_view habs]
    exact .enter ⟨a, rfl⟩ ⟨res, hres, rfl, rfl⟩ rfl (.inr trivial) rfl rfl rfl ⟨rfl, rfl, rfl⟩
      rfl rfl
  exact hm.coherent hc

theorem joinQueue_accounts : (s.joinQueue rid a res h).1.rt.counters.accounts =
    { s.rt.counters.accounts with queued := s.rt.counters.accounts.queued + 1 } := by
  simp only [System.joinQueue, RuntimeState.markQueued, Dict.contains, get?_beginRequest,
    Option.isSome_some, if_true]
  rfl

theorem enterQueue_changes {h : Handler} (hc : Coherent s.core) (habs : s.core.view rid = .absent)
    (hres : a.resolution = some res) (hb : h.BridgeRaises → a.BridgeRaises) :
    Changes (.chat rid a) s.ledger (s.enterQueue rid a res h).2
      (s.enterQueue rid a res h).1.ledger := by
  have hm : Change (.chat rid a) s.ledger [] (s.joinQueue rid a res h).1.ledger := by
    have ht : Touches rid s.core (s.joinQueue rid a res h).1.core :=
      joinQueue_touches (congrArg View.entry habs)
    have hreq : ∀ k ≠ rid, (s.joinQueue rid a res h).1.rt.requests.get? k =
        s.rt.requests.get? k := fun k hk => congrArg View.record (ht.others k hk)
    have hhand : ∀ k ≠ rid, (s.joinQueue rid a res h).1.handlers.get? k = s.handlers.get? k :=
      fun k hk => congrArg View.handler (ht.others k hk)
    apply Change.turn hreq hhand
    have hline : (s.joinQueue rid a res h).1.ledger.line rid =
        ⟨some { freshRecord rid a.request.model a.request.stream a.request.upstreamRequestId
            res.lane s.wall with status := .queued },
          some { h with phase := .waiting (s.joinQueue rid a res h).2 }⟩ := by
      simp only [Ledger.line, System.ledger, joinQueue_record, joinQueue_handler]
    have hline₀ := line_absent habs
    have hacc : (s.joinQueue rid a res h).1.ledger.accounts =
        { s.ledger.accounts with queued := s.ledger.accounts.queued + 1 } := joinQueue_accounts
    rw [hline, hline₀, hacc]
    exact .enqueue ⟨a, rfl, hb⟩ rfl rfl rfl
  have htok : (s.joinQueue rid a res h).1.rt.tokenCancelled rid = false := by
    rw [tokenCancelled_of joinQueue_record]
    rfl
  apply Changes.cons hm
  apply runWaiter_changes (joinQueue_coherent hc habs hres) joinQueue_handler rfl
  intro ht
  rw [htok] at ht
  cases ht

theorem accept_change (habs : s.core.view rid = .absent)
    (hb : h.BridgeRaises → ∃ x, l = .chat rid x ∧ x.BridgeRaises)
    (hl : Launched
      { s with rt := s.rt.beginRequest rid model stream upstream lane now
               handlers := s.handlers.set rid h }
      rid (freshRecord rid model stream upstream lane now) h out) :
    Change l s.ledger out.2 out.1.ledger := by
  obtain ⟨r', phase, hline, htok, hlaunch⟩ := hl.line
  have hacc : out.1.ledger.accounts = s.ledger.accounts := hl.accounts
  apply Change.turn
  · intro k hk
    exact (hl.requests k hk).trans (Dict.get?_set_ne hk _)
  · intro k hk
    exact (hl.handlers k hk).trans (Dict.get?_set_ne hk _)
  · rw [hline, line_absent habs, hacc]
    exact .launch (congrArg _ htok) hb hlaunch

theorem runNow_changes {h : Handler} (habs : s.core.view rid = .absent)
    (hst : h.stream = a.request.stream) (hb : h.bridge = a.bridge) :
    Changes (.chat rid a) s.ledger (s.runNow rid a res h).2 (s.runNow rid a res h).1.ledger := by
  have hb' : h.BridgeRaises → ∃ x, Label.chat rid a = .chat rid x ∧ x.BridgeRaises :=
    fun hr => ⟨a, rfl, hst.symm.trans hr.1, hb.symm.trans hr.2⟩
  simp only [System.runNow]
  split
  · exact .single .refuse
  split
  · next hs =>
    exact .single (accept_change habs hb' (executeNonStreaming_launched (get?_beginRequest s.rt)
      (.inl rfl) (Dict.get?_set_self rid h) rfl (hst.trans hs)))
  · exact .single (accept_change habs hb' (executeStreaming_launched (get?_beginRequest s.rt)
      (.inl rfl) (Dict.get?_set_self rid h)))

theorem recordRejected_ledger (reason : RejectionReason) :
    ({ s with rt := s.rt.recordRejected reason } : System).ledger = s.ledger := by
  cases reason <;> rfl

theorem chatCompletions_changes (hc : Coherent s.core) (hn : s.rt.requests.contains rid = false)
    (a : ChatArrival) :
    Changes (.chat rid a) s.ledger (s.chatCompletions rid a).2
      (s.chatCompletions rid a).1.ledger := by
  have habs := view_absent hc hn
  simp only [System.chatCompletions]
  split
  · exact .single .refuse
  split
  · rw [recordRejected_ledger]
    exact .single .refuse
  next res hres =>
  split
  · exact .single .refuse
  split
  · exact .single .refuse
  split
  · rw [recordRejected_ledger]
    exact .single .refuse
  split
  · exact .single .refuse
  split
  · exact .single .refuse
  split
  · exact .single .refuse
  split
  · exact enterQueue_changes (s := { s with rt := s.rt.recordAccepted }) hc habs hres id
  · exact runNow_changes (s := { s with rt := s.rt.recordAccepted }) habs rfl rfl

theorem generate_changes (hc : Coherent s.core) (hn : s.rt.requests.contains rid = false)
    (a : GenerateArrival) :
    Changes (.generate rid a) s.ledger (s.generate rid a).2 (s.generate rid a).1.ledger := by
  simp only [System.generate]
  split
  · exact .single .refuse
  split
  · exact .single .refuse
  next res hres =>
  split
  · exact .single .refuse
  split
  · exact .single .refuse
  split
  · exact .single .refuse
  · have hbegin : (s.rt.recordAccepted.beginRequest rid a.model false a.upstreamRequestId res.lane
        s.wall).requests.get? rid =
          some (freshRecord rid a.model false a.upstreamRequestId res.lane s.wall) :=
      get?_beginRequest s.rt.recordAccepted
    obtain ⟨hreq, -⟩ := RuntimeState.markStarted_of _ rid hbegin (.inl rfl) .running
    apply Changes.single
    apply accept_change (s := { s with rt := s.rt.recordAccepted })
      (h := { stream := false, supportsStreaming := res.supportsStreaming, bridge := .miss
              phase := .generating }) (view_absent hc hn)
    · rintro ⟨-, hb⟩
      cases hb
    · exact launched_setPhase (Dict.get?_set_self rid _) hreq rfl
        (congrArg _ (markStarted_accounts _ _)) (.started rfl (.inr (.inl rfl)))

theorem runtimeCancelRequest_change (s : System) (rid : RequestId) :
    Change (.cancel rid) s.ledger (s.runtimeCancelRequest rid).2
      (s.runtimeCancelRequest rid).1.ledger := by
  simp only [System.runtimeCancelRequest]
  split
  · exact .refuseCancel (by simp)
  next r hr =>
  split
  · exact .refuseCancel (by simp)
  next hn =>
  simp only [RuntimeState.requestCancellation, hr, if_neg hn, if_true]
  refine Change.turn (fun k (hk : k ≠ rid) => ?_) (fun _ _ => rfl) ?_
  · simp only [System.ledger, RuntimeState.cancelRequest_requests, RuntimeState.updateRecord,
      Dict.get?_modify, if_neg hk]
  · have hcontains : (s.rt.requests.modify rid fun r => { r with
        cancelRequested := true, cancelToken := r.cancelToken.cancel }).contains rid = true := by
      simp [Dict.contains, Dict.get?_modify, hr]
    simp only [Ledger.line, System.ledger, RuntimeState.cancelRequest, RuntimeState.updateRecord,
      RuntimeState.releaseCapacity, hcontains, if_true, Dict.get?_modify, hr, Option.map_some]
    exact .cancel rfl (by simpa using hn)

section Serve

variable {h : Handler} (hc : Coherent s.core) (hh : s.handlers.get? rid = some h)
  (hserv : h.phase.serving = true)

include hc hh hserv

theorem shift_change (hs : Shifts rid l h.phase evs phase) :
    Change l s.ledger evs (s.setPhase rid phase).ledger := by
  obtain ⟨r, hv, -⟩ := (hc.placed rid).of_serving hh hserv
  have hr : s.rt.requests.get? rid = some r := congrArg View.record hv
  apply change_setPhase s.rt hh (fun _ _ => rfl)
  rw [hr]
  exact .shift hs

theorem complete_change (hs : Completes rid l h.phase evs) :
    Change l s.ledger evs
      (System.setPhase { s with rt := s.rt.completeRequest rid s.wall } rid .ended).ledger := by
  obtain ⟨r, hv, -⟩ := (hc.placed rid).of_serving hh hserv
  have hr : s.rt.requests.get? rid = some r := congrArg View.record hv
  obtain ⟨hreq, -⟩ := s.rt.completeRequest_of rid hr s.wall
  apply change_setPhase _ hh
  · intro k hk
    rw [hreq, Dict.get?_set_ne hk]
  · rw [hreq, Dict.get?_set_self, completeRequest_accounts, hr]
    exact .complete hs

theorem fail_change (hl : l = .adapter rid .upstreamError ∨ l = .adapter rid .exception)
    (ha : ans = .upstreamError ∨ ans = .raised ∨ ans = .error .internalError 500) :
    Change l s.ledger [.adapterEnded rid, .answered (some rid) ans]
      (System.setPhase { s with rt := s.rt.failRequest rid s.wall none } rid .ended).ledger := by
  obtain ⟨r, hv, -⟩ := (hc.placed rid).of_serving hh hserv
  have hr : s.rt.requests.get? rid = some r := congrArg View.record hv
  apply change_setPhase _ hh
  · intro k hk
    rw [RuntimeState.failRequest_requests, Dict.get?_modify, if_neg hk]
  · rw [RuntimeState.failRequest_requests, Dict.get?_modify, if_pos rfl, hr]
    exact .fail hl hserv ha

theorem disconnect_change (hl : l = .body rid b) (hp : Disconnects h.phase b)
    (he : evs = [] ∨ evs = [.adapterEnded rid]) :
    Change l s.ledger evs (s.disconnect rid).ledger := by
  obtain ⟨r, hv, -, hruns⟩ := (hc.placed rid).of_serving hh hserv
  have hr : s.rt.requests.get? rid = some r := congrArg View.record hv
  have hr' : s.rt.recordStreamDisconnect.requests.get? rid = some r := hr
  apply change_setPhase _ hh
  · intro k hk
    rw [RuntimeState.cancelRequest_requests, Dict.get?_modify, if_neg hk]
    rfl
  · rw [RuntimeState.cancelRequest_requests, Dict.get?_modify, if_pos rfl,
      cancelRequest_counters hr', hr', hr]
    apply Turn.disconnect hl hp _ he
    rcases hruns with ⟨ha, -⟩ | ⟨hs, -⟩
    · left
      cases hst : r.status <;> rw [hst] at ha <;> first | rfl | cases ha
    · exact .inr hs

end Serve

theorem adapterStep_change (hc : Coherent s.core) (hh : s.handlers.get? rid = some h)
    (hs : s.adapterStep rid h.phase o = some (s', out)) :
    Change (.adapter rid o) s.ledger out s'.ledger := by
  have hserv : ∀ {p : Phase}, h.phase = p → p.serving = true → h.phase.serving = true :=
    fun hp hs => hp ▸ hs
  simp only [System.adapterStep] at hs
  split at hs <;> cases hs
  · next hp => exact complete_change hc hh (hserv hp rfl) (hp ▸ .returned (.inl rfl))
  · next hp => exact fail_change hc hh (hserv hp rfl) (.inl rfl) (.inl rfl)
  · next hp => exact fail_change hc hh (hserv hp rfl) (.inr rfl) (.inr (.inl rfl))
  · next hp => exact complete_change hc hh (hserv hp rfl) (hp ▸ .returned (.inr rfl))
  · next hp => exact fail_change hc hh (hserv hp rfl) (.inl rfl) (.inl rfl)
  · next hp => exact fail_change hc hh (hserv hp rfl) (.inr rfl) (.inr (.inr rfl))
  · next hp => exact shift_change hc hh (hserv hp rfl) (hp ▸ .firstChunk)
  · next hp => exact shift_change hc hh (hserv hp rfl) (hp ▸ .unsent)
  · next hp => exact complete_change hc hh (hserv hp rfl) (hp ▸ .emptyStream)
  · next hp => exact complete_change hc hh (hserv hp rfl) (hp ▸ .emptyUnsent)
  · next hp => exact fail_change hc hh (hserv hp rfl) (.inl rfl) (.inl rfl)
  · next hp => exact fail_change hc hh (hserv hp rfl) (.inr rfl) (.inr (.inl rfl))

theorem bodyStep_change (hc : Coherent s.core) (hh : s.handlers.get? rid = some h)
    (hs : s.bodyStep rid h.phase b = some (s', out)) :
    out = [] ∧ s' = s ∨ Change (.body rid b) s.ledger out s'.ledger := by
  have hserv : ∀ {p : Phase}, h.phase = p → p.serving = true → h.phase.serving = true :=
    fun hp hs => hp ▸ hs
  simp only [System.bodyStep] at hs
  split at hs <;> cases hs
  · next hp => exact .inr (shift_change hc hh (hserv hp rfl) (hp ▸ .bodyStart))
  · next hp => exact .inr (shift_change hc hh (hserv hp rfl) (hp ▸ .bodyUnread))
  · exact .inl ⟨rfl, rfl⟩
  · next hp => exact .inr (shift_change hc hh (hserv hp rfl) (hp ▸ .bodyExhausted))
  · next hp => exact .inr (shift_change hc hh (hserv hp rfl) (hp ▸ .bodyFailed))
  · next hp =>
    exact .inr (disconnect_change hc hh (hserv hp rfl) rfl (hp ▸ .exception) (.inr rfl))
  · next hp =>
    exact .inr (disconnect_change hc hh (hserv hp rfl) rfl (hp ▸ .openClosed) (.inl rfl))
  · next hp => exact .inr (complete_change hc hh (hserv hp rfl) (hp ▸ .bodyFinished))
  · next hp =>
    exact .inr (disconnect_change hc hh (hserv hp rfl) rfl (hp ▸ .doneClosed) (.inl rfl))
  · next hp =>
    exact .inr (disconnect_change hc hh (hserv hp rfl) rfl (hp ▸ .errorFinished) (.inl rfl))
  · next hp =>
    exact .inr (disconnect_change hc hh (hserv hp rfl) rfl (hp ▸ .errorClosed) (.inl rfl))

theorem kill_changes (hc : Coherent s.core) (hh : s.handlers.get? rid = some h)
    (hs : s.kill rid h.phase = some (s', out)) :
    Changes (.kill rid) s.ledger out s'.ledger := by
  have hact : ∀ {evs}, h.phase.isWaiting = true ∨ h.phase.serving = true →
      evs = [] ∨ evs = [.adapterEnded rid] →
      Changes (.kill rid) s.ledger evs (s.setPhase rid .killed).ledger := by
    intro evs hp he
    cases hr : s.rt.requests.get? rid with
    | none =>
      have habs := (hc.placed rid).of_record_none hr
      have hn : s.handlers.get? rid = none := congrArg View.handler habs
      rw [hh] at hn
      cases hn
    | some r =>
      apply Changes.single
      apply change_setPhase s.rt hh (fun _ _ => rfl)
      rw [hr]
      exact .shift (.killed hp he)
  simp only [System.kill] at hs
  split at hs <;> cases hs <;> next hp =>
    first
    | exact hact (.inl (by rw [hp]; rfl)) (.inl rfl)
    | exact hact (.inr (by rw [hp]; rfl)) (.inr rfl)

theorem Stepped.changes (hc : Coherent s.core) (h : Stepped s l x) :
    Changes l s.ledger x.2 x.1.ledger := by
  cases h with
  | chat hn => exact chatCompletions_changes hc hn _
  | generate hn => exact generate_changes hc hn _
  | resume hh hp => exact runWaiter_changes hc hh hp (fun _ => rfl)
  | adapter hh hs => exact .single (adapterStep_change hc hh hs)
  | body hh hs =>
    obtain ⟨hout, hsame⟩ | hch := bodyStep_change hc hh hs
    · rw [hout, hsame]
      exact .nil
    · exact .single hch
  | finalise => exact .single .finalised
  | cancel => exact .single (runtimeCancelRequest_change s _)
  | kill hh hs => exact kill_changes hc hh hs
  | memoryPressure => exact .nil
  | configure => exact .nil
  | tick hm => exact .nil

/-- What one step of the broker enters in the ledger. -/
theorem step_changes (hc : Coherent s.core) (hs : broker.step s l = some (s', out)) :
    Changes l s.ledger out s'.ledger :=
  (stepped_of_step hs).changes hc

end Step

end Whooshd
