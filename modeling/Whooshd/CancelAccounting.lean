import Mathlib.Data.Finset.Card
import Whooshd.LateResult
import Whooshd.Release

namespace Whooshd
set_option autoImplicit true

def Line.isCancelled (v : Line) : Bool := v.record.any (·.status = .cancelled)

def Line.isTerminal (v : Line) : Bool := v.record.any (·.status.isTerminal)

def System.cancelledIds (s : System) : List RequestId :=
  s.rt.requests.keys.filter fun rid => (s.ledger.line rid).isCancelled

/-- The requests that were cancelled in one of the states. -/
def everCancelled (ss : List System) : Finset RequestId :=
  (ss.flatMap System.cancelledIds).toFinset

def Phase.disconnects : Phase → BodyEvent → Bool
  | .bodyOpen, .exception | .bodyOpen, .close | .bodyDone, .close => true
  | .bodyError, .finish | .bodyError, .close => true
  | _, _ => false

/-- A request that is cancelled already comes to be cancelled again: its waiter goes on, or
the body of its response ends without having finished normally. -/
def System.cancelsAgain (s : System) : Label → Bool
  | .resume rid =>
    (s.ledger.line rid).isCancelled && (s.handlers.get? rid).any (·.phase.isWaiting)
  | .body rid b =>
    (s.ledger.line rid).isCancelled && (s.handlers.get? rid).any (·.phase.disconnects b)
  | _ => false

/-- A stream ends because its upstream failed. -/
def System.streamFails (s : System) : Label → Bool
  | .body rid b => b = .exception || (s.handlers.get? rid).any (·.phase = .bodyError)
  | _ => false

/-- The client goes away from a stream whose upstream has not failed. -/
def System.clientLeaves (s : System) : Label → Bool
  | .body rid .close => (s.handlers.get? rid).any (·.phase ≠ .bodyError)
  | _ => false

/-- Whatever the step counts as a disconnect is a client that went away. -/
def System.CountsClients (s : System) (l : Label) : Prop :=
  ∀ s' out, broker.step s l = some (s', out) →
    s'.rt.counters.streamDisconnects = s.rt.counters.streamDisconnects ∨
      s'.rt.counters.streamDisconnects = s.rt.counters.streamDisconnects + 1 ∧
        s.clientLeaves l = true

/-- Who counts a request as cancelled, and whether also as a disconnect. -/
inductive CancelledBy (l : Label) (rid : RequestId) (v : Line) : Bool → Prop where
  | endpoint (hl : l = .cancel rid) (hs : v.isTerminal = false) : CancelledBy l rid v false
  | waiter (hl : l = .resume rid) (hh : v.handler = some h) (hp : h.phase.isWaiting = true)
      (hs : v.isCancelled = true) (ht : v.tokenSet = true) : CancelledBy l rid v false
  | finaliser (hl : l = .body rid b) (hh : v.handler = some h) (hp : Disconnects h.phase b)
      (hs : v.isTerminal = false ∨ v.isCancelled = true) : CancelledBy l rid v true

/-- No request is counted as cancelled, and none becomes cancelled. -/
structure Uncounted (L L' : Ledger) : Prop where
  cancelled : L'.accounts.cancelled = L.accounts.cancelled
  disconnects : L'.accounts.streamDisconnects = L.accounts.streamDisconnects
  entered : ∀ k, (L'.line k).isCancelled = true → (L.line k).isCancelled = true
  ended : ∀ k, (L.line k).isTerminal = true → (L'.line k).isTerminal = true
  token : ∀ k, (L'.line k).tokenSet = (L.line k).tokenSet

/-- One request is counted as cancelled, and is cancelled from then on. -/
structure Counted (rid : RequestId) (disconnect : Bool) (L L' : Ledger) : Prop where
  cancelled : L'.accounts.cancelled = L.accounts.cancelled + 1
  disconnects : L'.accounts.streamDisconnects = L.accounts.streamDisconnects + disconnect.toNat
  entered : (L'.line rid).isCancelled = true
  others : ∀ k ≠ rid, L'.line k = L.line k

theorem Uncounted.refl (L : Ledger) : Uncounted L L :=
  ⟨rfl, rfl, fun _ h => h, fun _ h => h, fun _ => rfl⟩

theorem Uncounted.trans (h : Uncounted L L') (h' : Uncounted L' L'') : Uncounted L L'' := by
  constructor
  · exact h'.cancelled.trans h.cancelled
  · exact h'.disconnects.trans h.disconnects
  · intro k hk
    exact h.entered k (h'.entered k hk)
  · intro k hk
    exact h'.ended k (h.ended k hk)
  · intro k
    exact (h'.token k).trans (h.token k)

theorem disconnects_iff : Phase.disconnects p b = true ↔ Disconnects p b := by
  constructor
  · intro h
    cases p <;> cases b <;> first | constructor | cases h
  · intro h
    cases h <;> rfl

theorem mem_cancelledIds {s : System} :
    rid ∈ s.cancelledIds ↔ (s.ledger.line rid).isCancelled = true := by
  simp only [System.cancelledIds, List.mem_filter, and_iff_right_iff_imp]
  intro h
  by_contra hk
  have hn : s.rt.requests.get? rid = none := Dict.get?_eq_none.2 hk
  simp [Line.isCancelled, Ledger.line, System.ledger, hn] at h

theorem Line.isTerminal_of_isCancelled {v : Line} (h : v.isCancelled = true) :
    v.isTerminal = true := by
  obtain ⟨_ | r, hd⟩ := v
  · cases h
  · have hs : r.status = .cancelled := by simpa [Line.isCancelled] using h
    simp [Line.isTerminal, hs, RequestLifecycleState.isTerminal]

theorem Launches.not_cancelled (h : Launches rid r hd evs) : r.status ≠ .cancelled := by
  cases h with
  | started hs hp =>
    intro hc
    rw [hc] at hs
    cases hs
  | cached hs hp => simp [hs]
  | unsupported hs hp => simp [hs]
  | bridgeRaised hb hs hp =>
    intro hc
    rw [hc] at hs
    cases hs

theorem completed_cancelled (h : (RuntimeState.completed now r).status = .cancelled) :
    r.status = .cancelled := by
  simp only [RuntimeState.completed] at h
  split at h
  · exact h
  · cases h

/-- The request keeps its status as far as cancellation and its end go. -/
structure Line.Keeps (v v' : Line) : Prop where
  entered : v'.isCancelled = true → v.isCancelled = true
  ended : v.isTerminal = true → v'.isTerminal = true
  token : v'.tokenSet = v.tokenSet

theorem Line.Keeps.rewritten (hs : r'.status ≠ .cancelled) (ht : r'.status.isTerminal = true)
    (hk : r'.cancelToken = r.cancelToken) : Line.Keeps ⟨some r, hd⟩ ⟨some r', hd'⟩ := by
  constructor
  · simp [Line.isCancelled, hs]
  · simp [Line.isTerminal, ht]
  · simp [Line.tokenSet, hk]

theorem Line.Keeps.created (hs : r.status ≠ .cancelled) (hk : r.cancelToken.cancelled = false) :
    Line.Keeps ⟨none, hd⟩ ⟨some r, hd'⟩ := by
  constructor
  · simp [Line.isCancelled, hs]
  · simp [Line.isTerminal]
  · simp [Line.tokenSet, hk]

theorem Turn.cancellation (h : Turn l rid a v evs a' v') :
    (a'.cancelled = a.cancelled ∧ a'.streamDisconnects = a.streamDisconnects ∧ v.Keeps v') ∨
      ∃ d, CancelledBy l rid v d ∧ a'.cancelled = a.cancelled + 1 ∧
        a'.streamDisconnects = a.streamDisconnects + d.toNat ∧ v'.isCancelled = true := by
  cases h with
  | launch hc hb hs => exact .inl ⟨rfl, rfl, .created hs.not_cancelled hc⟩
  | enqueue hl hs hc hp => exact .inl ⟨rfl, rfl, .created (by simp [hs]) hc⟩
  | take hp he hs hc ht hb hs' =>
    left
    refine ⟨rfl, rfl, ?_, ?_, ?_⟩
    · simp [Line.isCancelled, hs'.not_cancelled]
    · simp [Line.isTerminal, hs, RequestLifecycleState.isTerminal]
    · simp [Line.tokenSet, ht]
  | dropCancelled hl hp he hc hs =>
    right
    refine ⟨false, ?_, rfl, rfl, rfl⟩
    apply CancelledBy.waiter hl rfl (by rw [hp]; rfl)
    · simp [Line.isCancelled, hs]
    · simp [Line.tokenSet, hc]
  | dropTimedOut hp he hc => exact .inl ⟨rfl, rfl, .rewritten (by simp) rfl rfl⟩
  | shift hs => exact .inl ⟨rfl, rfl, id, id, rfl⟩
  | complete hs =>
    left
    refine ⟨rfl, rfl, ?_, ?_, ?_⟩
    · intro hc
      simp only [Line.isCancelled, Option.any_some, decide_eq_true_eq] at hc ⊢
      exact completed_cancelled hc
    · simp [Line.isTerminal, completed_isTerminal]
    · simp [Line.tokenSet, completed_cancelToken]
  | fail hl hp ha => exact .inl ⟨rfl, rfl, .rewritten (by simp) rfl rfl⟩
  | disconnect hl hp hs he =>
    right
    refine ⟨true, ?_, rfl, rfl, rfl⟩
    exact .finaliser hl rfl hp (hs.imp (by simp [Line.isTerminal]) (by simp [Line.isCancelled]))
  | cancel hl hs => exact .inr ⟨false, .endpoint hl hs, rfl, rfl, rfl⟩

theorem Change.cancellation (h : Change l L evs L') :
    Uncounted L L' ∨ ∃ rid d, CancelledBy l rid (L.line rid) d ∧ Counted rid d L L' := by
  cases h with
  | refuse => exact .inl (.refl L)
  | refuseCancel => exact .inl (.refl L)
  | finalised => exact .inl (.refl L)
  | grant => exact .inl ⟨rfl, rfl, fun _ h => h, fun _ h => h, fun _ => rfl⟩
  | @turn rid L' L evs hreq hh ht =>
    have hothers : ∀ k ≠ rid, L'.line k = L.line k := by
      intro k hk
      simp only [Ledger.line, hreq k hk, hh k hk]
    obtain ⟨hc, hd, hv⟩ | ⟨d, hby, hc, hd, hv⟩ := ht.cancellation
    · left
      have hkeep : ∀ k, (L.line k).Keeps (L'.line k) := by
        intro k
        by_cases hk : k = rid
        · exact hk ▸ hv
        · rw [hothers k hk]
          exact ⟨id, id, rfl⟩
      exact ⟨hc, hd, fun k => (hkeep k).entered, fun k => (hkeep k).ended,
        fun k => (hkeep k).token⟩
    · exact .inr ⟨rid, d, hby, hc, hd, hv, hothers⟩

theorem Changes.uncounted (h : Changes l L evs L')
    (hno : ∀ {L₁ : Ledger} {rid d}, (∀ k, (L₁.line k).tokenSet = (L.line k).tokenSet) →
      ¬ CancelledBy l rid (L₁.line rid) d) : Uncounted L L' := by
  induction h with
  | nil => exact .refl _
  | cons hc _ ih =>
    obtain hu | ⟨rid, d, hby, -⟩ := hc.cancellation
    · apply hu.trans
      apply ih
      intro L₁ rid d htok
      exact hno (fun k => (htok k).trans (hu.token k))
    · exact absurd hby (hno (fun _ => rfl))

section Step

variable {s : System} {rid : RequestId} {l : Label}

theorem runWaiter_of_token {h : Handler} {e : QueueEntry}
    (ht : s.rt.tokenCancelled rid = true) : s.runWaiter rid h e =
      (s.finish rid (s.rt.cancelRequest rid s.wall).recordQueueCancelled
        (.error .cancelled 409)).map
      ({ · with queue := (s.queue.remove e.requestId).2 }) (.returned e false :: ·) := by
  simp only [System.runWaiter, RequestQueue.waitForExecution, ht, if_true, System.grant,
    System.afterWait]
  rfl

theorem runWaiter_cancelled_change {h : Handler} {e : QueueEntry} (hc : Coherent s.core)
    (hh : s.handlers.get? rid = some h) (hp : h.phase = .waiting e)
    (ht : s.rt.tokenCancelled rid = true) :
    Change (.resume rid) s.ledger (s.runWaiter rid h e).2 (s.runWaiter rid h e).1.ledger := by
  obtain ⟨r, hr, hwt, hm, -⟩ := (hc.placed rid).of_waiting hh hp
  have hset : r.cancelToken.cancelled = true := (tokenCancelled_of hr).symm.trans ht
  rw [runWaiter_of_token ht]
  exact dropCancelled_change hr hwt hh hp (hm.1.trans hwt.1) hset

theorem Stepped.cancellation (hc : Coherent s.core) (h : Stepped s l x) :
    Uncounted s.ledger x.1.ledger ∨
      ∃ rid d, CancelledBy l rid (s.ledger.line rid) d ∧ Counted rid d s.ledger x.1.ledger := by
  have hquiet : (∀ k, l ≠ .cancel k) → (∀ k b, l ≠ .body k b) →
      (∀ k, l = .resume k → (s.ledger.line k).tokenSet = false) →
      Uncounted s.ledger x.1.ledger := by
    intro hcancel hbody hresume
    apply (h.changes hc).uncounted
    rintro L₁ k d htok (⟨hl, -⟩ | ⟨hl, -, -, -, ht⟩ | ⟨hl, -⟩)
    · exact hcancel k hl
    · rw [htok, hresume k hl] at ht
      cases ht
    · exact hbody k _ hl
  cases h with
  | cancel => exact (runtimeCancelRequest_change s _).cancellation
  | body hh hs =>
    obtain ⟨-, hsame⟩ | hsingle := bodyStep_change hc hh hs
    · rw [hsame]
      exact .inl (.refl _)
    · exact hsingle.cancellation
  | @resume rid h e hh hp =>
    cases ht : s.rt.tokenCancelled rid with
    | false =>
      left
      apply hquiet (by simp) (by simp)
      rintro k ⟨⟩
      rwa [tokenSet_eq]
    | true => exact (runWaiter_cancelled_change hc hh hp ht).cancellation
  | _ => exact .inl (hquiet (by simp) (by simp) (by simp))

/-- A disconnect ends the body of the response whatever its record says. -/
theorem bodyStep_disconnects (hd : p.disconnects b = true)
    (hs : s.bodyStep rid p b = some x) : x.1.rt = (s.disconnect rid).rt := by
  cases p <;> cases b <;> first | (cases hs; rfl) | cases hd

/-- A second cancellation is counted too. -/
theorem Stepped.cancelled_again (hc : Coherent s.core) (h : Stepped s l x)
    (ha : s.cancelsAgain l = true) :
    x.1.rt.counters.cancelled = s.rt.counters.cancelled + 1 := by
  cases h with
  | @resume rid h e hh hp =>
    simp only [System.cancelsAgain, Bool.and_eq_true] at ha
    obtain ⟨r, hr, hwt, -⟩ := (hc.placed rid).of_waiting hh hp
    replace hr : s.rt.requests.get? rid = some r := hr
    have hst : r.status = .cancelled := by
      simpa [Line.isCancelled, Ledger.line, System.ledger, hr] using ha.1
    have ht : s.rt.tokenCancelled rid = true := by
      rw [tokenCancelled_of hr]
      obtain ⟨-, ⟨hq, -⟩ | ⟨-, ht⟩⟩ := hwt
      · rw [hst] at hq
        cases hq
      · exact ht
    rw [runWaiter_of_token ht]
    exact congrArg Counters.cancelled (cancelRequest_counters hr s.wall)
  | @body rid h b x hh hs =>
    simp only [System.cancelsAgain, Bool.and_eq_true] at ha
    rw [bodyStep_disconnects (by simpa [hh] using ha.2) hs]
    cases hr : s.rt.requests.get? rid with
    | none => simp [Line.isCancelled, Ledger.line, System.ledger, hr] at ha
    | some r =>
      have hr' : s.rt.recordStreamDisconnect.requests.get? rid = some r := hr
      exact congrArg Counters.cancelled (cancelRequest_counters hr' s.wall)
  | _ => cases ha

/-- A stream whose upstream failed is counted as a disconnect. -/
theorem Stepped.failed_stream (h : Stepped s l x) (hf : s.streamFails l = true) :
    x.1.rt.counters.streamDisconnects = s.rt.counters.streamDisconnects + 1 := by
  cases h with
  | @body rid h b x hh hs =>
    simp only [System.streamFails, hh, Bool.or_eq_true, decide_eq_true_eq] at hf
    have hd : h.phase.disconnects b = true := by
      rcases hf with rfl | hp
      · cases hp : h.phase <;> rw [hp] at hs <;> first | rfl | cases hs
      · replace hp : h.phase = .bodyError := by simpa using hp
        rw [hp] at hs ⊢
        cases b <;> first | rfl | cases hs
    rw [bodyStep_disconnects hd hs]
    simp only [System.disconnect, System.setPhase, RuntimeState.cancelRequest]
    split <;> rfl
  | _ => cases hf

theorem CancelledBy.again (h : CancelledBy l rid (s.ledger.line rid) d) :
    s.cancelsAgain l = (s.ledger.line rid).isCancelled := by
  cases h with
  | endpoint hl hs =>
    subst hl
    cases hc : (s.ledger.line rid).isCancelled with
    | false => rfl
    | true =>
      rw [Line.isTerminal_of_isCancelled hc] at hs
      cases hs
  | waiter hl hh hp hs ht =>
    subst hl
    replace hh : s.handlers.get? rid = some _ := hh
    simp [System.cancelsAgain, hh, hp]
  | finaliser hl hh hp hs =>
    subst hl
    replace hh : s.handlers.get? rid = some _ := hh
    simp [System.cancelsAgain, hh, disconnects_iff.2 hp]

theorem CancelledBy.status (h : CancelledBy l rid v d) :
    v.isTerminal = false ∨ v.isCancelled = true := by
  cases h with
  | endpoint hl hs => exact .inl hs
  | waiter hl hh hp hs ht => exact .inr hs
  | finaliser hl hh hp hs => exact hs

/-- The set holds the requests cancelled so far; all of them have ended. -/
structure Seen (W : Finset RequestId) (L : Ledger) : Prop where
  entered : ∀ k, (L.line k).isCancelled = true → k ∈ W
  ended : ∀ k ∈ W, (L.line k).isTerminal = true

theorem Seen.uncounted (hW : Seen W L) (h : Uncounted L L') : Seen W L' :=
  ⟨fun k hk => hW.entered k (h.entered k hk), fun k hk => h.ended k (hW.ended k hk)⟩

theorem Seen.counted (hW : Seen W L) (h : Counted rid d L L') : Seen (insert rid W) L' := by
  constructor
  · intro k hk
    by_cases he : k = rid
    · exact he ▸ Finset.mem_insert_self rid W
    · rw [h.others k he] at hk
      exact Finset.mem_insert_of_mem (hW.entered k hk)
  · intro k hk
    by_cases he : k = rid
    · exact he ▸ Line.isTerminal_of_isCancelled h.entered
    · rw [h.others k he]
      exact hW.ended k (Finset.mem_of_mem_insert_of_ne hk he)

/-- One step adds at most the request it counts, and counts none twice unless it cancels one
again. -/
theorem step_balance (hc : Coherent s.core) (hs : broker.step s l = some (s', out))
    (hW : Seen W s.ledger) :
    ∃ W', Seen W' s'.ledger ∧ W ⊆ W' ∧ W' ⊆ W ∪ s'.cancelledIds.toFinset ∧
      s'.rt.counters.cancelled + W.card =
        s.rt.counters.cancelled + W'.card + (s.cancelsAgain l).toNat := by
  obtain hu | ⟨rid, d, hby, hcount⟩ := (stepped_of_step hs).cancellation hc
  · have hsame : s'.rt.counters.cancelled = s.rt.counters.cancelled := hu.cancelled
    have hno : s.cancelsAgain l = false := by
      by_contra ha
      have hagain : s'.rt.counters.cancelled = s.rt.counters.cancelled + 1 :=
        (stepped_of_step hs).cancelled_again hc (by simpa using ha)
      omega
    refine ⟨W, hW.uncounted hu, Finset.Subset.refl W, Finset.subset_union_left, ?_⟩
    rw [hsame, hno]
    rfl
  · have hadd : s'.rt.counters.cancelled = s.rt.counters.cancelled + 1 := hcount.cancelled
    refine ⟨insert rid W, hW.counted hcount, Finset.subset_insert rid W, ?_, ?_⟩
    · apply Finset.insert_subset _ Finset.subset_union_left
      exact Finset.mem_union_right W (List.mem_toFinset.2 (mem_cancelledIds.2 hcount.entered))
    · rw [hby.again]
      rcases hby.status with hn | hy
      · have hfresh : rid ∉ W := by
          intro hm
          rw [hW.ended rid hm] at hn
          cases hn
        have hnot : (s.ledger.line rid).isCancelled = false := by
          by_contra hy
          exact hfresh (hW.entered rid (by simpa using hy))
        rw [Finset.card_insert_of_notMem hfresh, hnot, hadd]
        simp only [Bool.toNat_false]
        omega
      · rw [Finset.insert_eq_of_mem (hW.entered rid hy), hy, hadd]
        simp only [Bool.toNat_true]
        omega

theorem mem_everCancelled : k ∈ everCancelled ss ↔ ∃ s ∈ ss, k ∈ System.cancelledIds s := by
  simp [everCancelled]

theorem cancelledIds_subset_visited (s : System) (ls : List Label) :
    s.cancelledIds.toFinset ⊆ everCancelled (broker.visited s ls) := by
  intro k hk
  apply mem_everCancelled.2
  refine ⟨s, ?_, List.mem_toFinset.1 hk⟩
  cases ls with
  | nil => exact List.mem_singleton_self s
  | cons l ls =>
    simp only [Machine.visited]
    split <;> simp

theorem everCancelled_cons (s : System) (ss : List System) :
    everCancelled (s :: ss) = s.cancelledIds.toFinset ∪ everCancelled ss := by
  simp [everCancelled]

/-- The counter exceeds the number of requests cancelled along a run by the number of times
one was cancelled again. -/
theorem exec_balance (hc : Coherent s.core) (hW : Seen W s.ledger)
    (hrun : broker.exec s ls = some (t, out)) :
    t.rt.counters.cancelled + W.card = s.rt.counters.cancelled +
      (W ∪ everCancelled (broker.visited s ls)).card +
        broker.stepCount System.cancelsAgain s ls := by
  have hsub : ∀ {W : Finset RequestId} {s : System}, Seen W s.ledger →
      s.cancelledIds.toFinset ⊆ W := by
    intro W s hW k hk
    exact hW.entered k (mem_cancelledIds.1 (List.mem_toFinset.1 hk))
  induction ls generalizing s W out with
  | nil =>
    cases hrun
    have hall : everCancelled (broker.visited t []) = t.cancelledIds.toFinset := by
      simp [everCancelled, Machine.visited]
    rw [hall, Finset.union_eq_left.2 (hsub hW)]
    rfl
  | cons l ls ih =>
    obtain ⟨s', out', es', hs, he, -⟩ := Machine.exec_cons.1 hrun
    obtain ⟨W', hW', hle, hge, hbal⟩ := step_balance hc hs hW
    have hrest := ih (step_coherent hc hs) hW' he
    have hseen : W' ∪ everCancelled (broker.visited s' ls) =
        W ∪ everCancelled (broker.visited s (l :: ls)) := by
      rw [Machine.visited_cons hs, everCancelled_cons, ← Finset.union_assoc,
        Finset.union_eq_left.2 (hsub hW)]
      apply Finset.Subset.antisymm
      · apply Finset.union_subset _ Finset.subset_union_right
        apply hge.trans
        exact Finset.union_subset_union (Finset.Subset.refl W) (cancelledIds_subset_visited s' ls)
      · exact Finset.union_subset_union hle (Finset.Subset.refl _)
    rw [Machine.stepCount_cons hs, ← hseen]
    omega

theorem Disconnects.closed (h : Disconnects p b) (he : b ≠ .exception) (hp : p ≠ .bodyError) :
    b = .close := by
  cases h <;> first | rfl | contradiction

theorem not_clientLeaves (hf : s.streamFails l = true) (hl : s.clientLeaves l = true) : False := by
  cases l with
  | body rid b =>
    cases b with
    | close =>
      simp only [System.clientLeaves, System.streamFails, Option.any_eq_true] at hl hf
      obtain ⟨h, hh, hne⟩ := hl
      simp only [hh, Option.any_some] at hf
      simp_all
    | _ => cases hl
  | _ => cases hf

/-- A step counts only clients that went away exactly when it ends no failed stream. -/
theorem countsClients_iff (hc : Coherent s.core) (hs : broker.step s l = some (s', out)) :
    s.CountsClients l ↔ s.streamFails l = false := by
  constructor
  · intro hcount
    by_contra hf
    replace hf : s.streamFails l = true := by simpa using hf
    have hadd : s'.rt.counters.streamDisconnects = s.rt.counters.streamDisconnects + 1 :=
      (stepped_of_step hs).failed_stream hf
    rcases hcount s' out hs with hsame | ⟨-, hleft⟩
    · omega
    · exact not_clientLeaves hf hleft
  · intro hf s'' out' hs'
    rw [hs] at hs'
    cases hs'
    obtain hu | ⟨rid, d, hby, hcount⟩ := (stepped_of_step hs).cancellation hc
    · exact .inl hu.disconnects
    · cases hby with
      | endpoint => exact .inl hcount.disconnects
      | waiter => exact .inl hcount.disconnects
      | @finaliser b h hl hh hp =>
        right
        apply And.intro hcount.disconnects
        subst hl
        replace hh : s.handlers.get? rid = some h := hh
        obtain ⟨he, hne⟩ : b ≠ .exception ∧ h.phase ≠ .bodyError := by
          simpa [System.streamFails, hh] using hf
        cases hp.closed he hne
        simpa [System.clientLeaves, hh] using hne

end Step

theorem init_seen (cfg : Settings) (mono wall : Time) :
    Seen ∅ (System.init cfg mono wall).ledger := by
  constructor
  · intro k hk
    cases hk
  · intro k hk
    cases hk

/-- In every run the counter of cancelled requests is the number of requests that were ever
cancelled, and every disconnect counted is a client that went away, exactly when no step
cancels a request again and none ends a failed stream. -/
theorem cancellations_counted_iff (cfg : Settings) (mono wall : Time) (ls : List Label)
    (hrun : broker.exec (.init cfg mono wall) ls = some (t, out)) :
    (t.rt.counters.cancelled =
        (everCancelled (broker.visited (.init cfg mono wall) ls)).card ∧
      broker.EachStep System.CountsClients (.init cfg mono wall) ls) ↔
    broker.EachStep (fun s l => s.cancelsAgain l = false ∧ s.streamFails l = false)
      (.init cfg mono wall) ls := by
  have hc := init_coherent cfg mono wall
  have hbal := exec_balance hc (init_seen cfg mono wall) hrun
  rw [Finset.card_empty, Finset.empty_union, Nat.add_zero] at hbal
  have hzero : (System.init cfg mono wall).rt.counters.cancelled = 0 := rfl
  have hcount : t.rt.counters.cancelled =
      (everCancelled (broker.visited (.init cfg mono wall) ls)).card ↔
      broker.EachStep (fun s l => s.cancelsAgain l = false) (.init cfg mono wall) ls := by
    rw [← Machine.stepCount_eq_zero hrun]
    omega
  have hclients : broker.EachStep System.CountsClients (.init cfg mono wall) ls ↔
      broker.EachStep (fun s l => s.streamFails l = false) (.init cfg mono wall) ls :=
    Machine.eachStep_congr (I := fun s => Coherent s.core) step_coherent countsClients_iff hc hrun
  rw [hcount, hclients]
  constructor
  · rintro ⟨ha, hf⟩
    exact ha.and hf
  · intro h
    exact ⟨h.imp fun _ _ => And.left, h.imp fun _ _ => And.right⟩

/-- The client leaves a stream, and a request that waited behind it is cancelled. -/
def clientGone : List Label :=
  [.chat "a" (shortChat true), .chat "b" (shortChat false), .adapter "a" .chunk,
    .body "a" .start, .body "a" .close, .cancel "b"]

theorem cancellations_counted_clientGone :
    ∃ t out, broker.exec (.init oneSlot 0 0) clientGone = some (t, out) ∧
      t.rt.counters.cancelled = 2 ∧ t.rt.counters.streamDisconnects = 1 ∧
      broker.EachStep (fun s l => s.cancelsAgain l = false ∧ s.streamFails l = false)
        (.init oneSlot 0 0) clientGone ∧
      t.rt.counters.cancelled =
        (everCancelled (broker.visited (.init oneSlot 0 0) clientGone)).card := by
  have hcond : broker.EachStep (fun s l => s.cancelsAgain l = false ∧ s.streamFails l = false)
      (.init oneSlot 0 0) clientGone := by decide
  refine ⟨_, _, rfl, by decide, by decide, hcond, ?_⟩
  exact ((cancellations_counted_iff oneSlot 0 0 clientGone rfl).2 hcond).1

/-- A queued request is cancelled and its waiter wakes up. -/
def cancelledWaiter : List Label :=
  [.chat "a" (shortChat false), .chat "b" (shortChat false), .cancel "b", .resume "b"]

/-- A stream breaks off with an upstream error after its first chunk. -/
def brokenStream : List Label :=
  [.chat "a" (shortChat true), .adapter "a" .chunk, .body "a" .start, .body "a" .upstreamError]

theorem cancellations_miscounted :
    (∃ t out, broker.exec (.init oneSlot 0 0) cancelledWaiter = some (t, out) ∧
      t.rt.counters.cancelled = 2 ∧
      (everCancelled (broker.visited (.init oneSlot 0 0) cancelledWaiter)).card = 1) ∧
    ∃ s out t out', broker.exec (.init oneSlot 0 0) brokenStream = some (s, out) ∧
      broker.step s (.body "a" .finish) = some (t, out') ∧
      s.clientLeaves (.body "a" .finish) = false ∧
      s.rt.counters.streamDisconnects = 0 ∧ t.rt.counters.streamDisconnects = 1 := by
  constructor
  · exact ⟨_, _, rfl, by decide, by decide⟩
  · exact ⟨_, _, _, _, rfl, rfl, by decide, by decide, by decide⟩

end Whooshd
