import Whooshd.Ledger
import Whooshd.Terminal

namespace Whooshd
set_option autoImplicit true

/-- The cancel endpoint has answered that the request is cancelled. -/
def Acknowledged (hist : List Event) (rid : RequestId) : Prop :=
  ∃ b, Event.cancelAnswered rid (.ok b) ∈ hist

def Line.tokenSet (v : Line) : Bool := v.record.any (·.cancelToken.cancelled)

/-- A chat request whose cancellation was acknowledged is answered neither with the result of
its adapter call nor from the cache. -/
def DiscardsLateResult (hist : List Event) (s : System) (l : Label) : Prop :=
  ∀ s' out rid h, broker.step s l = some (s', out) → s.handlers.get? rid = some h →
    h.phase ≠ .generating → Acknowledged hist rid →
      .answered (some rid) .completion ∉ out ∧ .answered (some rid) .cached ∉ out

/-- The adapter call of a cancelled non-streaming chat request returns. -/
def System.ReturnsLate (s : System) (l : Label) : Prop :=
  ∃ rid h, l = .adapter rid .returned ∧ s.handlers.get? rid = some h ∧ h.phase = .calling ∧
    s.rt.tokenCancelled rid = true

/-- The tokens that are set are those of the acknowledged cancellations. -/
def TokensAcknowledged (hist : List Event) (L : Ledger) : Prop :=
  ∀ rid, (L.line rid).tokenSet = true ↔ Acknowledged hist rid

theorem acknowledged_append :
    Acknowledged (hist ++ evs) rid ↔ Acknowledged hist rid ∨ Acknowledged evs rid := by
  simp only [Acknowledged, List.mem_append, exists_or]

theorem Launches.not_acknowledged (h : Launches rid r hd evs) : ¬ Acknowledged evs k := by
  rintro ⟨b, hm⟩
  cases h <;> simp at hm

theorem Shifts.not_acknowledged (h : Shifts rid l p evs p') : ¬ Acknowledged evs k := by
  rintro ⟨b, hm⟩
  cases h with
  | killed hp he => rcases he with rfl | rfl <;> simp at hm
  | _ => simp at hm

theorem Completes.not_acknowledged (h : Completes rid l p evs) : ¬ Acknowledged evs k := by
  rintro ⟨b, hm⟩
  cases h <;> simp at hm

theorem completed_cancelToken (now : Time) (r : RequestRecord) :
    (RuntimeState.completed now r).cancelToken = r.cancelToken := by
  simp only [RuntimeState.completed]
  split <;> rfl

/-- Only a cancellation sets the token, and it is acknowledged. -/
theorem Turn.token (h : Turn l rid a v evs a' v') :
    (v'.tokenSet = true ↔ v.tokenSet = true ∨ Acknowledged evs rid) ∧
      ∀ k ≠ rid, ¬ Acknowledged evs k := by
  have hquiet : ∀ {evs : List Event} {v v' : Line}, v'.tokenSet = v.tokenSet →
      (∀ k, ¬ Acknowledged evs k) → (v'.tokenSet = true ↔ v.tokenSet = true ∨
        Acknowledged evs rid) ∧ ∀ k ≠ rid, ¬ Acknowledged evs k := by
    intro evs v v' hv hno
    simp [hv, hno]
  cases h with
  | launch hc hb hs => exact hquiet hc (fun _ => hs.not_acknowledged)
  | enqueue hl hs hc hp => exact hquiet hc (by simp [Acknowledged])
  | take hp he hs hc ht hb hs' =>
    apply hquiet
    · exact congrArg CancellationToken.cancelled ht
    · rintro k ⟨b, hm⟩
      rcases List.mem_cons.mp hm with hm | hm
      · cases hm
      · exact hs'.not_acknowledged ⟨b, hm⟩
  | dropCancelled hl hp he hc hs => exact hquiet rfl (by simp [Acknowledged])
  | dropTimedOut hp he hc => exact hquiet rfl (by simp [Acknowledged])
  | shift hs => exact hquiet rfl (fun _ => hs.not_acknowledged)
  | complete hs =>
    apply hquiet _ (fun _ => hs.not_acknowledged)
    exact congrArg CancellationToken.cancelled (completed_cancelToken _ _)
  | fail hl hp ha => exact hquiet rfl (by simp [Acknowledged])
  | disconnect hl hp _ he =>
    apply hquiet rfl
    rcases he with rfl | rfl <;> simp [Acknowledged]
  | cancel hl hs => simp [Line.tokenSet, Acknowledged, CancellationToken.cancel]

theorem Change.tokens (h : Change l L evs L') (hi : TokensAcknowledged hist L) :
    TokensAcknowledged (hist ++ evs) L' := by
  intro k
  rw [acknowledged_append, ← hi k]
  cases h with
  | refuse => simp [Acknowledged]
  | finalised => simp [Acknowledged]
  | @refuseCancel ans L rid ha =>
    have hno : ¬ Acknowledged [.cancelAnswered rid ans] k := by
      rintro ⟨b, hm⟩
      cases List.mem_singleton.mp hm
      exact ha b rfl
    simp [hno]
  | grant => simp [Acknowledged, Ledger.line, Line.tokenSet]
  | @turn rid L' L evs hreq hh ht =>
    obtain ⟨hself, hother⟩ := ht.token
    by_cases hk : k = rid
    · subst hk
      exact hself
    · have hsame : (L'.line k).tokenSet = (L.line k).tokenSet := by
        simp only [Line.tokenSet, Ledger.line, hreq k hk]
      simp [hsame, hother k hk]

theorem step_tokens (hc : Coherent (System.core s)) (hi : TokensAcknowledged hist s.ledger)
    (hs : broker.step s l = some (s', out)) : TokensAcknowledged (hist ++ out) s'.ledger :=
  (step_changes hc hs).history (fun hi hm => hm.tokens hi) hi

theorem Launches.no_completion (h : Launches rid r hd evs) :
    .answered k .completion ∉ evs := by
  cases h <;> simp

theorem Shifts.no_result (h : Shifts rid l p evs p') (ha : ans = .completion ∨ ans = .cached) :
    .answered k ans ∉ evs := by
  cases h with
  | killed hp he => rcases ha with rfl | rfl <;> rcases he with rfl | rfl <;> simp
  | _ => rcases ha with rfl | rfl <;> simp

theorem Completes.completion (h : Completes rid l p evs) (hev : .answered k .completion ∈ evs) :
    k = some rid ∧ l = .adapter rid .returned := by
  cases h <;> simp at hev
  exact ⟨hev, rfl⟩

theorem Completes.not_cached (h : Completes rid l p evs) : .answered k .cached ∉ evs := by
  cases h <;> simp

theorem Launches.cached_id (h : Launches rid r hd evs) (hev : .answered (some k) .cached ∈ evs) :
    k = rid := by
  cases h <;> simp at hev
  exact hev

/-- The result of an adapter call is answered in the step in which the call returns. -/
theorem Turn.completion (h : Turn l rid a v evs a' v')
    (hev : .answered (some k) .completion ∈ evs) : l = .adapter k .returned := by
  cases h with
  | launch hc hb hs => exact absurd hev hs.no_completion
  | enqueue => cases hev
  | take hp he hs hc ht hb hs' =>
    rcases List.mem_cons.mp hev with hev | hev
    · cases hev
    · exact absurd hev hs'.no_completion
  | dropCancelled => simp at hev
  | dropTimedOut => simp at hev
  | shift hs => exact absurd hev (hs.no_result (.inl rfl))
  | complete hs =>
    obtain ⟨hid, hl⟩ := hs.completion hev
    cases hid
    exact hl
  | fail hl hp ha => rcases ha with rfl | rfl | rfl <;> simp at hev
  | disconnect hl hp _ he => rcases he with rfl | rfl <;> simp at hev
  | cancel => simp at hev

theorem Turn.cached (h : Turn l rid a v evs a' v') (hev : .answered (some k) .cached ∈ evs) :
    k = rid ∧ v.tokenSet = false := by
  cases h with
  | launch hc hb hs => exact ⟨hs.cached_id hev, rfl⟩
  | enqueue => cases hev
  | take hp he hs hc ht hb hs' =>
    rcases List.mem_cons.mp hev with hev | hev
    · cases hev
    · exact ⟨hs'.cached_id hev, hc⟩
  | dropCancelled => simp at hev
  | dropTimedOut => simp at hev
  | shift hs => exact absurd hev (hs.no_result (.inr rfl))
  | complete hs => exact absurd hev hs.not_cached
  | fail hl hp ha => rcases ha with rfl | rfl | rfl <;> simp at hev
  | disconnect hl hp _ he => rcases he with rfl | rfl <;> simp at hev
  | cancel => simp at hev

theorem Changes.completion (h : Changes l L evs L')
    (hev : .answered (some rid) .completion ∈ evs) : l = .adapter rid .returned := by
  have hall := h.history (P := fun hist _ =>
    .answered (some rid) .completion ∈ hist → l = .adapter rid .returned) (h := [])
  apply hall _ nofun hev
  intro hist L evs L' hi hc hmem
  rcases List.mem_append.mp hmem with hmem | hmem
  · exact hi hmem
  · cases hc with
    | refuse => simp at hmem
    | finalised => simp at hmem
    | refuseCancel => simp at hmem
    | grant => simp at hmem
    | turn hreq hh ht => exact ht.completion hmem

theorem Changes.cached (h : Changes l L evs L') (hi : TokensAcknowledged hist L)
    (hack : Acknowledged hist rid) : .answered (some rid) .cached ∉ evs := by
  induction h generalizing hist with
  | nil => simp
  | cons hc _ ih =>
    rw [List.mem_append]
    rintro (hev | hev)
    · cases hc with
      | refuse => simp at hev
      | finalised => simp at hev
      | refuseCancel => simp at hev
      | grant => simp at hev
      | turn hreq hh ht =>
        obtain ⟨rfl, hno⟩ := ht.cached hev
        have hset := (hi rid).mpr hack
        rw [hno] at hset
        cases hset
    · exact ih (hc.tokens hi) (acknowledged_append.mpr (.inl hack)) hev

theorem tokenSet_eq (s : System) (rid : RequestId) :
    (s.ledger.line rid).tokenSet = s.rt.tokenCancelled rid := by
  simp only [Line.tokenSet, Ledger.line, System.ledger, RuntimeState.tokenCancelled,
    RuntimeState.getCancellationToken]
  cases s.rt.requests.get? rid <;> rfl

/-- A step answers a late result exactly if the call it ends returns late. -/
theorem discardsLateResult_iff (hc : Coherent (System.core s))
    (hi : TokensAcknowledged hist s.ledger) (hs : broker.step s l = some (s', out)) :
    DiscardsLateResult hist s l ↔ ¬ s.ReturnsLate l := by
  constructor
  · rintro hd ⟨rid, h, rfl, hh, hp, htok⟩
    have hack := (hi rid).mp ((tokenSet_eq s rid).trans htok)
    apply (hd s' out rid h hs hh (by rw [hp]; nofun) hack).1
    simp only [broker, System.step, hh, System.adapterStep, hp] at hs
    cases hs
    simp [System.finish]
  · intro hret t out' rid h hs' hh hp hack
    rw [hs] at hs'
    cases hs'
    have hch := step_changes hc hs
    apply And.intro _ (hch.cached hi hack)
    intro hev
    obtain rfl := hch.completion hev
    apply hret
    refine ⟨rid, h, rfl, hh, ?_, (tokenSet_eq s rid).symm.trans ((hi rid).mpr hack)⟩
    simp only [broker, System.step, hh, System.adapterStep] at hs
    split at hs <;> simp_all

/-- Late results are discarded in a run exactly if no adapter call of a cancelled
non-streaming chat request returns in it. -/
theorem late_results_discarded_iff (cfg : Settings) (mono wall : Time) (ls : List Label)
    (hrun : broker.exec (.init cfg mono wall) ls = some r) :
    broker.EachStepAfter DiscardsLateResult [] (.init cfg mono wall) ls ↔
      broker.EachStep (fun s l => ¬ s.ReturnsLate l) (.init cfg mono wall) ls := by
  apply Machine.eachStepAfter_iff_eachStep
    (I := fun hist s => Coherent s.core ∧ TokensAcknowledged hist s.ledger) _ _ _ hrun
  · rintro hist s l s' out ⟨hc, hi⟩ hs
    exact ⟨step_coherent hc hs, step_tokens hc hi hs⟩
  · rintro hist s l s' out ⟨hc, hi⟩ hs
    exact discardsLateResult_iff hc hi hs
  · apply And.intro (init_coherent cfg mono wall)
    intro rid
    simp [Line.tokenSet, Ledger.line, System.ledger, System.init, RuntimeState.init, Acknowledged]

theorem late_results_discarded_raised :
    ∃ r, broker.exec (.init oneSlot 0 0) (cancelledRun ++ [.adapter "a" .upstreamError]) = some r ∧
      broker.EachStepAfter DiscardsLateResult [] (.init oneSlot 0 0)
        (cancelledRun ++ [.adapter "a" .upstreamError]) := by
  apply Exists.intro _
  apply And.intro rfl
  apply (late_results_discarded_iff oneSlot 0 0 _ rfl).mpr
  apply Machine.EachStep.imp (C := fun _ l => ∀ rid, l ≠ .adapter rid .returned)
  · rintro s l hl ⟨rid, h, rfl, -⟩
    exact hl rid rfl
  · apply Machine.eachStep_of_mem
    simp [cancelledRun]

/-- The cancellation is acknowledged, the adapter call returns, and its result is answered. -/
theorem late_result_answered :
    ∃ s out s' out', broker.exec (.init oneSlot 0 0) cancelledRun = some (s, out) ∧
      broker.step s (.adapter "a" .returned) = some (s', out') ∧
      .cancelAnswered "a" (.ok true) ∈ out ∧ .answered (some "a") .completion ∈ out' ∧
      ¬ broker.EachStepAfter DiscardsLateResult [] (.init oneSlot 0 0)
        (cancelledRun ++ [.adapter "a" .returned]) := by
  refine ⟨_, _, _, _, rfl, rfl, by decide, by decide, ?_⟩
  intro h
  have hd := ((h.2 _ _ rfl).2 _ _ rfl).1
  exact (hd _ _ "a" _ rfl rfl (by decide) ⟨true, by decide⟩).1 (by decide)

end Whooshd
