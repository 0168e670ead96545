import Whooshd.TokenStep.Own
import Mathlib.Data.List.Perm.Basic
import Mathlib.Data.List.Nodup
import Mathlib.Logic.Function.Basic

namespace Whooshd.TokenStep
set_option autoImplicit true

/-- The backend's record of one sequence. -/
structure BackendShows (b : FakeTokenStepBackend) (req : TokenStepRequest) (h : FakeSequenceHandle)
    (t : Track) : Prop where
  state : b.states.get? h.sequenceId = some t.state
  steps : b.stepCounts.get? h.sequenceId = some t.steps
  maxTokens : b.maxTokens.get? h.sequenceId = some req.maxTokens
  sampler : b.samplers.get? h.sequenceId = some req.samplerLabel
  rid : b.rids.get? h.sequenceId = some req.requestId

/-- The requests with their sequences, and the routes between them. -/
structure Routed (pairs : List (TokenStepRequest × FakeSequenceHandle)) (setting : Setting) :
    Prop where
  rids : (pairs.map (·.1.requestId)).Nodup
  sids : (pairs.map (·.2.sequenceId)).Nodup
  handles : setting.handles = pairs.map Prod.snd
  routes : ∀ p ∈ pairs, setting.routes.get? p.1.requestId = some p.2
  known : ∀ rid h, setting.routes.get? rid = some h → ∃ p ∈ pairs, p.1.requestId = rid ∧ p.2 = h
  reverse : ∀ p ∈ pairs, setting.reverseRoutes.get? p.2.sequenceId = some p.1.requestId

/-- The run shows each request on its own track, and its counters count the tracks. -/
structure Mirrors (pairs : List (TokenStepRequest × FakeSequenceHandle)) (s : Run)
    (f : TokenStepRequest → Track) : Prop where
  backend : ∀ p ∈ pairs, BackendShows s.backend p.1 p.2 (f p.1)
  proper : ∀ p ∈ pairs, (f p.1).done = false →
    (f p.1).state = .readyToDecode ∨ (f p.1).state = .decoding
  texts : ∀ p ∈ pairs, s.accumulators.get? p.1.requestId =
    some ((List.range (f p.1).steps).map (tokenOf p.1))
  cancelled : s.cancelled = pairs.countP fun p => (f p.1).state = .cancelled
  timedOut : s.timedOut = pairs.countP fun p => (f p.1).state = .timedOut
  failed : s.failed = pairs.countP fun p => (f p.1).state = .failed

def Ending.state : Ending → TokenStepSequenceState
  | .cancel => .cancelled
  | .timeout => .timedOut
  | .fail => .failed

variable {pairs : List (TokenStepRequest × FakeSequenceHandle)} {setting : Setting} {s : Run}
  {f : TokenStepRequest → Track} {p q : TokenStepRequest × FakeSequenceHandle}
  {qs : List (TokenStepRequest × FakeSequenceHandle)}

namespace Routed

theorem nodup (h : Routed pairs setting) : pairs.Nodup := h.rids.of_map

theorem eq_of_rid (h : Routed pairs setting) (hp : p ∈ pairs) (hq : q ∈ pairs)
    (he : p.1.requestId = q.1.requestId) : p = q := List.inj_on_of_nodup_map h.rids hp hq he

theorem eq_of_sid (h : Routed pairs setting) (hp : p ∈ pairs) (hq : q ∈ pairs)
    (he : p.2.sequenceId = q.2.sequenceId) : p = q := List.inj_on_of_nodup_map h.sids hp hq he

end Routed

theorem countP_change [DecidableEq α] {l : List α} (hl : l.Nodup) (ha : a ∈ l) {P Q : α → Bool}
    (h : ∀ b ∈ l, b ≠ a → Q b = P b) :
    l.countP Q + (P a).toNat = l.countP P + (Q a).toNat := by
  have hperm := List.perm_cons_erase ha
  have hrest : (l.erase a).countP Q = (l.erase a).countP P := by
    apply List.countP_congr
    intro b hb
    rw [hl.mem_erase_iff] at hb
    rw [h b hb.2 hb.1]
  rw [hperm.countP_eq, hperm.countP_eq, List.countP_cons, List.countP_cons, hrest]
  cases P a <;> cases Q a <;> simp

theorem BackendShows.isFinished {b : FakeTokenStepBackend} (h : BackendShows b req handle t) :
    b.isFinished handle = t.done := by
  rw [FakeTokenStepBackend.isFinished, h.state, Track.done]
  cases t.state <;> rfl

theorem BackendShows.setState {b : FakeTokenStepBackend} (h : BackendShows b req handle t)
    (state : TokenStepSequenceState) :
    BackendShows (b.setState handle state) req handle { t with state } :=
  ⟨Dict.get?_set_self _ _, h.steps, h.maxTokens, h.sampler, h.rid⟩

theorem BackendShows.setState_other {b : FakeTokenStepBackend} (h : BackendShows b req handle t)
    (hne : handle.sequenceId ≠ handle'.sequenceId) (state : TokenStepSequenceState) :
    BackendShows (b.setState handle' state) req handle t :=
  ⟨(Dict.get?_set_ne hne _).trans h.state, h.steps, h.maxTokens, h.sampler, h.rid⟩

theorem endSequence_live {b : FakeTokenStepBackend} (h : BackendShows b req handle t)
    (hproper : t.state = .readyToDecode ∨ t.state = .decoding) (state : TokenStepSequenceState) :
    b.endSequence handle state = b.setState handle state := by
  rw [FakeTokenStepBackend.endSequence, h.state]
  rcases hproper with he | he <;> rw [he]

theorem Ending.sequence_eq (ending : Ending) (b : FakeTokenStepBackend)
    (handle : FakeSequenceHandle) :
    ending.sequence b handle = b.endSequence handle ending.state := by
  cases ending <;> rfl

theorem Ending.done (ending : Ending) (n : Nat) : Track.done ⟨ending.state, n⟩ = true := by
  cases ending <;> rfl

namespace Mirrors

theorem congr (h : Mirrors pairs s f) (hf : ∀ p ∈ pairs, g p.1 = f p.1) : Mirrors pairs s g := by
  have hcount : ∀ state, pairs.countP (fun p => (g p.1).state = state) =
      pairs.countP fun p => (f p.1).state = state := by
    intro state
    apply List.countP_congr
    intro p hp
    rw [hf p hp]
  constructor
  · exact fun p hp => hf p hp ▸ h.backend p hp
  · exact fun p hp => hf p hp ▸ h.proper p hp
  · exact fun p hp => hf p hp ▸ h.texts p hp
  · exact h.cancelled.trans (hcount _).symm
  · exact h.timedOut.trans (hcount _).symm
  · exact h.failed.trans (hcount _).symm

theorem active (h : Mirrors pairs s f) (hr : Routed pairs setting) :
    s.active setting.handles = (pairs.filter fun p => !(f p.1).done).map Prod.snd := by
  rw [Run.active, hr.handles, List.filter_map]
  congr 1
  apply List.filter_congr
  intro p hp
  rw [Function.comp, (h.backend p hp).isFinished]

theorem endOne (h : Mirrors pairs s f) (hr : Routed pairs setting) (hp : p ∈ pairs)
    (hlive : (f p.1).done = false) (ending : Ending) :
    Mirrors pairs (Run.count { s with backend := ending.sequence s.backend p.2 } ending)
      (Function.update f p.1 { f p.1 with state := ending.state }) := by
  have hshows := h.backend p hp
  have hproper := h.proper p hp hlive
  have hbackend : ending.sequence s.backend p.2 = s.backend.setState p.2 ending.state := by
    rw [ending.sequence_eq, endSequence_live hshows hproper]
  have hother : ∀ q ∈ pairs, q ≠ p →
      Function.update f p.1 { f p.1 with state := ending.state } q.1 = f q.1 := by
    intro q hq hne
    rw [Function.update_of_ne]
    intro he
    exact hne (hr.eq_of_rid hq hp (congrArg _ he))
  have hcount : ∀ state, state ≠ .readyToDecode → state ≠ .decoding →
      pairs.countP (fun q =>
        (Function.update f p.1 { f p.1 with state := ending.state } q.1).state = state) =
          pairs.countP (fun q => (f q.1).state = state) +
            (decide (ending.state = state)).toNat := by
    intro state hready hdecoding
    have hchange := countP_change hr.nodup hp
      (P := fun q => decide ((f q.1).state = state))
      (Q := fun q => decide
        ((Function.update f p.1 { f p.1 with state := ending.state } q.1).state = state))
      (fun q hq hne => by rw [hother q hq hne])
    rw [Function.update_self] at hchange
    have hnot : decide ((f p.1).state = state) = false := by
      rw [decide_eq_false_iff_not]
      rintro rfl
      rcases hproper with he | he
      · exact hready he
      · exact hdecoding he
    rwa [hnot, Bool.toNat_false, Nat.add_zero] at hchange
  have hkeep : ∀ q ∈ pairs, q ≠ p →
      BackendShows (s.backend.setState p.2 ending.state) q.1 q.2 (f q.1) := by
    intro q hq hne
    refine (h.backend q hq).setState_other ?_ _
    intro he
    exact hne (hr.eq_of_sid hq hp he)
  constructor
  · intro q hq
    have hb : (Run.count { s with backend := ending.sequence s.backend p.2 } ending).backend =
        s.backend.setState p.2 ending.state := by
      rw [hbackend]
      cases ending <;> rfl
    rw [hb]
    by_cases he : q = p
    · subst he
      rw [Function.update_self]
      exact hshows.setState ending.state
    · rw [hother q hq he]
      exact hkeep q hq he
  · intro q hq hlive'
    by_cases he : q = p
    · subst he
      rw [Function.update_self, ending.done] at hlive'
      cases hlive'
    · rw [hother q hq he] at hlive' ⊢
      exact h.proper q hq hlive'
  · intro q hq
    have ha : (Run.count { s with backend := ending.sequence s.backend p.2 } ending).accumulators =
        s.accumulators := by cases ending <;> rfl
    have hsteps : (Function.update f p.1 { f p.1 with state := ending.state } q.1).steps =
        (f q.1).steps := by
      by_cases he : q = p
      · subst he
        rw [Function.update_self]
      · rw [hother q hq he]
    rw [ha, hsteps]
    exact h.texts q hq
  · rw [hcount .cancelled nofun nofun, ← h.cancelled]
    cases ending <;> rfl
  · rw [hcount .timedOut nofun nofun, ← h.timedOut]
    cases ending <;> rfl
  · rw [hcount .failed nofun nofun, ← h.failed]
    cases ending <;> rfl

theorem applyOne (h : Mirrors pairs s f) (hr : Routed pairs setting) (ending : Ending)
    (rid : String) : Mirrors pairs (Run.applyOne setting.routes ending s rid)
      (fun req => (f req).endedIf (req.requestId = rid) ending.state) := by
  have hsame : (∀ p ∈ pairs, p.1.requestId = rid → (f p.1).done = true) →
      Mirrors pairs s (fun req => (f req).endedIf (req.requestId = rid) ending.state) := by
    intro hdone
    apply h.congr
    intro p hp
    rw [Track.endedIf]
    split
    · next he => exact Track.ended_of_done (hdone p hp he) _
    · rfl
  rw [Run.applyOne]
  split
  · next hnone =>
    apply hsame
    rintro p hp rfl
    rw [hr.routes p hp] at hnone
    cases hnone
  · next handle hroute =>
    obtain ⟨p, hp, rfl, rfl⟩ := hr.known rid handle hroute
    rw [(h.backend p hp).isFinished]
    split
    · next hdone =>
      apply hsame
      intro q hq he
      rw [hr.eq_of_rid hq hp he]
      exact hdone
    · next hlive =>
      rw [Bool.not_eq_true] at hlive
      apply (h.endOne hr hp hlive ending).congr
      intro q hq
      by_cases he : q = p
      · subst he
        rw [Function.update_self, Track.endedIf, if_pos rfl, Track.ended_of_live hlive]
      · have hrid : q.1.requestId ≠ p.1.requestId := fun hid => he (hr.eq_of_rid hq hp hid)
        have hreq : q.1 ≠ p.1 := fun hreq => hrid (congrArg _ hreq)
        rw [Function.update_of_ne hreq, Track.endedIf, if_neg hrid]

theorem applyAll (h : Mirrors pairs s f) (hr : Routed pairs setting) (ending : Ending)
    (rids : List String) : Mirrors pairs (rids.foldl (Run.applyOne setting.routes ending) s)
      (fun req => (f req).endedIf (req.requestId ∈ rids) ending.state) := by
  induction rids generalizing s f with
  | nil =>
    apply h.congr
    intro p _
    rw [Track.endedIf, if_neg List.not_mem_nil]
  | cons rid rids ih =>
    apply (ih (h.applyOne hr ending rid)).congr
    intro p _
    by_cases hrid : p.1.requestId = rid
    · have hdone : ((f p.1).endedIf (p.1.requestId = rid) ending.state).done = true := by
        rw [Track.endedIf, if_pos hrid]
        cases hd : (f p.1).done with
        | true => rwa [Track.ended_of_done hd]
        | false => rw [Track.ended_of_live hd, ending.done]
      rw [Track.endedIf_of_done hdone, Track.endedIf, Track.endedIf, if_pos hrid,
        if_pos (hrid ▸ List.mem_cons_self)]
    · have hfirst : (f p.1).endedIf (p.1.requestId = rid) ending.state = f p.1 := if_neg hrid
      rw [hfirst]
      simp only [Track.endedIf, List.mem_cons, hrid, false_or]

theorem apply (h : Mirrors pairs s f) (hr : Routed pairs setting)
    (plan : Dict Int (List String)) (ending : Ending) :
    Mirrors pairs (s.apply setting plan ending)
      (fun req => (f req).endedIf (Named plan s.stepCount req.requestId) ending.state) :=
  h.applyAll hr ending _

theorem failEach (h : Mirrors pairs s f) (hr : Routed pairs setting) (hnodup : qs.Nodup)
    (hqs : ∀ q ∈ qs, q ∈ pairs ∧ (f q.1).done = false) :
    Mirrors pairs ((qs.map Prod.snd).foldl (fun s h =>
      { s with backend := s.backend.failSequence h, failed := s.failed + 1 }) s)
      (fun req => (f req).endedIf (req ∈ qs.map Prod.fst) .failed) := by
  induction qs generalizing s f with
  | nil =>
    apply h.congr
    intro p _
    exact if_neg List.not_mem_nil
  | cons q qs ih =>
    rw [List.nodup_cons] at hnodup
    obtain ⟨hq, hlive⟩ := hqs q List.mem_cons_self
    have hqs' : ∀ p ∈ qs, p ∈ pairs ∧
        (Function.update f q.1 { f q.1 with state := .failed } p.1).done = false := by
      intro p hp
      obtain ⟨hp', hplive⟩ := hqs p (List.mem_cons_of_mem _ hp)
      have hne : p.1 ≠ q.1 := by
        intro he
        rw [hr.eq_of_rid hp' hq (congrArg _ he)] at hp
        exact hnodup.1 hp
      exact ⟨hp', by rwa [Function.update_of_ne hne]⟩
    apply (ih (h.endOne hr hq hlive .fail) hnodup.2 hqs').congr
    intro p hp
    rw [List.map_cons]
    by_cases he : p.1 = q.1
    · have hdone : Track.done { f q.1 with state := .failed } = true := rfl
      rw [he, show Ending.fail.state = .failed from rfl, Function.update_self,
        Track.endedIf_of_done hdone, Track.endedIf, if_pos List.mem_cons_self,
        Track.ended_of_live hlive]
    · rw [Function.update_of_ne he]
      simp only [Track.endedIf, List.mem_cons, he, false_or]

theorem failAll (h : Mirrors pairs s f) (hr : Routed pairs setting) :
    Mirrors pairs (s.failAll (s.active setting.handles)) (fun req => (f req).ended .failed) := by
  have hshared : Mirrors pairs { s with sharedFailures := s.sharedFailures + 1 } f :=
    ⟨h.backend, h.proper, h.texts, h.cancelled, h.timedOut, h.failed⟩
  rw [h.active hr]
  have hlive : ∀ q ∈ pairs.filter fun p => !(f p.1).done, q ∈ pairs ∧ (f q.1).done = false := by
    intro q hq
    rw [List.mem_filter, Bool.not_eq_true'] at hq
    exact hq
  apply (hshared.failEach hr (hr.nodup.filter _) hlive).congr
  intro p hp
  cases hdone : (f p.1).done with
  | true => rw [Track.ended_of_done hdone, Track.endedIf_of_done hdone]
  | false =>
    rw [Track.endedIf, if_pos]
    exact List.mem_map_of_mem (List.mem_filter.mpr ⟨hp, by rw [hdone]; rfl⟩)

end Mirrors

/-- What one sequence puts out in a decode step. -/
def emitted (t : Track) (req : TokenStepRequest) : Option String :=
  if t.steps < req.maxTokens then some (tokenOf req t.steps) else none

theorem BackendShows.count {b : FakeTokenStepBackend} (h : BackendShows b req handle t) (n : Nat) :
    BackendShows { b with stepCounts := b.stepCounts.set handle.sequenceId n } req handle
      { t with steps := n } :=
  ⟨h.state, Dict.get?_set_self _ _, h.maxTokens, h.sampler, h.rid⟩

theorem BackendShows.count_other {b : FakeTokenStepBackend} {handle' : FakeSequenceHandle}
    (h : BackendShows b req handle t) (hne : handle.sequenceId ≠ handle'.sequenceId) (n : Nat) :
    BackendShows { b with stepCounts := b.stepCounts.set handle'.sequenceId n } req handle t :=
  ⟨h.state, (Dict.get?_set_ne hne _).trans h.steps, h.maxTokens, h.sampler, h.rid⟩

/-- One sequence takes a decode step, and the others stay where they are. -/
theorem BackendShows.decodeOne {b : FakeTokenStepBackend} (h : BackendShows b req handle t)
    (hlive : t.done = false) (hproper : t.state = .readyToDecode ∨ t.state = .decoding)
    (outputs : Dict FakeSequenceHandle String) :
    BackendShows (b.decodeOne outputs handle).1 req handle (t.decoded req.maxTokens) ∧
      (b.decodeOne outputs handle).2 = (emitted t req).elim outputs (outputs.set handle) ∧
      ∀ req' handle' t', handle'.sequenceId ≠ handle.sequenceId → BackendShows b req' handle' t' →
        BackendShows (b.decodeOne outputs handle).1 req' handle' t' := by
  obtain ⟨b₁, hb₁, hshows, hkeep⟩ : ∃ b₁,
      (if some t.state = some TokenStepSequenceState.readyToDecode then b.setState handle .decoding
        else b) = b₁ ∧ BackendShows b₁ req handle { t with state := .decoding } ∧
      ∀ req' handle' t', handle'.sequenceId ≠ handle.sequenceId → BackendShows b req' handle' t' →
        BackendShows b₁ req' handle' t' := by
    refine ⟨_, rfl, ?_⟩
    rcases hproper with he | he
    · rw [if_pos (congrArg some he)]
      exact ⟨h.setState .decoding, fun _ _ _ hne h' => h'.setState_other hne _⟩
    · rw [if_neg (by rw [he]; exact nofun)]
      refine ⟨?_, fun _ _ _ _ h' => h'⟩
      rwa [show ({ t with state := .decoding } : Track) = t by rw [← he]]
  have hskip : ¬(some t.state = some .cancelled ∨ some t.state = some .failed ∨
      some t.state = some .timedOut) := by
    rcases hproper with he | he <;> simp [he]
  have heq : b.decodeOne outputs handle = if (t.steps : Int) < req.maxTokens then
      ({ b₁ with stepCounts := b₁.stepCounts.set handle.sequenceId (t.steps + 1) },
        outputs.set handle (tokenOf req t.steps))
      else (b₁.setState handle .finished, outputs) := by
    rw [FakeTokenStepBackend.decodeOne, h.state, if_neg hskip, hb₁]
    dsimp only
    rw [hshows.steps, hshows.maxTokens, hshows.sampler, hshows.rid]
    rfl
  have hdecoded : t.decoded req.maxTokens = if (t.steps : Int) < req.maxTokens then
      { state := .decoding, steps := t.steps + 1 } else { t with state := .finished } :=
    if_neg (by rw [hlive]; exact Bool.false_ne_true)
  rw [heq, hdecoded, emitted]
  by_cases hless : (t.steps : Int) < req.maxTokens
  · rw [if_pos hless, if_pos hless, if_pos hless]
    exact ⟨hshows.count _, rfl, fun _ _ _ hne h' => (hkeep _ _ _ hne h').count_other hne _⟩
  · rw [if_neg hless, if_neg hless, if_neg hless]
    exact ⟨hshows.setState .finished, rfl,
      fun _ _ _ hne h' => (hkeep _ _ _ hne h').setState_other hne _⟩

/-- A decode step: each given sequence takes its step, and the outputs are theirs in order. -/
theorem decodeFold {b : FakeTokenStepBackend} (hr : Routed pairs setting) (hnodup : qs.Nodup)
    (hqs : ∀ q ∈ qs, q ∈ pairs ∧ BackendShows b q.1 q.2 (f q.1) ∧ (f q.1).done = false ∧
      ((f q.1).state = .readyToDecode ∨ (f q.1).state = .decoding))
    (outputs : Dict FakeSequenceHandle String) (hnew : ∀ q ∈ qs, outputs.get? q.2 = none) :
    ∃ b' outputs', (qs.map Prod.snd).foldl (fun r h => r.1.decodeOne r.2 h) (b, outputs) =
        (b', outputs') ∧
      (∀ q ∈ qs, BackendShows b' q.1 q.2 ((f q.1).decoded q.1.maxTokens)) ∧
      (∀ p ∈ pairs, p ∉ qs → ∀ t, BackendShows b p.1 p.2 t → BackendShows b' p.1 p.2 t) ∧
      outputs'.entries = outputs.entries ++
        qs.filterMap fun q => (emitted (f q.1) q.1).map (Prod.mk q.2) := by
  induction qs generalizing b outputs with
  | nil => exact ⟨b, outputs, rfl, nofun, fun _ _ _ _ h => h, (List.append_nil _).symm⟩
  | cons q qs ih =>
    rw [List.nodup_cons] at hnodup
    obtain ⟨hq, hshows, hlive, hproper⟩ := hqs q List.mem_cons_self
    obtain ⟨hself, hout, hkeep⟩ := hshows.decodeOne hlive hproper outputs
    have hsid : ∀ p ∈ pairs, p ≠ q → p.2.sequenceId ≠ q.2.sequenceId :=
      fun p hp hne he => hne (hr.eq_of_sid hp hq he)
    have hdiff : ∀ p ∈ qs, p ≠ q := by
      rintro p hp rfl
      exact hnodup.1 hp
    have hqs' : ∀ p ∈ qs, p ∈ pairs ∧
        BackendShows (b.decodeOne outputs q.2).1 p.1 p.2 (f p.1) ∧ (f p.1).done = false ∧
          ((f p.1).state = .readyToDecode ∨ (f p.1).state = .decoding) := by
      intro p hp
      obtain ⟨hp', hshows', hrest⟩ := hqs p (List.mem_cons_of_mem _ hp)
      exact ⟨hp', hkeep _ _ _ (hsid p hp' (hdiff p hp)) hshows', hrest⟩
    have hnew' : ∀ p ∈ qs, (b.decodeOne outputs q.2).2.get? p.2 = none := by
      intro p hp
      have hne : p.2 ≠ q.2 := fun he =>
        hsid p (hqs' p hp).1 (hdiff p hp) (congrArg FakeSequenceHandle.sequenceId he)
      rw [hout]
      cases emitted (f q.1) q.1 with
      | none => exact hnew p (List.mem_cons_of_mem _ hp)
      | some token =>
        rw [Option.elim_some, Dict.get?_set_ne hne]
        exact hnew p (List.mem_cons_of_mem _ hp)
    obtain ⟨b', outputs', heq, hdecoded, hothers, hentries⟩ := ih hnodup.2 hqs' _ hnew'
    refine ⟨b', outputs', heq, ?_, ?_, ?_⟩
    · intro p hp
      rcases List.mem_cons.mp hp with rfl | hp
      · exact hothers p hq hnodup.1 _ hself
      · exact hdecoded p hp
    · intro p hp hnot t hshows'
      rw [List.mem_cons, not_or] at hnot
      exact hothers p hp hnot.2 t (hkeep _ _ _ (hsid p hp hnot.1) hshows')
    · rw [hentries, hout, List.filterMap_cons]
      cases emitted (f q.1) q.1 with
      | none => rfl
      | some token =>
        rw [Option.elim_some, Dict.entries_set_new (hnew q List.mem_cons_self), Option.map_some,
          List.append_assoc, List.singleton_append]

/-- The tokens of a decode step reach the texts of their requests. -/
theorem deliver_outputs (hr : Routed pairs setting) (hnodup : qs.Nodup) (hqs : ∀ q ∈ qs, q ∈ pairs)
    {acc : Dict String (List String)} (texts : TokenStepRequest → List String)
    (hacc : ∀ p ∈ pairs, acc.get? p.1.requestId = some (texts p.1))
    (out : TokenStepRequest → Option String) :
    ∃ acc', Run.deliver setting.reverseRoutes acc
        (qs.filterMap fun q => (out q.1).map (Prod.mk q.2)) = .ok acc' ∧
      ∀ p ∈ pairs, acc'.get? p.1.requestId =
        some (if p ∈ qs then texts p.1 ++ (out p.1).toList else texts p.1) := by
  induction qs generalizing acc texts with
  | nil => exact ⟨acc, rfl, fun p hp => by rw [if_neg List.not_mem_nil]; exact hacc p hp⟩
  | cons q qs ih =>
    rw [List.nodup_cons] at hnodup
    have hq := hqs q List.mem_cons_self
    have hqs' := fun p hp => hqs p (List.mem_cons_of_mem _ hp)
    cases hout : out q.1 with
    | none =>
      obtain ⟨acc', hok, hget⟩ := ih hnodup.2 hqs' texts hacc
      refine ⟨acc', by rw [List.filterMap_cons, hout]; exact hok, ?_⟩
      intro p hp
      rw [hget p hp]
      by_cases he : p = q
      · subst he
        rw [if_neg hnodup.1, if_pos List.mem_cons_self, hout, Option.toList_none, List.append_nil]
      · simp only [List.mem_cons, he, false_or]
    | some token =>
      have hacc' : ∀ p ∈ pairs, (acc.set q.1.requestId (texts q.1 ++ [token])).get? p.1.requestId =
          some (Function.update texts q.1 (texts q.1 ++ [token]) p.1) := by
        intro p hp
        by_cases he : p = q
        · subst he
          rw [Dict.get?_set_self, Function.update_self]
        · have hrid : p.1.requestId ≠ q.1.requestId := fun hid => he (hr.eq_of_rid hp hq hid)
          rw [Dict.get?_set_ne hrid, Function.update_of_ne (fun h => hrid (congrArg _ h)),
            hacc p hp]
      obtain ⟨acc', hok, hget⟩ := ih hnodup.2 hqs' _ hacc'
      refine ⟨acc', ?_, ?_⟩
      · rw [List.filterMap_cons, hout]
        dsimp only [Option.map_some]
        rw [Run.deliver, hr.reverse q hq, Option.getD_some, hacc q hq]
        exact hok
      · intro p hp
        rw [hget p hp]
        by_cases he : p = q
        · subst he
          rw [if_neg hnodup.1, if_pos List.mem_cons_self, hout, Function.update_self,
            Option.toList_some]
        · have hreq : p.1 ≠ q.1 := fun h => he (hr.eq_of_rid hp hq (congrArg _ h))
          rw [Function.update_of_ne hreq]
          simp only [List.mem_cons, he, false_or]

end Whooshd.TokenStep
