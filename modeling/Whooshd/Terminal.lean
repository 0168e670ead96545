import Whooshd.Slots

namespace Whooshd
set_option autoImplicit true

/-- Terminal records keep their status and their end. -/
def Core.Keeps (c c' : Core) : Prop :=
  ∀ rid r, c.requests.get? rid = some r → r.status.isTerminal = true →
    ∃ r', c'.requests.get? rid = some r' ∧ r'.status = r.status ∧ r'.endedAt = r.endedAt

theorem Core.Keeps.refl (c : Core) : c.Keeps c := fun _ r hr _ => ⟨r, hr, rfl, rfl⟩

theorem Core.Keeps.trans (h : Core.Keeps c c') (h' : Core.Keeps c' c'') : c.Keeps c'' := by
  intro rid r hr ht
  obtain ⟨r', hr', hs, he⟩ := h rid r hr ht
  obtain ⟨r'', hr'', hs', he'⟩ := h' rid r' hr' (by rw [hs]; exact ht)
  exact ⟨r'', hr'', hs'.trans hs, he'.trans he⟩

/-- The step ends a request whose record is terminal already: its waiter takes note of a
cancellation, its adapter call raises, or its response body ends abnormally. -/
def System.EndsAgain (s : System) (l : Label) : Prop :=
  ∃ rid r, s.rt.requests.get? rid = some r ∧ r.status.isTerminal = true ∧
    (l = .resume rid ∨ ∃ h, s.handlers.get? rid = some h ∧ Rewrites rid l h.phase)

/-- A transition keeps a terminal record, unless the step ends it again. -/
theorem Act.frozen (ha : Act env c rid v evs v') (hr : v.record = some r)
    (ht : r.status.isTerminal = true) :
    (∃ r', v'.record = some r' ∧ r'.status = r.status ∧ r'.endedAt = r.endedAt) ∨
      env.label = .resume rid ∧ env.start.requests.get? rid = some r ∨
      ∃ h, c = env.start ∧ v.handler = some h ∧ Rewrites rid env.label h.phase := by
  have hq : ∀ {q : RequestRecord}, q.status = .queued → ¬q = r := by
    rintro q hs rfl
    rw [hs] at ht
    cases ht
  cases ha with
  | accept => cases hr
  | enter => cases hr
  | grant => exact .inl ⟨_, hr, rfl, rfl⟩
  | take hp hg hx hs => exact absurd (Option.some.inj hr) (hq hs)
  | drop hp hx hid ht' hf =>
    cases hr
    exact hf.imp (fun hf => ⟨_, rfl, hf ht⟩) .inl
  | settle hst hp hs =>
    cases hr
    obtain ⟨rfl, -⟩ | ⟨-, -, -, hf | hw⟩ := hs
    · exact .inl ⟨_, rfl, rfl, rfl⟩
    · exact .inl ⟨_, rfl, hf ht⟩
    · exact .inr (.inr ⟨_, hst, rfl, hw⟩)
  | cancel hl hst hn =>
    cases hr
    rw [hn] at ht
    cases ht
  | kill => exact .inl ⟨_, hr, rfl, rfl⟩

theorem step_keeps {s : System} (hc : Coherent s.core) (hn : ¬s.EndsAgain l)
    (hs : broker.step s l = some (s', out)) : s.core.Keeps s'.core := by
  apply (step_moves hc hs).invariant (P := s.core.Keeps) _ hc (.refl _)
  intro c evs c' _ hk hmv
  apply hk.trans
  intro rid r hr ht
  cases hmv with
  | refuse => exact ⟨r, hr, rfl, rfl⟩
  | note => exact ⟨r, hr, rfl, rfl⟩
  | @act rid' c c' evs htc ha =>
    by_cases hid : rid = rid'
    · subst hid
      obtain h | ⟨hl, hr'⟩ | ⟨h, rfl, hh, hw⟩ := ha.frozen hr ht
      · exact h
      · exact absurd ⟨rid, r, hr', ht, .inl hl⟩ hn
      · exact absurd ⟨rid, r, hr, ht, .inr ⟨h, hh, hw⟩⟩ hn
    · have hsame : c'.requests.get? rid = c.requests.get? rid :=
        congrArg View.record (htc.others rid hid)
      exact ⟨r, hsame.trans hr, rfl, rfl⟩

/-- A request is started and then cancelled through the endpoint. -/
def cancelledRun : List Label := [.chat "a" (shortChat false), .cancel "a"]

end Whooshd
