import Whooshd.Slots

namespace Whooshd
set_option autoImplicit true

namespace System

/-- Every entry in the deque has a live waiter. -/
def Attended (s : System) : Prop :=
  ∀ e ∈ s.queue.deque, ∃ h, s.handlers.get? e.requestId = some h ∧ h.phase = .waiting e

/-- A handler task is cancelled while its own entry is in the deque. -/
def Abandons (s : System) (l : Label) : Prop :=
  ∃ rid, l = .kill rid ∧ (s.queue.find rid).isSome = true

end System

def View.Attended (v : View) : Prop :=
  ∀ e, v.entry = some e → ∃ h, v.handler = some h ∧ h.phase = .waiting e

theorem Act.attended (ha : Act env c rid v evs v')
    (hn : env.label = .kill rid → c = env.start → v.entry = none) (h : v.Attended) :
    v'.Attended := by
  intro e he
  cases ha with
  | enter hchat hl hst hroom hr hs hc hm hg hp => cases he; exact ⟨_, rfl, hp⟩
  | cancel => exact h e he
  | kill hl hst => rw [show _ = none from hn hl hst] at he; cases he
  | accept | grant | take | drop | settle => cases he

theorem attended_iff {s : System} (hc : Coherent s.core) :
    s.Attended ↔ ∀ rid, (s.core.view rid).Attended := by
  constructor
  · intro h rid e he
    obtain ⟨hm, rfl⟩ := findEntry_some he
    exact h e hm
  · intro h e he
    exact h e.requestId e (hc.distinct.find_mem he)

theorem step_attended {s : System} (hc : Coherent s.core) (h : s.Attended)
    (hn : ¬s.Abandons l) (hs : broker.step s l = some (s', out)) : s'.Attended := by
  rw [attended_iff hc] at h
  rw [attended_iff (step_coherent hc hs)]
  apply (step_moves hc hs).invariant (P := fun c => ∀ rid, (c.view rid).Attended) _ hc h
  intro c evs c' hc hp hmv
  apply hmv.views (P := fun _ v => v.Attended) _ hp
  intro rid v _ ha hv hcv
  apply ha.attended _ hcv
  intro hl hst
  subst hv hst
  by_contra he
  exact hn ⟨rid, hl, Option.isSome_iff_ne_none.2 he⟩

/-- Cancelling a waiting handler leaves its entry behind. -/
theorem abandons_not_attended {s : System} (hl : s.Abandons l)
    (hs : broker.step s l = some (s', out)) : ¬s'.Attended := by
  obtain ⟨rid, rfl, hsome⟩ := hl
  obtain ⟨e, he⟩ := Option.isSome_iff_exists.1 hsome
  obtain ⟨hm, hid⟩ := findEntry_some he
  cases stepped_of_step hs with
  | kill hh hk =>
    have hs' : s' = s.setPhase rid .killed := by
      simp only [System.kill] at hk
      split at hk <;> cases hk <;> rfl
    subst hs'
    intro hatt
    obtain ⟨h', hh', hp⟩ := hatt e hm
    simp only [System.setPhase, hid, Dict.get?_modify, if_pos, hh, Option.map_some] at hh'
    cases hh'
    cases hp

/-- Along a run, every entry in the deque has a live waiter exactly if no handler is cancelled
while its own entry is in the deque. -/
theorem attended_iff_not_abandoned (cfg : Settings) (mono wall : Time) (ls : List Label)
    (hrun : broker.exec (.init cfg mono wall) ls = some r) :
    broker.EachState System.Attended (.init cfg mono wall) ls ↔
      broker.EachStep (fun s l => ¬s.Abandons l) (.init cfg mono wall) ls :=
  Machine.eachState_iff_eachStep (M := broker) (I := fun s => Coherent s.core)
    (P := System.Attended) (C := fun s l => ¬s.Abandons l)
    step_coherent
    (fun hc h hs =>
      ⟨fun h' hl => abandons_not_attended hl hs h', fun hn => step_attended hc h hn hs⟩)
    (init_coherent cfg mono wall) nofun hrun

instance (s : System) (l : Label) : Decidable (s.Abandons l) :=
  match l with
  | .kill rid => decidable_of_iff ((s.queue.find rid).isSome = true) (by simp [System.Abandons])
  | .chat .. | .generate .. | .resume .. | .adapter .. | .body .. | .finalise .. | .cancel ..
  | .memoryPressure .. | .configure .. | .tick .. => .isFalse (by rintro ⟨_, h, -⟩; cases h)

theorem attended_handover :
    broker.EachState System.Attended (.init oneSlot 0 0) handover :=
  (attended_iff_not_abandoned oneSlot 0 0 handover rfl).2 (by decide)

/-- The entry at the front of the deque has lost its handler. -/
def Core.Stalled (c : Core) (f : QueueEntry) : Prop :=
  c.deque.head? = some f ∧ ∃ h, c.handlers.get? f.requestId = some h ∧ h.phase = .killed

theorem Act.granted_front (ha : Act env c rid v evs v') (hv : Placed rid v)
    (hev : .granted rid' ∈ evs) :
    ∃ f w, c.deque.head? = some f ∧ c.handlers.get? f.requestId = some w ∧
      w.phase.isWaiting = true := by
  obtain hq | h | ⟨-, hfront⟩ | ⟨_, _, h, -⟩ := ha.events hv hev
  · cases hq
  · cases h
  · exact hfront
  · cases h

theorem Act.of_killed (ha : Act env c rid v evs v') (hh : v.handler = some h)
    (hp : h.phase = .killed) :
    evs = [.granted rid] ∨ v'.handler = some h ∧ v'.entry = v.entry := by
  cases ha with
  | accept => cases hh
  | enter => cases hh
  | grant => exact .inl rfl
  | take hp' => cases hh; rw [hp] at hp'; cases hp'
  | drop hp' => cases hh; rw [hp] at hp'; cases hp'
  | settle hst hp' => cases hh; rw [hp] at hp'; cases hp'
  | cancel => exact .inr ⟨hh, rfl⟩
  | kill hl hst hp' => cases hh; rw [hp] at hp'; rcases hp' with h | h <;> cases h

theorem Touches.head (ht : Touches rid c c') (hf : c.deque.head? = some f)
    (hk : rid = f.requestId → findEntry c'.deque rid = some f) (hc : DistinctIds c.deque) :
    c'.deque.head? = some f := by
  obtain ⟨rest, hrest⟩ : ∃ rest, c.deque = f :: rest := by
    cases hd : c.deque with
    | nil => rw [hd] at hf; cases hf
    | cons a rest => rw [hd] at hf; cases hf; exact ⟨rest, rfl⟩
  obtain hd | hd | ⟨e, -, -, hd⟩ := ht.deque
  · rw [hd, hf]
  · by_cases hid : rid = f.requestId
    · have hfind := hk hid
      rw [hd, hc.findEntry_eraseP] at hfind
      cases hfind
    · rw [hd, hrest, List.eraseP_cons_of_neg (by simpa using Ne.symm hid)]
      rfl
  · rw [hd, hrest]
    rfl

theorem Move.stalled (hm : Move env c evs c') (hc : Coherent c) (hs : c.Stalled f) :
    c'.Stalled f ∧ ∀ rid, .granted rid ∉ evs := by
  obtain ⟨hf, h, hh, hp⟩ := hs
  cases hm with
  | refuse => exact ⟨⟨hf, h, hh, hp⟩, by simp⟩
  | note hq => exact ⟨⟨hf, h, hh, hp⟩, fun rid hev => nomatch hq _ hev⟩
  | @act rid c c' evs ht ha =>
    have hno : ∀ rid', .granted rid' ∉ evs := by
      intro rid' hev
      obtain ⟨f', w, hf', hw, hwait⟩ := ha.granted_front (hc.placed rid) hev
      cases hf.symm.trans hf'
      cases hh.symm.trans hw
      rw [hp] at hwait
      cases hwait
    refine ⟨?_, hno⟩
    by_cases hid : rid = f.requestId
    · subst hid
      obtain rfl | ⟨hh', he'⟩ := ha.of_killed hh hp
      · exact absurd (List.mem_singleton_self _) (hno _)
      · refine ⟨ht.head hf (fun _ => ?_) hc.distinct, h, hh', hp⟩
        exact he'.trans (hc.distinct.find_mem (List.mem_of_mem_head? hf))
    · refine ⟨ht.head hf (fun he => absurd he hid) hc.distinct, h, ?_, hp⟩
      exact (congrArg View.handler (ht.others _ (Ne.symm hid))).trans hh

/-- Once the front entry is abandoned, no request is granted in any continuation. -/
theorem exec_stalled (hc : Coherent (System.core s)) (hst : s.core.Stalled f)
    (hrun : broker.exec s ls = some (t, out)) (rid : RequestId) : .granted rid ∉ out := by
  have h := Machine.exec_history (h := []) (C := fun _ _ => True)
    (P := fun hist s => Coherent s.core ∧ s.core.Stalled f ∧ .granted rid ∉ hist) ?_
    ⟨hc, hst, nofun⟩ (Machine.eachStep_true _ _) hrun
  · exact h.2.2
  · intro hist s l s' out hp _ hs
    refine ⟨step_coherent hp.1 hs, ?_⟩
    refine (step_moves hp.1 hs).history
      (P := fun hist c => c.Stalled f ∧ .granted rid ∉ hist) ?_ hp.1 hp.2
    intro hist c evs c' hc hst hm
    obtain ⟨hst', hno⟩ := hm.stalled hc hst.1
    exact ⟨hst', fun hev => (List.mem_append.1 hev).elim hst.2 (hno rid)⟩

/-- Two requests wait, the first one loses its handler and then the slot becomes free. -/
def abandoned : List Label :=
  [.chat "a" (shortChat false), .chat "b" (shortChat false), .chat "c" (shortChat false),
    .kill "b", .adapter "a" .returned]

theorem abandoned_entry_stalls :
    ∃ s out, broker.exec (.init oneSlot 0 0) abandoned = some (s, out) ∧ ¬s.Attended ∧
      s.rt.activeJobs = 0 ∧ effectiveLimit s.cfg s.rt = 1 ∧ (s.queue.find "c").isSome = true ∧
      ∀ ls t out', broker.exec s ls = some (t, out') → .granted "c" ∉ out' := by
  refine ⟨_, _, rfl, ?_, by decide, by decide, by decide, fun ls t out' hrun => ?_⟩
  · intro h
    obtain ⟨_, hh, hp⟩ := h _ (List.mem_cons_self ..)
    cases hh
    cases hp
  · have hrun₀ : broker.exec (.init oneSlot 0 0) abandoned = some _ := rfl
    exact exec_stalled (exec_coherent (init_coherent oneSlot 0 0) hrun₀) ⟨rfl, _, rfl, rfl⟩ hrun "c"

end Whooshd
