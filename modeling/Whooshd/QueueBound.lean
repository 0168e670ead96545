import Whooshd.Slots

namespace Whooshd
set_option autoImplicit true

theorem Placed.requestId (hv : Placed rid v) (hr : v.record = some r) : r.requestId = rid := by
  cases hv with
  | absent => cases hr
  | queued hw => cases hr; exact hw.1
  | granted hw => cases hr; exact hw.1
  | serving hw => cases hr; exact hw.1
  | done hid => cases hr; exact hid

theorem Placed.entry_of_queued (hv : Placed rid v) (hr : v.record = some r)
    (hs : r.status = .queued) (hres : v.reservation = none) : ∃ e, v.entry = some e := by
  cases hv with
  | absent => cases hr
  | queued => exact ⟨_, rfl⟩
  | granted hw _ hcan =>
    cases hr
    obtain ⟨-, ⟨-, hf⟩ | ⟨hs', -⟩⟩ := hw
    · rcases hcan with hcan | hcan
      · rw [hf] at hcan
        cases hcan
      · simp only at hres
        rw [hres] at hcan
        cases hcan
    · rw [hs] at hs'
      cases hs'
  | serving hw =>
    cases hr
    obtain ⟨-, ⟨ha, -⟩ | ⟨hs', -⟩⟩ := hw
    · rw [hs] at ha
      cases ha
    · rw [hs] at hs'
      cases hs'
  | done _ hs' => cases hr; exact absurd hs hs'

/-- The lifecycle records never show more waiting requests than the deque holds. -/
theorem Coherent.queueDepth_le (hc : Coherent c) : c.queueDepth ≤ c.deque.length := by
  have hlen : (c.deque.map (·.requestId)).length = c.deque.length := List.length_map _
  rw [← hlen]
  apply Dict.count_le_length
  intro rid r hr hp
  simp only [Bool.and_eq_true, decide_eq_true_eq, Bool.not_eq_true'] at hp
  obtain rfl := (hc.placed rid).requestId hr
  have hres : c.reservations.get? r.requestId = none := by simpa [Dict.contains] using hp.2
  obtain ⟨e, he⟩ := (hc.placed r.requestId).entry_of_queued hr hp.1 hres
  obtain ⟨hm, hid⟩ := findEntry_some he
  exact List.mem_map.2 ⟨e, hm, hid⟩

/-- They show every request in the deque that was not cancelled there. -/
theorem Coherent.length_le_queueDepth (hc : Coherent c)
    (hn : ∀ e ∈ c.deque, c.cancelled e.requestId = false) : c.deque.length ≤ c.queueDepth := by
  have hlen : (c.deque.map (·.requestId)).length = c.deque.length := List.length_map _
  rw [← hlen]
  apply Dict.length_le_count hc.distinct
  intro rid hrid
  obtain ⟨e, he, rfl⟩ := List.mem_map.1 hrid
  obtain ⟨r, h, hv, hw, -⟩ := (hc.placed e.requestId).of_entry (hc.distinct.find_mem he)
  have hr : c.requests.get? e.requestId = some r := congrArg View.record hv
  have hres : c.reservations.get? e.requestId = none := congrArg View.reservation hv
  refine ⟨r, hr, ?_⟩
  have hcan := hn e he
  simp only [Core.cancelled, hr, Option.any_some] at hcan
  obtain ⟨hid, ⟨hs, -⟩ | ⟨-, hc'⟩⟩ := hw
  · simp [hs, hid, Dict.contains, hres]
  · rw [hcan] at hc'
    cases hc'

theorem Move.deque_length (hm : Move env c evs c') :
    c'.deque.length ≤ c.deque.length ∨
      (∃ rid a, env.label = .chat rid a) ∧ c = env.start ∧
        ((c.queueDepth : Int) < env.depth ∨ env.held) ∧
        c'.deque.length = c.deque.length + 1 := by
  cases hm with
  | refuse => exact .inl (Nat.le_refl _)
  | note => exact .inl (Nat.le_refl _)
  | @act rid c c' evs ht ha =>
    obtain hd | hd | ⟨e, hid, hn, hd⟩ := ht.deque
    · exact .inl (by rw [hd])
    · exact .inl (by rw [hd]; exact List.length_eraseP_le)
    · right
      have he : (c.view rid).entry = none := hn
      have he' : (c'.view rid).entry = some e := by
        show findEntry c'.deque rid = some e
        rw [hd, findEntry_append, hn, if_pos hid, Option.none_or]
      generalize c.view rid = v at ha he
      generalize c'.view rid = v' at ha he'
      cases ha with
      | enter hchat hl hst hroom => exact ⟨⟨rid, hchat⟩, hst, hroom, by rw [hd]; simp⟩
      | grant => cases he
      | cancel => rw [show _ = none from he] at he'; cases he'
      | kill => rw [show _ = none from he] at he'; cases he'
      | accept | take | drop | settle => cases he'

/-- A chat request arrives at a full queue while an entry in it was cancelled, or while memory
pressure holds requests back. -/
def System.Overfills (s : System) (D : Int) (l : Label) : Prop :=
  (∃ rid a, l = .chat rid a) ∧ D ≤ (s.queue.deque.length : Int) ∧
    ((∃ e ∈ s.queue.deque, s.rt.tokenCancelled e.requestId = true) ∨ s.Held l)

theorem step_queue_bounded {s : System} (hc : Coherent s.core) (hD : s.cfg.maxQueueDepth = D)
    (hn : ¬s.Overfills D l) (h : (s.queue.deque.length : Int) ≤ D)
    (hs : broker.step s l = some (s', out)) : (s'.queue.deque.length : Int) ≤ D := by
  apply (step_moves hc hs).invariant (P := fun c => (c.deque.length : Int) ≤ D) _ hc h
  intro c evs c' hc hle hm
  obtain hlen | ⟨hchat, rfl, hroom, hlen⟩ := hm.deque_length
  · omega
  · rw [hlen]
    by_contra hfull
    replace hfull : D ≤ (s.queue.deque.length : Int) := by
      have : (s.core.deque.length : Int) = s.queue.deque.length := rfl
      change ¬(((s.core.deque.length + 1 : Nat) : Int) ≤ D) at hfull
      omega
    have hno : ∀ e ∈ s.core.deque, s.core.cancelled e.requestId = false := by
      intro e he
      by_contra hcan
      rw [s.core_cancelled] at hcan
      exact hn ⟨hchat, hfull, .inl ⟨e, he, by simpa using hcan⟩⟩
    have hdepth := hc.length_le_queueDepth hno
    rcases hroom with hroom | hheld
    · change (s.core.queueDepth : Int) < s.cfg.maxQueueDepth at hroom
      change s.queue.deque.length ≤ s.core.queueDepth at hdepth
      omega
    · exact hn ⟨hchat, hfull, .inr hheld⟩

theorem step_queueFull {s : System} (hc : Coherent s.core)
    (hs : broker.step s l = some (s', out)) (hev : .answered none (.refused res) ∈ out)
    (hr : res.reason = .rejectedQueueFull) :
    s.cfg.maxQueueDepth ≤ (s.queue.deque.length : Int) := by
  have h := (step_moves hc hs).history (h := [])
    (P := fun hist _ => .answered none (.refused res) ∈ hist →
      s.cfg.maxQueueDepth ≤ (s.queue.deque.length : Int)) ?_ hc nofun
  · exact h (by simpa using hev)
  · intro hist c evs c' hc' ih hm hev
    rcases List.mem_append.1 hev with hev | hev
    · exact ih hev
    · cases hm with
      | refuse hst hf =>
        cases List.mem_singleton.1 hev
        have hfull := hf res rfl hr
        have hle := hc'.queueDepth_le
        subst hst
        exact Int.le_trans hfull (Int.ofNat_le.2 hle)
      | note hq => exact absurd (hq _ hev) nofun
      | act ht ha =>
        obtain hq | h | ⟨h, -⟩ | ⟨_, _, h, -⟩ := ha.events (hc'.placed _) hev
        · cases hq
        · cases h
        · cases h
        · cases h

/-- While the depth is constant and no chat request arrives at a full queue with a cancelled
entry in it or under the pressure override, the deque stays within the depth; and a request is
refused for a full queue only where the deque is full. -/
theorem queue_bounded (cfg : Settings) (mono wall : Time) (ls : List Label) (D : Int) (h₀ : 0 ≤ D)
    (hD : broker.EachState (fun s => s.cfg.maxQueueDepth = D) (.init cfg mono wall) ls)
    (hn : broker.EachStep (fun s l => ¬s.Overfills D l) (.init cfg mono wall) ls)
    (hrun : broker.exec (.init cfg mono wall) ls = some (s, out)) :
    (s.queue.deque.length : Int) ≤ D ∧
      ∀ l s' out' res, broker.step s l = some (s', out') → .answered none (.refused res) ∈ out' →
        res.reason = .rejectedQueueFull → D ≤ (s.queue.deque.length : Int) := by
  have hinv := Machine.exec_invariant
    (P := fun s => Coherent s.core ∧ (s.queue.deque.length : Int) ≤ D)
    (fun hp hc hs => ⟨step_coherent hp.1 hs, step_queue_bounded hp.1 hc.1 hc.2 hp.2 hs⟩)
    ⟨init_coherent cfg mono wall, h₀⟩ (hD.eachStep.and hn) hrun
  refine ⟨hinv.2, fun l s' out' res hs hev hr => ?_⟩
  rw [← hD.last hrun]
  exact step_queueFull hinv.1 hs hev hr

instance (s : System) (D : Int) (l : Label) : Decidable (s.Overfills D l) :=
  match l with
  | .chat rid a =>
    decidable_of_iff (D ≤ (s.queue.deque.length : Int) ∧
        ((∃ e ∈ s.queue.deque, s.rt.tokenCancelled e.requestId = true) ∨
          (a.resolution.any fun res => s.cfg.pressureOverride
            (capacityContext s.cfg s.rt a.request res.lane res.laneMaxConcurrent)
            (effectiveLimit s.cfg s.rt)) = true))
      (by simp [System.Overfills, System.Held, Option.any_eq_true])
  | .generate .. | .resume .. | .adapter .. | .body .. | .finalise .. | .cancel .. | .kill ..
  | .memoryPressure .. | .configure .. | .tick .. => .isFalse (by rintro ⟨⟨_, _, h⟩, -⟩; cases h)

theorem queue_bounded_handover :
    ∃ s out, broker.exec (.init oneSlot 0 0) handover = some (s, out) ∧
      (s.queue.deque.length : Int) ≤ 8 :=
  ⟨_, _, rfl, (queue_bounded oneSlot 0 0 handover 8 (by decide) (by decide) (by decide) rfl).1⟩

/-- With a depth of one, the waiting request is cancelled and the next one queues behind it. -/
def overfilled : List Label :=
  [.chat "a" (shortChat false), .chat "b" (shortChat false), .cancel "b",
    .chat "c" (shortChat false)]

theorem queue_overfilled :
    broker.EachState (fun s => s.cfg.maxQueueDepth = 1 ∧ s.cfg.enableQueue = true)
        (.init { oneSlot with maxQueueDepth := 1 } 0 0) overfilled ∧
      ∃ s out, broker.exec (.init { oneSlot with maxQueueDepth := 1 } 0 0) overfilled =
          some (s, out) ∧
        s.queue.deque.length = 2 :=
  ⟨by decide, _, _, rfl, by decide⟩

end Whooshd
