import Whooshd.Refinement
import Mathlib.Order.Nat

namespace Whooshd
set_option autoImplicit true

/-- Every arrival is resolved with the ceiling that its lane has once and for all. -/
def Label.DeclaredBy (m : Lane → Option Int) (l : Label) : Prop :=
  ∀ res, l.resolution = some res → ∀ lane, res.lane = some lane → res.laneMaxConcurrent = m lane

instance (m : Lane → Option Int) (l : Label) : Decidable (l.DeclaredBy m) :=
  decidable_of_iff (l.resolution.all fun res =>
      res.lane.all fun lane => res.laneMaxConcurrent = m lane)
    (by simp [Label.DeclaredBy, Option.all_eq_true])

/-- A lane and a ceiling that agree with the declared ceilings. -/
def Ceiled (m : Lane → Option Int) (lane : Option Lane) (ceiling : Option Int) : Prop :=
  ∀ l, lane = some l → ceiling = m l

/-- Every lane is within its ceiling, and every entry of the deque carries its lane's. -/
structure LanesBounded (m : Lane → Option Int) (c : Core) : Prop where
  lane : ∀ l k, l ≠ "" → m l = some k → (c.occupancy (fun lane => lane = some l) : Int) ≤ max k 1
  entries : ∀ rid e, (c.view rid).entry = some e → Ceiled m e.lane e.laneMaxConcurrent

theorem slots_record_le (r : RequestRecord) (hd : Option Handler) (p : Option Lane → Bool) :
    View.slots ⟨some r, none, hd, none⟩ p ≤ if p r.lane then 1 else 0 := by
  simp only [View.slots, Dict.weight_some, Dict.weight_none, Nat.add_zero, Bool.and_eq_true]
  split
  · next h => rw [if_pos h.2]
  · exact Nat.zero_le _

/-- A transition takes a further slot only of a lane in which there is room. -/
theorem Act.slots_le (ha : Act env c rid v evs v') (hv : Placed rid v)
    (p : Option Lane → Bool) :
    v'.slots p ≤ v.slots p ∨
      ∃ lane ceiling, Room env c lane ceiling ∧ p lane = true ∧ v'.slots p ≤ v.slots p + 1 ∧
        (env.label.Declares lane ceiling ∨
          ∃ e, v.entry = some e ∧ e.lane = lane ∧ e.laneMaxConcurrent = ceiling) := by
  cases ha with
  | @accept ceiling r h evs hl hroom hs =>
    have hle := slots_record_le r (some h) p
    by_cases hp : p r.lane = true
    · rw [if_pos hp] at hle
      exact .inr ⟨_, _, hroom, hp, by omega, .inl hl⟩
    · rw [if_neg hp] at hle
      exact .inl (by omega)
  | enter hchat hl hst hroom hr hs hc hm hg hp =>
    left
    simp [View.slots, hs, RequestLifecycleState.isActive]
  | @grant r h e hx hroom hfront =>
    by_cases hp : p e.lane = true
    · refine .inr ⟨_, _, hroom, hp, ?_, .inr ⟨e, rfl, rfl, rfl⟩⟩
      simp [View.slots, hp]
    · left
      simp [View.slots, hp]
  | @take e r' h' evs r v h e₀ hp hg hx hs hc hn he hlane hst =>
    left
    have hle := slots_record_le r' (some h') p
    rw [hlane] at hle
    cases hv with
    | granted hw hv hc' hp' =>
      rcases hc' with hc' | hsome
      · rw [hc] at hc'; cases hc'
      · obtain ⟨l, rfl⟩ := Option.isSome_iff_exists.1 hsome
        obtain rfl := hv l rfl
        apply hle.trans
        simp [View.slots]
    | serving hr hp' => rw [hp] at hp'; cases hp'
    | done hr hs hp' => rcases hp' with hp' | hp' <;> rw [hp] at hp' <;> cases hp'
  | drop hp hx hr ht hf hp' hq =>
    left
    simp [View.slots, terminal_not_active ht]
  | settle hst hp hs hq =>
    left
    rcases hs with ⟨rfl, -⟩ | ⟨-, ht, -⟩
    · exact Nat.le_refl _
    · simp [View.slots, terminal_not_active ht]
  | cancel hl hst hn hr hlane hs hc hq =>
    left
    simp [View.slots, hs, RequestLifecycleState.isActive]
  | kill => exact .inl (Nat.le_refl _)

theorem Act.ceiled (ha : Act env c rid v evs v') (hm : env.label.DeclaredBy m)
    (h : ∀ e, v.entry = some e → Ceiled m e.lane e.laneMaxConcurrent) :
    ∀ e, v'.entry = some e → Ceiled m e.lane e.laneMaxConcurrent := by
  cases ha with
  | enter hchat hl =>
    rintro e he l hlane
    cases he
    obtain ⟨res, hres, hl', hc⟩ := hl
    rw [← hc]
    exact hm res hres l (hl'.trans hlane)
  | cancel => exact h
  | kill => exact h
  | accept | grant | take | drop | settle =>
    intro e he
    cases he

theorem Move.occupancy_le (hmv : Move env c evs c') (hc : Coherent c) (hL : env.limit ≤ L)
    (h : (c.occupancy (fun _ => true) : Int) ≤ L) : (c'.occupancy (fun _ => true) : Int) ≤ L := by
  cases hmv with
  | refuse => exact h
  | note => exact h
  | @act rid c c' evs ht ha =>
    have hocc := ht.occupancy (fun _ => true)
    rcases ha.slots_le (hc.placed rid) (fun _ => true) with hle | ⟨_, _, hroom, -, hle, -⟩
    · omega
    · have := hroom.global
      omega

theorem Move.lanesBounded (hmv : Move env c evs c') (hc : Coherent c)
    (hm : env.label.DeclaredBy m) (h : LanesBounded m c) : LanesBounded m c' := by
  have hentries := hmv.views (P := fun _ v => ∀ e, v.entry = some e →
    Ceiled m e.lane e.laneMaxConcurrent) (fun ha _ hv => ha.ceiled hm hv) h.entries
  cases hmv with
  | refuse => exact h
  | note => exact h
  | @act rid c c' evs ht ha =>
    refine ⟨fun l k hne hk => ?_, hentries⟩
    have hocc := ht.occupancy (fun lane => lane = some l)
    have hlane := h.lane l k hne hk
    rcases ha.slots_le (hc.placed rid) (fun lane => lane = some l) with
      hle | ⟨lane, ceiling, hroom, hp, hle, hsrc⟩
    · omega
    · obtain rfl : lane = some l := of_decide_eq_true hp
      have hceil : ceiling = m l := by
        rcases hsrc with ⟨res, hres, hl, rfl⟩ | ⟨e, he, hl, rfl⟩
        · exact hm res hres l hl
        · exact h.entries rid e he l hl
      have := hroom.lane l k rfl hne (hceil.trans hk)
      omega

theorem step_activeJobs {s : System} (hc : Coherent s.core) (hL : effectiveLimit s.cfg s.rt ≤ L)
    (h : (s.rt.activeJobs : Int) ≤ L) (hs : broker.step s l = some (s', out)) :
    (s'.rt.activeJobs : Int) ≤ L := by
  rw [← System.core_activeJobs] at h ⊢
  exact (step_moves hc hs).invariant (fun hc h hmv => hmv.occupancy_le hc hL h) hc h

theorem step_lanesBounded {s : System} (hc : Coherent s.core) (hm : l.DeclaredBy m)
    (h : LanesBounded m s.core) (hs : broker.step s l = some (s', out)) :
    LanesBounded m s'.core :=
  (step_moves hc hs).invariant (fun hc hb hmv => hmv.lanesBounded hc hm hb) hc h

theorem init_lanesBounded (m : Lane → Option Int) :
    LanesBounded m (System.init cfg mono wall).core :=
  ⟨fun _ k _ _ => show (0 : Int) ≤ max k 1 by omega, nofun⟩

theorem LanesBounded.activeJobsForLane (h : LanesBounded m (System.core s)) (hk : m l = some k) :
    (s.rt.activeJobsForLane (some l) : Int) ≤ max k 1 := by
  by_cases hl : l = ""
  · subst hl
    show (0 : Int) ≤ max k 1
    omega
  · rw [← s.core_activeJobsForLane hl]
    exact h.lane l k hl hk

/-- What the limit never exceeds along a run, the active jobs do not exceed either. -/
theorem eachState_activeJobs
    (hL : broker.EachState (fun s => effectiveLimit s.cfg s.rt ≤ L) (.init cfg mono wall) ls) :
    broker.EachState (fun s => Coherent s.core ∧ (s.rt.activeJobs : Int) ≤ L)
      (.init cfg mono wall) ls := by
  have hpos : 1 ≤ L := Int.le_trans (Settings.effectiveActiveLimit_pos cfg _) hL.head
  apply Machine.eachState_of_step _
    ⟨init_coherent cfg mono wall, show (0 : Int) ≤ L by omega⟩ hL.eachStep
  intro s l s' out hp hl hs
  exact ⟨step_coherent hp.1 hs, step_activeJobs hp.1 hl hp.2 hs⟩

/-- Under a constant limit and constant lane ceilings, no interleaving overbooks either. -/
theorem active_jobs_le_limit (cfg : Settings) (mono wall : Time) (ls : List Label) (L : Int)
    (hL : broker.EachState (fun s => effectiveLimit s.cfg s.rt = L) (.init cfg mono wall) ls)
    (m : Lane → Option Int) (hm : ∀ l ∈ ls, l.DeclaredBy m)
    (hrun : broker.exec (.init cfg mono wall) ls = some (s, out)) :
    (s.rt.activeJobs : Int) ≤ L ∧
      ∀ l k, m l = some k → (s.rt.activeJobsForLane (some l) : Int) ≤ max k 1 := by
  have hjobs := (eachState_activeJobs (hL.imp fun _ => Int.le_of_eq)).last hrun
  have hlanes := Machine.exec_invariant (P := fun s => Coherent s.core ∧ LanesBounded m s.core)
    (fun hp hm hs => ⟨step_coherent hp.1 hs, step_lanesBounded hp.1 hm hp.2 hs⟩)
    ⟨init_coherent cfg mono wall, init_lanesBounded m⟩ (Machine.eachStep_of_mem hm _) hrun
  exact ⟨hjobs.2, fun l k hk => hlanes.2.activeJobsForLane hk⟩

/-- A queueing broker that runs one request at a time. -/
def oneSlot : Settings := { Settings.defaults with enableQueue := true, maxActiveRequests := 1 }

/-- A short text request for a lane that serves one request at a time. -/
def shortChat (stream : Bool) : ChatArrival :=
  { request :=
      { model := "m", stream, upstreamRequestId := none, messageCount := 1, promptChars := 2
        maxTokens := none, totalTokens := 4, overLimit := false, hasImage := false
        fieldsSupported := true }
    resolution := some ⟨some "mlx", some 1, true, false⟩
    bridge := .miss, cacheReady := false }

/-- A request runs, a second one queues, the first returns and the second takes its slot. -/
def handover : List Label :=
  [.chat "a" (shortChat false), .chat "b" (shortChat true), .resume "b", .adapter "a" .returned,
    .resume "b"]

theorem active_jobs_le_limit_handover :
    ∃ s out, broker.exec (.init oneSlot 0 0) handover = some (s, out) ∧
      s.rt.activeJobs = 1 ∧ s.rt.activeJobsForLane (some "mlx") = 1 ∧
      ((s.rt.activeJobs : Int) ≤ 1 ∧
        ∀ l k, (if l = "mlx" then some 1 else none : Option Int) = some k →
          (s.rt.activeJobsForLane (some l) : Int) ≤ max k 1) := by
  refine ⟨_, _, rfl, by decide, by decide, ?_⟩
  exact active_jobs_le_limit oneSlot 0 0 handover 1 (by decide) _ (by decide) rfl

end Whooshd
