import Whooshd.CapacityGates
import Whooshd.Pressure

namespace Whooshd
set_option autoImplicit true

/-- The second bound, where there is one, is at least the first. -/
def Raises (bound bound' : Option Int) : Prop :=
  ∀ k', bound' = some k' → ∃ k, bound = some k ∧ k ≤ k'

/-- The second configuration allows whatever the first one does. -/
structure Settings.Loosens (cfg cfg' : Settings) : Prop where
  maxActiveRequests : cfg.maxActiveRequests ≤ cfg'.maxActiveRequests
  calibrated : Raises cfg.calibrated cfg'.calibrated
  memoryPressureDeny : cfg'.memoryPressureDeny = true → cfg.memoryPressureDeny = true
  enableQueue : cfg.enableQueue = true → cfg'.enableQueue = true
  maxQueueDepth : cfg.maxQueueDepth ≤ cfg'.maxQueueDepth
  maxMessages : cfg.maxMessages ≤ cfg'.maxMessages
  maxPromptChars : cfg.maxPromptChars ≤ cfg'.maxPromptChars
  maxRequestMaxTokens : cfg.maxRequestMaxTokens ≤ cfg'.maxRequestMaxTokens

/-- The second runtime is at most as busy, under the same pressure. -/
structure RuntimeState.Relieves (rt rt' : RuntimeState) (lane : Option Lane) : Prop where
  activeJobs : rt'.activeJobs ≤ rt.activeJobs
  activeJobsForLane : rt'.activeJobsForLane lane ≤ rt.activeJobsForLane lane
  queueDepth : rt'.queueDepth ≤ rt.queueDepth
  memoryPressure : memoryPressureFromRuntime rt' = memoryPressureFromRuntime rt

/-- Run at once, queued, refused. -/
def AdmissionResult.rank (result : AdmissionResult) : Nat :=
  match result.reason with
  | .accepted => 0
  | .queued => 1
  | .rejectedOverloaded | .rejectedQueueFull | .rejectedPromptTooLarge | .rejectedTooManyMessages
  | .rejectedMaxTokensTooHigh | .rejectedModelNotReady | .rejectedContextOverflow => 2

theorem AdmissionResult.rank_le (result : AdmissionResult) : result.rank ≤ 2 := by
  unfold rank
  split
  all_goals decide

namespace Settings.Loosens

variable {cfg cfg' : Settings} {rt rt' : RuntimeState}

theorem operatorCeiling (h : cfg.Loosens cfg') : cfg.operatorCeiling ≤ cfg'.operatorCeiling := by
  have hle := h.maxActiveRequests
  simp only [Settings.operatorCeiling]
  omega

theorem withinLimits (h : cfg.Loosens cfg') (hreq : ChatRequest.WithinLimits cfg req) :
    ChatRequest.WithinLimits cfg' req :=
  ⟨Int.le_trans hreq.1 h.maxMessages, Int.le_trans hreq.2.1 h.maxPromptChars,
    fun k hk => Int.le_trans (hreq.2.2 k hk) h.maxRequestMaxTokens⟩

theorem effectiveActiveLimit (h : cfg.Loosens cfg') (p : MemoryPressureClass) :
    cfg.effectiveActiveLimit p ≤ cfg'.effectiveActiveLimit p := by
  have hceiling := h.operatorCeiling
  have hpos := cfg.operatorCeiling_pos
  rw [effectiveActiveLimit_eq, effectiveActiveLimit_eq]
  cases hcalibrated' : cfg'.calibrated with
  | none =>
    -- without a profile the limit is the ceiling, which no calibrated limit exceeds
    have hlimit : ∀ c : Int, max (min cfg.operatorCeiling c) 1 ≤ cfg'.operatorCeiling := by
      intro c
      omega
    cases cfg.calibrated with
    | none => exact hceiling
    | some c =>
      dsimp only
      split
      · have := hlimit c
        omega
      · exact hlimit c
  | some c' =>
    obtain ⟨c, hc, hle⟩ := h.calibrated c' hcalibrated'
    rw [hc]
    dsimp only
    split
    · split
      · omega
      · omega
    · next hfree =>
      rw [if_neg]
      · omega
      · intro hdeny
        exact hfree ⟨h.memoryPressureDeny hdeny.1, hdeny.2⟩

theorem free (h : cfg.Loosens cfg') (hrt : rt.Relieves rt' lane) (hm : Raises m m')
    {req : ChatRequest}
    (hfree : (rt.activeJobs : Int) < effectiveLimit cfg rt ∧
      laneAvailable (capacityContext cfg rt req lane m) = true) :
    (rt'.activeJobs : Int) < effectiveLimit cfg' rt' ∧
      laneAvailable (capacityContext cfg' rt' req lane m') = true := by
  obtain ⟨hglobal, hlane⟩ := hfree
  have hactive := hrt.activeJobs
  have hlaneActive := hrt.activeJobsForLane
  constructor
  · have hlimit := h.effectiveActiveLimit (memoryPressureFromRuntime rt)
    rw [effectiveLimit, hrt.memoryPressure]
    rw [effectiveLimit] at hglobal
    omega
  · rw [laneAvailable_iff] at hlane ⊢
    intro k' hk'
    obtain ⟨k, hk, hle⟩ := hm k' hk'
    have hbelow := hlane k hk
    omega

theorem action (h : cfg.Loosens cfg') (hrt : rt.Relieves rt' lane) (hm : Raises m m')
    (req : ChatRequest) :
    (cfg'.evaluate (capacityContext cfg' rt' req lane m')).action.rank ≤
      (cfg.evaluate (capacityContext cfg rt req lane m)).action.rank := by
  have hrank : ∀ (cfg : Settings) (rt : RuntimeState) (m : Option Int),
      (cfg.evaluate (capacityContext cfg rt req lane m)).action.rank =
        if req.overLimit = true ∨ true = false then 2
        else if (rt.activeJobs : Int) < effectiveLimit cfg rt ∧
            laneAvailable (capacityContext cfg rt req lane m) = true then
          if cfg.memoryPressureDeny = true ∧ memoryPressureFromRuntime rt = .high ∧
              effectiveLimit cfg rt ≤ (rt.activeJobs : Int) + 1 then 1 else 0
        else if (rt.queueDepth : Int) < cfg.maxQueueDepth then 1 else 2 :=
    fun cfg rt m => action_rank cfg (capacityContext cfg rt req lane m) _
  rw [hrank, hrank]
  by_cases hover : req.overLimit = true ∨ true = false
  · simp only [if_pos hover, Nat.le_refl]
  rw [if_neg hover, if_neg hover]
  by_cases hfree : (rt.activeJobs : Int) < effectiveLimit cfg rt ∧
      laneAvailable (capacityContext cfg rt req lane m) = true
  · rw [if_pos hfree, if_pos (h.free hrt hm hfree)]
    -- the last slot is held back in the looser state only if it was held back in the tighter one
    by_cases hheld : cfg'.memoryPressureDeny = true ∧ memoryPressureFromRuntime rt' = .high ∧
        effectiveLimit cfg' rt' ≤ (rt'.activeJobs : Int) + 1
    · have hlast : effectiveLimit cfg rt ≤ (rt.activeJobs : Int) + 1 := by
        have hlimit := h.effectiveActiveLimit (memoryPressureFromRuntime rt)
        have hactive := hrt.activeJobs
        have hlast' := hheld.2.2
        rw [effectiveLimit, hrt.memoryPressure] at hlast'
        rw [effectiveLimit]
        omega
      have hheld' : cfg.memoryPressureDeny = true ∧ memoryPressureFromRuntime rt = .high ∧
          effectiveLimit cfg rt ≤ (rt.activeJobs : Int) + 1 :=
        ⟨h.memoryPressureDeny hheld.1, hrt.memoryPressure.symm.trans hheld.2.1, hlast⟩
      simp only [if_pos hheld, if_pos hheld', Nat.le_refl]
    · rw [if_neg hheld]
      exact Nat.zero_le _
  · rw [if_neg hfree]
    by_cases hroom : (rt.queueDepth : Int) < cfg.maxQueueDepth
    · have hroom' : (rt'.queueDepth : Int) < cfg'.maxQueueDepth := by
        have hdepth := hrt.queueDepth
        have hmax := h.maxQueueDepth
        omega
      rw [if_pos hroom, if_pos hroom']
      split
      · split
        · exact Nat.le_refl 1
        · exact Nat.zero_le 1
      · exact Nat.le_refl 1
    · rw [if_neg hroom]
      split
      · split
        · exact Nat.le_succ 1
        · exact Nat.zero_le 2
      · split
        · exact Nat.le_succ 1
        · exact Nat.le_refl 2

end Settings.Loosens

theorem admitByCapacity_rank (cfg : Settings) (rt : RuntimeState) (req : ChatRequest)
    (lane : Option Lane) (m : Option Int) :
    (admitByCapacity cfg rt req lane m).rank =
      match (cfg.evaluate (capacityContext cfg rt req lane m)).action with
      | .run => 0
      | .queue => if cfg.enableQueue = true then 1 else 2
      | .reject => 2 := by
  simp only [admitByCapacity]
  cases (cfg.evaluate (capacityContext cfg rt req lane m)).action with
  | run => rfl
  | queue =>
    dsimp only
    split
    · rfl
    · rfl
  | reject =>
    dsimp only
    split
    · rfl
    · split
      · rfl
      · rfl

/-- A request that breaks a limit of the configuration is refused. -/
theorem evaluateChatRequest_rank (h : ¬ ChatRequest.WithinLimits cfg req) :
    (evaluateChatRequest cfg rt req lane m).rank = 2 := by
  simp only [evaluateChatRequest]
  split
  · rfl
  · next hmessages =>
    split
    · rfl
    · next hchars =>
      have htokens : ∃ k, req.maxTokens = some k ∧ k > cfg.maxRequestMaxTokens := by
        by_contra hnone
        apply h
        refine ⟨by omega, by omega, fun k hk => ?_⟩
        by_contra hlarge
        exact hnone ⟨k, hk, by omega⟩
      obtain ⟨k, hk, hlarge⟩ := htokens
      simp only [hk]
      rw [if_pos hlarge]
      rfl

/-- A request that is run is still run when the configuration is looser and the runtime less busy,
and one that is queued is not refused. -/
theorem evaluateChatRequest_loosened (cfg cfg' : Settings) (rt rt' : RuntimeState)
    (req : ChatRequest) (lane : Option Lane) (m m' : Option Int) (h : cfg.Loosens cfg')
    (hrt : rt.Relieves rt' lane) (hm : Raises m m') :
    (evaluateChatRequest cfg' rt' req lane m').rank ≤
      (evaluateChatRequest cfg rt req lane m).rank := by
  by_cases hlimits : ChatRequest.WithinLimits cfg req
  · have haction := h.action hrt hm req
    rw [hlimits.capacity, (h.withinLimits hlimits).capacity, admitByCapacity_rank,
      admitByCapacity_rank]
    generalize (cfg'.evaluate (capacityContext cfg' rt' req lane m')).action = answer' at haction
    generalize (cfg.evaluate (capacityContext cfg rt req lane m)).action = answer at haction
    cases answer with
    | run =>
      cases answer' with
      | run => exact Nat.le_refl 0
      | queue => cases haction
      | reject => cases haction
    | queue =>
      cases answer' with
      | run => exact Nat.zero_le _
      | queue =>
        by_cases hqueue : cfg.enableQueue = true
        · simp only [if_pos hqueue, if_pos (h.enableQueue hqueue), Nat.le_refl]
        · simp only [if_neg hqueue]
          split
          · exact Nat.le_succ 1
          · exact Nat.le_refl 2
      | reject => exact absurd haction (by decide)
    | reject =>
      cases answer' with
      | run => exact Nat.zero_le 2
      | queue =>
        dsimp only
        split
        · exact Nat.le_succ 1
        · exact Nat.le_refl 2
      | reject => exact Nat.le_refl 2
  · rw [evaluateChatRequest_rank hlimits]
    exact AdmissionResult.rank_le _

/-- The pressed host with its one slot taken. -/
def busyHost : RuntimeState := pressedHost.reserveCapacity "r" (some "mlx")

theorem evaluateChatRequest_loosened_idle :
    (evaluateChatRequest Settings.defaults pressedHost oneMessage (some "mlx") (some 2)).rank ≤
      (evaluateChatRequest onlyOne busyHost oneMessage (some "mlx") (some 1)).rank := by
  apply evaluateChatRequest_loosened
  · refine ⟨by decide, ?_, id, id, by decide, by decide, by decide, by decide⟩
    intro k' hk'
    cases hk'
  · exact ⟨by decide, by decide, by decide, rfl⟩
  · intro k' hk'
    cases hk'
    exact ⟨1, rfl, by decide⟩

end Whooshd
