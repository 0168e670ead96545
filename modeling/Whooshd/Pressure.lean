import Whooshd.Capacity

namespace Whooshd
set_option autoImplicit true

/-- The classes that no rule tells apart share the lowest rank. -/
def MemoryPressureClass.rank : MemoryPressureClass → Nat
  | unknown => 0
  | normal => 0
  | elevated => 0
  | high => 1
  | critical => 2

def CapacityAction.rank : CapacityAction → Nat
  | run => 0
  | queue => 1
  | reject => 2

/-- A higher class of pressure never lets more in. -/
def PressureMonotone (cfg : Settings) (ctx : CapacityContext) : Prop :=
  ∀ p q : MemoryPressureClass, p.rank < q.rank →
    (cfg.evaluate { ctx with memoryPressure := p }).action.rank ≤
        (cfg.evaluate { ctx with memoryPressure := q }).action.rank ∧
      cfg.effectiveActiveLimit q ≤ cfg.effectiveActiveLimit p

/-- The limit under pressure that the configuration denies on: the calibrated one is halved. -/
def Settings.pressedLimit (cfg : Settings) : Int :=
  match cfg.calibrated with
  | some c => max (min cfg.operatorCeiling c / 2) 1
  | none => cfg.operatorCeiling

/-- Under high pressure the request would be held back from the last slot. -/
def LastSlotPressed (cfg : Settings) (ctx : CapacityContext) : Prop :=
  cfg.memoryPressureDeny = true ∧ ctx.overLimit = false ∧ ctx.runtimeReady = true ∧
    Settings.laneAvailable ctx = true ∧ (ctx.activeJobs : Int) + 1 = cfg.pressedLimit

namespace Settings

theorem effectiveActiveLimit_eq (cfg : Settings) (p : MemoryPressureClass) :
    cfg.effectiveActiveLimit p = match cfg.calibrated with
      | some c =>
        if cfg.memoryPressureDeny = true ∧ 0 < p.rank then max (min cfg.operatorCeiling c / 2) 1
        else max (min cfg.operatorCeiling c) 1
      | none => cfg.operatorCeiling := by
  have hrank : (p = .high ∨ p = .critical) ↔ 0 < p.rank := by
    cases p with
    | unknown => decide
    | normal => decide
    | elevated => decide
    | high => decide
    | critical => decide
  unfold effectiveActiveLimit calibrated
  cases cfg.capacityMode with
  | fixed => rfl
  | adaptive =>
    obtain ⟨profile, eligible, reason⟩ := cfg.profileStatus
    cases profile with
    | none => rfl
    | some profile =>
      cases eligible with
      | false => rfl
      | true =>
        simp only [hrank]
        by_cases hdeny : cfg.memoryPressureDeny = true ∧ 0 < p.rank
        · rw [if_pos hdeny]
          split
          · omega
          · next hone =>
            have hlimit : min cfg.operatorCeiling profile.recommendedActiveConcurrency ≤ 1 := by
              by_contra hlarge
              exact hone ⟨hdeny.1, hdeny.2, by omega⟩
            omega
        · rw [if_neg hdeny, if_neg]
          rintro ⟨h₁, h₂, -⟩
          exact hdeny ⟨h₁, h₂⟩

theorem calibrated_of_eligible {cfg : Settings} (hprofile : cfg.capacityProfile = some profile)
    (hmode : cfg.capacityMode = .adaptive) (heligible : cfg.profileStatus.2.1 = true) :
    cfg.calibrated = some profile.recommendedActiveConcurrency := by
  have hloaded : cfg.profileStatus.1 = some profile := by
    simp only [profileStatus, hprofile]
    repeat' split
    all_goals rfl
  rcases hstatus : cfg.profileStatus with ⟨loaded, eligible, reason⟩
  rw [hstatus] at hloaded heligible
  dsimp only at hloaded heligible
  subst hloaded heligible
  simp only [calibrated, hmode, hstatus]

theorem effectiveActiveLimit_le {cfg : Settings} (h : cfg.calibrated = some c) (hc : 1 ≤ c)
    (p : MemoryPressureClass) : cfg.effectiveActiveLimit p ≤ c := by
  rw [effectiveActiveLimit_eq, h]
  dsimp only
  split
  · omega
  · omega

theorem effectiveActiveLimit_antitone (cfg : Settings) {p q : MemoryPressureClass}
    (h : p.rank < q.rank) : cfg.effectiveActiveLimit q ≤ cfg.effectiveActiveLimit p := by
  rw [effectiveActiveLimit_eq, effectiveActiveLimit_eq]
  cases cfg.calibrated with
  | none => exact Int.le_refl _
  | some c =>
    have hq : 0 < q.rank := by omega
    by_cases hdeny : cfg.memoryPressureDeny = true
    · simp only [hdeny, hq, and_self, if_true]
      split
      · exact Int.le_refl _
      · omega
    · have hnot : ∀ r, ¬(cfg.memoryPressureDeny = true ∧ 0 < r) := fun r h => hdeny h.1
      simp only [hnot, if_false, Int.le_refl]

theorem effectiveActiveLimit_critical (cfg : Settings) :
    cfg.effectiveActiveLimit .critical = cfg.effectiveActiveLimit .high := by
  rw [effectiveActiveLimit_eq, effectiveActiveLimit_eq]
  cases cfg.calibrated with
  | none => rfl
  | some c => simp [MemoryPressureClass.rank]

theorem effectiveActiveLimit_high (h : memoryPressureDeny cfg = true) :
    cfg.effectiveActiveLimit .high = cfg.pressedLimit := by
  rw [effectiveActiveLimit_eq, pressedLimit]
  cases cfg.calibrated with
  | none => rfl
  | some c => exact if_pos ⟨h, by decide⟩

/-- What the controller answers under a class of pressure, by what it asks in turn. -/
theorem action_rank (cfg : Settings) (ctx : CapacityContext) (p : MemoryPressureClass) :
    (cfg.evaluate { ctx with memoryPressure := p }).action.rank =
      if ctx.overLimit = true ∨ ctx.runtimeReady = false then 2
      else if (ctx.activeJobs : Int) < cfg.effectiveActiveLimit p ∧ laneAvailable ctx = true then
        if cfg.memoryPressureDeny = true ∧ p = .high ∧
            cfg.effectiveActiveLimit p ≤ (ctx.activeJobs : Int) + 1 then 1 else 0
      else if (ctx.queueDepth : Int) < ctx.maxQueueDepth then 1 else 2 := by
  have haction : (cfg.evaluate { ctx with memoryPressure := p }).action =
      (cfg.verdict { ctx with memoryPressure := p }).1 := rfl
  have hlane : laneAvailable { ctx with memoryPressure := p } = laneAvailable ctx := rfl
  rw [haction, verdict, hlane]
  cases ctx.overLimit with
  | true => rfl
  | false =>
    cases ctx.runtimeReady with
    | false => rfl
    | true =>
      simp only [Bool.false_eq_true, Bool.true_eq_false, or_self, if_false, pressureOverride,
        Bool.and_eq_true, decide_eq_true_eq, and_assoc]
      split
      · split
        · rfl
        · cases cfg.calibrated with
          | none => rfl
          | some c => rfl
      · by_cases hroom : (ctx.queueDepth : Int) < ctx.maxQueueDepth
        · simp only [hroom, decide_true, if_true, Bool.true_eq_false, if_false]
          split
          · rfl
          · cases cfg.calibrated with
            | none => rfl
            | some c => rfl
        · simp only [hroom, decide_false, if_false, if_true]
          split
          · rfl
          · rfl

theorem action_rank_le (cfg : Settings) (ctx : CapacityContext) {p q : MemoryPressureClass}
    (hpq : p.rank < q.rank) (h : ¬ LastSlotPressed cfg ctx) :
    (cfg.evaluate { ctx with memoryPressure := p }).action.rank ≤
      (cfg.evaluate { ctx with memoryPressure := q }).action.rank := by
  have hlimit := cfg.effectiveActiveLimit_antitone hpq
  rw [action_rank, action_rank]
  by_cases hclosed : ctx.overLimit = true ∨ ctx.runtimeReady = false
  · simp only [if_pos hclosed, Nat.le_refl]
  · rw [if_neg hclosed, if_neg hclosed]
    rw [not_or, Bool.not_eq_true, Bool.not_eq_false] at hclosed
    by_cases hq : (ctx.activeJobs : Int) < cfg.effectiveActiveLimit q ∧ laneAvailable ctx = true
    · have hp : (ctx.activeJobs : Int) < cfg.effectiveActiveLimit p ∧ laneAvailable ctx = true :=
        ⟨by omega, hq.2⟩
      rw [if_pos hp, if_neg]
      · exact Nat.zero_le _
      · rintro ⟨hdeny, rfl, hlast⟩
        apply h
        refine ⟨hdeny, hclosed.1, hclosed.2, hq.2, ?_⟩
        rw [← effectiveActiveLimit_high hdeny]
        exact Int.le_antisymm hp.1 hlast
    · rw [if_neg hq]
      have hroom : 1 ≤ if (ctx.queueDepth : Int) < ctx.maxQueueDepth then 1 else 2 := by
        split
        · exact Nat.le_refl 1
        · exact Nat.le_succ 1
      split
      · split
        · exact hroom
        · exact Nat.zero_le _
      · exact Nat.le_refl _

end Settings

/-- The controller is monotone in the pressure exactly when the request is not the one that
high pressure holds back from the last slot. -/
theorem pressureMonotone_iff (cfg : Settings) (ctx : CapacityContext) :
    PressureMonotone cfg ctx ↔ ¬ LastSlotPressed cfg ctx := by
  constructor
  · rintro h ⟨hdeny, hover, hready, hlane, hlast⟩
    have hhigh := Settings.effectiveActiveLimit_high hdeny
    have hcritical := cfg.effectiveActiveLimit_critical.trans hhigh
    have hopen : ¬ (ctx.overLimit = true ∨ ctx.runtimeReady = false) := by simp [hover, hready]
    have hfree : (ctx.activeJobs : Int) < cfg.pressedLimit ∧ Settings.laneAvailable ctx = true :=
      ⟨by omega, hlane⟩
    have hheld : cfg.memoryPressureDeny = true ∧ MemoryPressureClass.high = .high ∧
        cfg.pressedLimit ≤ (ctx.activeJobs : Int) + 1 := ⟨hdeny, rfl, by omega⟩
    have hrank := (h .high .critical (by decide)).1
    rw [Settings.action_rank, Settings.action_rank, if_neg hopen, if_neg hopen, hhigh, hcritical,
      if_pos hfree, if_pos hfree, if_pos hheld, if_neg (by simp)] at hrank
    exact absurd hrank (by decide)
  · intro h p q hpq
    exact ⟨cfg.action_rank_le ctx hpq h, cfg.effectiveActiveLimit_antitone hpq⟩

/-- One slot, nothing active: the request waits under high pressure and runs under critical. -/
theorem critical_pressure_runs :
    ¬ PressureMonotone { Settings.defaults with maxActiveRequests := 1 }
      { activeJobs := 0, queueDepth := 0, maxQueueDepth := 8, runtimeReady := true
        memoryPressure := .normal, overLimit := false, lane := none, laneMaxConcurrent := none
        laneActiveJobs := 0 } := by
  intro h
  exact absurd (h .high .critical (by decide)).1 (by decide)

end Whooshd
