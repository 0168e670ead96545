import Whooshd.Admission

namespace Whooshd
set_option autoImplicit true

/-- The checks that `evaluate_chat_request` makes before it asks the controller. -/
def ChatRequest.WithinLimits (cfg : Settings) (req : ChatRequest) : Prop :=
  (req.messageCount : Int) ≤ cfg.maxMessages ∧ (req.promptChars : Int) ≤ cfg.maxPromptChars ∧
    ∀ k, req.maxTokens = some k → k ≤ cfg.maxRequestMaxTokens

/-- The last free slot of the global budget, on a lane with room, under high pressure that
the configuration denies on. -/
def LastSlotHeldBack (cfg : Settings) (rt : RuntimeState) (lane : Option Lane)
    (laneMaxConcurrent : Option Int) : Prop :=
  cfg.memoryPressureDeny = true ∧ memoryPressureFromRuntime rt = .high ∧
    (rt.activeJobs : Int) + 1 = effectiveLimit cfg rt ∧
    ∀ m, laneMaxConcurrent = some m → (rt.activeJobsForLane lane : Int) < max m 1

/-- The queue's gate and the controller answer alike, and an identical new request is run
at once exactly when a queued one would be granted. -/
def GatesAgree (cfg : Settings) (rt : RuntimeState) (req : ChatRequest) (lane : Option Lane)
    (laneMaxConcurrent : Option Int) : Prop :=
  (activeCapacityAvailable cfg rt lane laneMaxConcurrent = true ↔
      (cfg.evaluate (capacityContext cfg rt req lane laneMaxConcurrent)).action = .run) ∧
    (req.WithinLimits cfg → (activeCapacityAvailable cfg rt lane laneMaxConcurrent = true ↔
      (evaluateChatRequest cfg rt req lane laneMaxConcurrent).reason = .accepted))

theorem laneAvailable_iff (cfg : Settings) (req : ChatRequest) :
    Settings.laneAvailable (capacityContext cfg rt req lane m) = true ↔
      ∀ k, m = some k → (rt.activeJobsForLane lane : Int) < max k 1 := by
  cases m with
  | none => simp [Settings.laneAvailable, capacityContext]
  | some k =>
    simp only [Settings.laneAvailable, capacityContext, Option.some.injEq, forall_eq']
    exact decide_eq_true_iff

theorem activeCapacityAvailable_iff :
    activeCapacityAvailable cfg rt lane m = true ↔
      (rt.activeJobs : Int) < effectiveLimit cfg rt ∧
        ∀ k, m = some k → (rt.activeJobsForLane lane : Int) < max k 1 := by
  constructor
  · intro h
    have hg := activeCapacityAvailable_global h
    cases m with
    | none => exact ⟨hg, by simp⟩
    | some k =>
      cases lane with
      | none =>
        apply And.intro hg
        intro j _
        simp only [RuntimeState.activeJobsForLane]
        omega
      | some l =>
        apply And.intro hg
        rintro j ⟨⟩
        exact activeCapacityAvailable_lane h
  · rintro ⟨hg, hl⟩
    simp only [activeCapacityAvailable]
    rw [if_neg (by omega)]
    split
    · next k l =>
      have hk := hl k rfl
      simp [hk]
    · rfl

/-- With no budget breached, the controller runs a request exactly when both budgets have
room and high pressure does not hold the slot back. -/
theorem evaluate_run_iff (hb : req.overLimit = false) :
    (cfg.evaluate (capacityContext cfg rt req lane m)).action = .run ↔
      activeCapacityAvailable cfg rt lane m = true ∧
        cfg.pressureOverride (capacityContext cfg rt req lane m) (effectiveLimit cfg rt) =
          false := by
  rw [evaluate_action, activeCapacityAvailable_iff, ← laneAvailable_iff cfg req]
  constructor
  · intro h
    obtain ⟨hg, hl⟩ := Settings.verdict_run h
    apply And.intro ⟨hg, hl⟩
    simp only [Settings.verdict, hg, hl, and_self, if_true] at h
    split at h
    · cases h
    · split at h
      · cases h
      · split at h
        · cases h
        · next hp => simpa [effectiveLimit, capacityContext] using hp
  · rintro ⟨⟨hg, hl⟩, hp⟩
    have hg' : ((capacityContext cfg rt req lane m).activeJobs : Int) <
        cfg.effectiveActiveLimit (capacityContext cfg rt req lane m).memoryPressure := hg
    have hp' : cfg.pressureOverride (capacityContext cfg rt req lane m)
        (cfg.effectiveActiveLimit (capacityContext cfg rt req lane m).memoryPressure) = false := hp
    have ho : (capacityContext cfg rt req lane m).overLimit = false := hb
    have hr : (capacityContext cfg rt req lane m).runtimeReady = true := rfl
    simp only [Settings.verdict, ho, hr, hg', hl, hp', and_self, if_true]
    cases cfg.calibrated <;> rfl

theorem admitByCapacity_accepted_iff :
    (admitByCapacity cfg rt req lane m).reason = .accepted ↔
      (cfg.evaluate (capacityContext cfg rt req lane m)).action = .run := by
  simp only [admitByCapacity]
  split
  · next h => simp [h]
  · next h =>
    split
    · simp [h, contextOverflowResult]
    · split <;> simp [h]
  · next h => split <;> simp [h]

theorem ChatRequest.WithinLimits.capacity (h : ChatRequest.WithinLimits cfg req) :
    evaluateChatRequest cfg rt req lane m = admitByCapacity cfg rt req lane m := by
  obtain ⟨hn, hc, hk⟩ := h
  simp only [evaluateChatRequest]
  rw [if_neg (by omega), if_neg (by omega)]
  split
  · next k he =>
    have := hk k he
    rw [if_neg (by omega)]
  · rfl

theorem gatesAgree_iff (cfg : Settings) (rt : RuntimeState) (req : ChatRequest)
    (lane : Option Lane) (m : Option Int) (hb : req.overLimit = false) :
    GatesAgree cfg rt req lane m ↔ ¬ LastSlotHeldBack cfg rt lane m := by
  have hover : cfg.pressureOverride (capacityContext cfg rt req lane m)
      (effectiveLimit cfg rt) = true ↔ cfg.memoryPressureDeny = true ∧
        memoryPressureFromRuntime rt = .high ∧
          effectiveLimit cfg rt ≤ (rt.activeJobs : Int) + 1 := by
    simp only [Settings.pressureOverride, capacityContext, Bool.and_eq_true, and_assoc]
    exact and_congr_right' (and_congr decide_eq_true_iff decide_eq_true_iff)
  have hgate : (activeCapacityAvailable cfg rt lane m = true ↔
      (cfg.evaluate (capacityContext cfg rt req lane m)).action = .run) ↔
        ¬ LastSlotHeldBack cfg rt lane m := by
    rw [evaluate_run_iff hb]
    constructor
    · rintro h ⟨hd, hh, hs, hl⟩
      have hav : activeCapacityAvailable cfg rt lane m = true :=
        activeCapacityAvailable_iff.mpr ⟨by omega, hl⟩
      have hov := hover.mpr ⟨hd, hh, by omega⟩
      rw [(h.mp hav).2] at hov
      cases hov
    · intro h
      apply Iff.intro _ And.left
      intro hav
      apply And.intro hav
      obtain ⟨hg, hl⟩ := activeCapacityAvailable_iff.mp hav
      rw [← Bool.not_eq_true, hover]
      rintro ⟨hd, hh, hs⟩
      exact h ⟨hd, hh, by omega, hl⟩
  constructor
  · intro h
    exact hgate.mp h.1
  · intro h
    apply And.intro (hgate.mpr h)
    intro hw
    rw [hw.capacity, admitByCapacity_accepted_iff]
    exact hgate.mpr h

def oneMessage : ChatRequest :=
  { model := "m", stream := false, upstreamRequestId := none, messageCount := 1, promptChars := 2
    maxTokens := none, totalTokens := 4, overLimit := false, hasImage := false
    fieldsSupported := true }

theorem gatesAgree_idle :
    oneMessage.overLimit = false ∧
      GatesAgree Settings.defaults RuntimeState.init oneMessage (some "mlx") (some 1) := by
  apply And.intro rfl
  apply (gatesAgree_iff _ _ _ _ _ rfl).mpr
  rintro ⟨-, hh, -⟩
  cases hh

def onlyOne : Settings := { Settings.defaults with maxActiveRequests := 1 }

/-- The host reports high pressure and no request is active. -/
def pressedHost : RuntimeState := { RuntimeState.init with memoryPressure := .text "high" }

theorem gates_disagree_last_slot :
    oneMessage.overLimit = false ∧
      activeCapacityAvailable onlyOne pressedHost (some "mlx") (some 1) = true ∧
      (onlyOne.evaluate (capacityContext onlyOne pressedHost oneMessage (some "mlx")
        (some 1))).action = .queue ∧
      ¬ GatesAgree onlyOne pressedHost oneMessage (some "mlx") (some 1) := by
  have ha : activeCapacityAvailable onlyOne pressedHost (some "mlx") (some 1) = true := by
    decide +kernel
  have hq : (onlyOne.evaluate (capacityContext onlyOne pressedHost oneMessage (some "mlx")
      (some 1))).action = .queue := by decide +kernel
  apply And.intro rfl
  apply And.intro ha
  apply And.intro hq
  intro h
  rw [h.1.mp ha] at hq
  cases hq

end Whooshd
