import Whooshd.Library.Text
import Whooshd.Pressure
import Whooshd.Slots

namespace Whooshd.Bench
set_option autoImplicit true

/-- How a request of a band ends: `_run_one` turns an exception into a result. -/
inductive Outcome where
  | answered (statusCode : Int)
  | raised
  deriving DecidableEq, Repr

structure RequestBenchmarkResult where
  ok : Bool
  statusCode : Option Int
  deriving DecidableEq, Repr

def runOne : Outcome → RequestBenchmarkResult
  | .answered statusCode => ⟨decide (200 ≤ statusCode ∧ statusCode < 300), some statusCode⟩
  | .raised => ⟨false, none⟩

/-- The evidence of one band. No band is valid below one request at a time. -/
structure CapacityBand where
  concurrency : Int
  successful : Bool
  requestCount : Nat
  successCount : Nat
  overloadCount : Nat
  failureCount : Nat
  stuckCount : Nat
  valid : 1 ≤ concurrency
  deriving DecidableEq

def RequestBenchmarkResult.failed (r : RequestBenchmarkResult) : Bool :=
  match r.statusCode with
  | some statusCode => decide (500 ≤ statusCode ∧ statusCode < 600)
  | none => false

def RequestBenchmarkResult.stuck (r : RequestBenchmarkResult) : Bool :=
  !r.ok && r.statusCode.isNone

/-- `_summarise_band`. -/
def summariseBand (results : List RequestBenchmarkResult) (bandConcurrency : Int)
    (valid : 1 ≤ bandConcurrency) : CapacityBand :=
  let total := results.length
  let successCount := results.countP (·.ok)
  let failureCount := results.countP (·.failed)
  let overloadCount := results.countP (·.statusCode = some 429)
  let stuckCount := results.countP (·.stuck)
  { concurrency := bandConcurrency
    successful := stuckCount = 0 ∧ failureCount = 0 ∧ overloadCount = 0 ∧ successCount = total
    requestCount := total, successCount, overloadCount, failureCount, stuckCount, valid }

/-- A band that is to be run, with what its requests will do. -/
abbrev PlannedBand : Type := Int × List Outcome

/-- The loop over the bands. A semaphore below one raises or lets no request through. -/
def runBands : List PlannedBand → Option (List CapacityBand)
  | [] => some []
  | (concurrency, outcomes) :: plan =>
    if valid : 1 ≤ concurrency then
      let band := summariseBand (outcomes.map runOne) concurrency valid
      if 0 < band.stuckCount ∨ 0 < band.failureCount then some [band]
      else (runBands plan).map (band :: ·)
    else none

/-- `_recommend_concurrency`. -/
def recommendConcurrency (bands : List CapacityBand) : Int :=
  match (bands.filter fun b => b.successful && decide (1 ≤ b.concurrency)).maxOn?
      (·.concurrency) with
  | none => 1
  | some best => best.concurrency

/-- The arguments of the command and what it finds out about the host. -/
structure Args where
  model : String
  maxTokens : Int
  profileModelId : Option String
  runtime : String
  machineClass : Option String
  recommendedActiveConcurrency : Option Int
  hostMachineClass : String
  hostMemoryBytes : Option Int
  deriving DecidableEq, Repr

def Args.profile (args : Args) (recommended : Int) : CapacityProfile :=
  { modelId := Text.orElse args.profileModelId args.model
    runtime := args.runtime
    machineClass := Text.orElse args.machineClass args.hostMachineClass
    hostMemoryBytes := args.hostMemoryBytes
    recommendedActiveConcurrency := recommended }

/-- The profile passes its validation: its bounds on what the arguments give it. -/
def Args.valid (args : Args) : Bool :=
  0 ≤ args.maxTokens && args.hostMemoryBytes.all (0 ≤ ·)

/-- The profile that `_main_async` writes with its bands; `none` where it writes none. -/
def calibrate (args : Args) (plan : List PlannedBand) :
    Option (CapacityProfile × List CapacityBand) :=
  match runBands plan with
  | none => none
  | some bands =>
    let recommended := args.recommendedActiveConcurrency.getD (recommendConcurrency bands)
    match bands.find? (·.concurrency = recommended) with
    | none => none
    | some band =>
      if band.successful && args.valid then some (args.profile recommended, bands) else none

/-- Every request was answered with a success. -/
def Clean (outcomes : List Outcome) : Prop :=
  ∀ o ∈ outcomes, ∃ statusCode, o = .answered statusCode ∧ 200 ≤ statusCode ∧ statusCode < 300

/-- A request got no answer or a server error. -/
def Breaks (outcomes : List Outcome) : Prop :=
  ∃ o ∈ outcomes, o = .raised ∨
    ∃ statusCode, o = .answered statusCode ∧ 500 ≤ statusCode ∧ statusCode < 600

/-- The bands of the plan up to the first that breaks. -/
inductive Executed : List PlannedBand → List PlannedBand → Prop where
  | nil : Executed [] []
  | last (h : Breaks e.2) : Executed (e :: plan) [e]
  | next (h : ¬ Breaks e.2) (hrest : Executed plan ran) : Executed (e :: plan) (e :: ran)

/-- A band shows whether its requests all succeeded. -/
def Shows (e : PlannedBand) (b : CapacityBand) : Prop :=
  b.concurrency = e.1 ∧ (b.successful = true ↔ Clean e.2)

/-- The concurrency that a run of bands supports. -/
structure Recommended (args : Args) (ran : List PlannedBand) (c : Int) : Prop where
  asked : ∀ k, args.recommendedActiveConcurrency = some k → k = c
  /-- The first band that was run with it came out clean. -/
  tested : ∃ before outcomes after, ran = before ++ (c, outcomes) :: after ∧ Clean outcomes ∧
    ∀ e ∈ before, e.1 ≠ c
  highest : args.recommendedActiveConcurrency = none → ∀ e ∈ ran, Clean e.2 → e.1 ≤ c

theorem runOne_ok (o : Outcome) : (runOne o).ok = true ↔
    ∃ statusCode, o = .answered statusCode ∧ 200 ≤ statusCode ∧ statusCode < 300 := by
  cases o with
  | answered statusCode => simp [runOne]
  | raised => simp [runOne]

theorem runOne_counted (h : (runOne o).ok = true) :
    (runOne o).stuck = false ∧ (runOne o).failed = false ∧ (runOne o).statusCode ≠ some 429 := by
  obtain ⟨statusCode, rfl, hlow, hhigh⟩ := (runOne_ok o).mp h
  refine ⟨by simp [RequestBenchmarkResult.stuck, runOne], ?_, ?_⟩
  · simp only [RequestBenchmarkResult.failed, runOne, decide_eq_false_iff_not]
    omega
  · simp only [runOne, ne_eq, Option.some.injEq]
    omega

theorem summariseBand_shows (e : PlannedBand) (valid : 1 ≤ e.1) :
    Shows e (summariseBand (e.2.map runOne) e.1 valid) := by
  refine ⟨rfl, ?_⟩
  simp only [summariseBand, decide_eq_true_eq, List.countP_eq_zero, List.countP_eq_length,
    List.forall_mem_map]
  constructor
  · intro h o ho
    exact (runOne_ok o).mp (h.2.2.2 o ho)
  · intro h
    have hok : ∀ o ∈ e.2, (runOne o).ok = true := fun o ho => (runOne_ok o).mpr (h o ho)
    refine ⟨fun o ho => ?_, fun o ho => ?_, fun o ho => ?_, hok⟩
    · rw [(runOne_counted (hok o ho)).1]
      exact Bool.false_ne_true
    · rw [(runOne_counted (hok o ho)).2.1]
      exact Bool.false_ne_true
    · exact (runOne_counted (hok o ho)).2.2

theorem summariseBand_breaks (e : PlannedBand) (valid : 1 ≤ e.1) :
    (0 < (summariseBand (e.2.map runOne) e.1 valid).stuckCount ∨
      0 < (summariseBand (e.2.map runOne) e.1 valid).failureCount) ↔ Breaks e.2 := by
  have hstuck : ∀ o, (runOne o).stuck = true ↔ o = .raised := by
    intro o
    cases o with
    | answered statusCode => simp [runOne, RequestBenchmarkResult.stuck]
    | raised => simp [runOne, RequestBenchmarkResult.stuck]
  have hfailed : ∀ o, (runOne o).failed = true ↔
      ∃ statusCode, o = .answered statusCode ∧ 500 ≤ statusCode ∧ statusCode < 600 := by
    intro o
    cases o with
    | answered statusCode => simp [runOne, RequestBenchmarkResult.failed]
    | raised => simp [runOne, RequestBenchmarkResult.failed]
  simp only [summariseBand, List.countP_map, List.countP_pos_iff, Function.comp_apply, hstuck,
    hfailed, Breaks]
  rw [← exists_or]
  simp only [← and_or_left]

theorem runBands_of_executed (h : Executed plan ran) (hvalid : ∀ e ∈ ran, 1 ≤ e.1) :
    ∃ bands, runBands plan = some bands ∧ List.Forall₂ Shows ran bands := by
  induction h with
  | nil => exact ⟨[], rfl, .nil⟩
  | @last e plan hbreaks =>
    have hone := hvalid e (List.mem_singleton_self e)
    refine ⟨_, ?_, .cons (summariseBand_shows e hone) .nil⟩
    rw [runBands, dif_pos hone, if_pos ((summariseBand_breaks e hone).mpr hbreaks)]
  | @next e plan ran hbreaks hrest ih =>
    have hone := hvalid e (List.mem_cons_self ..)
    obtain ⟨bands, hbands, hshows⟩ := ih fun e' he' => hvalid e' (List.mem_cons_of_mem _ he')
    refine ⟨_, ?_, .cons (summariseBand_shows e hone) hshows⟩
    rw [runBands, dif_pos hone, if_neg (mt (summariseBand_breaks e hone).mp hbreaks), hbands]
    rfl

theorem executed_of_runBands (h : runBands plan = some bands) :
    ∃ ran, Executed plan ran ∧ (∀ e ∈ ran, 1 ≤ e.1) ∧ List.Forall₂ Shows ran bands := by
  induction plan generalizing bands with
  | nil =>
    cases h
    exact ⟨[], .nil, by simp, .nil⟩
  | cons e plan ih =>
    rw [runBands] at h
    split at h
    · next hone =>
      dsimp only at h
      split at h
      · next hbreaks =>
        cases h
        refine ⟨[e], .last ((summariseBand_breaks e hone).mp hbreaks), ?_,
          .cons (summariseBand_shows e hone) .nil⟩
        intro e' he'
        rwa [List.mem_singleton.mp he']
      · next hbreaks =>
        obtain ⟨rest, hrest, rfl⟩ := Option.map_eq_some_iff.mp h
        obtain ⟨ran, hran, hvalid, hshows⟩ := ih hrest
        refine ⟨e :: ran, .next (mt (summariseBand_breaks e hone).mpr hbreaks) hran, ?_,
          .cons (summariseBand_shows e hone) hshows⟩
        intro e' he'
        rcases List.mem_cons.mp he' with rfl | he'
        · exact hone
        · exact hvalid e' he'
    · cases h

theorem Executed.subset (h : Executed plan ran) : ran ⊆ plan := by
  induction h with
  | nil => exact List.Subset.refl _
  | last => exact List.cons_subset_cons _ (List.nil_subset _)
  | next _ _ ih => exact List.cons_subset_cons _ ih

theorem exists_related {R : α → β → Prop} (h : List.Forall₂ R xs ys) (hx : x ∈ xs) :
    ∃ y ∈ ys, R x y := by
  induction h with
  | nil => cases hx
  | @cons x' y' xs ys hrelated _ ih =>
    rcases List.mem_cons.mp hx with rfl | hx
    · exact ⟨y', List.mem_cons_self .., hrelated⟩
    · obtain ⟨y, hy, hrelated⟩ := ih hx
      exact ⟨y, List.mem_cons_of_mem _ hy, hrelated⟩

theorem find?_successful_iff (h : List.Forall₂ Shows ran bands) (c : Int) :
    (∃ b, bands.find? (·.concurrency = c) = some b ∧ b.successful = true) ↔
      ∃ before outcomes after, ran = before ++ (c, outcomes) :: after ∧ Clean outcomes ∧
        ∀ e ∈ before, e.1 ≠ c := by
  induction h with
  | nil => simp
  | @cons e b ran bands hshows _ ih =>
    obtain ⟨hconcurrency, hsuccessful⟩ := hshows
    by_cases hc : e.1 = c
    · have hfound : (b :: bands).find? (fun b => decide (b.concurrency = c)) = some b := by
        simp [hconcurrency, hc]
      rw [hfound]
      constructor
      · rintro ⟨_, hb, hok⟩
        cases hb
        exact ⟨[], e.2, ran, by rw [← hc]; rfl, hsuccessful.mp hok, by simp⟩
      · rintro ⟨before, outcomes, after, hran, hclean, hbefore⟩
        cases before with
        | nil =>
          cases hran
          exact ⟨b, rfl, hsuccessful.mpr hclean⟩
        | cons e' before =>
          cases hran
          exact absurd hc (hbefore e (List.mem_cons_self ..))
    · have hpassed : (b :: bands).find? (fun b => decide (b.concurrency = c)) =
          bands.find? (fun b => decide (b.concurrency = c)) := by
        simp [hconcurrency, hc]
      rw [hpassed, ih]
      constructor
      · rintro ⟨before, outcomes, after, rfl, hclean, hbefore⟩
        refine ⟨e :: before, outcomes, after, rfl, hclean, ?_⟩
        intro e' he'
        rcases List.mem_cons.mp he' with rfl | he'
        · exact hc
        · exact hbefore e' he'
      · rintro ⟨before, outcomes, after, hran, hclean, hbefore⟩
        cases before with
        | nil =>
          cases hran
          exact absurd rfl hc
        | cons e' before =>
          cases hran
          exact ⟨before, outcomes, after, rfl, hclean,
            fun e' he' => hbefore e' (List.mem_cons_of_mem _ he')⟩

/-- Where some band with the concurrency is clean, it is recommended if no clean one is above. -/
theorem recommendConcurrency_eq_iff (h : List.Forall₂ Shows ran bands) (he : e ∈ ran)
    (hclean : Clean e.2) :
    recommendConcurrency bands = e.1 ↔ ∀ e' ∈ ran, Clean e'.2 → e'.1 ≤ e.1 := by
  have hkept : ∀ e' ∈ ran, Clean e'.2 →
      ∃ b ∈ bands.filter fun b => b.successful && decide (1 ≤ b.concurrency),
        b.concurrency = e'.1 := by
    intro e' he' hclean'
    obtain ⟨b, hb, hconcurrency, hsuccessful⟩ := exists_related h he'
    refine ⟨b, List.mem_filter.mpr ⟨hb, ?_⟩, hconcurrency⟩
    rw [hsuccessful.mpr hclean', decide_eq_true b.valid]
    rfl
  obtain ⟨b, hb, hbe⟩ := hkept e he hclean
  unfold recommendConcurrency
  split
  · next hnone =>
    have hsome := List.isSome_maxOn?_of_mem (f := (·.concurrency)) hb
    rw [hnone] at hsome
    cases hsome
  · next best hbest =>
    have hmem := List.mem_filter.mp (List.maxOn?_mem hbest)
    have hhighest : ∀ e' ∈ ran, Clean e'.2 → e'.1 ≤ best.concurrency := by
      intro e' he' hclean'
      obtain ⟨b', hb', heq⟩ := hkept e' he' hclean'
      rw [← heq]
      have hle := List.le_apply_get_maxOn?_of_mem (f := (·.concurrency)) hb'
      simp only [hbest, Option.get_some] at hle
      exact hle
    constructor
    · intro heq
      rwa [heq] at hhighest
    · intro hall
      obtain ⟨e', he', hconcurrency, hsuccessful⟩ := exists_related (List.Forall₂.flip h) hmem.1
      apply Int.le_antisymm
      · rw [hconcurrency]
        exact hall e' he' (hsuccessful.mp (Bool.and_eq_true_iff.mp hmem.2).1)
      · exact hhighest e he hclean

theorem calibrate_eq_some_iff : calibrate args plan = some (profile, bands) ↔
    runBands plan = some bands ∧ ∃ c b,
      args.recommendedActiveConcurrency.getD (recommendConcurrency bands) = c ∧
        (bands.find? (·.concurrency = c) = some b ∧ b.successful = true) ∧
          args.valid = true ∧ args.profile c = profile := by
  unfold calibrate
  cases hbands : runBands plan with
  | none => simp
  | some ran =>
    dsimp only
    constructor
    · intro h
      split at h
      · cases h
      · next b hb =>
        split at h
        · next hok =>
          cases h
          rw [Bool.and_eq_true] at hok
          exact ⟨rfl, _, b, rfl, ⟨hb, hok.1⟩, hok.2, rfl⟩
        · cases h
    · rintro ⟨hran, c, b, rfl, ⟨hb, hok⟩, hvalid, rfl⟩
      cases hran
      rw [hb]
      exact if_pos (Bool.and_eq_true_iff.mpr ⟨hok, hvalid⟩)

theorem Args.profile_injective (args : Args) (h : args.profile c = args.profile c') : c = c' :=
  congrArg CapacityProfile.recommendedActiveConcurrency h

/-- What a profile stands for: the bands were valid as far as they were run, its concurrency is
that of a clean band, the highest one unless the operator has asked for another, and the arguments
are in bounds. -/
theorem calibrate_iff (args : Args) (plan : List PlannedBand) (c : Int) :
    (∃ bands, calibrate args plan = some (args.profile c, bands)) ↔
      args.valid = true ∧
        ∃ ran, Executed plan ran ∧ (∀ e ∈ ran, 1 ≤ e.1) ∧ Recommended args ran c := by
  simp only [calibrate_eq_some_iff]
  constructor
  · rintro ⟨bands, hbands, c', b, hc, hfound, hargs, hprofile⟩
    obtain rfl := args.profile_injective hprofile
    obtain ⟨ran, hran, hvalid, hshows⟩ := executed_of_runBands hbands
    have htested := (find?_successful_iff hshows c').mp ⟨b, hfound⟩
    refine ⟨hargs, ran, hran, hvalid, ?_, htested, ?_⟩
    · intro k hk
      rwa [hk] at hc
    · intro hnone
      obtain ⟨before, outcomes, after, rfl, hclean, -⟩ := htested
      rw [hnone] at hc
      exact (recommendConcurrency_eq_iff hshows (List.mem_append_right _ (List.mem_cons_self ..))
        hclean).mp hc
  · rintro ⟨hargs, ran, hran, hvalid, hrecommended⟩
    obtain ⟨bands, hbands, hshows⟩ := runBands_of_executed hran hvalid
    obtain ⟨b, hfound⟩ := (find?_successful_iff hshows c).mpr hrecommended.tested
    refine ⟨bands, hbands, c, b, ?_, hfound, hargs, rfl⟩
    cases hasked : args.recommendedActiveConcurrency with
    | some k => exact hrecommended.asked k hasked
    | none =>
      obtain ⟨before, outcomes, after, rfl, hclean, -⟩ := hrecommended.tested
      exact (recommendConcurrency_eq_iff hshows (List.mem_append_right _ (List.mem_cons_self ..))
        hclean).mpr (hrecommended.highest hasked)

/-- A controller that has loaded the profile and lets it count. -/
structure Adopts (profile : CapacityProfile) (cfg : Settings) : Prop where
  loaded : cfg.capacityProfile = some profile
  mode : cfg.capacityMode = .adaptive
  eligible : cfg.profileStatus.2.1 = true

theorem Adopts.limit_le (hwritten : calibrate args plan = some (profile, bands)) :
    ∃ e ∈ plan, Clean e.2 ∧
      ∀ cfg p, Adopts profile cfg → Settings.effectiveActiveLimit cfg p ≤ e.1 := by
  obtain ⟨hbands, c, b, -, hfound, -, rfl⟩ := calibrate_eq_some_iff.mp hwritten
  obtain ⟨ran, hran, hvalid, hshows⟩ := executed_of_runBands hbands
  obtain ⟨before, outcomes, after, hsplit, hclean, -⟩ :=
    (find?_successful_iff hshows c).mp ⟨b, hfound⟩
  have hmem : (c, outcomes) ∈ ran := by
    rw [hsplit]
    exact List.mem_append_right _ (List.mem_cons_self ..)
  refine ⟨(c, outcomes), hran.subset hmem, hclean, fun cfg p h => ?_⟩
  have hcalibrated : cfg.calibrated = some c :=
    Settings.calibrated_of_eligible h.loaded h.mode h.eligible
  exact Settings.effectiveActiveLimit_le hcalibrated (hvalid _ hmem) p

/-- A broker that adopts the profile has in no state of any run more active jobs than a band was
run with, and every request of that band succeeded. -/
theorem adopted_limit (args : Args) (plan : List PlannedBand) (bands : List CapacityBand)
    (profile : CapacityProfile) (hwritten : calibrate args plan = some (profile, bands)) :
    ∃ e ∈ plan, Clean e.2 ∧ ∀ cfg mono wall ls,
      broker.EachState (fun s => Adopts profile s.cfg) (.init cfg mono wall) ls →
        broker.EachState (fun s => (s.rt.activeJobs : Int) ≤ e.1) (.init cfg mono wall) ls := by
  obtain ⟨e, he, hclean, hlimit⟩ := Adopts.limit_le hwritten
  refine ⟨e, he, hclean, fun cfg mono wall ls hadopts => ?_⟩
  have hjobs := eachState_activeJobs (hadopts.imp fun s h => hlimit s.cfg _ h)
  exact hjobs.imp fun s h => h.2

/-- A run over three bands, the last of which meets a server error. -/
def bandPlan : List PlannedBand :=
  [(1, [.answered 200]), (2, [.answered 200, .answered 200]), (4, [.answered 200, .answered 503])]

def stubArgs : Args :=
  { model := "stub-model", maxTokens := 64, profileModelId := none, runtime := "stub"
    machineClass := none, recommendedActiveConcurrency := none, hostMachineClass := "linux-x86_64"
    hostMemoryBytes := none }

theorem adopted_limit_stub :
    ∃ e ∈ bandPlan, Clean e.2 ∧ ∀ cfg mono wall ls,
      broker.EachState (fun s => Adopts (stubArgs.profile 2) s.cfg) (.init cfg mono wall) ls →
        broker.EachState (fun s => (s.rt.activeJobs : Int) ≤ e.1) (.init cfg mono wall) ls :=
  adopted_limit stubArgs bandPlan _ (stubArgs.profile 2) rfl

def stubSettings : Settings :=
  { Settings.defaults with
    maxActiveRequests := 8, capacityMode := .adaptive
    capacityProfile := some (stubArgs.profile 2), capacityModelId := some "stub-model"
    capacityRuntime := some "stub", capacityMachineClass := some "linux-x86_64" }

example : Adopts (stubArgs.profile 2) stubSettings ∧
    stubSettings.effectiveActiveLimit .normal = 2 := ⟨⟨rfl, rfl, rfl⟩, rfl⟩

end Whooshd.Bench
