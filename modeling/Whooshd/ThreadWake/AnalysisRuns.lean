import Mathlib
import Whooshd.ThreadWake.Analysis

namespace Whooshd.ThreadWake
set_option autoImplicit true

/-- The artifact without its dates. -/
def SnapshotArtifact.undated (a : SnapshotArtifact) : SnapshotArtifact :=
  { a with createdAt := "", updatedAt := "", lastSeenAt := none }

/-- Both stores without their dates. -/
def AnalysisState.undated (state : AnalysisState) :
    Option (List (String × SnapshotArtifact)) × Option (List (String × SnapshotArtifact)) :=
  let undate (m : ArtifactMap) := m.entries.map fun p => (p.1, p.2.undated)
  (state.registry.map undate, state.rows.map undate)

/-- The artifact has left the first stage of its life. -/
def SnapshotArtifact.Advanced (a : SnapshotArtifact) : Prop :=
  ∃ status : SnapshotArtifactStatus, status ≠ .planned ∧ a.status = status.value

/-- What one of the stores holds under an id. -/
def AnalysisState.Holds (state : AnalysisState) (id : String) (a : SnapshotArtifact) : Prop :=
  state.registry.bind (·.get? id) = some a ∨ state.rows.bind (·.get? id) = some a

/-- No store moves an artifact back to the first stage. -/
structure NeverBack (state state' : AnalysisState) : Prop where
  registry : ∀ id a a', state.registry.bind (·.get? id) = some a → a.Advanced →
    state'.registry.bind (·.get? id) = some a' → a'.status ≠ SnapshotArtifactStatus.planned.value
  rows : ∀ id a a', state.rows.bind (·.get? id) = some a → a.Advanced →
    state'.rows.bind (·.get? id) = some a' → a'.status ≠ SnapshotArtifactStatus.planned.value

variable {σ : Type} [Zero σ] [Add σ] [Mul σ] [Neg σ] [IntCast σ] [OfScientific σ] [LT σ]
  [DecidableLT σ]

/-- The top candidates of a pass that the policy finds eligible. -/
def eligibleRecords (env : AnalysisEnv) (index : Option (List (IndexCandidate σ))) (limit : Int)
    (now : Instant) : List (CandidateReplayRecord σ) :=
  (index.elim [] fun entries => (analyzeIndex env entries limit).2).filter
    fun record => (evaluateCandidate env .default now record).eligible

/-- The id of the artifact that a candidate is planned as. -/
def CandidateReplayRecord.artifactId (env : AnalysisEnv) (record : CandidateReplayRecord σ) :
    String :=
  artifactIdFor env (manifestIdFor env record.prefixHash (record.backend.getD "")
    (record.modelId.getD "") (record.tokenizerHash.getD "") (record.chatTemplateHash.getD "") "1")

/-- The passes at some times, one after the other. -/
def analysisPasses (env : AnalysisEnv) (index : Option (List (IndexCandidate σ))) (limit : Int)
    (state : AnalysisState) (times : List Instant) : AnalysisState :=
  times.foldl (fun state now => (runAnalysis env index limit state now).1) state

/-- Later passes over the same index change nothing but dates, and no pass moves an artifact
back. -/
def AnalysisSteady (env : AnalysisEnv) (index : Option (List (IndexCandidate σ))) (limit : Int)
    (state : AnalysisState) (first : Instant) (later : List Instant) : Prop :=
  (analysisPasses env index limit state (first :: later)).undated =
      (analysisPasses env index limit state [first]).undated ∧
    (analysisLoop env index limit).EachStep
      (fun state now => NeverBack state (runAnalysis env index limit state now).1)
      state (first :: later)

/-- One registration, in both stores. -/
def AnalysisState.register (env : AnalysisEnv) (now : Instant) (state : AnalysisState)
    (artifact : SnapshotArtifact) : AnalysisState :=
  match state.registry with
  | none => state
  | some registry =>
    { registry := some (registerArtifact env now registry artifact)
      rows := state.rows.map (upsertSnapshotArtifact · artifact) }

/-- The artifact that a candidate is planned as. -/
def CandidateReplayRecord.artifact (env : AnalysisEnv) (now : Instant)
    (record : CandidateReplayRecord σ) : SnapshotArtifact :=
  { artifactId := record.artifactId env
    manifestId := manifestIdFor env record.prefixHash (record.backend.getD "")
      (record.modelId.getD "") (record.tokenizerHash.getD "") (record.chatTemplateHash.getD "") "1"
    prefixHash := record.prefixHash
    backend := record.backend
    modelId := record.modelId
    tokenizerHash := record.tokenizerHash
    chatTemplateHash := record.chatTemplateHash
    createdAt := env.isoformat now
    updatedAt := env.isoformat now }

omit [Add σ] [Mul σ] [Neg σ] [IntCast σ] [OfScientific σ] in
theorem evaluateCandidate_policyVersion (env : AnalysisEnv) (config : SnapshotPolicyConfig σ)
    (now : Instant) (record : CandidateReplayRecord σ) :
    (evaluateCandidate env config now record).policyVersion = "1" := by
  unfold evaluateCandidate
  dsimp only
  split_ifs <;> rfl

omit [Zero σ] [Add σ] [Mul σ] [Neg σ] [IntCast σ] [OfScientific σ] [LT σ] [DecidableLT σ] in
theorem buildFromReplayRecord_artifact (record : CandidateReplayRecord σ)
    {eligibility : SnapshotEligibility σ} (heligible : eligibility.eligible = true)
    (hversion : eligibility.policyVersion = "1") (env : AnalysisEnv) (now : Instant) :
    ∃ manifest, buildFromReplayRecord env record eligibility = some manifest ∧
      buildFromManifest env now manifest = record.artifact env now := by
  have hpresent : (present (some "1")).getD "1" = "1" := by decide
  rw [buildFromReplayRecord, if_neg (by simp [heligible]), hversion]
  simp only [hpresent]
  refine ⟨_, rfl, ?_⟩
  rw [buildFromManifest, hpresent]
  rfl

omit [Add σ] [Mul σ] [Neg σ] [IntCast σ] in
theorem analyzeRecord_state (env : AnalysisEnv) (now : Instant)
    (progress : AnalysisState × AnalysisLoopResult) (record : CandidateReplayRecord σ) :
    (analyzeRecord env now progress record).1 =
      if (evaluateCandidate env .default now record).eligible then
        progress.1.register env now (record.artifact env now)
      else progress.1 := by
  obtain ⟨state, result⟩ := progress
  cases heligible : (evaluateCandidate env .default now record).eligible with
  | false =>
    rw [analyzeRecord]
    simp only [heligible]
    rfl
  | true =>
    obtain ⟨manifest, hmanifest, hartifact⟩ := buildFromReplayRecord_artifact record
      heligible (evaluateCandidate_policyVersion env _ now record) env now
    rw [analyzeRecord, AnalysisState.register]
    simp only [heligible, hmanifest, hartifact, Bool.true_eq_false, if_false, if_true]
    cases state.registry <;> rfl

theorem runAnalysis_state (env : AnalysisEnv) (index : Option (List (IndexCandidate σ)))
    (limit : Int) (state : AnalysisState) (now : Instant) :
    (runAnalysis env index limit state now).1 =
      ((eligibleRecords env index limit now).map (·.artifact env now)).foldl
        (AnalysisState.register env now) state := by
  cases index with
  | none => rfl
  | some entries =>
    have hfold : ∀ (records : List (CandidateReplayRecord σ)) progress,
        (records.foldl (analyzeRecord env now) progress).1 =
          ((records.filter fun record =>
            (evaluateCandidate env .default now record).eligible).map
              (·.artifact env now)).foldl (AnalysisState.register env now) progress.1 := by
      intro records
      induction records with
      | nil => exact fun _ => rfl
      | cons record records ih =>
        intro progress
        rw [List.foldl_cons, ih, analyzeRecord_state, List.filter_cons]
        split
        · next heligible => rfl
        · next heligible => rfl
    exact hfold _ _

/-- The build attempts of a registry, with one more for each artifact. -/
def attempts (m : ArtifactMap) : Nat := m.sum fun a => a.buildAttempts + 1

theorem attempts_undated {m m' : ArtifactMap}
    (h : m.entries.map (fun p => (p.1, p.2.undated)) =
      m'.entries.map fun p => (p.1, p.2.undated)) : attempts m = attempts m' := by
  have hsum : ∀ d : ArtifactMap, attempts d =
      ((d.entries.map fun p => (p.1, p.2.undated)).map fun p => p.2.buildAttempts + 1).sum := by
    intro d
    rw [List.map_map, attempts, Dict.sum, Dict.values, List.map_map]
    rfl
  rw [hsum, hsum, h]

theorem registerArtifact_attempts {a : SnapshotArtifact} (ha : a.buildAttempts = 0)
    (env : AnalysisEnv) (now : Instant) (m : ArtifactMap) :
    attempts (registerArtifact env now m a) = attempts m + 1 := by
  have hagree : ∀ (v : SnapshotArtifact), attempts (m.set a.artifactId v) +
      (m.get? a.artifactId).elim 0 (fun b => b.buildAttempts + 1) =
        attempts m + (v.buildAttempts + 1) := by
    intro v
    have hother : ∀ k ≠ a.artifactId, (m.set a.artifactId v).get? k = m.get? k :=
      fun k hk => Dict.get?_set_ne hk v
    have hsum := Dict.sum_agree hother fun b => b.buildAttempts + 1
    rwa [Dict.get?_set_self] at hsum
  unfold registerArtifact
  cases hget : m.get? a.artifactId with
  | none =>
    have h := hagree a
    rw [hget, ha] at h
    exact h
  | some existing =>
    have h := hagree { existing with
      status := a.status
      updatedAt := env.isoformat now
      notes := (present a.notes).or existing.notes
      buildAttempts := existing.buildAttempts + 1 }
    rw [hget, Option.elim_some] at h
    dsimp only at h ⊢
    omega

theorem foldl_register {m : ArtifactMap} (as : List SnapshotArtifact) (env : AnalysisEnv)
    (now : Instant) (rows : Option ArtifactMap) :
    as.foldl (AnalysisState.register env now) ⟨some m, rows⟩ =
      ⟨some (as.foldl (registerArtifact env now) m),
        rows.map fun r => as.foldl upsertSnapshotArtifact r⟩ := by
  induction as generalizing m rows with
  | nil => cases rows <;> rfl
  | cons a as ih =>
    rw [List.foldl_cons, AnalysisState.register, ih]
    cases rows <;> rfl

theorem foldl_registerArtifact_attempts {as : List SnapshotArtifact}
    (has : ∀ a ∈ as, a.buildAttempts = 0) (env : AnalysisEnv) (now : Instant) (m : ArtifactMap) :
    attempts (as.foldl (registerArtifact env now) m) = attempts m + as.length := by
  induction as generalizing m with
  | nil => rfl
  | cons a as ih =>
    obtain ⟨ha, has⟩ := List.forall_mem_cons.mp has
    rw [List.foldl_cons, ih has, registerArtifact_attempts ha, List.length_cons]
    omega

section Passes

variable {env : AnalysisEnv} {index : Option (List (IndexCandidate σ))} {limit : Int}

theorem runAnalysis_registry {m : ArtifactMap} (rows : Option ArtifactMap) (now : Instant) :
    let planned := (eligibleRecords env index limit now).map (·.artifact env now)
    (runAnalysis env index limit ⟨some m, rows⟩ now).1 =
      ⟨some (planned.foldl (registerArtifact env now) m),
        rows.map fun r => planned.foldl upsertSnapshotArtifact r⟩ := by
  rw [runAnalysis_state, foldl_register]

theorem runAnalysis_none (rows : Option ArtifactMap) (now : Instant) :
    (runAnalysis env index limit ⟨none, rows⟩ now).1 = ⟨none, rows⟩ := by
  rw [runAnalysis_state]
  induction (eligibleRecords env index limit now).map (·.artifact env now) with
  | nil => rfl
  | cons a as ih => exact ih

variable (env index limit) in
theorem analysisPasses_attempts (times : List Instant) (m : ArtifactMap)
    (rows : Option ArtifactMap) :
    ∃ m', (analysisPasses env index limit ⟨some m, rows⟩ times).registry = some m' ∧
      attempts m' = attempts m +
        (times.map fun now => (eligibleRecords env index limit now).length).sum := by
  induction times generalizing m rows with
  | nil => exact ⟨m, rfl, rfl⟩
  | cons now times ih =>
    have hplanned : ∀ a ∈ (eligibleRecords env index limit now).map (·.artifact env now),
        a.buildAttempts = 0 := by
      intro a ha
      obtain ⟨record, -, rfl⟩ := List.mem_map.mp ha
      rfl
    rw [analysisPasses, List.foldl_cons, runAnalysis_registry]
    obtain ⟨m', hm', hattempts⟩ := ih
      (((eligibleRecords env index limit now).map (·.artifact env now)).foldl
        (registerArtifact env now) m) (rows.map fun r =>
          ((eligibleRecords env index limit now).map (·.artifact env now)).foldl
            upsertSnapshotArtifact r)
    refine ⟨m', hm', ?_⟩
    rw [hattempts, foldl_registerArtifact_attempts hplanned, List.length_map, List.map_cons,
      List.sum_cons, Nat.add_assoc]

theorem analysisPasses_same (state : AnalysisState) {times : List Instant}
    (h : ∀ now ∈ times, eligibleRecords env index limit now = []) :
    analysisPasses env index limit state times = state := by
  induction times with
  | nil => rfl
  | cons now times ih =>
    obtain ⟨hnow, htimes⟩ := List.forall_mem_cons.mp h
    have hrun : (runAnalysis env index limit state now).1 = state := by
      rw [runAnalysis_state, hnow]
      rfl
    rw [analysisPasses, List.foldl_cons, hrun]
    exact ih htimes

variable (env index limit) in
theorem undated_iff (m : ArtifactMap) (rows : Option ArtifactMap) (times : List Instant) :
    (analysisPasses env index limit ⟨some m, rows⟩ times).undated =
        AnalysisState.undated ⟨some m, rows⟩ ↔
      ∀ now ∈ times, eligibleRecords env index limit now = [] := by
  constructor
  · intro h now hnow
    obtain ⟨m', hm', hattempts⟩ := analysisPasses_attempts env index limit times m rows
    have hentries := congrArg Prod.fst h
    rw [AnalysisState.undated, hm'] at hentries
    have hsame := attempts_undated (Option.some.inj hentries)
    have hzero : (times.map fun now => (eligibleRecords env index limit now).length).sum = 0 := by
      omega
    rw [List.sum_eq_zero_iff] at hzero
    exact List.length_eq_zero_iff.mp (hzero _ (List.mem_map_of_mem hnow))
  · intro h
    rw [analysisPasses_same _ h]

/-- The artifact gets its status in the store, and nothing else changes there. -/
structure Puts (put : ArtifactMap → SnapshotArtifact → ArtifactMap) (a : SnapshotArtifact) :
    Prop where
  self : ∀ m, ∃ b, (put m a).get? a.artifactId = some b ∧ b.status = a.status
  other : ∀ m id, id ≠ a.artifactId → (put m a).get? id = m.get? id

theorem registerArtifact_puts (env : AnalysisEnv) (now : Instant) (a : SnapshotArtifact) :
    Puts (registerArtifact env now) a where
  self := by
    intro m
    unfold registerArtifact
    split
    · exact ⟨_, Dict.get?_set_self .., rfl⟩
    · exact ⟨_, Dict.get?_set_self .., rfl⟩
  other := by
    intro m id hid
    unfold registerArtifact
    split
    · exact Dict.get?_set_ne hid _
    · exact Dict.get?_set_ne hid _

theorem upsertSnapshotArtifact_puts {a : SnapshotArtifact} (ha : a.artifactId ≠ "") :
    Puts upsertSnapshotArtifact a where
  self := by
    intro m
    rw [upsertSnapshotArtifact, if_neg ha, Sql.upsert_get?, if_pos rfl]
    cases m.get? a.artifactId with
    | none => exact ⟨_, rfl, rfl⟩
    | some row => exact ⟨_, rfl, rfl⟩
  other := by
    intro m id hid
    rw [upsertSnapshotArtifact, if_neg ha, Sql.upsert_get?, if_neg hid]

theorem foldl_puts {put : ArtifactMap → SnapshotArtifact → ArtifactMap}
    {as : List SnapshotArtifact} (hput : ∀ a ∈ as, Puts put a) (hstatus : ∀ a ∈ as, a.status = s)
    (id : String) (m : ArtifactMap) :
    (id ∈ as.map (·.artifactId) → ∃ b, (as.foldl put m).get? id = some b ∧ b.status = s) ∧
      (id ∉ as.map (·.artifactId) → (as.foldl put m).get? id = m.get? id) := by
  induction as generalizing m with
  | nil => exact ⟨fun h => absurd h List.not_mem_nil, fun _ => rfl⟩
  | cons a as ih =>
    obtain ⟨ha, has⟩ := List.forall_mem_cons.mp hput
    obtain ⟨hs, hss⟩ := List.forall_mem_cons.mp hstatus
    obtain ⟨hin, hout⟩ := ih has hss (put m a)
    rw [List.map_cons, List.foldl_cons, List.mem_cons]
    constructor
    · intro h
      by_cases hid : id ∈ as.map (·.artifactId)
      · exact hin hid
      · obtain rfl | hid' := h
        · obtain ⟨b, hb, hbs⟩ := ha.self m
          exact ⟨b, (hout hid).trans hb, hbs.trans hs⟩
        · exact absurd hid' hid
    · intro h
      rw [not_or] at h
      rw [hout h.2, ha.other m id h.1]

theorem planned_not_advanced {a : SnapshotArtifact} (h : a.Advanced) :
    a.status ≠ SnapshotArtifactStatus.planned.value := by
  obtain ⟨status, hne, hstatus⟩ := h
  rw [hstatus]
  cases status with
  | planned => exact absurd rfl hne
  | _ => decide

/-- A store that puts artifacts of the first stage keeps the advanced ones exactly if it puts none
of them. -/
theorem puts_keep_iff {put : ArtifactMap → SnapshotArtifact → ArtifactMap}
    {as : List SnapshotArtifact} (hput : ∀ a ∈ as, Puts put a)
    (hstatus : ∀ a ∈ as, a.status = SnapshotArtifactStatus.planned.value) (m : ArtifactMap) :
    (∀ id a a', m.get? id = some a → a.Advanced → (as.foldl put m).get? id = some a' →
        a'.status ≠ SnapshotArtifactStatus.planned.value) ↔
      ∀ a ∈ as, ∀ b, m.get? a.artifactId = some b → ¬b.Advanced := by
  constructor
  · intro h a ha b hb hadvanced
    obtain ⟨b', hb', hstatus'⟩ := (foldl_puts hput hstatus a.artifactId m).1
      (List.mem_map_of_mem ha)
    exact h _ b b' hb hadvanced hb' hstatus'
  · intro h id a a' ha hadvanced ha'
    obtain ⟨-, hout⟩ := foldl_puts hput hstatus id m
    have hnew : id ∉ as.map (·.artifactId) := by
      intro hid
      obtain ⟨b, hb, rfl⟩ := List.mem_map.mp hid
      exact h b hb a ha hadvanced
    rw [hout hnew, ha] at ha'
    cases ha'
    exact planned_not_advanced hadvanced

theorem artifactIdFor_ne (env : AnalysisEnv) (manifestId : String) :
    artifactIdFor env manifestId ≠ "" := by
  intro h
  have hlist := congrArg String.toList h
  rw [artifactIdFor, String.toList_append] at hlist
  cases hlist

/-- One pass moves no artifact back exactly if no eligible candidate is planned as an artifact
that has advanced. -/
theorem neverBack_iff (m : ArtifactMap) (rows : Option ArtifactMap) (now : Instant) :
    NeverBack ⟨some m, rows⟩ (runAnalysis env index limit ⟨some m, rows⟩ now).1 ↔
      ∀ record ∈ eligibleRecords env index limit now, ∀ a,
        AnalysisState.Holds ⟨some m, rows⟩ (record.artifactId env) a → ¬a.Advanced := by
  have hplanned : ∀ a ∈ (eligibleRecords env index limit now).map (·.artifact env now),
      a.status = SnapshotArtifactStatus.planned.value := by
    intro a ha
    obtain ⟨record, -, rfl⟩ := List.mem_map.mp ha
    rfl
  have hupsert : ∀ a ∈ (eligibleRecords env index limit now).map (·.artifact env now),
      Puts upsertSnapshotArtifact a := by
    intro a ha
    obtain ⟨record, -, rfl⟩ := List.mem_map.mp ha
    exact upsertSnapshotArtifact_puts (artifactIdFor_ne env _)
  have hregistry := puts_keep_iff
    (fun a _ => registerArtifact_puts env now a) hplanned m
  rw [runAnalysis_registry]
  constructor
  · intro h record hrecord a hholds
    have hmem := List.mem_map_of_mem (f := (·.artifact env now)) hrecord
    rcases hholds with hholds | hholds
    · exact hregistry.mp h.registry _ hmem a hholds
    · obtain ⟨r, rfl, hrow⟩ := Option.bind_eq_some_iff.mp hholds
      exact (puts_keep_iff hupsert hplanned r).mp h.rows _ hmem a hrow
  · intro h
    constructor
    · apply hregistry.mpr
      intro a ha b hb
      obtain ⟨record, hrecord, rfl⟩ := List.mem_map.mp ha
      exact h record hrecord b (.inl hb)
    · cases rows with
      | none => exact fun id a a' ha => by cases ha
      | some r =>
        apply (puts_keep_iff hupsert hplanned r).mpr
        intro a ha b hb
        obtain ⟨record, hrecord, rfl⟩ := List.mem_map.mp ha
        exact h record hrecord b (.inr hb)

theorem NeverBack.refl (state : AnalysisState) : NeverBack state state where
  registry := by
    intro id a a' ha hadvanced ha'
    rw [ha] at ha'
    cases ha'
    exact planned_not_advanced hadvanced
  rows := by
    intro id a a' ha hadvanced ha'
    rw [ha] at ha'
    cases ha'
    exact planned_not_advanced hadvanced

theorem eachStep_idle {state : AnalysisState} {times : List Instant}
    (h : ∀ now ∈ times, (runAnalysis env index limit state now).1 = state) :
    (analysisLoop env index limit).EachStep
      (fun state now => NeverBack state (runAnalysis env index limit state now).1)
      state times := by
  induction times with
  | nil => trivial
  | cons now times ih =>
    obtain ⟨hnow, htimes⟩ := List.forall_mem_cons.mp h
    constructor
    · show NeverBack state (runAnalysis env index limit state now).1
      rw [hnow]
      exact .refl state
    · intro state' out hstep
      have hstate : (runAnalysis env index limit state now).1 = state' :=
        congrArg Prod.fst (Option.some.inj hstep)
      rw [← hstate, hnow]
      exact ih htimes

end Passes

/-- The loop is steady exactly if there is no registry, or the first pass plans no artifact that
has advanced and the later passes plan nothing. -/
theorem analysisSteady_iff (env : AnalysisEnv) (index : Option (List (IndexCandidate σ)))
    (limit : Int) (state : AnalysisState) (first : Instant) (later : List Instant) :
    AnalysisSteady env index limit state first later ↔
      state.registry = none ∨
        (∀ now ∈ later, eligibleRecords env index limit now = []) ∧
        ∀ record ∈ eligibleRecords env index limit first, ∀ a,
          state.Holds (record.artifactId env) a → ¬a.Advanced := by
  obtain ⟨registry, rows⟩ := state
  cases registry with
  | none =>
    have hidle : ∀ times : List Instant, ∀ now ∈ times,
        (runAnalysis env index limit ⟨none, rows⟩ now).1 = ⟨none, rows⟩ :=
      fun _ now _ => runAnalysis_none rows now
    have hpasses : ∀ times : List Instant,
        analysisPasses env index limit ⟨none, rows⟩ times = ⟨none, rows⟩ := by
      intro times
      induction times with
      | nil => rfl
      | cons now times ih =>
        rw [analysisPasses, List.foldl_cons, runAnalysis_none]
        exact ih
    refine iff_of_true ⟨?_, eachStep_idle (hidle _)⟩ (.inl rfl)
    rw [hpasses, hpasses]
  | some m =>
    have hsame : AnalysisSteady env index limit ⟨some m, rows⟩ first later ↔
        (∀ now ∈ later, eligibleRecords env index limit now = []) ∧
          NeverBack ⟨some m, rows⟩ (runAnalysis env index limit ⟨some m, rows⟩ first).1 := by
      have hundated := undated_iff env index limit
        (((eligibleRecords env index limit first).map (·.artifact env first)).foldl
          (registerArtifact env first) m) (rows.map fun r =>
            ((eligibleRecords env index limit first).map (·.artifact env first)).foldl
              upsertSnapshotArtifact r) later
      rw [← runAnalysis_registry] at hundated
      constructor
      · rintro ⟨hidempotent, hback⟩
        exact ⟨hundated.mp hidempotent, hback.1⟩
      · rintro ⟨hlater, hback⟩
        refine ⟨hundated.mpr hlater, hback, ?_⟩
        intro state' out hstep
        apply eachStep_idle
        intro now hnow
        rw [runAnalysis_state, hlater now hnow]
        rfl
    rw [hsame, neverBack_iff]
    simp

/-- The clock and the hash of a run, with the one date that the run reads. -/
def runEnv : AnalysisEnv where
  sha256Hex := id
  isoformat _ := "1970-01-01T00:00:00+00:00"
  fromisoformat _ := some 0

/-- A candidate that has been selected eight times. -/
def frequentCandidate : IndexCandidate ℚ where
  modelId := "m"
  backend := "mlx"
  promptPrefixHash := "h"
  candidateScore := some 0.95
  potentialSavedTokens := some 5000
  potentialSavedRatio := some 0.95
  candidateSeenCount := 8
  candidateLastSeenAt := some 0

/-- The artifact that the candidate is planned as, once it has been built. -/
def readyArtifact : SnapshotArtifact :=
  { (frequentCandidate.record runEnv).artifact runEnv 0 with
    status := SnapshotArtifactStatus.ready.value }

/-- A pass over the candidate plans the built artifact again. -/
theorem ready_artifact_planned_again : ¬AnalysisSteady runEnv (some [frequentCandidate]) 50
    ⟨some (.set .empty readyArtifact.artifactId readyArtifact), some .empty⟩ 0 [] := by
  rintro ⟨-, hback, -⟩
  refine hback.registry readyArtifact.artifactId readyArtifact
    { readyArtifact with status := SnapshotArtifactStatus.planned.value, buildAttempts := 1 }
    ?_ ⟨.ready, by decide, rfl⟩ ?_ rfl
  · exact Dict.get?_set_self _ _
  · decide +kernel

/-- A second pass counts a build attempt. -/
example : ¬AnalysisSteady runEnv (some [frequentCandidate]) 50 ⟨some .empty, some .empty⟩ 0
    [60000000] := by
  rintro ⟨hidempotent, -⟩
  revert hidempotent
  decide +kernel

end Whooshd.ThreadWake
