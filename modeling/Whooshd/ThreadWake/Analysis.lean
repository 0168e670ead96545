import Mathlib.Data.List.Sort
import Whooshd.Library.Machine
import Whooshd.Library.Sql
import Whooshd.ThreadWake.Index

namespace Whooshd.ThreadWake
set_option autoImplicit true

/-- Microseconds since the epoch. -/
abbrev Instant := Int

/-- The hash and the text form of dates. Nothing stands for a text that is no date. -/
structure AnalysisEnv where
  sha256Hex : String → String
  isoformat : Instant → String
  fromisoformat : String → Option Instant

/-- What an index entry says of itself as a candidate. The type `σ` is that of floats. -/
structure IndexCandidate (σ : Type) where
  modelId : String
  backend : String
  promptPrefixHash : String
  status : EntryStatus := .observed
  candidateScore : Option σ
  potentialSavedTokens : Option Int
  potentialSavedRatio : Option σ
  candidateSeenCount : Nat
  candidateLastSeenAt : Option Instant
  deriving DecidableEq, Repr

structure CandidateReplayRecord (σ : Type) where
  prefixHash : String
  backend : Option String
  modelId : Option String
  tokenizerHash : Option String := none
  chatTemplateHash : Option String := none
  seenCount : Nat
  potentialSavedTokensTotal : Int
  averageCandidateScore : σ
  averagePotentialSavedRatio : σ
  lastSeenAt : Option String
  deriving DecidableEq, Repr

inductive SnapshotEligibilityReason where
  | highFrequencyHighSavings | highFrequency | highSavings | recentlyReused
  | insufficientObservations | lowValue | expired | unsupportedBackend | policyDisabled
  deriving DecidableEq, Repr

structure SnapshotEligibility (σ : Type) where
  eligible : Bool
  reason : SnapshotEligibilityReason
  candidateScore : σ
  policyVersion : String := "1"
  deriving DecidableEq, Repr

structure SnapshotManifest where
  manifestId : String
  prefixHash : String
  backend : Option String
  modelId : Option String
  tokenizerHash : Option String
  chatTemplateHash : Option String
  policyVersion : String
  deriving DecidableEq, Repr

inductive SnapshotArtifactStatus where
  | planned | buildPending | buildFailed | ready | superseded | expired
  deriving DecidableEq, Repr

def SnapshotArtifactStatus.value : SnapshotArtifactStatus → String
  | planned => "planned"
  | buildPending => "build_pending"
  | buildFailed => "build_failed"
  | ready => "ready"
  | superseded => "superseded"
  | expired => "expired"

/-- An artifact of the registry, and a row of `threadwake_snapshot_artifacts`. -/
structure SnapshotArtifact where
  artifactId : String
  manifestId : String := ""
  prefixHash : String := ""
  backend : Option String := none
  modelId : Option String := none
  tokenizerHash : Option String := none
  chatTemplateHash : Option String := none
  status : String := SnapshotArtifactStatus.planned.value
  policyVersion : String := "1"
  artifactVersion : String := "1"
  buildAttempts : Nat := 0
  notes : Option String := none
  createdAt : String
  updatedAt : String
  lastSeenAt : Option String := none
  deriving DecidableEq, Repr

abbrev ArtifactMap := Dict String SnapshotArtifact

structure AnalysisLoopResult where
  candidatesScanned : Nat := 0
  candidatesEligible : Nat := 0
  manifestsCreated : Nat := 0
  artifactsRegistered : Nat := 0
  skipped : Nat := 0
  errors : Nat := 0
  details : List String := []
  deriving DecidableEq, Repr

/-- The registry and the stored rows, each of which may be absent. -/
structure AnalysisState where
  registry : Option ArtifactMap
  rows : Option ArtifactMap
  deriving DecidableEq

section Candidates

variable {σ : Type} [Zero σ] [Add σ] [Mul σ] [Neg σ] [IntCast σ] [OfScientific σ] [LT σ]
  [DecidableLT σ]

/-- Not after, in the order of the sort key of `list_candidates`. -/
def IndexCandidate.before (a b : IndexCandidate σ) : Bool :=
  let score (e : IndexCandidate σ) : σ := -e.candidateScore.getD 0
  let seen (e : IndexCandidate σ) : Int := -e.candidateSeenCount
  let lastSeen (e : IndexCandidate σ) : Int := -e.candidateLastSeenAt.getD 0
  if score a < score b then true
  else if score b < score a then false
  else if seen a < seen b then true
  else if seen b < seen a then false
  else lastSeen a ≤ lastSeen b

def listCandidates (entries : List (IndexCandidate σ)) (limit : Int) : List (IndexCandidate σ) :=
  let candidates := entries.filter fun e => e.candidateScore.isSome && e.status ≠ .evicted
  (candidates.insertionSort fun a b => a.before b = true).take (max 1 (min limit 500)).toNat

def IndexCandidate.rank (e : IndexCandidate σ) : σ :=
  ((e.candidateSeenCount * 10000 : Int) : σ) +
    ((e.potentialSavedTokens.getD 0 : Int) : σ) * 0.01 +
    e.candidateScore.getD 0 * ((10 : Int) : σ)

/-- The record of an entry, read through its public snapshot, which has no template hashes. -/
def IndexCandidate.record (env : AnalysisEnv) (e : IndexCandidate σ) : CandidateReplayRecord σ :=
  { prefixHash := e.promptPrefixHash
    backend := some e.backend
    modelId := some e.modelId
    seenCount := e.candidateSeenCount
    potentialSavedTokensTotal := e.potentialSavedTokens.getD 0
    averageCandidateScore := e.candidateScore.getD 0
    averagePotentialSavedRatio := e.potentialSavedRatio.getD 0
    lastSeenAt := e.candidateLastSeenAt.map env.isoformat }

def rankCandidates (env : AnalysisEnv) (entries : List (IndexCandidate σ)) (limit : Int) :
    List (CandidateReplayRecord σ) :=
  let scored := entries.insertionSort fun a b => ¬ -b.rank < -a.rank
  (scored.take (max 1 (min limit 100)).toNat).map (·.record env)

structure SnapshotPolicyConfig (σ : Type) where
  enabled : Bool
  minimumSeenCount : Nat
  minimumCandidateScore : σ
  minimumSavedRatio : σ
  maximumCandidateAgeDays : Int
  supportedBackends : List String

/-- The defaults. -/
def SnapshotPolicyConfig.default : SnapshotPolicyConfig σ :=
  ⟨true, 5, 0.80, 0.50, 30, ["mlx"]⟩

/-- `str.replace("Z", "+00:00")`. -/
def replaceZ (s : String) : String :=
  String.ofList (s.toList.flatMap fun c => if c = 'Z' then "+00:00".toList else [c])

/-- The days since a date, when it can be read. -/
def ageDays (env : AnalysisEnv) (now : Instant) (lastSeen : String) : Option Int :=
  (env.fromisoformat (replaceZ lastSeen)).map fun last => (now - last) / (86400 * 1000000)

def evaluateCandidate (env : AnalysisEnv) (config : SnapshotPolicyConfig σ) (now : Instant)
    (record : CandidateReplayRecord σ) : SnapshotEligibility σ :=
  let backend := record.backend.getD ""
  let seen := record.seenCount
  let score := record.averageCandidateScore
  let saved := record.potentialSavedTokensTotal
  if config.enabled = false then ⟨false, .policyDisabled, 0, "1"⟩
  else if backend ≠ "" ∧ backend ∉ config.supportedBackends then
    ⟨false, .unsupportedBackend, 0, "1"⟩
  else if seen < config.minimumSeenCount then ⟨false, .insufficientObservations, score, "1"⟩
  else if score < config.minimumCandidateScore then ⟨false, .lowValue, score, "1"⟩
  else if record.averagePotentialSavedRatio < config.minimumSavedRatio then
    ⟨false, .lowValue, score, "1"⟩
  else if ((present record.lastSeenAt).bind (ageDays env now)).any
      (· > config.maximumCandidateAgeDays) then
    ⟨false, .expired, score, "1"⟩
  else if seen ≥ 10 ∧ saved ≥ 2000 then ⟨true, .highFrequencyHighSavings, score, "1"⟩
  else if seen ≥ 10 then ⟨true, .highFrequency, score, "1"⟩
  else if saved ≥ 2000 then ⟨true, .highSavings, score, "1"⟩
  else ⟨true, .recentlyReused, score, "1"⟩

end Candidates

/-- The first sixteen digits of a digest. -/
def shortDigest (env : AnalysisEnv) (payload : String) : String :=
  String.ofList ((env.sha256Hex payload).toList.take 16)

def manifestIdFor (env : AnalysisEnv)
    (prefixHash backend modelId tokenizerHash chatTemplateHash policyVersion : String) : String :=
  "manifest-" ++ shortDigest env (prefixHash ++ "|" ++ backend ++ "|" ++ modelId ++ "|" ++
    tokenizerHash ++ "|" ++ chatTemplateHash ++ "|" ++ policyVersion)

def buildFromReplayRecord (env : AnalysisEnv) (record : CandidateReplayRecord σ)
    (eligibility : SnapshotEligibility σ) : Option SnapshotManifest :=
  if eligibility.eligible = false then none
  else
    let policyVersion := (present (some eligibility.policyVersion)).getD "1"
    some
      { manifestId := manifestIdFor env record.prefixHash (record.backend.getD "")
          (record.modelId.getD "") (record.tokenizerHash.getD "")
          (record.chatTemplateHash.getD "") policyVersion
        prefixHash := record.prefixHash
        backend := record.backend
        modelId := record.modelId
        tokenizerHash := record.tokenizerHash
        chatTemplateHash := record.chatTemplateHash
        policyVersion }

def artifactIdFor (env : AnalysisEnv) (manifestId : String) : String :=
  "artifact-" ++ shortDigest env (manifestId ++ "|1")

def buildFromManifest (env : AnalysisEnv) (now : Instant) (manifest : SnapshotManifest) :
    SnapshotArtifact :=
  { artifactId := artifactIdFor env manifest.manifestId
    manifestId := manifest.manifestId
    prefixHash := manifest.prefixHash
    backend := manifest.backend
    modelId := manifest.modelId
    tokenizerHash := manifest.tokenizerHash
    chatTemplateHash := manifest.chatTemplateHash
    status := SnapshotArtifactStatus.planned.value
    policyVersion := (present (some manifest.policyVersion)).getD "1"
    artifactVersion := "1"
    createdAt := env.isoformat now
    updatedAt := env.isoformat now }

def registerArtifact (env : AnalysisEnv) (now : Instant) (registry : ArtifactMap)
    (artifact : SnapshotArtifact) : ArtifactMap :=
  match registry.get? artifact.artifactId with
  | some existing =>
    registry.set artifact.artifactId
      { existing with
        status := artifact.status
        updatedAt := env.isoformat now
        notes := (present artifact.notes).or existing.notes
        buildAttempts := existing.buildAttempts + 1 }
  | none => registry.set artifact.artifactId artifact

def upsertSnapshotArtifact (rows : ArtifactMap) (artifact : SnapshotArtifact) : ArtifactMap :=
  if artifact.artifactId = "" then rows
  else Sql.upsert rows artifact.artifactId artifact fun row =>
    { row with
      status := artifact.status
      buildAttempts := row.buildAttempts + 1
      notes := artifact.notes.or row.notes
      updatedAt := artifact.updatedAt
      lastSeenAt := artifact.lastSeenAt }

section Loop

variable {σ : Type} [Zero σ] [Add σ] [Mul σ] [Neg σ] [IntCast σ] [OfScientific σ] [LT σ]
  [DecidableLT σ]

/-- The body of the loop over the top candidates. -/
def analyzeRecord (env : AnalysisEnv) (now : Instant)
    (progress : AnalysisState × AnalysisLoopResult) (record : CandidateReplayRecord σ) :
    AnalysisState × AnalysisLoopResult :=
  let (state, result) := progress
  let eligibility := evaluateCandidate env .default now record
  if eligibility.eligible = false then (state, { result with skipped := result.skipped + 1 })
  else
    let result := { result with candidatesEligible := result.candidatesEligible + 1 }
    match buildFromReplayRecord env record eligibility with
    | none =>
      (state, { result with
        errors := result.errors + 1
        details := result.details ++ ["manifest_build_failed"] })
    | some manifest =>
      let result := { result with manifestsCreated := result.manifestsCreated + 1 }
      match state.registry with
      | none => (state, result)
      | some registry =>
        let artifact := buildFromManifest env now manifest
        ({ registry := some (registerArtifact env now registry artifact)
           rows := state.rows.map (upsertSnapshotArtifact · artifact) },
          { result with artifactsRegistered := result.artifactsRegistered + 1 })

/-- `CandidateReplayAnalyzer.analyze_index`, as far as the loop reads it. -/
def analyzeIndex (env : AnalysisEnv) (index : List (IndexCandidate σ)) (limit : Int) :
    Nat × List (CandidateReplayRecord σ) :=
  let candidates := listCandidates index 500
  (candidates.length, rankCandidates env candidates limit)

/-- `ThreadWakeAnalysisLoop.run`, with the time at which it runs. -/
def runAnalysis (env : AnalysisEnv) (index : Option (List (IndexCandidate σ))) (limit : Int)
    (state : AnalysisState) (now : Instant) : AnalysisState × AnalysisLoopResult :=
  match index with
  | none => (state, { details := ["no_index_available"] })
  | some index =>
    let (total, top) := analyzeIndex env index limit
    top.foldl (analyzeRecord env now) (state, { candidatesScanned := total })

/-- The loop, which reports a result at each pass. -/
def analysisLoop (env : AnalysisEnv) (index : Option (List (IndexCandidate σ))) (limit : Int) :
    Machine AnalysisState Instant AnalysisLoopResult where
  step state now :=
    let (state, result) := runAnalysis env index limit state now
    some (state, [result])

end Loop

end Whooshd.ThreadWake
