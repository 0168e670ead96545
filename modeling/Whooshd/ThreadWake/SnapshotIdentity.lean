import Whooshd.Library.Cut
import Whooshd.ThreadWake.AnalysisRuns

namespace Whooshd.ThreadWake
set_option autoImplicit true

/-- A candidate of the index with the hashes of its tokenizer and of its template. -/
structure IndexEntry (σ : Type) extends IndexCandidate σ where
  tokenizerHash : Option String := none
  chatTemplateHash : Option String := none
  deriving DecidableEq, Repr

/-- The dictionary of an entry as `rank_candidates` reads it. A key that it does not have stands
for nothing. -/
structure PublicSnapshot (σ : Type) where
  prefixHash : Option String := none
  promptPrefixHash : Option String := none
  backend : Option String := none
  modelId : Option String := none
  tokenizerHash : Option String := none
  chatTemplateHash : Option String := none
  candidateSeenCount : Nat
  potentialSavedTokens : Option Int
  candidateScore : Option σ
  potentialSavedRatio : Option σ
  candidateLastSeenAt : Option String

/-- `public_snapshot`, which has neither the hash of the tokenizer nor that of the template. -/
def IndexEntry.publicSnapshot (env : AnalysisEnv) (e : IndexEntry σ) : PublicSnapshot σ :=
  { promptPrefixHash := some e.promptPrefixHash
    backend := some e.backend
    modelId := some e.modelId
    candidateSeenCount := e.candidateSeenCount
    potentialSavedTokens := e.potentialSavedTokens
    candidateScore := e.candidateScore
    potentialSavedRatio := e.potentialSavedRatio
    candidateLastSeenAt := e.candidateLastSeenAt.map env.isoformat }

/-- The record that `rank_candidates` makes of a dictionary. -/
def PublicSnapshot.record [Zero σ] (r : PublicSnapshot σ) : CandidateReplayRecord σ :=
  { prefixHash := r.prefixHash.getD (r.promptPrefixHash.getD "")
    backend := r.backend
    modelId := r.modelId
    tokenizerHash := r.tokenizerHash
    chatTemplateHash := r.chatTemplateHash
    seenCount := r.candidateSeenCount
    potentialSavedTokensTotal := r.potentialSavedTokens.getD 0
    averageCandidateScore := r.candidateScore.getD 0
    averagePotentialSavedRatio := r.potentialSavedRatio.getD 0
    lastSeenAt := r.candidateLastSeenAt }

variable {σ : Type} [Zero σ] [Add σ] [Mul σ] [Neg σ] [IntCast σ] [OfScientific σ] [LT σ]
  [DecidableLT σ]

/-- The manifest that a pass of the analysis derives from an entry. -/
def IndexEntry.manifest (env : AnalysisEnv) (now : Instant) (e : IndexEntry σ) :
    Option SnapshotManifest :=
  let record := (e.publicSnapshot env).record
  buildFromReplayRecord env record (evaluateCandidate env .default now record)

/-- What tells two snapshots apart. -/
def IndexEntry.identity (e : IndexEntry σ) :
    String × String × String × Option String × Option String :=
  (e.promptPrefixHash, e.backend, e.modelId, e.tokenizerHash, e.chatTemplateHash)

/-- The text whose digest is the id of the manifest. -/
def IndexEntry.payload (e : IndexEntry σ) : String :=
  e.promptPrefixHash ++ "|" ++ e.backend ++ "|" ++ e.modelId ++ "|" ++ "" ++ "|" ++ "" ++ "|" ++ "1"

/-- The texts that are hashed for an entry. -/
def IndexEntry.hashed (env : AnalysisEnv) (e : IndexEntry σ) : Set String :=
  {e.payload, "manifest-" ++ shortDigest env e.payload ++ "|1"}

/-- The model id of one entry holds what the prefix hash of the other has more than its own. -/
def IndexEntry.Shifted (a b : IndexEntry σ) : Prop :=
  Cut.Shifted '|' a.promptPrefixHash.toList a.backend.toList a.modelId.toList
    b.promptPrefixHash.toList b.backend.toList b.modelId.toList

/-- The entries whose snapshots are not told apart. -/
def IndexEntry.Merged (a b : IndexEntry σ) : Prop :=
  (a.promptPrefixHash = b.promptPrefixHash ∧ a.backend = b.backend ∧ a.modelId = b.modelId) ∨
    a.Shifted b ∨ b.Shifted a

omit [Add σ] [Mul σ] [Neg σ] [IntCast σ] [OfScientific σ] [LT σ] [DecidableLT σ] in
theorem publicSnapshot_record (env : AnalysisEnv) (e : IndexEntry σ) :
    (e.publicSnapshot env).record = e.toIndexCandidate.record env := rfl

omit [Add σ] [Mul σ] [Neg σ] [IntCast σ] [OfScientific σ] in
theorem evaluateCandidate_backend {env : AnalysisEnv} {config : SnapshotPolicyConfig σ}
    {now : Instant} {record : CandidateReplayRecord σ}
    (h : (evaluateCandidate env config now record).eligible = true) :
    record.backend.getD "" = "" ∨ record.backend.getD "" ∈ config.supportedBackends := by
  by_contra hnot
  rw [not_or] at hnot
  rw [evaluateCandidate, if_pos hnot] at h
  split at h <;> cases h

omit [Add σ] [Mul σ] [Neg σ] [IntCast σ] in
theorem manifest_some {env : AnalysisEnv} {now : Instant} {e : IndexEntry σ}
    {manifest : SnapshotManifest} (h : e.manifest env now = some manifest) :
    (e.backend = "" ∨ e.backend = "mlx") ∧
      manifest.manifestId = "manifest-" ++ shortDigest env e.payload := by
  rw [IndexEntry.manifest, publicSnapshot_record] at h
  cases heligible : (evaluateCandidate env .default now (e.record env)).eligible with
  | false =>
    rw [buildFromReplayRecord, if_pos heligible] at h
    cases h
  | true =>
    obtain ⟨manifest', hbuilt, hartifact⟩ := buildFromReplayRecord_artifact (e.record env)
      heligible (evaluateCandidate_policyVersion env _ now (e.record env)) env now
    rw [hbuilt, Option.some.injEq] at h
    rw [← h]
    have hbackend := evaluateCandidate_backend heligible
    rw [SnapshotPolicyConfig.default, List.mem_singleton] at hbackend
    exact ⟨hbackend, congrArg SnapshotArtifact.manifestId hartifact⟩

omit [Zero σ] [Add σ] [Mul σ] [Neg σ] [IntCast σ] [OfScientific σ] [LT σ] [DecidableLT σ] in
theorem payload_toList (e : IndexEntry σ) :
    e.payload.toList = (e.promptPrefixHash.toList ++ '|' :: (e.backend.toList ++
      '|' :: e.modelId.toList)) ++ ['|', '|', '|', '1'] := by
  simp [IndexEntry.payload]

omit [Zero σ] [Add σ] [Mul σ] [Neg σ] [IntCast σ] [OfScientific σ] [LT σ] [DecidableLT σ] in
theorem payload_eq_iff {a b : IndexEntry σ} (ha : a.backend = "" ∨ a.backend = "mlx")
    (hb : b.backend = "" ∨ b.backend = "mlx") : a.payload = b.payload ↔ a.Merged b := by
  have hplain {s : String} (h : s = "" ∨ s = "mlx") : '|' ∉ s.toList := by
    cases h with
    | inl h => rw [h]; decide
    | inr h => rw [h]; decide
  rw [← String.toList_inj, payload_toList, payload_toList, List.append_cancel_right_eq,
    Cut.joined_eq_iff (hplain ha) (hplain hb), String.toList_inj, String.toList_inj,
    String.toList_inj]
  rfl

omit [Add σ] [Mul σ] [IntCast σ] [OfScientific σ] in
theorem mem_listCandidates {entries : List (IndexCandidate σ)} {limit : Int}
    {c : IndexCandidate σ} (h : c ∈ listCandidates entries limit) : c ∈ entries :=
  List.mem_of_mem_filter ((List.mem_insertionSort _).mp (List.mem_of_mem_take h))

theorem mem_rankCandidates {env : AnalysisEnv} {entries : List (IndexCandidate σ)} {limit : Int}
    {record : CandidateReplayRecord σ} (h : record ∈ rankCandidates env entries limit) :
    ∃ c ∈ entries, c.record env = record := by
  obtain ⟨c, hc, heq⟩ := List.mem_map.mp h
  exact ⟨c, (List.mem_insertionSort _).mp (List.mem_of_mem_take hc), heq⟩

/-- The manifests of some records. -/
def manifestsOf (env : AnalysisEnv) (now : Instant) (records : List (CandidateReplayRecord σ)) :
    List SnapshotManifest :=
  records.filterMap fun record =>
    buildFromReplayRecord env record (evaluateCandidate env .default now record)

omit [Add σ] [Mul σ] [Neg σ] [IntCast σ] in
theorem manifestsOf_artifacts (env : AnalysisEnv) (now : Instant)
    (records : List (CandidateReplayRecord σ)) :
    (manifestsOf env now records).map (buildFromManifest env now) =
      (records.filter fun record => (evaluateCandidate env .default now record).eligible).map
        (·.artifact env now) := by
  induction records with
  | nil => rfl
  | cons record records ih =>
    rw [manifestsOf] at ih ⊢
    cases heligible : (evaluateCandidate env .default now record).eligible with
    | false =>
      rw [List.filterMap_cons_none, ih, List.filter_cons_of_neg]
      · simp [heligible]
      · rw [buildFromReplayRecord, if_pos heligible]
    | true =>
      obtain ⟨manifest, hbuilt, hartifact⟩ := buildFromReplayRecord_artifact record
        heligible (evaluateCandidate_policyVersion env _ now record) env now
      simp only [List.filterMap_cons, hbuilt]
      rw [List.map_cons, ih, List.filter_cons_of_pos (by exact heligible), List.map_cons,
        hartifact]

theorem runAnalysis_manifests (env : AnalysisEnv) (entries : List (IndexEntry σ)) (limit : Int)
    (state : AnalysisState) (now : Instant) :
    ∃ manifests : List SnapshotManifest,
      (∀ manifest ∈ manifests, ∃ e ∈ entries, e.manifest env now = some manifest) ∧
        (runAnalysis env (some (entries.map (·.toIndexCandidate))) limit state now).1 =
          (manifests.map (buildFromManifest env now)).foldl (AnalysisState.register env now)
            state := by
  let top := (analyzeIndex env (entries.map (·.toIndexCandidate)) limit).2
  refine ⟨manifestsOf env now top, fun manifest hmanifest => ?_, ?_⟩
  · obtain ⟨record, hrecord, hbuilt⟩ := List.mem_filterMap.mp hmanifest
    obtain ⟨c, hc, rfl⟩ := mem_rankCandidates hrecord
    obtain ⟨e, he, rfl⟩ := List.mem_map.mp (mem_listCandidates hc)
    exact ⟨e, he, hbuilt⟩
  · rw [runAnalysis_state, manifestsOf_artifacts]
    rfl

omit [Add σ] [Mul σ] [Neg σ] [IntCast σ] in
/-- Two entries that differ are told apart by the ids of their manifests and of their artifacts
exactly where they do not merge. -/
theorem manifest_distinct_iff {env : AnalysisEnv} {now now' : Instant} {a b : IndexEntry σ}
    {manifest manifest' : SnapshotManifest} (ha : a.manifest env now = some manifest)
    (hb : b.manifest env now' = some manifest')
    (hdigest : Set.InjOn (shortDigest env) (a.hashed env ∪ b.hashed env)) :
    (a.identity ≠ b.identity → manifest.manifestId ≠ manifest'.manifestId ∧
        (buildFromManifest env now manifest).artifactId ≠
          (buildFromManifest env now' manifest').artifactId) ↔
      (a.identity ≠ b.identity → ¬ a.Merged b) := by
  obtain ⟨hbackend, hid⟩ := manifest_some ha
  obtain ⟨hbackend', hid'⟩ := manifest_some hb
  have hmanifest : manifest.manifestId = manifest'.manifestId ↔ a.Merged b := by
    rw [← payload_eq_iff hbackend hbackend', hid, hid', String.append_right_inj]
    exact hdigest.eq_iff (.inl (.inl rfl)) (.inr (.inl rfl))
  have hartifact : (buildFromManifest env now manifest).artifactId =
      (buildFromManifest env now' manifest').artifactId ↔ a.Merged b := by
    rw [← hmanifest, buildFromManifest, buildFromManifest, artifactIdFor, artifactIdFor,
      String.append_right_inj, hid, hid',
      hdigest.eq_iff (.inl (.inr rfl)) (.inr (.inr rfl)), String.append_left_inj]
  rw [Ne, Ne, Ne, hmanifest, hartifact, and_self]

/-- The digests of some texts. -/
def sampleDigest (text : String) : String :=
  if text = "h|mlx|m|||1" then "deb8b936b641bf7f78294c7a97ac72a4da45993db1b70e25e1ba1e02c28e097c"
  else if text = "manifest-deb8b936b641bf7f|1" then
    "18dd619070fbc49c728e372d215f745f55706a2a5ed89ef3edaadde05d23e58a"
  else if text = "h|mlx|n|||1" then
    "6043690961e03f876bb6e81014e49c5186ce04aeb0d391fb3daa22b6210975e0"
  else if text = "manifest-6043690961e03f87|1" then
    "d1f13145a7bcb6af38c43c624a6ae05bf8e1a8f46ce44c4006989df2d5e6845c"
  else if text = "h|mlx|x|mlx|m|||1" then
    "802305cf376a8b18226d277382296819b2d100bf7149ef109683126c2cafb825"
  else "18b63908565b65c7c7249e860f68102e47756d382362d49cf7e0bf57fb23df48"

def sampleEnv : AnalysisEnv := { runEnv with sha256Hex := sampleDigest }

/-- A frequent candidate of some prefix hash and some model. -/
def sampleEntry (prefixHash modelId : String) (tokenizerHash : Option String) : IndexEntry ℚ :=
  { frequentCandidate with promptPrefixHash := prefixHash, modelId, tokenizerHash }

/-- The id of the manifest of an entry, by the first sixteen digits of a digest. -/
def sampleManifest (prefixHash modelId digits : String) : SnapshotManifest :=
  ⟨"manifest-" ++ digits, prefixHash, some "mlx", some modelId, none, none, "1"⟩

/-- The texts that are hashed for the entries below. -/
def sampleTexts : List String :=
  ["h|mlx|m|||1", "manifest-deb8b936b641bf7f|1", "h|mlx|n|||1", "manifest-6043690961e03f87|1",
    "h|mlx|x|mlx|m|||1", "manifest-802305cf376a8b18|1"]

theorem sampleTexts_digests : sampleTexts.map (shortDigest sampleEnv) =
    ["deb8b936b641bf7f", "18dd619070fbc49c", "6043690961e03f87", "d1f13145a7bcb6af",
      "802305cf376a8b18", "18b63908565b65c7"] := by
  decide +kernel

theorem hashed_injOn {a b : IndexEntry ℚ}
    (ha : a.payload ∈ sampleTexts ∧
      "manifest-" ++ shortDigest sampleEnv a.payload ++ "|1" ∈ sampleTexts)
    (hb : b.payload ∈ sampleTexts ∧
      "manifest-" ++ shortDigest sampleEnv b.payload ++ "|1" ∈ sampleTexts) :
    Set.InjOn (shortDigest sampleEnv) (a.hashed sampleEnv ∪ b.hashed sampleEnv) := by
  have hmem : ∀ text ∈ a.hashed sampleEnv ∪ b.hashed sampleEnv, text ∈ sampleTexts := by
    rintro text ((rfl | rfl) | (rfl | rfl))
    · exact ha.1
    · exact ha.2
    · exact hb.1
    · exact hb.2
  have hnodup : (sampleTexts.map (shortDigest sampleEnv)).Nodup := by
    rw [sampleTexts_digests]
    decide
  intro x hx y hy hsame
  exact List.inj_on_of_nodup_map hnodup (hmem x hx) (hmem y hy) hsame

theorem manifest_distinct_models :
    ((sampleEntry "h" "m" none).identity ≠ (sampleEntry "h" "n" none).identity →
        (sampleManifest "h" "m" "deb8b936b641bf7f").manifestId ≠
            (sampleManifest "h" "n" "6043690961e03f87").manifestId ∧
          (buildFromManifest sampleEnv 0 (sampleManifest "h" "m" "deb8b936b641bf7f")).artifactId ≠
            (buildFromManifest sampleEnv 0
              (sampleManifest "h" "n" "6043690961e03f87")).artifactId) ↔
      ((sampleEntry "h" "m" none).identity ≠ (sampleEntry "h" "n" none).identity →
        ¬ (sampleEntry "h" "m" none).Merged (sampleEntry "h" "n" none)) := by
  have hdigest := hashed_injOn (a := sampleEntry "h" "m" none) (b := sampleEntry "h" "n" none)
    (by decide +kernel) (by decide +kernel)
  exact manifest_distinct_iff (by decide +kernel) (by decide +kernel) hdigest

/-- A model id moves behind a prefix hash, and two tokenizers are not told apart. -/
theorem manifests_merge :
    let shifted := sampleEntry "h" "x|mlx|m" none
    let shifted' := sampleEntry "h|mlx|x" "m" none
    let first := sampleEntry "h" "m" (some "t")
    let second := sampleEntry "h" "m" (some "u")
    let manifest := sampleManifest "h" "m" "deb8b936b641bf7f"
    (shifted.manifest sampleEnv 0 = some (sampleManifest "h" "x|mlx|m" "802305cf376a8b18") ∧
        shifted'.manifest sampleEnv 0 = some (sampleManifest "h|mlx|x" "m" "802305cf376a8b18") ∧
        shifted.identity ≠ shifted'.identity ∧
        Set.InjOn (shortDigest sampleEnv)
          (shifted.hashed sampleEnv ∪ shifted'.hashed sampleEnv)) ∧
      first.manifest sampleEnv 0 = some manifest ∧ second.manifest sampleEnv 0 = some manifest ∧
        first.identity ≠ second.identity ∧
        Set.InjOn (shortDigest sampleEnv) (first.hashed sampleEnv ∪ second.hashed sampleEnv) := by
  refine ⟨⟨by decide +kernel, by decide +kernel, by decide +kernel, ?_⟩, by decide +kernel,
    by decide +kernel, by decide +kernel, ?_⟩
  · exact hashed_injOn (by decide +kernel) (by decide +kernel)
  · exact hashed_injOn (by decide +kernel) (by decide +kernel)

end Whooshd.ThreadWake
