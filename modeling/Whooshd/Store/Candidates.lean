import Whooshd.Store.Compatibility

namespace Whooshd.Store
set_option autoImplicit true

variable [Interpreter]

/-- What an inspection asks of its surroundings. -/
structure InspectionView where
  files : FileView
  /-- `Path(os.path.expanduser(raw)).resolve()`. -/
  locate : String → Except PyError ResolvedPath
  /-- The configuration file of a directory. -/
  config : ResolvedPath → JsonFile
  /-- `encode` takes the text of a path: it raises on the surrogates that stand for bytes which
  are not UTF-8. -/
  encodes : String → Bool
  /-- The beginning of a SHA-256 digest. -/
  digest : String → List String → String
  /-- `str.lower`. -/
  lower : String → String
  /-- The set `_VLM_ARTIFACT_NAMES` in the order in which it is gone through. -/
  artifactNames : { names : List String //
    names.Perm ["mm_projector", "vision_tower", "image_newline"] }
  now : String

def makeCandidateId (view : InspectionView) (source : String) (evidence : List String) :
    Except PyError String :=
  if view.encodes source then .ok (view.digest source evidence) else .error .valueError

/-- The family that a lowered text names, by the first of the fragments that it holds. -/
def familyIn (text : String) : Option String :=
  ["gemma", "qwen", "llama"].find? fun family => Text.occursIn family.toList text.toList

def detectFamily (view : InspectionView) (path : ResolvedPath) : String :=
  (familyIn (view.lower (path.parts.getLast?.getD ""))).getD "unknown"

/-- The first family that an architecture names. -/
def familyOfArchitectures (view : InspectionView) : List Json → String
  | [] => "unknown"
  | arch :: rest => (familyIn (view.lower arch.toStr)).getD (familyOfArchitectures view rest)

def detectFamilyFromConfig (view : InspectionView) (config : Json) : Except PyError String := do
  let modelType := view.lower (← config.getD "model_type" noText).toStr
  let architectures ← config.getD "architectures" (.arr [])
  match familyIn modelType with
  | some family => return family
  | none => return familyOfArchitectures view (← architectures.toList)

def vlmModelTypes : List String := ["qwen2_vl", "qwen2-vl", "llava", "paligemma"]

def vlmArchitectures : List String :=
  ["qwen2vlforconditionalgeneration", "qwen2vl", "llavaforconditionalgeneration",
    "paligemmaforconditionalgeneration"]

def explicitVisionEvidence : List String :=
  ["found_vision_config", "model_type_qwen2_vl", "model_type_qwen2-vl", "model_type_llava",
    "model_type_paligemma", "architecture_qwen2vlforconditionalgeneration",
    "architecture_qwen2vl", "architecture_llavaforconditionalgeneration",
    "architecture_paligemmaforconditionalgeneration", "found_mm_projector",
    "found_vision_tower", "found_image_newline"]

def normalizeModalities (modalities evidence : List String) : List String :=
  let text := if "text" ∈ modalities then ["text"] else []
  if "vision" ∈ modalities && evidence.any (· ∈ explicitVisionEvidence) then text ++ ["vision"]
  else text

/-- A non-empty dictionary. -/
def isFilledDict : Json → Bool
  | .obj (_ :: _) => true
  | _ => false

/-- The evidence of the first architecture that stands for vision. -/
def visionArchitecture (view : InspectionView) (visionConfig : Json) :
    List Json → Option (List String)
  | [] => none
  | arch :: rest =>
    let archLower := view.lower arch.toStr
    if archLower ∈ vlmArchitectures then some ["architecture_" ++ archLower]
    else if Text.occursIn "forconditionalgeneration".toList archLower.toList &&
        isFilledDict visionConfig then
      some ["found_vision_config", "architecture_" ++ archLower]
    else visionArchitecture view visionConfig rest

/-- The first of the artifact names that exists in the directory. -/
def visionArtifact (view : InspectionView) (dir : ResolvedPath) :
    List String → Except PyError (Option String)
  | [] => .ok none
  | artifact :: rest => do
    if (← view.files.stat (dir.parts ++ [artifact])) ≠ none then return some artifact
    visionArtifact view dir rest

/-- `_detect_modalities`: the modalities, with the evidence that it adds. -/
def detectModalities (view : InspectionView) (config : Json) (dir : ResolvedPath) :
    Except PyError (List String × List String) := do
  let modelType := view.lower (← config.getD "model_type" noText).toStr
  let visionConfig ← config.getD "vision_config" (.obj [])
  let textConfig ← config.getD "text_config" (.obj [])
  if modelType ∈ vlmModelTypes then
    let key := String.ofList (modelType.toList.map fun c => if c = '-' then '_' else c)
    return (["text", "vision"], ["model_type_" ++ key])
  if isFilledDict visionConfig then
    return (["text", "vision"], "found_vision_config" ::
      if isFilledDict textConfig then ["found_text_config"] else [])
  let architectures ← (← config.getD "architectures" (.arr [])).toList
  match visionArchitecture view visionConfig architectures with
  | some evidence => return (["text", "vision"], evidence)
  | none =>
    if ← view.files.isDir dir.parts then
      if let some artifact ← visionArtifact view dir view.artifactNames.val then
        return (["text", "vision"], ["found_" ++ artifact])
    return (["text"], [])

/-- The hints of the configuration file, if there is one: the family, the modalities, the
evidence and whether the file is unreadable. -/
def readConfig (view : InspectionView) (dir : ResolvedPath) (hasConfig : Bool)
    (found : List String) : Except PyError (String × List String × List String × Bool) := do
  if hasConfig then
    let loaded ← (view.config dir).loads
    let config := loaded.getD (.obj [])
    let family ← detectFamilyFromConfig view config
    let found := found ++ if family ≠ "unknown" then ["model_type_" ++ family] else []
    let (modalities, added) ← detectModalities view config dir
    return (family, modalities, found ++ added, loaded.isNone)
  else return (detectFamily view dir, ["text"], found, false)

/-- The record of a path that is no model. -/
def bareRecord (view : InspectionView) (source sourcePath status : String)
    (problems : List String) : Except PyError ModelCandidate := do
  return { candidateId := ← makeCandidateId view source [], status, sourcePath
           detectedFormat := "unknown", detectedFamily := "unknown", modalities := []
           evidence := [], problems := problems.map .str, createdAt := view.now }

def inspectDirectory (view : InspectionView) (dir : ResolvedPath) :
    Except PyError ModelCandidate := do
  let contents ← view.files.iterdir dir.parts
  if contents = [] then
    return ← bareRecord view dir.str dir.str "unsupported" ["empty_directory"]
  let hasConfig ← view.files.isFile (dir.parts ++ ["config.json"])
  let hasTokenizer ← (view.files.isFile (dir.parts ++ ["tokenizer.json"])).orTest
    (view.files.isFile (dir.parts ++ ["tokenizer_config.json"]))
  let hasSafetensors ← (anyFile view.files dir.parts ".safetensors" contents).orTest
    (view.files.isFile (dir.parts ++ ["model.safetensors.index.json"]))
  let found := (if hasConfig then ["found_config_json"] else []) ++
    (if hasTokenizer then ["found_tokenizer"] else []) ++
    if hasSafetensors then ["found_safetensors"] else []
  let (family, modalities, evidence, unreadable) ← readConfig view dir hasConfig found
  let enough := hasSafetensors && (hasConfig || hasTokenizer)
  let problems := (if unreadable then ["config_unreadable"] else []) ++
    if hasSafetensors && !hasConfig && !hasTokenizer then ["ambiguous_candidate"] else []
  return { candidateId := ← makeCandidateId view dir.str evidence
           status := if enough then "candidate" else "unsupported", sourcePath := dir.str
           detectedFormat := if enough then "mlx" else "unknown", detectedFamily := family
           modalities := (normalizeModalities modalities evidence).map .str
           evidence := evidence.map .str, problems := problems.map .str, createdAt := view.now }

def emptyCandidate (view : InspectionView) (source : String) : Except PyError ModelCandidate :=
  bareRecord view source source "invalid" []

/-- The candidate that an inspection returns. -/
def inspectModelCandidate (view : InspectionView) (sourcePath : String) :
    Except PyError ModelCandidate := do
  let raw := Text.strip sourcePath
  if raw = "" then return ← emptyCandidate view ""
  let path ← view.locate raw
  match ← view.files.stat path.parts with
  | none => bareRecord view raw path.str "invalid" ["path_missing"]
  | some kind =>
    if kind = .file ∧ suffix (path.parts.getLast?.getD "") = ".gguf" then
      return { candidateId := ← makeCandidateId view path.str ["found_gguf_file"]
               status := "candidate", sourcePath := path.str, detectedFormat := "gguf"
               detectedFamily := detectFamily view path, modalities := [.str "text"]
               evidence := [.str "found_gguf_file"], problems := [], createdAt := view.now }
    else if kind = .directory then inspectDirectory view path
    else bareRecord view path.str path.str "unsupported" ["unsupported_format"]

theorem toDict_loadable {c : ModelCandidate} (modalities evidence problems : List String)
    (hmodalities : c.modalities = modalities.map .str)
    (hevidence : c.evidence = evidence.map .str) (hproblems : c.problems = problems.map .str) :
    c.toDict.loadable = true := by
  apply Json.loadable_of_depth
  · simp [ModelCandidate.toDict, hmodalities, hevidence, hproblems, Json.integersFit,
      Json.integersFitFields]
  · simp [ModelCandidate.toDict, hmodalities, hevidence, hproblems, Json.depth, Json.depthFields]

theorem bareRecord_ok (h : bareRecord view source sourcePath status problems = .ok c) :
    c.status = status ∧ c.sourcePath = sourcePath ∧ c.detectedFormat = "unknown" ∧
      c.toDict.loadable = true := by
  obtain ⟨id, -, h⟩ := Except.bind_eq_ok_iff.mp h
  cases h
  exact ⟨rfl, rfl, rfl, toDict_loadable [] [] _ rfl rfl rfl⟩

theorem inspectDirectory_ok (h : inspectDirectory view dir = .ok c) :
    c.sourcePath = dir.str ∧ c.detectedFormat ≠ "gguf" ∧ c.toDict.loadable = true := by
  unfold inspectDirectory at h
  obtain ⟨contents, -, h⟩ := Except.bind_eq_ok_iff.mp h
  split at h
  · obtain ⟨-, hsource, hformat, hload⟩ := bareRecord_ok h
    exact ⟨hsource, by simp [hformat], hload⟩
  · obtain ⟨hasConfig, -, h⟩ := Except.bind_eq_ok_iff.mp h
    obtain ⟨hasTokenizer, -, h⟩ := Except.bind_eq_ok_iff.mp h
    obtain ⟨hasSafetensors, -, h⟩ := Except.bind_eq_ok_iff.mp h
    obtain ⟨⟨family, modalities, evidence, unreadable⟩, -, h⟩ := Except.bind_eq_ok_iff.mp h
    obtain ⟨id, -, h⟩ := Except.bind_eq_ok_iff.mp h
    cases h
    refine ⟨rfl, ?_, toDict_loadable _ _ _ rfl rfl rfl⟩
    simp only
    split
    · simp
    · simp

/-- What an inspection returns: a record that can be read back; and the source of a candidate is
a resolved path, named as one if it is a GGUF file. -/
theorem inspectModelCandidate_ok (h : inspectModelCandidate view sourcePath = .ok c) :
    c.toDict.loadable = true ∧ (c.status = "candidate" →
      ∃ path : ResolvedPath, c.sourcePath = path.str ∧
        (c.detectedFormat = "gguf" → suffix (path.parts.getLast?.getD "") = ".gguf")) := by
  unfold inspectModelCandidate at h
  simp only at h
  split at h
  · obtain ⟨hstatus, -, -, hload⟩ := bareRecord_ok h
    exact ⟨hload, fun hc => absurd (hstatus.symm.trans hc) (by decide)⟩
  · obtain ⟨path, -, h⟩ := Except.bind_eq_ok_iff.mp h
    obtain ⟨kind, -, h⟩ := Except.bind_eq_ok_iff.mp h
    cases kind with
    | none =>
      obtain ⟨hstatus, -, -, hload⟩ := bareRecord_ok h
      exact ⟨hload, fun hc => absurd (hstatus.symm.trans hc) (by decide)⟩
    | some kind =>
      simp only at h
      split at h
      · rename_i hgguf
        obtain ⟨id, -, h⟩ := Except.bind_eq_ok_iff.mp h
        cases h
        exact ⟨toDict_loadable ["text"] ["found_gguf_file"] [] rfl rfl rfl,
          fun _ => ⟨path, rfl, fun _ => hgguf.2⟩⟩
      · split at h
        · obtain ⟨hsource, hformat, hload⟩ := inspectDirectory_ok h
          exact ⟨hload, fun _ => ⟨path, hsource, fun hf => absurd hf hformat⟩⟩
        · obtain ⟨hstatus, -, -, hload⟩ := bareRecord_ok h
          exact ⟨hload, fun hc => absurd (hstatus.symm.trans hc) (by decide)⟩

end Whooshd.Store
