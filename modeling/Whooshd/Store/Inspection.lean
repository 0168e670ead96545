import Whooshd.Store.Candidates

namespace Whooshd.Store
set_option autoImplicit true

/-- Every question about the directory and what is in it is answered. -/
structure FileView.Readable (files : FileView) (dir : List String) : Prop where
  iterdir : (files.iterdir dir).Returns
  stat : ∀ rest, (files.stat (dir ++ rest)).Returns

variable {view : InspectionView} {dir : ResolvedPath}

theorem visionArtifact_returns (h : view.files.Readable dir.parts) (names : List String) :
    (visionArtifact view dir names).Returns := by
  induction names with
  | nil => exact Except.returns_ok none
  | cons artifact names ih =>
    obtain ⟨kind, hkind⟩ := h.stat [artifact]
    simp only [visionArtifact, hkind, bind, Except.bind]
    split
    · exact Except.returns_ok (some artifact)
    · exact ih

theorem anyFile_returns (h : view.files.Readable dir.parts) (post : String)
    (names : List String) : (anyFile view.files dir.parts post names).Returns := by
  induction names with
  | nil => exact Except.returns_ok false
  | cons name names ih =>
    obtain ⟨kind, hkind⟩ := h.stat [name]
    simp only [anyFile, FileView.isFile, hkind, bind, Except.bind, pure, Except.pure]
    split
    · exact Except.returns_ok true
    · exact ih

theorem isFile_returns (h : view.files.Readable dir.parts) (rest : List String) :
    (view.files.isFile (dir.parts ++ rest)).Returns := by
  obtain ⟨kind, hkind⟩ := h.stat rest
  rw [FileView.isFile, hkind]
  exact Except.returns_ok _

theorem bareRecord_returns (view : InspectionView) (source sourcePath status : String)
    (problems : List String) :
    (bareRecord view source sourcePath status problems).Returns ↔ view.encodes source = true := by
  rw [bareRecord, Except.returns_bind]
  cases hencodes : view.encodes source with
  | false => simp [makeCandidateId, hencodes]
  | true => simp [makeCandidateId, hencodes]

theorem familyIn_mem {text family : String} (h : familyIn text = some family) :
    family ∈ ["gemma", "qwen", "llama"] :=
  List.mem_of_find?_eq_some h

theorem modelTypeCode_plain {family : String}
    (h : family ∈ ["gemma", "qwen", "llama", "unknown"]) :
    "model_type_" ++ family ∉ explicitVisionEvidence := by
  simp only [List.mem_cons, List.not_mem_nil, or_false] at h
  rcases h with rfl | rfl | rfl | rfl <;> decide

theorem normalizeModalities_vision (modalities evidence : List String) :
    "vision" ∈ normalizeModalities modalities evidence ↔
      "vision" ∈ modalities ∧ ∃ marker ∈ explicitVisionEvidence, marker ∈ evidence := by
  have htext : "vision" ∉ if "text" ∈ modalities then ["text"] else [] := by
    split <;> decide
  have hany : evidence.any (· ∈ explicitVisionEvidence) = true ↔
      ∃ marker ∈ explicitVisionEvidence, marker ∈ evidence := by
    simp only [List.any_eq_true, decide_eq_true_eq]
    exact exists_congr fun marker => and_comm
  rw [normalizeModalities, ← hany]
  split
  · next hboth =>
    rw [Bool.and_eq_true, decide_eq_true_eq] at hboth
    exact iff_of_true (List.mem_append_right _ List.mem_cons_self) hboth
  · next hboth =>
    rw [Bool.and_eq_true, decide_eq_true_eq] at hboth
    exact iff_of_false htext hboth

/-- The codes of the files that are found. -/
def foundCodes (hasConfig hasTokenizer hasSafetensors : Bool) : List String :=
  (if hasConfig then ["found_config_json"] else []) ++
    (if hasTokenizer then ["found_tokenizer"] else []) ++
    if hasSafetensors then ["found_safetensors"] else []

theorem foundCodes_plain (hasConfig hasTokenizer hasSafetensors : Bool) :
    ∀ code ∈ foundCodes hasConfig hasTokenizer hasSafetensors,
      code ∉ explicitVisionEvidence := by
  cases hasConfig <;> cases hasTokenizer <;> cases hasSafetensors <;> decide

section
variable [Interpreter]

/-- The lowered type of the model that a configuration names. -/
def modelTypeOf (view : InspectionView) (fields : List (String × Json)) : String :=
  view.lower (Json.fieldD "model_type" noText fields).toStr

/-- The architectures can be gone through, or neither helper comes to them. -/
def ConfigFits (view : InspectionView) (fields : List (String × Json)) : Prop :=
  (Json.fieldD "architectures" (.arr []) fields).isIterable = true ∨
    (familyIn (modelTypeOf view fields)).isSome = true ∧
      (modelTypeOf view fields ∈ vlmModelTypes ∨
        isFilledDict (Json.fieldD "vision_config" (.obj []) fields) = true)

/-- A file that is not read counts as an empty configuration. One that is read must be decoded, be
a dictionary and fit. -/
def ConfigInspected (view : InspectionView) : JsonFile → Prop
  | .missing | .unreadable | .notJson => True
  | .undecodable => False
  | .document v => v.loadable = true ∧ ∃ fields, v = .obj fields ∧ ConfigFits view fields

/-- The path can be encoded, and the directory is empty, has no configuration or one that the
helpers go through. -/
def DirectoryInspected (view : InspectionView) (dir : ResolvedPath) : Prop :=
  view.encodes dir.str = true ∧
    (view.files.iterdir dir.parts = .ok [] ∨
      view.files.stat (dir.parts ++ ["config.json"]) ≠ .ok (some .file) ∨
        ConfigInspected view (view.config dir))

/-- The record lists vision exactly if its evidence has a marker of it. -/
def VisionEvident (c : ModelCandidate) : Prop :=
  .str "vision" ∈ c.modalities ↔ ∃ marker ∈ explicitVisionEvidence, .str marker ∈ c.evidence

theorem detectFamilyFromConfig_returns (fields : List (String × Json)) :
    (detectFamilyFromConfig view (.obj fields)).Returns ↔
      (familyIn (modelTypeOf view fields)).isSome = true ∨
        (Json.fieldD "architectures" (.arr []) fields).isIterable = true := by
  simp only [detectFamilyFromConfig, modelTypeOf, Json.getD_obj, bind, Except.bind]
  cases familyIn (view.lower (Json.fieldD "model_type" noText fields).toStr) with
  | some family => simp
  | none =>
    rw [← Json.toList_returns]
    cases (Json.fieldD "architectures" (.arr []) fields).toList with
    | error e => simp
    | ok architectures => simp

theorem detectModalities_returns (h : view.files.Readable dir.parts)
    (fields : List (String × Json)) :
    (detectModalities view (.obj fields) dir).Returns ↔
      (modelTypeOf view fields ∈ vlmModelTypes ∨
          isFilledDict (Json.fieldD "vision_config" (.obj []) fields) = true) ∨
        (Json.fieldD "architectures" (.arr []) fields).isIterable = true := by
  simp only [detectModalities, modelTypeOf, Json.getD_obj, bind, Except.bind]
  by_cases htype : view.lower (Json.fieldD "model_type" noText fields).toStr ∈ vlmModelTypes
  · simp [htype]
  by_cases hvision : isFilledDict (Json.fieldD "vision_config" (.obj []) fields) = true
  · simp [htype, hvision]
  rw [if_neg htype, if_neg hvision, or_iff_right (not_or.mpr ⟨htype, hvision⟩),
    ← Json.toList_returns]
  cases (Json.fieldD "architectures" (.arr []) fields).toList with
  | error e => simp
  | ok architectures =>
    obtain ⟨kind, hkind⟩ := h.stat []
    rw [List.append_nil] at hkind
    obtain ⟨artifact, hartifact⟩ := visionArtifact_returns h view.artifactNames.val
    simp only [FileView.isDir, hkind, hartifact, bind, Except.bind, Except.returns_ok, iff_true]
    cases visionArchitecture view (Json.fieldD "vision_config" (.obj []) fields) architectures with
    | some evidence => exact Except.returns_ok _
    | none =>
      dsimp only [pure, Except.pure]
      split
      · cases artifact with
        | some artifact => exact Except.returns_ok _
        | none => exact Except.returns_ok _
      · exact Except.returns_ok _

theorem detectFamilyFromConfig_dict {config : Json}
    (h : (detectFamilyFromConfig view config).Returns) : ∃ fields, config = .obj fields := by
  rw [detectFamilyFromConfig, Except.returns_bind] at h
  obtain ⟨modelType, hget, -⟩ := h
  exact (Json.getD_returns config "model_type" noText).mp ⟨modelType, hget⟩

theorem helpers_return (h : view.files.Readable dir.parts) (config : Json) :
    ((detectFamilyFromConfig view config).Returns ∧
        (detectModalities view config dir).Returns) ↔
      ∃ fields, config = .obj fields ∧ ConfigFits view fields := by
  constructor
  · rintro ⟨hfamily, hmodalities⟩
    obtain ⟨fields, rfl⟩ := detectFamilyFromConfig_dict hfamily
    rw [detectFamilyFromConfig_returns] at hfamily
    rw [detectModalities_returns h] at hmodalities
    refine ⟨fields, rfl, ?_⟩
    cases hfamily with
    | inr hiterable => exact .inl hiterable
    | inl hnamed =>
      cases hmodalities with
      | inr hiterable => exact .inl hiterable
      | inl hvision => exact .inr ⟨hnamed, hvision⟩
  · rintro ⟨fields, rfl, hfits⟩
    rw [detectFamilyFromConfig_returns, detectModalities_returns h]
    cases hfits with
    | inl hiterable => exact ⟨.inr hiterable, .inr hiterable⟩
    | inr hnamed => exact ⟨.inl hnamed.1, .inl hnamed.2⟩

theorem configFits_empty (view : InspectionView) : ConfigFits view [] := .inl rfl

/-- The configuration that is gone through where the file is read or counts as empty. -/
theorem configInspected_iff (view : InspectionView) (file : JsonFile) :
    ConfigInspected view file ↔ ∃ loaded, file.loads = .ok loaded ∧
      ∃ fields, loaded.getD (.obj []) = .obj fields ∧ ConfigFits view fields := by
  have hempty : ∃ loaded : Option Json, (Except.ok none : Except PyError _) = .ok loaded ∧
      ∃ fields, loaded.getD (.obj []) = .obj fields ∧ ConfigFits view fields :=
    ⟨none, rfl, [], rfl, configFits_empty view⟩
  cases file with
  | missing => exact iff_of_true trivial hempty
  | unreadable => exact iff_of_true trivial hempty
  | notJson => exact iff_of_true trivial hempty
  | undecodable => simp [ConfigInspected, JsonFile.loads]
  | document v =>
    rw [ConfigInspected, JsonFile.loads]
    cases v.loadable with
    | false => simp
    | true => simp

theorem readConfig_returns (h : view.files.Readable dir.parts) (hasConfig : Bool)
    (found : List String) : (readConfig view dir hasConfig found).Returns ↔
      hasConfig = false ∨ ConfigInspected view (view.config dir) := by
  cases hasConfig with
  | false => simp [readConfig]
  | true =>
    rw [configInspected_iff, readConfig, if_pos rfl, Except.returns_bind]
    simp only [Bool.true_eq_false, false_or]
    refine exists_congr fun loaded => and_congr_right fun _ => ?_
    rw [← helpers_return h, Except.returns_bind]
    constructor
    · rintro ⟨family, hfamily, hrest⟩
      rw [Except.returns_bind] at hrest
      obtain ⟨modalities, hmodalities, -⟩ := hrest
      exact ⟨⟨family, hfamily⟩, modalities, hmodalities⟩
    · rintro ⟨⟨family, hfamily⟩, modalities, hmodalities⟩
      refine ⟨family, hfamily, ?_⟩
      rw [Except.returns_bind]
      exact ⟨modalities, hmodalities, Except.returns_pure _⟩

/-- The record of a directory, of the files that are found and what is read of them. -/
def directoryRecord (view : InspectionView) (dir : ResolvedPath)
    (hasConfig hasTokenizer hasSafetensors : Bool)
    (read : String × List String × List String × Bool) : ModelCandidate :=
  let enough := hasSafetensors && (hasConfig || hasTokenizer)
  let problems := (if read.2.2.2 then ["config_unreadable"] else []) ++
    if hasSafetensors && !hasConfig && !hasTokenizer then ["ambiguous_candidate"] else []
  { candidateId := view.digest dir.str read.2.2.1
    status := if enough then "candidate" else "unsupported", sourcePath := dir.str
    detectedFormat := if enough then "mlx" else "unknown", detectedFamily := read.1
    modalities := (normalizeModalities read.2.1 read.2.2.1).map .str
    evidence := read.2.2.1.map .str, problems := problems.map .str, createdAt := view.now }

theorem inspectDirectory_filled (h : view.files.Readable dir.parts) {contents : List String}
    (hcontents : view.files.iterdir dir.parts = .ok contents) (hfilled : contents ≠ [])
    {kind : Option NodeKind}
    (hkind : view.files.stat (dir.parts ++ ["config.json"]) = .ok kind) :
    ∃ hasTokenizer hasSafetensors, inspectDirectory view dir = (do
      let read ← readConfig view dir (decide (kind = some .file))
        (foundCodes (decide (kind = some .file)) hasTokenizer hasSafetensors)
      if view.encodes dir.str then
        .ok (directoryRecord view dir (decide (kind = some .file)) hasTokenizer hasSafetensors read)
      else .error .valueError) := by
  obtain ⟨hasTokenizer, htokenizer⟩ := Except.orTest_returns (isFile_returns h ["tokenizer.json"])
    (isFile_returns h ["tokenizer_config.json"])
  obtain ⟨hasSafetensors, hsafetensors⟩ := Except.orTest_returns
    (anyFile_returns h ".safetensors" contents)
    (isFile_returns h ["model.safetensors.index.json"])
  have hconfig : view.files.isFile (dir.parts ++ ["config.json"]) =
      .ok (decide (kind = some .file)) := by
    rw [FileView.isFile, hkind]
    rfl
  refine ⟨hasTokenizer, hasSafetensors, ?_⟩
  rw [inspectDirectory, hcontents]
  simp only [hconfig, htokenizer, hsafetensors, bind, Except.bind, if_neg hfilled, foundCodes]
  cases readConfig view dir (decide (kind = some .file)) _ with
  | error e => rfl
  | ok read =>
    simp only [makeCandidateId]
    cases view.encodes dir.str with
    | false => rfl
    | true => rfl

theorem inspectDirectory_empty (hempty : view.files.iterdir dir.parts = .ok []) :
    inspectDirectory view dir =
      bareRecord view dir.str dir.str "unsupported" ["empty_directory"] := by
  rw [inspectDirectory, hempty]
  rfl

theorem inspectDirectory_returns (h : view.files.Readable dir.parts) :
    (inspectDirectory view dir).Returns ↔ DirectoryInspected view dir := by
  obtain ⟨contents, hcontents⟩ := h.iterdir
  obtain ⟨kind, hkind⟩ := h.stat ["config.json"]
  rw [DirectoryInspected, hcontents, hkind, Ne, Except.ok.injEq, Except.ok.injEq]
  by_cases hempty : contents = []
  · rw [inspectDirectory_empty (hempty ▸ hcontents), bareRecord_returns]
    exact (and_iff_left (.inl hempty)).symm
  · obtain ⟨hasTokenizer, hasSafetensors, hinspect⟩ :=
      inspectDirectory_filled h hcontents hempty hkind
    rw [hinspect, or_iff_right hempty, ← decide_eq_false_iff_not, Except.returns_bind]
    cases hencodes : view.encodes dir.str with
    | false => simp
    | true =>
      rw [← readConfig_returns h _ (foundCodes (decide (kind = some .file)) hasTokenizer
        hasSafetensors)]
      simp only [if_true, Except.returns_ok, and_true, true_and]
      rfl

theorem familyOfArchitectures_mem (architectures : List Json) :
    familyOfArchitectures view architectures ∈ ["gemma", "qwen", "llama", "unknown"] := by
  induction architectures with
  | nil => simp [familyOfArchitectures]
  | cons arch rest ih =>
    rw [familyOfArchitectures]
    cases hfamily : familyIn (view.lower arch.toStr) with
    | none => exact ih
    | some family => exact List.mem_append_left ["unknown"] (familyIn_mem hfamily)

theorem detectFamilyFromConfig_mem {config : Json} {family : String}
    (h : detectFamilyFromConfig view config = .ok family) :
    family ∈ ["gemma", "qwen", "llama", "unknown"] := by
  unfold detectFamilyFromConfig at h
  obtain ⟨modelType, -, h⟩ := Except.bind_eq_ok_iff.mp h
  obtain ⟨architectures, -, h⟩ := Except.bind_eq_ok_iff.mp h
  split at h
  · next found hfound =>
    cases h
    exact List.mem_append_left ["unknown"] (familyIn_mem hfound)
  · obtain ⟨items, -, h⟩ := Except.bind_eq_ok_iff.mp h
    cases h
    exact familyOfArchitectures_mem items

/-- Evidence is added only where vision is. -/
theorem detectModalities_added {config : Json} {modalities added : List String}
    (h : detectModalities view config dir = .ok (modalities, added)) :
    added = [] ∨ "vision" ∈ modalities := by
  unfold detectModalities at h
  obtain ⟨modelType, -, h⟩ := Except.bind_eq_ok_iff.mp h
  obtain ⟨visionConfig, -, h⟩ := Except.bind_eq_ok_iff.mp h
  obtain ⟨textConfig, -, h⟩ := Except.bind_eq_ok_iff.mp h
  split at h
  · cases h
    right
    decide
  split at h
  · cases h
    right
    decide
  obtain ⟨architectures, -, h⟩ := Except.bind_eq_ok_iff.mp h
  obtain ⟨items, -, h⟩ := Except.bind_eq_ok_iff.mp h
  split at h
  · cases h
    right
    decide
  obtain ⟨isDir, -, h⟩ := Except.bind_eq_ok_iff.mp h
  split at h
  · obtain ⟨artifact, -, h⟩ := Except.bind_eq_ok_iff.mp h
    split at h
    · cases h
      right
      decide
    · cases h
      exact .inl rfl
  · cases h
    exact .inl rfl

theorem readConfig_vision {hasConfig : Bool} {found : List String}
    (hfound : ∀ code ∈ found, code ∉ explicitVisionEvidence)
    {read : String × List String × List String × Bool}
    (h : readConfig view dir hasConfig found = .ok read) {marker : String}
    (hmarker : marker ∈ explicitVisionEvidence) (hin : marker ∈ read.2.2.1) :
    "vision" ∈ read.2.1 := by
  unfold readConfig at h
  split at h
  · obtain ⟨loaded, -, h⟩ := Except.bind_eq_ok_iff.mp h
    obtain ⟨family, hfamily, h⟩ := Except.bind_eq_ok_iff.mp h
    obtain ⟨⟨modalities, added⟩, hmodalities, h⟩ := Except.bind_eq_ok_iff.mp h
    cases h
    cases detectModalities_added hmodalities with
    | inr hvision => exact hvision
    | inl hnone =>
      rw [hnone, List.append_nil, List.mem_append] at hin
      cases hin with
      | inl hin => exact absurd hmarker (hfound marker hin)
      | inr hin =>
        split at hin
        · rw [List.mem_singleton] at hin
          exact absurd (hin ▸ hmarker)
            (modelTypeCode_plain (detectFamilyFromConfig_mem hfamily))
        · cases hin
  · cases h
    exact absurd hmarker (hfound marker hin)

theorem inspectDirectory_vision (h : view.files.Readable dir.parts) {c : ModelCandidate}
    (hinspect : inspectDirectory view dir = .ok c) : VisionEvident c := by
  obtain ⟨contents, hcontents⟩ := h.iterdir
  obtain ⟨kind, hkind⟩ := h.stat ["config.json"]
  by_cases hempty : contents = []
  · rw [inspectDirectory_empty (hempty ▸ hcontents)] at hinspect
    obtain ⟨id, -, hinspect⟩ := Except.bind_eq_ok_iff.mp hinspect
    cases hinspect
    simp [VisionEvident]
  · obtain ⟨hasTokenizer, hasSafetensors, hfilled⟩ :=
      inspectDirectory_filled h hcontents hempty hkind
    rw [hfilled] at hinspect
    obtain ⟨read, hread, hinspect⟩ := Except.bind_eq_ok_iff.mp hinspect
    split at hinspect
    swap
    · cases hinspect
    cases hinspect
    have hstr (texts : List String) (text : String) : Json.str text ∈ texts.map .str ↔
        text ∈ texts := List.mem_map_of_injective fun _ _ => Json.str.inj
    simp only [VisionEvident, directoryRecord, hstr, normalizeModalities_vision]
    constructor
    · exact And.right
    · rintro ⟨marker, hmarker, hin⟩
      exact ⟨readConfig_vision (foundCodes_plain _ hasTokenizer hasSafetensors) hread hmarker hin,
        marker, hmarker, hin⟩

/-- A readable directory is inspected exactly where its configuration is gone through, and what is
returned lists vision by its evidence. -/
theorem inspectDirectory_iff (h : view.files.Readable dir.parts) :
    (∃ c, inspectDirectory view dir = .ok c ∧ VisionEvident c) ↔ DirectoryInspected view dir := by
  rw [← inspectDirectory_returns h]
  constructor
  · rintro ⟨c, hc, -⟩
    exact ⟨c, hc⟩
  · rintro ⟨c, hc⟩
    exact ⟨c, hc, inspectDirectory_vision h hc⟩

end

/-- A directory of weights with the configuration given. -/
def mlxView (config : JsonFile) : InspectionView where
  files :=
    { resolve := fun path => .ok (.ofParts path)
      stat := fun path => .ok (if path = ["models", "m"] then some .directory
        else if path ∈ [["models", "m", "config.json"], ["models", "m", "model.safetensors"]] then
          some .file
        else none)
      iterdir := fun _ => .ok ["config.json", "model.safetensors"] }
  locate := fun _ => .ok (.ofParts ["models", "m"])
  config := fun _ => config
  encodes := fun _ => true
  digest := fun _ _ => "0f1e2d3c4b5a"
  lower := fun s => String.ofList (s.toList.map Char.toLower)
  artifactNames := ⟨_, .refl _⟩
  now := "2026-01-01T00:00:00+00:00"

def mlxDir : ResolvedPath := .ofParts ["models", "m"]

theorem mlxView_readable (config : JsonFile) : (mlxView config).files.Readable mlxDir.parts where
  iterdir := ⟨_, rfl⟩
  stat _ := ⟨_, rfl⟩

/-- The configuration of a model that reads images. -/
def qwenConfig : JsonFile := .document (.obj [("model_type", .str "qwen2_vl")])

section
attribute [local instance] latin1Interpreter

theorem inspectDirectory_qwen :
    (∃ c, inspectDirectory (mlxView qwenConfig) mlxDir = .ok c ∧ VisionEvident c) ↔
      DirectoryInspected (mlxView qwenConfig) mlxDir :=
  inspectDirectory_iff (mlxView_readable qwenConfig)

/-- Bytes that are no text, a list and architectures that are null raise. -/
theorem inspection_raises :
    (∀ config, (mlxView config).files.Readable mlxDir.parts) ∧
      (inspectDirectory (mlxView .undecodable) mlxDir).map (·.status) = .error .valueError ∧
      (inspectDirectory (mlxView (.document (.arr []))) mlxDir).map (·.status) =
        .error .attributeError ∧
      (inspectDirectory (mlxView (.document (.obj [("architectures", .null)]))) mlxDir).map
        (·.status) = .error .typeError :=
  ⟨mlxView_readable, rfl, rfl, rfl⟩

end

end Whooshd.Store
