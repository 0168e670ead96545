import Whooshd.Store.Contracts

namespace Whooshd.Store
set_option autoImplicit true

inductive NodeKind where
  | file | directory | other
  deriving DecidableEq, Repr

/-- What the read-only functions ask of the file system. Paths are absolute, by components,
and each question may raise. -/
structure FileView where
  /-- `Path.resolve`. -/
  resolve : List String → Except PyError ResolvedPath
  /-- What a path leads to: `exists`, `is_file` and `is_dir` read it. -/
  stat : List String → Except PyError (Option NodeKind)
  /-- The names that `iterdir` yields. -/
  iterdir : List String → Except PyError (List String)

def FileView.isFile (view : FileView) (path : List String) : Except PyError Bool :=
  return (← view.stat path) = some .file

def FileView.isDir (view : FileView) (path : List String) : Except PyError Bool :=
  return (← view.stat path) = some .directory

/-- The suffix of a file name, from its last dot on; a leading or a final dot is none. -/
def suffix (name : String) : String :=
  let tail := name.toList.reverse.takeWhile (· ≠ '.')
  let k := name.length - tail.length
  if k ≤ 1 || tail.isEmpty then "" else String.ofList (name.toList.drop (k - 1))

inductive AdapterKind where
  | mlxLmServer | mlxVlm | llamaCpp | unknown
  deriving DecidableEq, Repr

inductive CompatibilityStatus where
  | compatible | incompatible | indeterminate
  deriving DecidableEq, Repr

inductive CompatibilityProblem where
  | storeNotBootstrapped | manifestMissing | manifestUnreadable | manifestSchemaUnsupported
  | modelMissing | modelStatusNotRegistered | unsupportedStorageMode | managedPathMissing
  | managedPathEscapesStore | unsupportedFormat | insufficientAdapterEvidence
  deriving DecidableEq, Repr

structure CompatibilityResult where
  modelId : String
  status : CompatibilityStatus := .indeterminate
  adapterKind : AdapterKind := .unknown
  advertisable : Bool := false
  registered : Bool := false
  managedPath : String := ""
  absoluteManagedPath : String := ""
  detectedFormat : String := "unknown"
  detectedFamily : String := "unknown"
  modalities : List Json := []
  evidence : List Json := []
  problems : List CompatibilityProblem := []

/-- A model-store as the read-only functions find it. -/
structure StoreView where
  storeRoot : ResolvedPath
  registryDirExists : Bool
  manifest : JsonFile
  files : FileView

def addUnless (evidence : List Json) (ev : Json) : List Json :=
  if evidence.any (ev.pyEq ·) then evidence else evidence ++ [ev]

/-- The first file of the listing that passes `is_file` with the given suffix. -/
def anyFile (view : FileView) (dir : List String) (post : String) :
    List String → Except PyError Bool
  | [] => .ok false
  | n :: names => do
    if (← view.isFile (dir ++ [n])) && suffix n = post then return true
    anyFile view dir post names

/-- `_check_managed_files`: the answer, with the evidence and the problems it adds. -/
def checkManagedFiles (view : FileView) (path : List String) (fmt : String) (name : String) :
    Except PyError (Bool × List String × List CompatibilityProblem) := do
  if fmt = "mlx" then
    if ← view.isDir path then
      let config ← view.isFile (path ++ ["config.json"])
      let tokenizer ← (view.isFile (path ++ ["tokenizer.json"])).orTest
        (view.isFile (path ++ ["tokenizer_config.json"]))
      let safetensors ← (anyFile view path ".safetensors" (← view.iterdir path)).orTest
        (view.isFile (path ++ ["model.safetensors.index.json"]))
      let found := (if config then ["found_config_json"] else []) ++
        (if tokenizer then ["found_tokenizer"] else []) ++
        if safetensors then ["found_safetensors"] else []
      if config && (tokenizer || safetensors) then return (true, found, [])
      else return (false, found, [.insufficientAdapterEvidence])
    else return (false, [], [.managedPathMissing])
  else if fmt = "gguf" then
    if (← view.isFile path) && suffix name = ".gguf" then return (true, ["found_gguf_file"], [])
    else return (false, [], [.insufficientAdapterEvidence])
  else return (false, [], [.unsupportedFormat])

/-- The adapter of a format, with the evidence that the mapping adds. -/
def mapAdapter (fmt : String) (modalities : List Json) : Option (AdapterKind × List String) :=
  let has := fun m : String => modalities.any ((Json.str m).pyEq ·)
  if fmt = "mlx" then
    if has "vision" then
      some (.mlxVlm, ["format_mlx", "adapter_mlx_vlm", "modalities_vision", "modalities_text"])
    else some (.mlxLmServer, ["format_mlx", "adapter_mlx_lm_server", "modalities_text"])
  else if fmt = "gguf" then
    some (.llamaCpp, ["format_gguf", "adapter_llama_cpp"] ++
      if has "text" then ["modalities_text"] else [])
  else none

/-- The part of the validation that follows the path checks. -/
def validateManaged (view : FileView) (modelId : String) (rm : RegisteredModel)
    (path : ResolvedPath) : Except PyError CompatibilityResult := do
  let evidence : List String :=
    ["registered_model_found", "managed_path_exists", "managed_path_under_store_root"]
  match mapAdapter rm.detectedFormat rm.modalities with
  | none =>
    return { modelId, registered := true, managedPath := rm.managedPath
             absoluteManagedPath := path.str, detectedFormat := rm.detectedFormat
             modalities := rm.modalities, status := .incompatible
             evidence := evidence.map .str, problems := [.unsupportedFormat] }
  | some (adapterKind, mapped) =>
    let (advertisable, found, problems) ← checkManagedFiles view path.parts rm.detectedFormat
      (path.parts.getLast?.getD "")
    return { modelId
             status := if advertisable && problems.isEmpty then .compatible
               else if problems.isEmpty then .indeterminate else .incompatible
             adapterKind, advertisable, registered := true, managedPath := rm.managedPath
             absoluteManagedPath := path.str, detectedFormat := rm.detectedFormat
             detectedFamily := rm.detectedFamily, modalities := rm.modalities
             evidence := rm.evidence.foldl addUnless ((evidence ++ mapped ++ found).map .str)
             problems }

/-- The validation of a registered entry, from its status on. -/
def validateEntry (st : StoreView) (modelId : String) (rm : RegisteredModel) :
    Except PyError CompatibilityResult := do
  let found : CompatibilityResult :=
    { modelId, registered := true, detectedFormat := rm.detectedFormat
      evidence := [.str "registered_model_found"] }
  if rm.status ≠ "registered" then
    return { found with status := .incompatible, problems := [.modelStatusNotRegistered] }
  if rm.storageMode ≠ "managed" then
    return { found with problems := [.unsupportedStorageMode] }
  if rm.managedPath = "" then
    return { found with problems := [.managedPathMissing] }
  let path ← st.files.resolve (st.storeRoot.join rm.managedPath)
  if path.startsWith st.storeRoot = false then
    return { found with managedPath := rm.managedPath, problems := [.managedPathEscapesStore] }
  if (← st.files.stat path.parts) = none then
    return { found with managedPath := rm.managedPath, absoluteManagedPath := path.str
                        problems := [.managedPathMissing] }
  validateManaged st.files modelId rm path

/-- The opening of both read-only functions: the entries of a manifest of the supported
version, or the problem that ends the reading. -/
def StoreView.readEntries [Interpreter] (st : StoreView) :
    Except PyError (Except CompatibilityProblem (List Json)) := do
  if st.registryDirExists = false then return .error .storeNotBootstrapped
  if st.manifest.exists = false then return .error .manifestMissing
  match ← st.manifest.loads with
  | none => return .error .manifestUnreadable
  | some data =>
  let manifest ← ModelRegistryManifest.fromDict data
  if manifest.schemaVersion ≠ 1 then return .error .manifestSchemaUnsupported
  return .ok manifest.models

/-- The validation of the first entry under an id. -/
def validateAmong [Interpreter] (st : StoreView) (models : List Json) (modelId : String) :
    Except PyError CompatibilityResult := do
  match ← findEntry modelId models with
  | none => return { modelId, problems := [.modelMissing] }
  | some entry => validateEntry st modelId (← RegisteredModel.fromDict entry)

def validateRegisteredModelCompatibility [Interpreter] (st : StoreView) (modelId : String) :
    Except PyError CompatibilityResult := do
  match ← st.readEntries with
  | .error problem => return { modelId, problems := [problem] }
  | .ok models => validateAmong st models modelId

def RegisteredModel.IsManaged (rm : RegisteredModel) : Prop :=
  rm.status = "registered" ∧ rm.storageMode = "managed"

/-- The path of the entry passes both of the checks that are made of it. -/
structure Located (st : StoreView) (rm : RegisteredModel) (path : ResolvedPath) : Prop where
  managed : rm.IsManaged
  given : rm.managedPath ≠ ""
  resolves : st.files.resolve (st.storeRoot.join rm.managedPath) = .ok path
  passes : path.startsWith st.storeRoot = true
  present : ∃ kind, st.files.stat path.parts = .ok (some kind)

/-- The look at the managed files, where one is taken, raises nothing. -/
def Inspects (st : StoreView) (rm : RegisteredModel) (path : ResolvedPath) : Prop :=
  mapAdapter rm.detectedFormat rm.modalities ≠ none →
    (checkManagedFiles st.files path.parts rm.detectedFormat
      (path.parts.getLast?.getD "")).Returns

/-- None of the questions that validating the entry puts to the file system raises. -/
def Answers (st : StoreView) (rm : RegisteredModel) : Prop :=
  rm.IsManaged → rm.managedPath ≠ "" →
    ∃ path, st.files.resolve (st.storeRoot.join rm.managedPath) = .ok path ∧
      (path.startsWith st.storeRoot = true → ∃ kind, st.files.stat path.parts = .ok kind ∧
        (kind ≠ none → Inspects st rm path))

/-- The managed files are found sufficient. -/
def Advertises (st : StoreView) (rm : RegisteredModel) : Prop :=
  ∃ path, Located st rm path ∧ mapAdapter rm.detectedFormat rm.modalities ≠ none ∧
    ∃ found problems, checkManagedFiles st.files path.parts rm.detectedFormat
      (path.parts.getLast?.getD "") = .ok (true, found, problems)

/-- What the result says of the path: that it lies below the root, or that the model may be
advertised. -/
def CompatibilityResult.Reports (r : CompatibilityResult) : Prop :=
  .str "managed_path_under_store_root" ∈ r.evidence ∨ r.advertisable = true

theorem mem_foldl_addUnless (x : Json) (l : List Json) (evidence : List Json)
    (h : x ∈ evidence) : x ∈ l.foldl addUnless evidence := by
  induction l generalizing evidence with
  | nil => exact h
  | cons ev l ih =>
    apply ih
    unfold addUnless
    split
    · exact h
    · exact List.mem_append_left _ h

theorem validateManaged_returns (st : StoreView) (modelId : String) (rm : RegisteredModel)
    (path : ResolvedPath) :
    (validateManaged st.files modelId rm path).Returns ↔ Inspects st rm path := by
  unfold validateManaged Inspects
  cases mapAdapter rm.detectedFormat rm.modalities with
  | none => simp
  | some adapter =>
    simp only [Except.returns_bind, Except.returns_pure, and_true, ne_eq, reduceCtorEq,
      not_false_eq_true, true_implies]
    rfl

theorem validateManaged_ok {st : StoreView}
    (h : validateManaged st.files modelId rm path = .ok r) :
    .str "managed_path_under_store_root" ∈ r.evidence ∧ r.managedPath = rm.managedPath ∧
      (r.advertisable = true ↔ mapAdapter rm.detectedFormat rm.modalities ≠ none ∧
        ∃ found problems, checkManagedFiles st.files path.parts rm.detectedFormat
          (path.parts.getLast?.getD "") = .ok (true, found, problems)) := by
  unfold validateManaged at h
  cases hmap : mapAdapter rm.detectedFormat rm.modalities with
  | none =>
    simp only [hmap] at h
    cases h
    simp
  | some adapter =>
    simp only [hmap] at h
    obtain ⟨⟨ok, found, problems⟩, hcheck, h⟩ := Except.bind_eq_ok_iff.mp h
    cases h
    refine ⟨?_, rfl, ?_⟩
    · apply mem_foldl_addUnless
      simp
    · simp [hcheck]

theorem validateEntry_returns (st : StoreView) (modelId : String) (rm : RegisteredModel) :
    (validateEntry st modelId rm).Returns ↔ Answers st rm := by
  unfold validateEntry Answers RegisteredModel.IsManaged
  by_cases hstatus : rm.status = "registered"
  · by_cases hmode : rm.storageMode = "managed"
    · by_cases hpath : rm.managedPath = ""
      · simp [hstatus, hmode, hpath]
      · simp only [hstatus, hmode, hpath, ne_eq, not_true_eq_false, ↓reduceIte,
          Except.returns_bind, and_self, not_false_eq_true, true_implies]
        refine exists_congr fun path => and_congr_right fun _ => ?_
        cases hstart : path.startsWith st.storeRoot with
        | false => simp
        | true =>
          simp only [Bool.true_eq_false, ↓reduceIte, Except.returns_bind, true_implies]
          refine exists_congr fun kind => and_congr_right fun _ => ?_
          cases kind with
          | none => simp
          | some kind => simpa using validateManaged_returns st modelId rm path
    · simp [hstatus, hmode]
  · simp [hstatus]

/-- A result that reports the path as contained comes from the last part of the validation. -/
theorem validateEntry_reports (h : validateEntry st modelId rm = .ok r) (hr : r.Reports) :
    ∃ path, Located st rm path ∧ validateManaged st.files modelId rm path = .ok r := by
  unfold validateEntry at h
  split_ifs at h with hstatus hmode hpath
  · cases h
    simp [CompatibilityResult.Reports] at hr
  · cases h
    simp [CompatibilityResult.Reports] at hr
  · cases h
    simp [CompatibilityResult.Reports] at hr
  · obtain ⟨path, hresolve, h⟩ := Except.bind_eq_ok_iff.mp h
    split_ifs at h with hstart
    · cases h
      simp [CompatibilityResult.Reports] at hr
    · obtain ⟨kind, hstat, h⟩ := Except.bind_eq_ok_iff.mp h
      cases kind with
      | none =>
        cases h
        simp [CompatibilityResult.Reports] at hr
      | some kind =>
        rw [if_neg (by simp)] at h
        exact ⟨path, ⟨⟨by simpa using hstatus, by simpa using hmode⟩, hpath, hresolve,
          by simpa using hstart, kind, hstat⟩, h⟩

theorem validateEntry_of_located (h : Located st rm path) (modelId : String) :
    validateEntry st modelId rm = validateManaged st.files modelId rm path := by
  obtain ⟨kind, hstat⟩ := h.present
  simp [validateEntry, h.managed.1, h.managed.2, h.given, h.resolves, h.passes, hstat, bind,
    Except.bind]

theorem Located.unique (h : Located st rm path) (h' : Located st rm path') : path = path' := by
  have := h.resolves.symm.trans h'.resolves
  cases this
  rfl

theorem Located.answers (h : Located st rm path) : Answers st rm ↔ Inspects st rm path := by
  rw [← validateEntry_returns st "" rm, validateEntry_of_located h, validateManaged_returns]

theorem Advertises.answers (h : Advertises st rm) : Answers st rm := by
  obtain ⟨path, hloc, -, found, problems, hcheck⟩ := h
  exact hloc.answers.mpr fun _ => ⟨_, hcheck⟩

theorem validateEntry_advertises (h : validateEntry st modelId rm = .ok r) :
    r.advertisable = true ↔ Advertises st rm := by
  constructor
  · intro hadv
    obtain ⟨path, hloc, hok⟩ := validateEntry_reports h (.inr hadv)
    exact ⟨path, hloc, (validateManaged_ok hok).2.2.mp hadv⟩
  · rintro ⟨path, hloc, hsome⟩
    rw [validateEntry_of_located hloc] at h
    exact (validateManaged_ok h).2.2.mpr hsome

variable [Interpreter]

/-- The entry under the id, if there is one, converts and the file system answers for it. -/
def LookupAnswers (st : StoreView) (models : List Json) (modelId : String) : Prop :=
  ∃ found, findEntry modelId models = .ok found ∧
    ∀ entry, found = some entry → ∃ rm, RegisteredModel.fromDict entry = .ok rm ∧ Answers st rm

/-- The entry under the id is found advertisable. -/
def LookupAdvertises (st : StoreView) (models : List Json) (modelId : String) : Prop :=
  ∃ entry rm, findEntry modelId models = .ok (some entry) ∧
    RegisteredModel.fromDict entry = .ok rm ∧ Advertises st rm

theorem validateAmong_returns (st : StoreView) (models : List Json) (modelId : String) :
    (validateAmong st models modelId).Returns ↔ LookupAnswers st models modelId := by
  unfold validateAmong LookupAnswers
  rw [Except.returns_bind]
  refine exists_congr fun found => and_congr_right fun _ => ?_
  cases found with
  | none => simp
  | some entry => simp [Except.returns_bind, validateEntry_returns]

theorem validateAmong_reports (h : validateAmong st models modelId = .ok r) (hr : r.Reports) :
    ∃ entry rm path, findEntry modelId models = .ok (some entry) ∧
      RegisteredModel.fromDict entry = .ok rm ∧ Located st rm path ∧
      validateManaged st.files modelId rm path = .ok r := by
  unfold validateAmong at h
  obtain ⟨found, hfind, h⟩ := Except.bind_eq_ok_iff.mp h
  cases found with
  | none =>
    cases h
    simp [CompatibilityResult.Reports] at hr
  | some entry =>
    obtain ⟨rm, hrm, h⟩ := Except.bind_eq_ok_iff.mp h
    obtain ⟨path, hloc, hok⟩ := validateEntry_reports h hr
    exact ⟨entry, rm, path, hfind, hrm, hloc, hok⟩

theorem validateAmong_advertises (h : validateAmong st models modelId = .ok r) :
    r.advertisable = true ↔ LookupAdvertises st models modelId := by
  constructor
  · intro hadv
    obtain ⟨entry, rm, path, hfind, hrm, hloc, hok⟩ := validateAmong_reports h (.inr hadv)
    exact ⟨entry, rm, hfind, hrm, path, hloc, (validateManaged_ok hok).2.2.mp hadv⟩
  · rintro ⟨entry, rm, hfind, hrm, hadv⟩
    unfold validateAmong at h
    simp only [hfind, hrm, bind, Except.bind] at h
    exact (validateEntry_advertises h).mpr hadv

theorem validate_eq_among (h : st.readEntries = .ok (.ok models)) (modelId : String) :
    validateRegisteredModelCompatibility st modelId = validateAmong st models modelId := by
  simp [validateRegisteredModelCompatibility, h, bind, Except.bind]

end Whooshd.Store
