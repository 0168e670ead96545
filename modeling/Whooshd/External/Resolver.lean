import Whooshd.External.Routes
import Whooshd.Library.Coerce

namespace Whooshd.External
set_option autoImplicit true

inductive ResolutionStatus where
  | found | missing | invalidLayout | unsupportedFormat
  deriving DecidableEq, Repr

inductive ModelFormat where
  | gguf | mlx | safetensors
  deriving DecidableEq, Repr

namespace ModelFormat

def value : ModelFormat → String
  | gguf => "gguf"
  | mlx => "mlx"
  | safetensors => "safetensors"

def all : List ModelFormat := [gguf, mlx, safetensors]

/-- `_RUNTIME_MAP`. -/
def runtime : ModelFormat → String
  | gguf => "llama_cpp"
  | mlx => "mlx_lm"
  | safetensors => "unsupported"

end ModelFormat

structure ModelResolutionRequest where
  modelId : String
  format : Option String := none
  quant : Option String := none
  searchPaths : List ResolvedPath := []

structure ResolutionMetadata where
  checkedPaths : Option (List String) := none
  quantRequested : Option String := none
  matchedFile : Option String := none
  quant : Option String := none

structure ModelResolutionResult where
  status : ResolutionStatus := .missing
  modelId : String := ""
  format : Option String := none
  path : Option String := none
  source : Option String := none
  runtime : Option String := none
  reason : Option String := none
  metadata : ResolutionMetadata := {}

def detectFormat (host : Host) (modelId : String) : ModelFormat :=
  let upper := host.cases.upper modelId
  let lower := host.cases.lower modelId
  if Text.endsWith "-GGUF" upper || Text.occursIn "GGUF".toList upper.toList then .gguf
  else if Text.startsWith "mlx-community/" lower || Text.endsWith "-mlx" lower then .mlx
  else .safetensors

/-- `none` for an explicit format that is not supported. -/
def resolveFormat (host : Host) (explicit : Option String) (modelId : String) :
    Option ModelFormat :=
  match explicit with
  | some format => ModelFormat.all.find? (·.value = host.cases.lower (Text.strip format))
  | none => some (detectFormat host modelId)

/-- `Publisher/Repo` in its two components. -/
def splitModelId (modelId : String) : Option (String × String) :=
  match modelId.toList.splitOn '/' with
  | [publisher, repo] =>
    if publisher.isEmpty || repo.isEmpty then none
    else some (String.ofList publisher, String.ofList repo)
  | _ => none

/-- The sorted names of `directory.glob("*" + suffix)`; hidden ones are among them. -/
def globNames (host : Host) (directory : List String) (suffix : String) : List String :=
  (host.disk.sortedNames directory).filter (Text.endsWith suffix)

/-- The name has the quant in it, whatever the case of either. -/
def nameHasQuant (host : Host) (quant name : String) : Bool :=
  Text.strip quant ≠ "" && Text.occursIn (host.cases.lower (Text.strip quant)).toList
    (host.cases.lower name).toList

/-- The file that a directory is resolved to: without a quant it is the first one. -/
def matchedFile (host : Host) (quant : Option String) (ggufFiles : List String) :
    Option String :=
  match quant with
  | some quant => ggufFiles.find? (nameHasQuant host quant)
  | none => ggufFiles.head?

theorem matchedFile_nil (host : Host) (quant : Option String) :
    matchedFile host quant [] = none := by
  cases quant with
  | none => rfl
  | some quant => rfl

variable [Interpreter]

def validateGguf (host : Host) (directory : List String) (quant : Option String)
    (modelId runtime : String) (metadata : ResolutionMetadata) : ModelResolutionResult :=
  let ggufFiles := globNames host directory ".gguf"
  let result : ModelResolutionResult :=
    { modelId, format := some ModelFormat.gguf.value, runtime := some runtime, metadata }
  if ggufFiles.isEmpty then
    { result with
      status := .invalidLayout, reason := some "directory exists but contains no .gguf files" }
  else
    match matchedFile host quant ggufFiles with
    | none =>
      let asked := quant.getD ""
      { result with
        status := .missing, reason := some ("no .gguf file matching quant " ++ Json.reprStr asked)
        metadata := { metadata with quantRequested := some asked } }
    | some matched =>
      { result with
        status := .found, path := some (ResolvedPath.ofParts (directory ++ [matched])).str
        source := some "local_filesystem"
        metadata := { metadata with matchedFile := some matched, quant } }

def validateMlx (host : Host) (directory : List String) (modelId runtime : String)
    (metadata : ResolutionMetadata) : ModelResolutionResult :=
  let result : ModelResolutionResult :=
    { modelId, format := some ModelFormat.mlx.value, runtime := some runtime, metadata }
  if !host.disk.isFile (directory ++ ["config.json"]) then
    { result with
      status := .invalidLayout, reason := some "directory exists but lacks config.json" }
  else
    { result with
      status := .found, path := some (ResolvedPath.ofParts directory).str
      source := some "local_filesystem"
      metadata := { metadata with matchedFile := some "config.json" } }

/-- What a directory of the safetensors format is recognised by. -/
def safetensorsMatch (host : Host) (directory : List String) : Option String :=
  if host.disk.isFile (directory ++ ["config.json"]) then some "config.json"
  else if (globNames host directory ".safetensors").isEmpty then none
  else some "*.safetensors"

def validateSafetensors (host : Host) (directory : List String) (modelId runtime : String)
    (metadata : ResolutionMetadata) : ModelResolutionResult :=
  let result : ModelResolutionResult :=
    { modelId, format := some ModelFormat.safetensors.value, runtime := some runtime, metadata }
  match safetensorsMatch host directory with
  | none =>
    { result with
      status := .invalidLayout
      reason := some "directory exists but lacks config.json or .safetensors files" }
  | some matched =>
    { result with
      status := .found, path := some (ResolvedPath.ofParts directory).str
      source := some "local_filesystem"
      metadata := { metadata with matchedFile := some matched } }

/-- `none` lets the search go on in the next root. -/
def validateDirectory (host : Host) (candidateDir : List String) (fmt : ModelFormat)
    (quant : Option String) (modelId runtime : String) (checkedPaths : List String) :
    Option ModelResolutionResult :=
  if !host.disk.isDir candidateDir then none
  else
    let metadata : ResolutionMetadata := { checkedPaths := some checkedPaths }
    match fmt with
    | .gguf => some (validateGguf host candidateDir quant modelId runtime metadata)
    | .mlx => some (validateMlx host candidateDir modelId runtime metadata)
    | .safetensors => some (validateSafetensors host candidateDir modelId runtime metadata)

/-- `root / fmt / publisher / repo`. -/
def candidateDir (root : ResolvedPath) (fmt : ModelFormat) (publisher repo : String) :
    List String :=
  root.parts ++ (fmt.value :: (ResolvedPath.split publisher ++ ResolvedPath.split repo))

/-- The text of a path that has not been resolved. -/
def pathText (parts : List String) : String := "/" ++ ResolvedPath.relative parts

/-- The search through the roots: the first directory that is there decides. -/
def searchRoots (host : Host) (fmt : ModelFormat) (quant : Option String)
    (modelId publisher repo : String) (checkedPaths : List String) :
    List ResolvedPath → ModelResolutionResult
  | [] =>
    { status := .missing, modelId, format := some fmt.value, runtime := some fmt.runtime
      reason := some "model not found in any search path"
      metadata := { checkedPaths := some checkedPaths } }
  | root :: roots =>
    let dir := candidateDir root fmt publisher repo
    let checkedPaths := checkedPaths ++ [pathText dir]
    match validateDirectory host dir fmt quant modelId fmt.runtime checkedPaths with
    | some result => result
    | none => searchRoots host fmt quant modelId publisher repo checkedPaths roots

def resolveModel (host : Host) (request : ModelResolutionRequest) : ModelResolutionResult :=
  match resolveFormat host request.format request.modelId with
  | none =>
    { status := .unsupportedFormat, modelId := request.modelId, format := request.format
      reason := some ("unsupported format: " ++
        (request.format.map Json.reprStr).getD "None") }
  | some fmt =>
    match splitModelId request.modelId with
    | none =>
      { status := .missing, modelId := request.modelId, format := some fmt.value
        runtime := some fmt.runtime
        reason := some ("malformed model_id: " ++ Json.reprStr request.modelId)
        metadata := { checkedPaths := some [] } }
    | some (publisher, repo) =>
      searchRoots host fmt request.quant request.modelId publisher repo [] request.searchPaths

/-- The path of a result that was found. -/
def ModelResolutionResult.located (r : ModelResolutionResult) : Option String :=
  if r.status = .found then r.path else none

/-- The path that a directory resolves to. -/
def directoryPath (host : Host) (quant : Option String) (dir : List String) :
    ModelFormat → Option String
  | .gguf => (matchedFile host quant (globNames host dir ".gguf")).map fun name =>
      (ResolvedPath.ofParts (dir ++ [name])).str
  | .mlx =>
    if host.disk.isFile (dir ++ ["config.json"]) then some (ResolvedPath.ofParts dir).str
    else none
  | .safetensors => (safetensorsMatch host dir).map fun _ => (ResolvedPath.ofParts dir).str

theorem validateDirectory_located (host : Host) (dir : List String) (fmt : ModelFormat)
    (quant : Option String) (modelId runtime : String) (checkedPaths : List String) :
    (validateDirectory host dir fmt quant modelId runtime checkedPaths).map (·.located) =
      if host.disk.isDir dir then some (directoryPath host quant dir fmt) else none := by
  unfold validateDirectory
  cases hdir : host.disk.isDir dir with
  | false => rfl
  | true =>
    cases fmt with
    | gguf =>
      simp only [validateGguf, directoryPath]
      cases hfiles : globNames host dir ".gguf" with
      | nil => simp [matchedFile_nil, ModelResolutionResult.located]
      | cons name names =>
        cases hmatch : matchedFile host quant (name :: names) with
        | none => simp [ModelResolutionResult.located]
        | some matched => simp [ModelResolutionResult.located]
    | mlx =>
      simp only [validateMlx, directoryPath]
      cases host.disk.isFile (dir ++ ["config.json"]) with
      | false => rfl
      | true => rfl
    | safetensors =>
      simp only [validateSafetensors, directoryPath]
      cases safetensorsMatch host dir with
      | none => rfl
      | some matched => rfl

/-- The first root with the model's directory decides what a search finds. -/
theorem searchRoots_located (host : Host) (fmt : ModelFormat) (quant : Option String)
    (modelId publisher repo : String) (checkedPaths : List String) (roots : List ResolvedPath) :
    (searchRoots host fmt quant modelId publisher repo checkedPaths roots).located =
      (roots.find? fun root => host.disk.isDir (candidateDir root fmt publisher repo)).bind
        fun root => directoryPath host quant (candidateDir root fmt publisher repo) fmt := by
  induction roots generalizing checkedPaths with
  | nil => rfl
  | cons root roots ih =>
    rw [searchRoots, List.find?_cons]
    have hdir := validateDirectory_located host (candidateDir root fmt publisher repo) fmt quant
      modelId fmt.runtime (checkedPaths ++ [pathText (candidateDir root fmt publisher repo)])
    cases his : host.disk.isDir (candidateDir root fmt publisher repo) with
    | false =>
      rw [his, if_neg Bool.false_ne_true, Option.map_eq_none_iff] at hdir
      simp only [hdir]
      exact ih _
    | true =>
      rw [his, if_pos rfl, Option.map_eq_some_iff] at hdir
      obtain ⟨result, hresult, hlocated⟩ := hdir
      simp only [hresult]
      exact hlocated

end Whooshd.External
