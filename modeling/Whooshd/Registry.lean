import Whooshd.Library.Dict

namespace Whooshd.Routing
set_option autoImplicit true

inductive EngineType where
  | mlxLm | mlxVlm | llamaCpp
  deriving DecidableEq, Repr

def EngineType.value : EngineType → String
  | mlxLm => "mlx_lm"
  | mlxVlm => "mlx_vlm"
  | llamaCpp => "llama_cpp"

inductive ModelFormat where
  | mlx | gguf
  deriving DecidableEq, Repr

inductive ModelModality where
  | text | vision | embedding
  deriving DecidableEq, Repr

structure RegistryModelEntry where
  engine : EngineType
  format : ModelFormat
  modalities : List ModelModality
  contextWindow : Int
  enabled : Bool
  deriving DecidableEq, Repr

structure ModelRegistryConfig where
  models : Dict String RegistryModelEntry
  deriving DecidableEq

def ModelRegistryConfig.get (reg : ModelRegistryConfig) (modelId : String) :
    Option RegistryModelEntry :=
  reg.models.get? modelId

inductive RegistryError where
  /-- `RegistryValidationError`, with the model it names. -/
  | registry (modelId message : String)
  /-- The schema validation of the parsed file raised. -/
  | schema
  deriving DecidableEq, Repr

def validateRegistryEntry (modelId : String) (entry : RegistryModelEntry) :
    Except RegistryError Unit :=
  let engine := entry.engine.value
  let window := entry.contextWindow
  if entry.format = .gguf ∧ entry.engine ≠ .llamaCpp then
    .error (.registry modelId s!"GGUF models must use engine 'llama_cpp', not '{engine}'")
  else if entry.format = .mlx ∧ entry.engine ≠ .mlxLm ∧ entry.engine ≠ .mlxVlm then
    .error (.registry modelId
      s!"MLX models must use engine 'mlx_lm' or 'mlx_vlm', not '{engine}'")
  else if .vision ∈ entry.modalities ∧ entry.engine ≠ .mlxVlm then
    .error (.registry modelId ("Vision models require a vision-capable engine (mlx_vlm), " ++
      s!"but engine is '{engine}'"))
  else if window ≤ 0 then
    .error (.registry modelId s!"context_window must be > 0, got {window}")
  else .ok ()

def validateRegistry (registry : ModelRegistryConfig) : Except RegistryError Unit :=
  registry.models.entries.forM fun (modelId, entry) => validateRegistryEntry modelId entry

/-- What the YAML parser and the schema make of the text of a registry file. -/
inductive ParsedRegistry where
  | invalidYaml
  | noModelsKey
  | modelsNotMapping
  | schemaError
  | config (registry : ModelRegistryConfig)
  deriving DecidableEq

inductive RegistryFile where
  | missing
  | unreadable
  | content (parsed : ParsedRegistry)
  deriving DecidableEq

def getModelRegistryPath (env : String) : Option String := if env = "" then none else some env

def loadModelRegistry (files : String → RegistryFile) (env : String) (path : Option String) :
    Except RegistryError (Option ModelRegistryConfig) :=
  let resolvedPath := match path with
    | some p => some p
    | none => if env = "" then none else some env
  match resolvedPath with
  | none => .ok none
  | some p =>
    match files p with
    | .missing => .ok none
    | .unreadable => .error (.registry "<registry>" "Registry file could not be read")
    | .content .invalidYaml => .error (.registry "<registry>" "Invalid YAML")
    | .content .noModelsKey =>
      .error (.registry "<registry>" "Registry file must contain a top-level 'models' key")
    | .content .modelsNotMapping =>
      .error (.registry "<registry>" "'models' must be a mapping of model_id → model entry")
    | .content .schemaError => .error .schema
    | .content (.config registry) =>
      match validateRegistry registry with
      | .error e => .error e
      | .ok () => .ok (some registry)

/-- The runtime's `_registry` attribute: `None`, the sentinel `False`, or a registry. -/
inductive RegistryState where
  | unset
  | unavailable
  | config (registry : ModelRegistryConfig)
  deriving DecidableEq

/-- `_load_registry` returns what it leaves in the attribute. -/
def RegistryState.load (cached : RegistryState) (files : String → RegistryFile) (env : String) :
    RegistryState :=
  match cached with
  | .unset =>
    let explicit := getModelRegistryPath env
    match loadModelRegistry files env explicit with
    | .ok none => if explicit.isSome then .unavailable else .unset
    | .ok (some registry) => .config registry
    | .error _ => .unavailable
  | loaded => loaded

/-- A runtime that has loaded nothing yet serves exactly a valid file at the path. -/
theorem RegistryState.load_unset (henv : env ≠ "") :
    RegistryState.load .unset files env = .config registry ↔
      files env = .content (.config registry) ∧ validateRegistry registry = .ok () := by
  have hpath : getModelRegistryPath env = some env := by simp [getModelRegistryPath, henv]
  simp only [RegistryState.load, loadModelRegistry, hpath, Option.isSome_some, if_true]
  constructor
  · intro h
    split at h
    · cases h
    · next reg hload =>
      cases h
      split at hload <;> try cases hload
      next hf =>
        split at hload
        · cases hload
        · next hv =>
          cases hload
          exact ⟨hf, hv⟩
    · cases h
  · rintro ⟨hf, hv⟩
    simp [hf, hv]

end Whooshd.Routing
