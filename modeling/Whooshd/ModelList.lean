import Whooshd.External.Agreement
import Whooshd.Routing
import Whooshd.Store.Inventory

namespace Whooshd.Inventory
open Routing
set_option autoImplicit true

/-- All that the model lists and the router are made from. -/
structure Deployment where
  host : External.Host
  /-- What `load_external_weight_routes` returns: none when it raises. -/
  routes : List External.ExternalWeightRoute
  /-- `WHOOSHD_MODEL_REGISTRY_PATH`. -/
  registryPath : String
  files : String → RegistryFile
  registry : RegistryState
  /-- `WHOOSHD_ADAPTER`. -/
  adapterBackend : String
  /-- `WHOOSHD_MLX_MODEL`. -/
  mlxModel : String
  router : RuntimeRouter
  /-- The ids of `list_models()` of the adapter of a kind, `none` when it raises. -/
  listModels : String → Option (List String)
  isLoaded : String → Bool
  /-- The model store, when `WHOOSHD_MODEL_STORE_ROOT` is set. -/
  store : Option Store.StoreView

def runtimeKinds : List String := ["stub", "mlx_lm", "mlx_lm_server", "mlx_vlm", "llama_cpp"]

structure ModelInfo where
  id : String
  loaded : Bool
  resolutionSource : ResolutionSource

structure EntryMetadata where
  engine : Option String := none
  format : Option String := none
  source : Option String := none
  servable : Option Bool := none
  resolutionSource : ResolutionSource

structure OpenAIModelEntry where
  id : String
  metadata : EntryMetadata

structure TagDetails where
  format : Option String := none
  family : Option String := none
  source : Option String := none
  servable : Option Bool := none

structure OllamaTagEntry where
  name : String
  model : String
  details : TagDetails := {}

def formatValue : ModelFormat → String
  | .mlx => "mlx"
  | .gguf => "gguf"

def enabledModels (reg : ModelRegistryConfig) : List (String × RegistryModelEntry) :=
  reg.models.entries.filter (·.2.enabled)

namespace Deployment

variable [Interpreter]

/-- The external lookup of the router: there is none without routes. -/
def external (d : Deployment) (modelId : String) : Option ExternalResolution :=
  if d.routes.isEmpty then none
  else
    let r := External.resolveExternalRuntimeModel d.host modelId d.routes
    some { found := r.found, servable := r.servable, reason := r.reason, runtime := r.runtime
           path := r.path }

def environment (d : Deployment) : Environment where
  registryPath := d.registryPath
  files := d.files
  registry := d.registry
  external := d.external
  adapterBackend := d.adapterBackend

/-- The registry, when it counts as true: an empty one does not. -/
def activeRegistry (d : Deployment) : Option ModelRegistryConfig :=
  match d.environment.loadRegistry with
  | .config reg => if reg.models.size = 0 then none else some reg
  | _ => none

def getAdvertisedModelId (d : Deployment) : String :=
  if d.host.cases.lower (Text.strip d.adapterBackend) = "mlx" then
    let configured := Text.strip d.mlxModel
    if configured = "" then "stub-model" else configured
  else "stub-model"

/-- Whether one of the adapters has the model loaded. -/
def holdsLoaded (d : Deployment) (modelId : String) :
    List InferenceAdapter → Except RoutingError Bool
  | [] => .ok false
  | a :: rest =>
    match a.modelId with
    | none => .error .adapterRaised
    | some loadedId =>
      if d.isLoaded a.kind && loadedId = some modelId then .ok true
      else d.holdsLoaded modelId rest

def buildModelInfo (d : Deployment) : Except RoutingError ModelInfo := do
  let loaded ← d.holdsLoaded d.getAdvertisedModelId d.router.adapters.values
  return { id := d.getAdvertisedModelId, loaded
           resolutionSource := if loaded then .loadedModelMatch else .stubOnlyCompatibility }

def nonStubAdapters (d : Deployment) : List InferenceAdapter :=
  (d.router.adapters.entries.filter fun p => p.1 ≠ "stub").map Prod.snd

/-- The models of one adapter. -/
def adapterModels (d : Deployment) (a : InferenceAdapter) : List ModelInfo :=
  ((d.listModels a.kind).getD []).map fun id =>
    { id, loaded := d.isLoaded a.kind
      resolutionSource :=
        if d.isLoaded a.kind then .loadedModelMatch else .singleRuntimeCompatibility }

def modelsFromAdapters (d : Deployment) : Except RoutingError (List ModelInfo) :=
  let results := d.nonStubAdapters.flatMap d.adapterModels
  if results.isEmpty then d.buildModelInfo.map ([·]) else .ok results

/-- The model of the first adapter that has one loaded. -/
def firstLoaded (d : Deployment) : List InferenceAdapter → Except RoutingError (Option String)
  | [] => .ok none
  | a :: rest =>
    if d.isLoaded a.kind then
      match a.modelId with
      | none => .error .adapterRaised
      | some loadedId => .ok loadedId
    else d.firstLoaded rest

def modelsFromRegistry (d : Deployment) (reg : ModelRegistryConfig) :
    Except RoutingError (List ModelInfo) := do
  let loadedModelId ← d.firstLoaded d.router.adapters.values
  return (enabledModels reg).map fun (modelId, _) =>
    { id := modelId, loaded := loadedModelId = some modelId && modelId ≠ ""
      resolutionSource := .authoritativeRegistry }

def listModelsAsync (d : Deployment) : Except RoutingError (List ModelInfo) :=
  if d.environment.loadRegistry = .unavailable && (getModelRegistryPath d.registryPath).isSome then
    .ok []
  else
    match d.activeRegistry with
    | some reg => d.modelsFromRegistry reg
    | none => d.modelsFromAdapters

/-- The models of the store that may be advertised: none when their collection raises. -/
def registeredModels (d : Deployment) : List Store.RegisteredModel :=
  match d.store with
  | none => []
  | some store =>
    match Store.collectAdvertisableRegisteredModels store with
    | .ok models => models
    | .error _ => []

def externalInventory (d : Deployment) : List External.ExternalModelInventoryEntry :=
  if d.routes.isEmpty then [] else External.listExternalModelInventory d.host d.routes

end Deployment

variable [Interpreter]

def adapterToEngine (rm : Store.RegisteredModel) : String :=
  let isVision := rm.modalities.any ((Json.str "vision").pyEq ·)
  if rm.detectedFormat = "mlx" then (if isVision then "mlx_vlm" else "mlx_lm_server")
  else if rm.detectedFormat = "gguf" then "llama_cpp"
  else rm.detectedFormat

/-- The entries with those of further models at their end; a model whose id is there is left
out. -/
def appendUnlisted (idOf : α → String) (key : β → String) (make : β → α) (entries : List α) :
    List β → List α
  | [] => entries
  | x :: xs =>
    if key x ∈ entries.map idOf then appendUnlisted idOf key make entries xs
    else appendUnlisted idOf key make (entries ++ [make x]) xs

def registeredOpenaiEntry (rm : Store.RegisteredModel) : OpenAIModelEntry :=
  { id := rm.modelId
    metadata :=
      { engine := some (adapterToEngine rm), format := some rm.detectedFormat
        source := some "registered", resolutionSource := .authoritativeRegistry } }

def appendRegisteredModelsOpenai (d : Deployment) (entries : List OpenAIModelEntry) :
    List OpenAIModelEntry :=
  appendUnlisted (·.id) (·.modelId) registeredOpenaiEntry entries d.registeredModels

def registeredOllamaEntry (rm : Store.RegisteredModel) : OllamaTagEntry :=
  { name := rm.modelId, model := rm.modelId
    details := { format := some rm.detectedFormat, family := some (adapterToEngine rm) } }

def appendRegisteredModelsOllama (d : Deployment) (entries : List OllamaTagEntry) :
    List OllamaTagEntry :=
  appendUnlisted (·.name) (·.modelId) registeredOllamaEntry entries d.registeredModels

def externalOpenaiEntry (ext : External.ExternalModelInventoryEntry) : OpenAIModelEntry :=
  { id := ext.id
    metadata :=
      { format := some ext.format, source := some "external", servable := some ext.servable
        resolutionSource := .externalRoute } }

def appendExternalModelsOpenai (d : Deployment) (entries : List OpenAIModelEntry) :
    List OpenAIModelEntry :=
  appendUnlisted (·.id) (·.id) externalOpenaiEntry entries d.externalInventory

def externalOllamaEntry (ext : External.ExternalModelInventoryEntry) : OllamaTagEntry :=
  { name := ext.id, model := ext.id
    details :=
      { format := some ext.format, source := some "external", servable := some ext.servable } }

def appendExternalModelsOllama (d : Deployment) (entries : List OllamaTagEntry) :
    List OllamaTagEntry :=
  appendUnlisted (·.name) (·.id) externalOllamaEntry entries d.externalInventory

/-- The entries of the registry, or those of the adapters. -/
def openaiBase (d : Deployment) : Except RoutingError (List OpenAIModelEntry) :=
  match d.activeRegistry with
  | some reg =>
    .ok ((enabledModels reg).map fun (modelId, entry) =>
      { id := modelId
        metadata :=
          { engine := some entry.engine.value, format := some (formatValue entry.format)
            resolutionSource := .authoritativeRegistry } })
  | none =>
    d.listModelsAsync.map fun models =>
      models.map fun m => { id := m.id, metadata := { resolutionSource := m.resolutionSource } }

def buildOpenaiModelList (d : Deployment) : Except RoutingError (List OpenAIModelEntry) :=
  (openaiBase d).map fun entries =>
    appendExternalModelsOpenai d (appendRegisteredModelsOpenai d entries)

def ollamaBase (d : Deployment) : Except RoutingError (List OllamaTagEntry) :=
  match d.activeRegistry with
  | some reg =>
    .ok ((enabledModels reg).map fun (modelId, entry) =>
      { name := modelId, model := modelId
        details :=
          { format := some (formatValue entry.format), family := some entry.engine.value } })
  | none =>
    d.listModelsAsync.map fun models => models.map fun m => { name := m.id, model := m.id }

def buildOllamaTags (d : Deployment) : Except RoutingError (List OllamaTagEntry) :=
  (ollamaBase d).map fun entries =>
    appendExternalModelsOllama d (appendRegisteredModelsOllama d entries)

end Whooshd.Inventory
