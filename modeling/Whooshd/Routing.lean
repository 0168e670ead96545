import Whooshd.Library.Text
import Whooshd.Registry

namespace Whooshd.Routing
set_option autoImplicit true

/-- What the router reads of an adapter. A binding of an external path is local to the
request that made it. -/
structure InferenceAdapter where
  kind : String
  name : String
  configuredModel : Option String
  /-- Whether `model_id()` raises. -/
  modelIdRaises : Bool
  /-- The adapter stores the path that `set_external_model_path` hands it. -/
  bindsExternalPath : Bool
  externalModelPath : Option String
  maxConcurrentRequests : Option Int
  deriving DecidableEq, Repr

namespace InferenceAdapter

/-- `none` when the adapter raises. -/
def modelId (a : InferenceAdapter) : Option (Option String) :=
  if a.modelIdRaises then none
  else some (if a.externalModelPath.isSome then a.externalModelPath else a.configuredModel)

def setExternalModelPath (a : InferenceAdapter) (path : String) : InferenceAdapter :=
  if a.bindsExternalPath then { a with externalModelPath := some path } else a

end InferenceAdapter

/-- The registered adapters, each under its own kind. -/
structure RuntimeRouter where
  adapters : Dict String InferenceAdapter
  keyed : ∀ kind a, adapters.get? kind = some a → a.kind = kind

namespace RuntimeRouter

def empty : RuntimeRouter := ⟨.empty, by simp⟩

def register (router : RuntimeRouter) (a : InferenceAdapter) : RuntimeRouter :=
  ⟨router.adapters.set a.kind a, by
    intro kind b hb
    rw [Dict.get?_set] at hb
    split at hb
    · next hk =>
      cases hb
      exact hk.symm
    · exact router.keyed kind b hb⟩

def unregister (router : RuntimeRouter) (kind : String) : RuntimeRouter :=
  ⟨router.adapters.erase kind, by
    intro k b hb
    by_cases hk : k = kind
    · subst hk
      simp at hb
    · rw [Dict.get?_erase_ne hk] at hb
      exact router.keyed k b hb⟩

def registeredKinds (router : RuntimeRouter) : List String := router.adapters.keys

end RuntimeRouter

inductive ResolutionSource where
  | authoritativeRegistry | externalRoute | formatHeuristic | loadedModelMatch
  | configuredStub | singleRuntimeCompatibility | stubOnlyCompatibility
  deriving DecidableEq, Repr

structure RuntimeResolution where
  adapter : InferenceAdapter
  requestedModelId : String
  resolutionSource : ResolutionSource
  advertisedModelId : String
  resolvedModelId : String
  executionMode : String
  lane : String
  laneMaxConcurrent : Option Int
  deriving DecidableEq, Repr

inductive RoutingError where
  | modelResolution (modelId detail : String)
  /-- An adapter's `model_id()` raised while the inventories were scanned. -/
  | adapterRaised
  deriving DecidableEq, Repr

def executionMode (kind : String) : String :=
  if kind = "stub" then "stub"
  else if kind = "mlx_lm" then "in_process"
  else if kind = "mlx_lm_server" then "managed_sidecar"
  else if kind = "mlx_vlm" then "managed_sidecar"
  else "external_sidecar"

def resolution (a : InferenceAdapter) (modelId : String) (source : ResolutionSource) :
    RuntimeResolution :=
  { adapter := a
    requestedModelId := modelId
    resolutionSource := source
    advertisedModelId := modelId
    resolvedModelId := Text.orElse a.modelId.join modelId
    executionMode := executionMode a.kind
    lane := (a.kind.take 64).toString
    laneMaxConcurrent := a.maxConcurrentRequests }

/-- The outcome of the external inventory lookup. -/
structure ExternalResolution where
  found : Bool
  servable : Bool
  reason : Option String
  runtime : Option String
  path : Option String
  deriving DecidableEq, Repr

/-- Everything outside the router that a resolution may consult. -/
structure Environment where
  /-- `WHOOSHD_MODEL_REGISTRY_PATH`. -/
  registryPath : String
  files : String → RegistryFile
  registry : RegistryState
  /-- `none` when there are no routes or the lookup raised. -/
  external : String → Option ExternalResolution
  /-- `WHOOSHD_ADAPTER`. -/
  adapterBackend : String

def Environment.loadRegistry (env : Environment) : RegistryState :=
  env.registry.load env.files env.registryPath

def engineKindMap (engine : String) : Option String :=
  if engine = "llama_cpp" then some "llama_cpp"
  else if engine = "mlx_lm" then some "mlx_lm_server"
  else if engine = "mlx_vlm" then some "mlx_vlm"
  else none

def externalKindMap (runtime : String) : Option String :=
  if runtime = "llama_cpp" then some "llama_cpp"
  else if runtime = "mlx_lm" then some "mlx_lm_server"
  else none

def showKinds (kinds : List String) : String :=
  "[" ++ ", ".intercalate (kinds.map fun k => "'" ++ k ++ "'") ++ "]"

def resolveExternalModel (env : Environment) (router : RuntimeRouter) (modelId : String) :
    Except RoutingError (Option InferenceAdapter) :=
  match env.external modelId with
  | none => .ok none
  | some resolution =>
    if resolution.found = false then .ok none
    else if resolution.servable = false then
      let reason := Text.orElse resolution.reason "not_servable"
      if reason = "route_unavailable" then
        .error (.modelResolution modelId "External model route is unavailable.")
      else if reason = "not_servable" then
        .error (.modelResolution modelId ("External model is visible but not servable by " ++
          "the current runtime configuration."))
      else .error (.modelResolution modelId s!"External model cannot be served: {reason}")
    else
      let runtime := resolution.runtime.getD "None"
      let unavailable := .error
        (.modelResolution modelId s!"External model runtime '{runtime}' is not available.")
      match externalKindMap (resolution.runtime.getD "") with
      | none => unavailable
      | some kind =>
        match router.adapters.get? kind with
        | none => unavailable
        | some a =>
          match resolution.path with
          | some path => .ok (some (if path = "" then a else a.setExternalModelPath path))
          | none => .ok (some a)

/-- Step 3 of the cascade: the first adapter that has the model loaded. -/
def findLoaded (modelId : String) : List InferenceAdapter →
    Except RoutingError (Option InferenceAdapter)
  | [] => .ok none
  | a :: rest =>
    match a.modelId with
    | none => .error .adapterRaised
    | some loadedId =>
      if loadedId = some modelId ∧ modelId ≠ "" then .ok (some a) else findLoaded modelId rest

/-- The cascade that serves a model the registry has no say about. -/
def resolveWithoutRegistry (env : Environment) (router : RuntimeRouter) (modelId : String) :
    Except RoutingError RuntimeResolution := do
  match ← resolveExternalModel env router modelId with
  | some a => return resolution a modelId .externalRoute
  | none =>
  if modelId.endsWith ".gguf" then
    match router.adapters.get? "llama_cpp" with
    | some a => return resolution a modelId .formatHeuristic
    | none => throw (.modelResolution modelId
        "GGUF model detected but llama_cpp runtime is not registered.")
  match ← findLoaded modelId router.adapters.values with
  | some a => return resolution a modelId .loadedModelMatch
  | none =>
  let stub := router.adapters.get? "stub"
  if env.adapterBackend = "stub" then
    if let some a := stub then return resolution a modelId .configuredStub
  let nonStub := (router.adapters.entries.filter fun p => p.1 ≠ "stub").map Prod.snd
  if let [a] := nonStub then return resolution a modelId .singleRuntimeCompatibility
  if let some a := stub then
    if router.adapters.size = 1 then return resolution a modelId .stubOnlyCompatibility
  let kinds := showKinds router.registeredKinds
  throw (.modelResolution modelId (s!"Model '{modelId}' does not match any registered " ++
    s!"runtime. Available runtimes: {kinds}"))

def resolveModelRuntime (env : Environment) (router : RuntimeRouter) (modelId : String) :
    Except RoutingError RuntimeResolution :=
  let authoritative := (getModelRegistryPath env.registryPath).isSome
  let refuse (detail : String) : Except RoutingError RuntimeResolution :=
    if authoritative then .error (.modelResolution modelId detail)
    else resolveWithoutRegistry env router modelId
  match env.loadRegistry with
  | .unset => refuse "The configured runtime registry is unavailable."
  | .unavailable => refuse "The configured runtime registry is unavailable."
  | .config reg =>
    match reg.get modelId with
    | none => refuse "Model is not allowed by the active runtime registry."
    | some entry =>
      if entry.enabled = false then refuse "Model is disabled by the active runtime registry."
      else
        match engineKindMap entry.engine.value with
        | none => refuse "Model uses an unsupported runtime in the active registry."
        | some kind =>
          match router.adapters.get? kind with
          | some a => .ok (resolution a modelId .authoritativeRegistry)
          | none =>
            let kinds := showKinds router.registeredKinds
            .error (.modelResolution modelId (s!"Model '{modelId}' needs the '{kind}' runtime, " ++
              s!"which is not enabled. Available: {kinds}"))

/-- The registry has an enabled entry for the model whose engine is served by the adapter. -/
def Environment.Allows (env : Environment) (router : RuntimeRouter) (modelId : String)
    (a : InferenceAdapter) : Prop :=
  ∃ reg entry kind, env.loadRegistry = .config reg ∧ reg.get modelId = some entry ∧
    entry.enabled = true ∧ engineKindMap entry.engine.value = some kind ∧
    router.adapters.get? kind = some a

theorem getModelRegistryPath_isSome (h : env ≠ "") : (getModelRegistryPath env).isSome = true := by
  simp [getModelRegistryPath, h]

theorem Environment.allows_loaded {env : Environment} (hl : env.loadRegistry = .config reg) :
    env.Allows router modelId a ↔
      ∃ entry kind, reg.get modelId = some entry ∧ entry.enabled = true ∧
        engineKindMap entry.engine.value = some kind ∧ router.adapters.get? kind = some a := by
  constructor
  · rintro ⟨reg', entry, kind, hreg, h⟩
    rw [hl] at hreg
    cases hreg
    exact ⟨entry, kind, h⟩
  · rintro ⟨entry, kind, h⟩
    exact ⟨reg, entry, kind, hl, h⟩

theorem Environment.allows_entry {env : Environment} (hl : env.loadRegistry = .config reg)
    (hget : reg.get modelId = some entry) :
    env.Allows router modelId a ↔ entry.enabled = true ∧
      ∃ kind, engineKindMap entry.engine.value = some kind ∧
        router.adapters.get? kind = some a := by
  rw [allows_loaded hl, hget]
  constructor
  · rintro ⟨entry', kind, hentry, hen, h⟩
    cases hentry
    exact ⟨hen, kind, h⟩
  · rintro ⟨hen, kind, h⟩
    exact ⟨entry, kind, rfl, hen, h⟩

/-- Under a configured registry, the outcome in full: the entry's adapter or a refusal. -/
theorem resolveModelRuntime_cases (hpath : Environment.registryPath env ≠ "") :
    (∃ a, env.Allows router modelId a ∧
      resolveModelRuntime env router modelId = .ok (resolution a modelId .authoritativeRegistry)) ∨
    (∀ a, ¬ env.Allows router modelId a) ∧
      ∃ detail, resolveModelRuntime env router modelId =
        .error (.modelResolution modelId detail) := by
  simp only [resolveModelRuntime, getModelRegistryPath_isSome hpath, if_true]
  split
  · next hl =>
    right
    apply And.intro _ ⟨_, rfl⟩
    rintro a ⟨reg, entry, kind, hreg, -⟩
    rw [hl] at hreg
    cases hreg
  · next hl =>
    right
    apply And.intro _ ⟨_, rfl⟩
    rintro a ⟨reg, entry, kind, hreg, -⟩
    rw [hl] at hreg
    cases hreg
  · next reg hl =>
    split
    · next hget =>
      right
      apply And.intro _ ⟨_, rfl⟩
      intro a
      simp [Environment.allows_loaded hl, hget]
    · next entry hget =>
      simp only [Environment.allows_entry hl hget]
      split
      · next hdis =>
        right
        apply And.intro _ ⟨_, rfl⟩
        simp [hdis]
      · next hen =>
        split
        · next hmap =>
          right
          apply And.intro _ ⟨_, rfl⟩
          simp [hmap]
        · next kind hmap =>
          split
          · next a ha =>
            left
            exact ⟨a, ⟨by simpa using hen, kind, hmap, ha⟩, rfl⟩
          · next ha =>
            right
            apply And.intro _ ⟨_, rfl⟩
            simp [hmap, ha]

theorem Environment.Allows.unique {env : Environment} (h : env.Allows router modelId a)
    (h' : env.Allows router modelId b) : a = b := by
  obtain ⟨reg, entry, kind, hl, hget, -, hmap, ha⟩ := h
  obtain ⟨-, kind', hmap', hb⟩ := (allows_entry hl hget).mp h'
  rw [hmap] at hmap'
  cases hmap'
  rw [ha] at hb
  cases hb
  rfl

/-- A configured registry decides alone: the model resolves exactly when an enabled entry
maps it to a registered adapter, to that adapter, whatever the other sources say. -/
theorem registry_routing_authoritative (env : Environment) (router : RuntimeRouter)
    (modelId : String) (hpath : env.registryPath ≠ "") :
    (∀ a, (∃ r, resolveModelRuntime env router modelId = .ok r ∧ r.adapter = a) ↔
      env.Allows router modelId a) ∧
    (∀ external adapterBackend,
      resolveModelRuntime { env with external, adapterBackend } router modelId =
        resolveModelRuntime env router modelId) ∧
    (env.registry = .unset → ∀ reg, env.loadRegistry = .config reg ↔
      env.files env.registryPath = .content (.config reg) ∧ validateRegistry reg = .ok ()) := by
  apply And.intro _ (And.intro _ _)
  · intro a
    rcases (resolveModelRuntime_cases hpath : (∃ a, env.Allows router modelId a ∧ _) ∨ _) with
      ⟨b, hb, hres⟩ | ⟨hnone, detail, hres⟩
    · constructor
      · rintro ⟨r, hr, rfl⟩
        rw [hres] at hr
        cases hr
        exact hb
      · intro ha
        rw [ha.unique hb]
        exact ⟨_, hres, rfl⟩
    · constructor
      · rintro ⟨r, hr, rfl⟩
        rw [hres] at hr
        cases hr
      · intro ha
        exact absurd ha (hnone a)
  · intro external adapterBackend
    simp only [resolveModelRuntime, Environment.loadRegistry, getModelRegistryPath_isSome hpath,
      if_true]
  · intro hunset reg
    rw [Environment.loadRegistry, hunset]
    exact RegistryState.load_unset hpath

def mlxServer : InferenceAdapter :=
  { kind := "mlx_lm_server", name := "mlx-lm-server", configuredModel := some "retired.gguf"
    modelIdRaises := false, bindsExternalPath := true, externalModelPath := none
    maxConcurrentRequests := some 1 }

def oneRuntime : RuntimeRouter := RuntimeRouter.empty.register mlxServer

/-- A registry that serves one model and disables another, which the only runtime has
loaded and an external route offers. -/
def operatorRegistry : Environment :=
  { registryPath := "models.yaml"
    files := fun _ => .content (.config ⟨(Dict.empty.set "qwen"
      ⟨.mlxLm, .mlx, [.text], 32768, true⟩).set "retired.gguf"
      ⟨.mlxLm, .mlx, [.text], 32768, false⟩⟩)
    registry := .unset
    external := fun _ => some ⟨true, true, none, some "mlx_lm", some "/weights"⟩
    adapterBackend := "stub" }

theorem registry_routing_operatorRegistry :
    operatorRegistry.registryPath ≠ "" ∧
      (∃ r, resolveModelRuntime operatorRegistry oneRuntime "qwen" = .ok r ∧
        r.adapter = mlxServer) ∧
      ¬∃ r, resolveModelRuntime operatorRegistry oneRuntime "retired.gguf" = .ok r := by
  have hpath : operatorRegistry.registryPath ≠ "" := by decide
  apply And.intro hpath (And.intro _ _)
  · apply ((registry_routing_authoritative operatorRegistry oneRuntime "qwen" hpath).1 _).mpr
    exact ⟨_, _, "mlx_lm_server", rfl, rfl, rfl, rfl, rfl⟩
  · rintro ⟨r, hr⟩
    obtain ⟨reg, entry, kind, hl, hget, hen, -⟩ :=
      ((registry_routing_authoritative operatorRegistry oneRuntime "retired.gguf" hpath).1 _).mp
        ⟨r, hr, rfl⟩
    cases hl
    cases hget
    cases hen

end Whooshd.Routing
