import Whooshd.ModelList

namespace Whooshd.Inventory
open Routing
set_option autoImplicit true

/-- An adapter of every kind is registered. -/
def AllKinds (d : Deployment) : Prop :=
  ∀ kind ∈ runtimeKinds, ∃ a, d.router.adapters.get? kind = some a

theorem AllKinds.engine (h : AllKinds d) (engine : EngineType) :
    ∃ kind a, engineKindMap engine.value = some kind ∧ d.router.adapters.get? kind = some a := by
  cases engine with
  | mlxLm =>
    obtain ⟨a, ha⟩ := h "mlx_lm_server" (by decide)
    exact ⟨_, a, by decide, ha⟩
  | mlxVlm =>
    obtain ⟨a, ha⟩ := h "mlx_vlm" (by decide)
    exact ⟨_, a, by decide, ha⟩
  | llamaCpp =>
    obtain ⟨a, ha⟩ := h "llama_cpp" (by decide)
    exact ⟨_, a, by decide, ha⟩

/-- With an adapter of every kind there is more than one that is not the stub. -/
theorem AllKinds.not_single (h : AllKinds d) (a : InferenceAdapter) :
    (d.router.adapters.entries.filter fun p => p.1 ≠ "stub").map Prod.snd ≠ [a] := by
  intro hsingle
  obtain ⟨b, hb⟩ := h "llama_cpp" (by decide)
  obtain ⟨c, hc⟩ := h "mlx_vlm" (by decide)
  have hmem : ∀ kind x, d.router.adapters.get? kind = some x → kind ≠ "stub" →
      x ∈ (d.router.adapters.entries.filter fun p => p.1 ≠ "stub").map Prod.snd := by
    intro kind x hx hne
    rw [List.mem_map]
    exact ⟨(kind, x), List.mem_filter.mpr ⟨Dict.get?_eq_some.mp hx, by simpa using hne⟩, rfl⟩
  have hb' := hmem _ b hb (by decide)
  have hc' := hmem _ c hc (by decide)
  rw [hsingle, List.mem_singleton] at hb' hc'
  have hkind := d.router.keyed _ _ hb
  have hkind' := d.router.keyed _ _ hc
  rw [hb', ← hc', hkind'] at hkind
  exact absurd hkind (by decide)

theorem AllKinds.not_alone (h : AllKinds d) : d.router.adapters.size ≠ 1 := by
  intro hone
  obtain ⟨b, hb⟩ := h "llama_cpp" (by decide)
  obtain ⟨c, hc⟩ := h "mlx_vlm" (by decide)
  obtain ⟨p, hp⟩ := List.length_eq_one_iff.mp hone
  have hb' := Dict.get?_eq_some.mp hb
  have hc' := Dict.get?_eq_some.mp hc
  rw [hp, List.mem_singleton] at hb' hc'
  rw [← hc', Prod.mk.injEq] at hb'
  exact absurd hb'.1 (by decide)

theorem AllKinds.external (h : AllKinds d) (hfmt : fmt ≠ External.ModelFormat.safetensors) :
    ∃ kind a, externalKindMap fmt.runtime = some kind ∧
      d.router.adapters.get? kind = some a := by
  cases fmt with
  | gguf =>
    obtain ⟨a, ha⟩ := h "llama_cpp" (by decide)
    exact ⟨_, a, by decide, ha⟩
  | mlx =>
    obtain ⟨a, ha⟩ := h "mlx_lm_server" (by decide)
    exact ⟨_, a, by decide, ha⟩
  | safetensors => exact absurd rfl hfmt

theorem mem_appendUnlisted {xs : List β}
    (h : e ∈ appendUnlisted idOf key make entries xs) : e ∈ entries ∨ ∃ x ∈ xs, e = make x := by
  induction xs generalizing entries with
  | nil => exact .inl h
  | cons x xs ih =>
    rw [appendUnlisted] at h
    split at h
    · rcases ih h with he | ⟨y, hy, rfl⟩
      · exact .inl he
      · exact .inr ⟨y, List.mem_cons_of_mem _ hy, rfl⟩
    · rcases ih h with he | ⟨y, hy, rfl⟩
      · rcases List.mem_append.mp he with he | he
        · exact .inl he
        · exact .inr ⟨x, List.mem_cons_self, List.mem_singleton.mp he⟩
      · exact .inr ⟨y, List.mem_cons_of_mem _ hy, rfl⟩

theorem appendUnlisted_keeps {xs : List β} (h : e ∈ entries) :
    e ∈ appendUnlisted idOf key make entries xs := by
  induction xs generalizing entries with
  | nil => exact h
  | cons x xs ih =>
    rw [appendUnlisted]
    split
    · exact ih h
    · exact ih (List.mem_append_left _ h)

theorem appendUnlisted_lists {xs : List β} (hid : ∀ x, idOf (make x) = key x) (h : x ∈ xs) :
    ∃ e ∈ appendUnlisted idOf key make entries xs, idOf e = key x := by
  induction xs generalizing entries with
  | nil => cases h
  | cons y xs ih =>
    rw [appendUnlisted]
    rcases List.mem_cons.mp h with rfl | h
    · split
      · rename_i hmem
        obtain ⟨e, he, hkey⟩ := List.mem_map.mp hmem
        exact ⟨e, appendUnlisted_keeps he, hkey⟩
      · exact ⟨make x, appendUnlisted_keeps (by simp), hid x⟩
    · split
      · exact ih h
      · exact ih h

theorem forall_appendUnlisted {xs : List β} {shown : α → Prop} {P : String → Prop}
    (hid : ∀ x, idOf (make x) = key x) (hshown : ∀ e ∈ entries, shown e)
    (hsame : ∀ x ∈ xs, ∀ y ∈ xs, key x = key y → shown (make x) → shown (make y)) :
    (∀ e ∈ appendUnlisted idOf key make entries xs, shown e → P (idOf e)) ↔
      (∀ e ∈ entries, P (idOf e)) ∧ ∀ x ∈ xs, shown (make x) → P (key x) := by
  constructor
  · intro h
    refine ⟨fun e he => h e (appendUnlisted_keeps he) (hshown e he), ?_⟩
    intro x hx hmade
    obtain ⟨e, he, hkey⟩ := appendUnlisted_lists hid hx
    rw [← hkey]
    apply h e he
    rcases mem_appendUnlisted he with hbase | ⟨y, hy, rfl⟩
    · exact hshown e hbase
    · exact hsame x hx y hy (by rw [← hid y, hkey]) hmade
  · rintro ⟨hentries, hmodels⟩ e he hshow
    rcases mem_appendUnlisted he with hbase | ⟨x, hx, rfl⟩
    · exact hentries e hbase
    · rw [hid]
      exact hmodels x hx hshow

theorem externalInventory_unique {d : Deployment} (h : e ∈ d.externalInventory)
    (h' : e' ∈ d.externalInventory) (hid : e.id = e'.id) : e = e' := by
  unfold Deployment.externalInventory at h h'
  split at h
  · cases h
  · rename_i hroutes
    rw [if_neg hroutes] at h'
    exact External.inventory_unique h h' hid

/-- The ids of the adapters' models, or the one that is advertised without any. -/
def adapterIds (d : Deployment) : List String :=
  let ids := d.nonStubAdapters.flatMap fun a => (d.listModels a.kind).getD []
  if ids.isEmpty then [d.getAdvertisedModelId] else ids

theorem modelsFromAdapters_ids {d : Deployment} (h : d.modelsFromAdapters = .ok models) :
    models.map (·.id) = adapterIds d := by
  unfold Deployment.modelsFromAdapters at h
  have hids : (d.nonStubAdapters.flatMap d.adapterModels).map (·.id) =
      d.nonStubAdapters.flatMap fun a => (d.listModels a.kind).getD [] := by
    simp [List.map_flatMap, Deployment.adapterModels, Function.comp_def]
  unfold adapterIds
  rw [← hids]
  simp only [List.isEmpty_map] at h ⊢
  split at h
  · rename_i hempty
    rw [if_pos hempty]
    obtain ⟨info, hinfo, rfl⟩ := Except.map_eq_ok_iff.mp h
    obtain ⟨loaded, -, hinfo⟩ := Except.bind_eq_ok_iff.mp hinfo
    cases hinfo
    rfl
  · rename_i hempty
    cases h
    rw [if_neg hempty]

theorem adapterIds_ne_nil (d : Deployment) : adapterIds d ≠ [] := by
  unfold adapterIds
  simp only
  split
  · simp
  · rename_i hempty
    simpa using hempty

theorem load_ne_unset (h : env ≠ "") : RegistryState.load cached files env ≠ .unset := by
  unfold RegistryState.load
  cases cached with
  | unset =>
    simp only [getModelRegistryPath, h, if_false, Option.isSome_some, if_true]
    split
    · simp
    · simp
    · simp
  | unavailable => simp
  | config reg => simp

section
variable [Interpreter]

/-- The router finds an adapter for the model. -/
def Accepts (d : Deployment) (modelId : String) : Prop :=
  ∃ r, resolveModelRuntime d.environment d.router modelId = .ok r

/-- The registry has an enabled entry for the model. -/
def Enabled (d : Deployment) (modelId : String) : Prop :=
  ∃ reg entry, d.environment.loadRegistry = .config reg ∧ reg.get modelId = some entry ∧
    entry.enabled = true

/-- A model of no external route is served by its suffix, by an adapter that has it loaded, or
by the stub when that is the backend. -/
def ServedByAdapter (d : Deployment) (modelId : String) : Prop :=
  modelId.endsWith ".gguf" = true ∨
    (∃ a, findLoaded modelId d.router.adapters.values = .ok (some a)) ∨
    findLoaded modelId d.router.adapters.values = .ok none ∧ d.adapterBackend = "stub"

/-- What the router does with a model that the registry has no say about. -/
def ServedWithoutRegistry (d : Deployment) (modelId : String) : Prop :=
  match d.external modelId with
  | none => ServedByAdapter d modelId
  | some r => if r.found then r.servable = true else ServedByAdapter d modelId

/-- The model has an enabled entry, or no registry is configured and it is served without. -/
def Reached (d : Deployment) (modelId : String) : Prop :=
  Enabled d modelId ∨ d.registryPath = "" ∧ ServedWithoutRegistry d modelId

theorem external_runtime {d : Deployment} (h : d.external modelId = some r)
    (hfound : r.found = true) (hservable : r.servable = true) :
    ∃ fmt, fmt ≠ .safetensors ∧ r.runtime = some (External.ModelFormat.runtime fmt) := by
  unfold Deployment.external at h
  split at h
  · cases h
  · cases h
    cases hfind : (External.listExternalModelInventory d.host d.routes).find?
        (·.id = modelId) with
    | none =>
      rw [External.resolveExternalRuntimeModel_none hfind] at hfound
      cases hfound
    | some entry =>
      obtain ⟨-, hruntime, himplies⟩ := External.resolveExternalRuntimeModel_some hfind
      have hmem := List.mem_of_find?_eq_some hfind
      obtain ⟨o, -, rfl⟩ := (External.mem_inventory d.host d.routes entry).mp hmem
      refine ⟨o.place.fmt, ?_, hruntime⟩
      simpa [External.Offer.entry, External.Offer.servable] using himplies hservable

/-- The external lookup ends in an adapter exactly for a model that is found and servable. -/
theorem resolveExternalModel_cases (h : AllKinds d) (modelId : String) :
    match d.external modelId with
    | none => resolveExternalModel d.environment d.router modelId = .ok none
    | some r =>
      if r.found then
        if r.servable then
          ∃ a, resolveExternalModel d.environment d.router modelId = .ok (some a)
        else ∃ e, resolveExternalModel d.environment d.router modelId = .error e
      else resolveExternalModel d.environment d.router modelId = .ok none := by
  have henv : d.environment.external modelId = d.external modelId := rfl
  unfold resolveExternalModel
  rw [henv]
  cases hext : d.external modelId with
  | none => rfl
  | some r =>
    simp only
    cases hfound : r.found with
    | false => simp
    | true =>
      simp only [Bool.true_eq_false, if_true, if_false]
      cases hservable : r.servable with
      | true =>
        obtain ⟨fmt, hfmt, hruntime⟩ := external_runtime hext hfound hservable
        obtain ⟨kind, a, hkind, ha⟩ := h.external hfmt
        simp only [Bool.true_eq_false, if_true, if_false, hruntime, Option.getD_some, hkind, ha]
        split
        · exact ⟨_, rfl⟩
        · exact ⟨_, rfl⟩
      | false =>
        simp only [if_true, Bool.false_eq_true, if_false]
        split
        · exact ⟨_, rfl⟩
        · split
          · exact ⟨_, rfl⟩
          · exact ⟨_, rfl⟩

theorem resolveWithoutRegistry_ok (h : AllKinds d)
    (hext : resolveExternalModel d.environment d.router modelId = .ok none) :
    (∃ r, resolveWithoutRegistry d.environment d.router modelId = .ok r) ↔
      ServedByAdapter d modelId := by
  obtain ⟨llama, hllama⟩ := h "llama_cpp" (by decide)
  obtain ⟨stub, hstub⟩ := h "stub" (by decide)
  have hbackend : d.environment.adapterBackend = d.adapterBackend := rfl
  unfold ServedByAdapter resolveWithoutRegistry
  simp only [hext, bind, Except.bind, hllama, hstub, pure, Except.pure, hbackend]
  by_cases hgguf : modelId.endsWith ".gguf" = true
  · simp [hgguf]
  · simp only [hgguf, if_false, false_or, Bool.false_eq_true]
    cases hloaded : findLoaded modelId d.router.adapters.values with
    | error e => simp
    | ok found =>
      cases found with
      | some a => simp
      | none =>
        by_cases hstubBackend : d.adapterBackend = "stub"
        · simp [hstubBackend]
        · simp only [hstubBackend, if_false, and_false, or_false]
          split
          · rename_i a hsingle
            exact absurd hsingle (h.not_single a)
          · simp [h.not_alone, throw, throwThe, MonadExceptOf.throw]

/-- Without a say of the registry, the model is served exactly as described. -/
theorem servedWithoutRegistry_iff (h : AllKinds d) (modelId : String) :
    (∃ r, resolveWithoutRegistry d.environment d.router modelId = .ok r) ↔
      ServedWithoutRegistry d modelId := by
  have hcases := resolveExternalModel_cases h modelId
  unfold ServedWithoutRegistry
  cases hext : d.external modelId with
  | none =>
    rw [hext] at hcases
    exact resolveWithoutRegistry_ok h hcases
  | some r =>
    rw [hext] at hcases
    simp only at hcases ⊢
    split at hcases
    · rename_i hfound
      rw [if_pos hfound]
      split at hcases
      · rename_i hservable
        obtain ⟨a, ha⟩ := hcases
        simp [resolveWithoutRegistry, ha, bind, Except.bind, pure, Except.pure, hservable]
      · rename_i hservable
        obtain ⟨e, he⟩ := hcases
        simp [resolveWithoutRegistry, he, bind, Except.bind, hservable]
    · rename_i hfound
      rw [if_neg hfound]
      exact resolveWithoutRegistry_ok h hcases

theorem enabled_of_loaded (hl : d.environment.loadRegistry = .config reg) :
    Enabled d modelId ↔ ∃ entry, reg.get modelId = some entry ∧ entry.enabled = true := by
  constructor
  · rintro ⟨reg', entry, hreg, hget, hen⟩
    rw [hl] at hreg
    cases hreg
    exact ⟨entry, hget, hen⟩
  · rintro ⟨entry, hget, hen⟩
    exact ⟨reg, entry, hl, hget, hen⟩

/-- With an adapter of every kind, the router accepts exactly the models that are reached. -/
theorem accepts_iff (h : AllKinds d) (modelId : String) :
    Accepts d modelId ↔ Reached d modelId := by
  have hserved := servedWithoutRegistry_iff h modelId
  have hpath : d.environment.registryPath = d.registryPath := rfl
  -- a model that the registry does not settle
  have hrefuse : ∀ detail, ¬ Enabled d modelId →
      ((∃ r, (if (getModelRegistryPath d.registryPath).isSome = true then
          .error (.modelResolution modelId detail)
        else resolveWithoutRegistry d.environment d.router modelId) = .ok r) ↔
        Reached d modelId) := by
    intro detail hno
    unfold Reached
    by_cases hempty : d.registryPath = ""
    · simp [getModelRegistryPath, hempty, hno, hserved]
    · simp [getModelRegistryPath, hempty, hno]
  unfold Accepts resolveModelRuntime
  rw [hpath]
  simp only
  split
  · rename_i hl
    apply hrefuse
    rintro ⟨reg, entry, hreg, -⟩
    rw [hl] at hreg
    cases hreg
  · rename_i hl
    apply hrefuse
    rintro ⟨reg, entry, hreg, -⟩
    rw [hl] at hreg
    cases hreg
  · rename_i reg hl
    have hen : Enabled d modelId ↔ _ := enabled_of_loaded hl
    cases hget : reg.get modelId with
    | none =>
      apply hrefuse
      simp [hen, hget]
    | some entry =>
      by_cases hdisabled : entry.enabled = false
      · simp only [hdisabled, if_true]
        apply hrefuse
        simp [hen, hget, hdisabled]
      · obtain ⟨kind, a, hkind, ha⟩ := h.engine entry.engine
        simp only [hdisabled, hkind, ha]
        have henabled : Enabled d modelId := hen.mpr ⟨entry, hget, by simpa using hdisabled⟩
        exact ⟨fun _ => .inl henabled, fun _ => ⟨_, rfl⟩⟩

section Append
variable {idOf : α → String} {key : β → String} {make : β → α}

end Append

/-- The ids before anything is appended. -/
def baseIds (d : Deployment) : Except RoutingError (List String) :=
  match d.activeRegistry with
  | some reg => .ok ((enabledModels reg).map Prod.fst)
  | none => d.listModelsAsync.map fun models => models.map (·.id)

/-- Every id that the lists show satisfies the property. -/
def ForallListed (d : Deployment) (base : List String) (P : String → Prop) : Prop :=
  (∀ id ∈ base, P id) ∧ (∀ rm ∈ d.registeredModels, P rm.modelId) ∧
    ∀ ext ∈ d.externalInventory, ext.servable = true → P ext.id

theorem openaiBase_ok (h : openaiBase d = .ok entries) :
    baseIds d = .ok (entries.map (·.id)) ∧ ∀ e ∈ entries, e.metadata.servable ≠ some false := by
  unfold openaiBase at h
  unfold baseIds
  cases hreg : d.activeRegistry with
  | some reg =>
    rw [hreg] at h
    cases h
    refine ⟨by simp [Function.comp_def], ?_⟩
    intro e he
    obtain ⟨listed, -, rfl⟩ := List.mem_map.mp he
    simp
  | none =>
    rw [hreg] at h
    obtain ⟨models, hmodels, rfl⟩ := Except.map_eq_ok_iff.mp h
    simp [hmodels, Except.map, Function.comp_def]

theorem ollamaBase_ok (h : ollamaBase d = .ok tags) :
    baseIds d = .ok (tags.map (·.name)) ∧ ∀ t ∈ tags, t.details.servable ≠ some false := by
  unfold ollamaBase at h
  unfold baseIds
  cases hreg : d.activeRegistry with
  | some reg =>
    rw [hreg] at h
    cases h
    refine ⟨by simp [Function.comp_def], ?_⟩
    intro e he
    obtain ⟨listed, -, rfl⟩ := List.mem_map.mp he
    simp
  | none =>
    rw [hreg] at h
    obtain ⟨models, hmodels, rfl⟩ := Except.map_eq_ok_iff.mp h
    simp [hmodels, Except.map, Function.comp_def]

theorem builds_iff (d : Deployment) :
    (buildOllamaTags d).Returns ↔ (buildOpenaiModelList d).Returns := by
  have hmap : ∀ {α β : Type} (f : α → β) (x : Except RoutingError α),
      (x.map f).Returns ↔ x.Returns := fun f x => Except.returns_map
  unfold buildOllamaTags buildOpenaiModelList ollamaBase openaiBase
  rw [hmap, hmap]
  cases d.activeRegistry with
  | some reg => simp
  | none => simp [hmap]

/-- What the entries of a list are about, when the models of the store and of the routes have
been appended. -/
theorem forall_appended {d : Deployment} {idOf : α → String}
    {registered : Store.RegisteredModel → α}
    {external : External.ExternalModelInventoryEntry → α} {shown : α → Prop} {entries : List α}
    (hregistered : ∀ rm, idOf (registered rm) = rm.modelId ∧ shown (registered rm))
    (hexternal : ∀ ext, idOf (external ext) = ext.id ∧ (shown (external ext) ↔ ext.servable = true))
    (hshown : ∀ e ∈ entries, shown e) (P : String → Prop) :
    (∀ e ∈ appendUnlisted idOf (·.id) external
        (appendUnlisted idOf (·.modelId) registered entries d.registeredModels)
        d.externalInventory, shown e → P (idOf e)) ↔
      ForallListed d (entries.map idOf) P := by
  have hshown' : ∀ e ∈ appendUnlisted idOf (·.modelId) registered entries d.registeredModels,
      shown e := by
    intro e he
    rcases mem_appendUnlisted he with he | ⟨rm, -, rfl⟩
    · exact hshown e he
    · exact (hregistered rm).2
  have hfirst : (∀ e ∈ appendUnlisted idOf (·.modelId) registered entries d.registeredModels,
      shown e → P (idOf e)) ↔
      (∀ e ∈ entries, P (idOf e)) ∧ ∀ rm ∈ d.registeredModels, shown (registered rm) →
        P rm.modelId := by
    apply forall_appendUnlisted (fun rm => (hregistered rm).1) hshown
    intro x _ y _ _ _
    exact (hregistered y).2
  rw [forall_appendUnlisted (fun ext => (hexternal ext).1) hshown']
  · have hall : (∀ e ∈ appendUnlisted idOf (·.modelId) registered entries d.registeredModels,
        P (idOf e)) ↔ (∀ e ∈ entries, P (idOf e)) ∧ ∀ rm ∈ d.registeredModels, P rm.modelId := by
      constructor
      · intro h
        obtain ⟨hentries, hmodels⟩ := hfirst.mp fun e he _ => h e he
        exact ⟨hentries, fun rm hrm => hmodels rm hrm (hregistered rm).2⟩
      · rintro ⟨hentries, hmodels⟩ e he
        exact hfirst.mpr ⟨hentries, fun rm hrm _ => hmodels rm hrm⟩ e he (hshown' e he)
    unfold ForallListed
    rw [hall, and_assoc, List.forall_mem_map]
    simp only [hexternal]
  · intro x hx y hy hid
    rw [externalInventory_unique hx hy hid]
    exact id

theorem openai_forall (h : buildOpenaiModelList d = .ok models) (P : String → Prop) :
    ∃ base, baseIds d = .ok base ∧
      ((∀ e ∈ models, e.metadata.servable ≠ some false → P e.id) ↔ ForallListed d base P) := by
  obtain ⟨entries, hentries, rfl⟩ := Except.map_eq_ok_iff.mp h
  obtain ⟨hbase, hshown⟩ := openaiBase_ok hentries
  refine ⟨_, hbase, forall_appended ?_ ?_ hshown P⟩
  · intro rm
    simp [registeredOpenaiEntry]
  · intro ext
    simp [externalOpenaiEntry]

theorem ollama_forall (h : buildOllamaTags d = .ok tags) (P : String → Prop) :
    ∃ base, baseIds d = .ok base ∧
      ((∀ t ∈ tags, t.details.servable ≠ some false → P t.name) ↔ ForallListed d base P) := by
  obtain ⟨entries, hentries, rfl⟩ := Except.map_eq_ok_iff.mp h
  obtain ⟨hbase, hshown⟩ := ollamaBase_ok hentries
  refine ⟨_, hbase, forall_appended ?_ ?_ hshown P⟩
  · intro rm
    simp [registeredOllamaEntry]
  · intro ext
    simp [externalOllamaEntry]

/-- Every model that the lists show, and do not mark as not servable, is accepted. -/
def InventoryRoutable (d : Deployment) : Prop :=
  (∀ models, buildOpenaiModelList d = .ok models →
    ∀ e ∈ models, e.metadata.servable ≠ some false → Accepts d e.id) ∧
  ∀ tags, buildOllamaTags d = .ok tags →
    ∀ t ∈ tags, t.details.servable ≠ some false → Accepts d t.name

/-- A configured registry is not empty, and each model that is listed from elsewhere than the
registry is reached by the router. -/
structure RoutableSources (d : Deployment) : Prop where
  registry : d.registryPath ≠ "" → ∀ reg, d.environment.loadRegistry = .config reg →
    reg.models.size ≠ 0
  adapters : d.registryPath = "" → d.activeRegistry = none →
    ∀ id ∈ adapterIds d, ServedWithoutRegistry d id
  registered : ∀ rm ∈ d.registeredModels, Reached d rm.modelId
  external : ∀ ext ∈ d.externalInventory, ext.servable = true → Reached d ext.id

theorem activeRegistry_eq_some {d : Deployment} :
    d.activeRegistry = some reg ↔
      d.environment.loadRegistry = .config reg ∧ reg.models.size ≠ 0 := by
  unfold Deployment.activeRegistry
  constructor
  · intro h
    split at h
    · rename_i reg' hreg
      split at h
      · cases h
      · rename_i hsize
        cases h
        exact ⟨hreg, hsize⟩
    · cases h
  · rintro ⟨hreg, hsize⟩
    simp [hreg, hsize]

theorem enabled_of_mem (hactive : d.activeRegistry = some reg) (h : p ∈ enabledModels reg) :
    Enabled d p.1 := by
  obtain ⟨hmem, hen⟩ := List.mem_filter.mp h
  exact ⟨reg, p.2, (activeRegistry_eq_some.mp hactive).1, Dict.get?_eq_some.mpr hmem, hen⟩

theorem not_enabled_of_inactive (hactive : Deployment.activeRegistry d = none) :
    ¬ Enabled d modelId := by
  rintro ⟨reg, entry, hl, hget, -⟩
  have hsize : reg.models.size ≠ 0 := by
    intro hzero
    have hmem := Dict.get?_eq_some.mp hget
    rw [List.length_eq_zero_iff.mp hzero] at hmem
    cases hmem
  rw [activeRegistry_eq_some.mpr ⟨hl, hsize⟩] at hactive
  cases hactive

/-- The ids that are listed first are reached exactly under the first two conditions. -/
theorem base_reached_iff (h : baseIds d = .ok base) :
    (∀ id ∈ base, Reached d id) ↔
      (d.registryPath ≠ "" → ∀ reg, d.environment.loadRegistry = .config reg →
        reg.models.size ≠ 0) ∧
      (d.registryPath = "" → d.activeRegistry = none →
        ∀ id ∈ adapterIds d, ServedWithoutRegistry d id) := by
  unfold baseIds at h
  cases hactive : d.activeRegistry with
  | some reg =>
    rw [hactive] at h
    cases h
    obtain ⟨hl, hsize⟩ := activeRegistry_eq_some.mp hactive
    have hall : ∀ id ∈ (enabledModels reg).map Prod.fst, Reached d id := by
      intro id hid
      obtain ⟨p, hp, rfl⟩ := List.mem_map.mp hid
      exact .inl (enabled_of_mem hactive hp)
    have hregistry : ∀ reg', d.environment.loadRegistry = .config reg' → reg'.models.size ≠ 0 := by
      intro reg' hl'
      rw [hl] at hl'
      cases hl'
      exact hsize
    simp only [reduceCtorEq, false_implies, implies_true, and_true]
    exact ⟨fun _ _ => hregistry, fun _ => hall⟩
  | none =>
    rw [hactive] at h
    obtain ⟨models, hmodels, rfl⟩ := Except.map_eq_ok_iff.mp h
    have hreached : ∀ id, Reached d id ↔ d.registryPath = "" ∧ ServedWithoutRegistry d id :=
      fun id => or_iff_right (not_enabled_of_inactive hactive)
    simp only [hreached]
    unfold Deployment.listModelsAsync at hmodels
    simp only [hactive] at hmodels
    by_cases hpath : d.registryPath = ""
    · simp only [hpath, getModelRegistryPath, if_true, Option.isSome_none, Bool.and_false,
        Bool.false_eq_true, if_false] at hmodels
      rw [modelsFromAdapters_ids hmodels]
      simp [hpath]
    · have hset : (getModelRegistryPath d.registryPath).isSome = true :=
        getModelRegistryPath_isSome hpath
      simp only [hset, Bool.and_true] at hmodels
      cases hl : d.environment.loadRegistry with
      | unset => exact absurd hl (load_ne_unset hpath)
      | unavailable =>
        rw [hl] at hmodels
        cases hmodels
        simp [hpath]
      | config reg =>
        have hempty : reg.models.size = 0 := by
          by_contra hsize
          rw [activeRegistry_eq_some.mpr ⟨hl, hsize⟩] at hactive
          cases hactive
        simp only [hl, reduceCtorEq, decide_false, Bool.false_eq_true, if_false] at hmodels
        rw [modelsFromAdapters_ids hmodels]
        obtain ⟨id, hid⟩ := List.exists_mem_of_ne_nil _ (adapterIds_ne_nil d)
        constructor
        · intro hall
          exact absurd (hall id hid).1 hpath
        · rintro ⟨hregistry, -⟩
          exact absurd hempty (hregistry hpath reg rfl)

/-- With an adapter of every kind, each model that is listed is accepted exactly when the
sources of the lists are routable. -/
theorem inventory_routable_iff (h : AllKinds d) (hbuilt : (buildOpenaiModelList d).Returns) :
    InventoryRoutable d ↔ RoutableSources d := by
  obtain ⟨models, hmodels⟩ := hbuilt
  obtain ⟨tags, htags⟩ := (builds_iff d).mpr ⟨models, hmodels⟩
  obtain ⟨base, hbase, hopenai⟩ := openai_forall hmodels (Reached d)
  obtain ⟨base', hbase', hollama⟩ := ollama_forall htags (Reached d)
  rw [hbase] at hbase'
  cases hbase'
  unfold InventoryRoutable
  simp only [hmodels, htags, Except.ok.injEq, forall_eq', accepts_iff h]
  rw [hopenai, hollama, and_self]
  unfold ForallListed
  rw [base_reached_iff hbase]
  constructor
  · rintro ⟨⟨hregistry, hadapters⟩, hregistered, hexternal⟩
    exact ⟨hregistry, hadapters, hregistered, hexternal⟩
  · rintro ⟨hregistry, hadapters, hregistered, hexternal⟩
    exact ⟨⟨hregistry, hadapters⟩, hregistered, hexternal⟩

end

def adapterOf (kind : String) (configuredModel : Option String) : InferenceAdapter :=
  { kind, name := kind, configuredModel, modelIdRaises := false, bindsExternalPath := true
    externalModelPath := none, maxConcurrentRequests := some 1 }

/-- One adapter of every kind, of which the MLX server has a model. -/
def allRuntimes : RuntimeRouter :=
  ((((RuntimeRouter.empty.register (adapterOf "stub" (some "stub-model"))).register
    (adapterOf "mlx_lm" none)).register (adapterOf "mlx_lm_server" (some "qwen"))).register
    (adapterOf "mlx_vlm" none)).register (adapterOf "llama_cpp" none)

/-- All runtimes under a registry file with the given entries. -/
def registryDeployment (models : Dict String RegistryModelEntry) : Deployment where
  host := External.twoQuantsHost
  routes := []
  registryPath := "models.yaml"
  files := fun _ => .content (.config ⟨models⟩)
  registry := .unset
  adapterBackend := "stub"
  mlxModel := "mlx-community/Llama-3.2-3B-Instruct-4bit"
  router := allRuntimes
  listModels := fun kind =>
    if kind = "mlx_lm_server" then some ["qwen"]
    else if kind = "mlx_lm" then some ["mlx-community/Llama-3.2-3B-Instruct-4bit"]
    else some []
  isLoaded := fun _ => false
  store := none

theorem registryDeployment_allKinds (models : Dict String RegistryModelEntry) :
    AllKinds (registryDeployment models) := by
  intro kind hkind
  have hsome : ∀ kind ∈ runtimeKinds, (allRuntimes.adapters.get? kind).isSome = true := by decide
  exact Option.isSome_iff_exists.mp (hsome kind hkind)

/-- A registry with one enabled model. -/
def qwenModels : Dict String RegistryModelEntry :=
  Dict.empty.set "qwen" ⟨.mlxLm, .mlx, [.text], 32768, true⟩

section
attribute [local instance] latin1Interpreter

theorem inventory_routable_qwen :
    AllKinds (registryDeployment qwenModels) ∧
      (∃ models, buildOpenaiModelList (registryDeployment qwenModels) = .ok models ∧
        models.map (·.id) = ["qwen"]) ∧
      InventoryRoutable (registryDeployment qwenModels) := by
  have hbuilt : ∃ models, buildOpenaiModelList (registryDeployment qwenModels) = .ok models ∧
      models.map (·.id) = ["qwen"] := ⟨_, rfl, rfl⟩
  have hall := registryDeployment_allKinds qwenModels
  refine ⟨hall, hbuilt, ?_⟩
  obtain ⟨models, hmodels, -⟩ := hbuilt
  apply (inventory_routable_iff hall ⟨models, hmodels⟩).mpr
  constructor
  · intro _ reg hl
    cases hl
    decide
  · intro hpath
    exact absurd hpath (by decide)
  · intro rm hrm
    cases hrm
  · intro ext hext
    cases hext

/-- An empty registry refuses every model, and the adapters' models are listed under it. -/
theorem empty_registry_lists_refused :
    AllKinds (registryDeployment .empty) ∧ ¬ InventoryRoutable (registryDeployment .empty) := by
  refine ⟨registryDeployment_allKinds .empty, ?_⟩
  intro h
  have hbuilt : ∃ models, buildOpenaiModelList (registryDeployment .empty) = .ok models ∧
      ∃ e ∈ models, e.id = "qwen" ∧ e.metadata.servable ≠ some false :=
    ⟨_, rfl, _, List.mem_cons_of_mem _ List.mem_cons_self, rfl, by decide⟩
  obtain ⟨models, hmodels, e, he, hid, hshown⟩ := hbuilt
  obtain ⟨r, hr⟩ := h.1 models hmodels e he hshown
  rw [hid] at hr
  cases hr

end

end Whooshd.Inventory
