import Whooshd.Store.Inventory
import Whooshd.Store.Managed

namespace Whooshd.Store
set_option autoImplicit true

theorem get_returns (v : Json) (key : String) :
    (v.get key).Returns ↔ ∃ fields, v = .obj fields := by
  cases v <;> simp [Json.get]

theorem modelsMatch_returns (fields : List (String × Json)) (candidate : ModelCandidate) :
    (modelsMatch (.obj fields) candidate).Returns := ⟨_, rfl⟩

theorem fieldD_of_some {fields : List (String × Json)} (h : Json.field? key fields = some v)
    (default : Json) : Json.fieldD key default fields = v := by
  rw [Json.fieldD, h, Option.getD_some]

theorem findEntry_returns (h : ∀ e ∈ models, ∃ fields, e = Json.obj fields) (modelId : String) :
    (findEntry modelId models).Returns := by
  induction models with
  | nil => simp [findEntry]
  | cons e models ih =>
    have ih := ih fun e' he' => h e' (.tail _ he')
    obtain ⟨found, hget⟩ := (get_returns e "model_id").mpr (h e List.mem_cons_self)
    rw [findEntry, hget]
    split
    · rename_i heq
      cases heq
    · split
      · exact Except.returns_ok _
      · exact ih
    · exact ih

/-- The texts that stand as ids in the entries. -/
def textIds (models : List Json) : List String :=
  models.filterMap fun e =>
    match e.get "model_id" with
    | .ok (some (.str s)) => some s
    | _ => none

theorem dicts_of_findEntry (hfresh : modelId ∉ textIds models)
    (h : (findEntry modelId models).Returns) : ∀ e ∈ models, ∃ fields, e = .obj fields := by
  induction models with
  | nil => simp
  | cons e models ih =>
    have hrest : modelId ∉ textIds models ∧ (e.get "model_id").Returns ∧
        (findEntry modelId models).Returns := by
      rw [textIds, List.filterMap_cons] at hfresh
      rw [findEntry] at h
      cases hget : e.get "model_id" with
      | error err =>
        rw [hget] at h
        exact absurd h (Except.not_returns_error err)
      | ok found =>
        rw [hget] at h
        simp only [hget] at hfresh
        cases found with
        | none => exact ⟨hfresh, Except.returns_ok _, h⟩
        | some v =>
          cases v with
          | str s =>
            simp only [List.mem_cons, not_or] at hfresh
            simp only [Ne.symm hfresh.1, if_false] at h
            exact ⟨hfresh.2, Except.returns_ok _, h⟩
          | _ => exact ⟨hfresh, Except.returns_ok _, h⟩
    obtain ⟨hfresh, hget, htail⟩ := hrest
    intro e' he'
    cases he' with
    | head => exact (get_returns e "model_id").mp hget
    | tail _ he' => exact ih hfresh htail e' he'

section
variable [Interpreter]

/-- The store as the read-only functions find it. -/
def ModelStore.view (st : ModelStore) (files : FileView) : StoreView :=
  { storeRoot := st.root, registryDirExists := (st.tree.node ["registry"]).isSome
    manifest := st.manifest, files }

/-- A store that was bootstrapped before: every directory of the layout is there. -/
structure LaidOut (st : ModelStore) : Prop where
  root : st.root.parts ≠ []
  dirs : ∀ d ∈ allDirectories, st.tree.node d = some .dir

/-- All four entry points return, whatever they are asked, when no file-system step fails; and
a bootstrap that reuses the manifest keeps every field but the date. -/
structure Handled (st : ModelStore) (files : FileView) : Prop where
  bootstrap : ∀ raw now, Text.strip raw ≠ "" → (bootstrapModelStore .none raw now st).2.Returns
  register : ∀ call, call.faults = .none → (registerModelCandidate st call).2.Returns
  validate : ∀ modelId, (validateRegisteredModelCompatibility (st.view files) modelId).Returns
  collect : (collectAdvertisableRegisteredModels (st.view files)).Returns
  preserved : ∀ raw now state, (bootstrapModelStore .none raw now st).2 = .ok state →
    state.manifestReused = true →
      ∃ old new, st.manifest = .document old ∧
        (bootstrapModelStore .none raw now st).1.manifest = .document new ∧
        ∀ key v, key ≠ "updated_at" → old.get key = .ok (some v) → new.get key = .ok (some v)

/-- The entries that are reached can be read: each is a dictionary; the first under a printed
id converts; and the first under an id converts and the file system answers for it. -/
structure EntriesReadable (view : StoreView) (models : List Json) : Prop where
  dicts : ∀ e ∈ models, ∃ fields, e = .obj fields
  printed : ∀ pre entry post modelId, models = pre ++ entry :: post →
    Fresh [] pre entry modelId → (RegisteredModel.fromDict entry).Returns
  answers : ∀ modelId entry, findEntry modelId models = .ok (some entry) →
    ∃ rm, RegisteredModel.fromDict entry = .ok rm ∧ Answers view rm

/-- The names of the fields that a manifest has. -/
def manifestFields : List String :=
  ["schema_version", "store_root", "created_at", "updated_at", "models"]

/-- Writing the manifest back leaves each field that is there as it was, the date apart. -/
structure WritesBack (fields : List (String × Json)) : Prop where
  version : ∀ v, Json.field? "schema_version" fields = some v → v = .int 1
  storeRoot : ∀ v, Json.field? "store_root" fields = some v → ∃ s, v = .str s
  createdAt : ∀ v, Json.field? "created_at" fields = some v → ∃ s, v = .str s
  models : ∀ v, Json.field? "models" fields = some v → ∃ l, v = .arr l
  others : ∀ key, key ∉ manifestFields → Json.field? key fields = none

/-- The documents that are handled: dictionaries whose version and models convert; and if the
version is 1, whose entries are readable and whose fields are already in the written form. -/
def WellFormed (view : StoreView) (data : Json) : Prop :=
  data.loadable = true ∧ ∃ fields n models, data = .obj fields ∧
    (Json.fieldD "schema_version" (.int 1) fields).toInt = .ok n ∧
    (Json.fieldD "models" (.arr []) fields).toList = .ok models ∧
    (n = 1 → EntriesReadable view models ∧ WritesBack fields)

theorem LaidOut.makeDirectories (h : LaidOut st) (f : Faults) :
    makeDirectories f st.tree allDirectories = (st.tree, [], true) := by
  have hall : ∀ ds : List (List String), (∀ d ∈ ds, st.tree.node d = some .dir) →
      Store.makeDirectories f st.tree ds = (st.tree, [], true) := by
    intro ds
    induction ds with
    | nil => exact fun _ => rfl
    | cons d ds ih =>
      intro hds
      rw [Store.makeDirectories, hds d List.mem_cons_self]
      simp only [Option.isSome_some, if_true]
      exact ih fun d' hd' => hds d' (.tail _ hd')
  exact hall _ h.dirs

theorem LaidOut.write (h : LaidOut st) (m : ModelRegistryManifest) :
    writeManifestAtomic .none m st = ({ st with manifest := .document m.toDict }, .ok ()) := by
  have htmp : st.tree.node ["tmp"] = some .dir := h.dirs _ (by decide)
  have hroot : st.tree.node [] = some .dir :=
    FileTree.dir_of_prefix (by rw [htmp]; simp) List.nil_prefix (by simp : [] ≠ ["tmp"])
  have hrun : runOps .none [] (ensureDirs ["tmp"]) st.tree = (st.tree, true) := by
    simp [ensureDirs, runOps, FileOp.exec, FileOp.path, hroot, htmp]
  rw [writeManifestAtomic, hrun]
  simp [Faults.none]

theorem LaidOut.bootstrap (h : LaidOut st) (hraw : Text.strip raw ≠ "") :
    bootstrapModelStore .none raw now st = settleManifest .none now [] st := by
  simp [bootstrapModelStore, hraw, h.root, h.makeDirectories]

theorem LaidOut.settle (h : LaidOut st) (hdoc : st.manifest = .document data) (now : String) :
    ((settleManifest .none now [] st).2.Returns ↔
      data.loadable = true ∧ (ModelRegistryManifest.fromDict data).Returns) ∧
    ∀ state, (settleManifest .none now [] st).2 = .ok state → state.manifestReused = true →
      ∃ m, ModelRegistryManifest.fromDict data = .ok m ∧ m.schemaVersion = 1 ∧
        (settleManifest .none now [] st).1.manifest = .document (m.touch now).toDict := by
  unfold settleManifest
  simp only [hdoc, JsonFile.exists, if_true, JsonFile.loads]
  cases hload : data.loadable with
  | false => simp
  | true =>
    simp only [if_true]
    cases hm : ModelRegistryManifest.fromDict data with
    | error e => simp
    | ok m =>
      by_cases hversion : m.schemaVersion = 1
      · simp only [hversion, ne_eq, not_true_eq_false, if_false, h.write]
        exact ⟨by simp [Except.map], fun state _ _ => ⟨m, rfl, hversion, rfl⟩⟩
      · simp only [ne_eq, hversion, not_false_eq_true, if_true]
        refine ⟨by simp, ?_⟩
        intro state hstate hreused
        cases hstate
        cases hreused

theorem LaidOut.readEntries_eq (h : LaidOut st) (hdoc : st.manifest = .document data)
    (files : FileView) : (st.view files).readEntries =
      if data.loadable = true then
        (ModelRegistryManifest.fromDict data).map fun m =>
          if m.schemaVersion ≠ 1 then .error .manifestSchemaUnsupported else .ok m.models
      else .error .valueError := by
  have hregistry : st.tree.node ["registry"] = some .dir := h.dirs _ (by decide)
  simp only [StoreView.readEntries, ModelStore.view, hregistry, Option.isSome_some,
    Bool.true_eq_false, if_false, hdoc, JsonFile.exists, JsonFile.loads]
  cases hload : data.loadable with
  | false => rfl
  | true =>
    simp only [if_true, bind, Except.bind]
    cases hm : ModelRegistryManifest.fromDict data with
    | error e => rfl
    | ok m =>
      simp only [Except.map]
      split
      · rfl
      · rfl

theorem loadManifest_eq (data : Json) :
    loadManifest (.document data) =
      if data.loadable = true then
        (ModelRegistryManifest.fromDict data).map fun m =>
          if m.schemaVersion ≠ 1 then .error .manifestSchemaUnsupported else .ok m
      else .error .valueError := by
  simp only [loadManifest, JsonFile.exists, JsonFile.loads, Bool.true_eq_false, if_false]
  cases hload : data.loadable with
  | false => rfl
  | true =>
    simp only [if_true, bind, Except.bind]
    cases hm : ModelRegistryManifest.fromDict data with
    | error e => rfl
    | ok m =>
      simp only [Except.map]
      split
      · rfl
      · rfl

/-- Validation raises under no id exactly when the entries are dictionaries and those that an
id selects are answered for. -/
theorem lookups_answer_iff (view : StoreView) (models : List Json) :
    (∀ modelId, LookupAnswers view models modelId) ↔
      (∀ e ∈ models, ∃ fields, e = .obj fields) ∧
      ∀ modelId entry, findEntry modelId models = .ok (some entry) →
        ∃ rm, RegisteredModel.fromDict entry = .ok rm ∧ Answers view rm := by
  constructor
  · intro h
    refine ⟨?_, ?_⟩
    · obtain ⟨modelId, hfresh⟩ := Text.exists_fresh (textIds models)
      obtain ⟨found, hfound, -⟩ := h modelId
      exact dicts_of_findEntry hfresh ⟨found, hfound⟩
    · intro modelId entry hfind
      obtain ⟨found, hfound, hentry⟩ := h modelId
      rw [hfind] at hfound
      cases hfound
      exact hentry entry rfl
  · rintro ⟨hdicts, hanswers⟩ modelId
    obtain ⟨found, hfound⟩ := findEntry_returns hdicts modelId
    refine ⟨found, hfound, ?_⟩
    rintro entry rfl
    exact hanswers modelId entry hfound

theorem loadCandidate_returns (candidates : CandidateRecords) (call : Call) :
    (loadCandidate candidates call).Returns := by
  unfold loadCandidate
  rcases candidates.inspected (safeFilename call.wide call.candidateId) with
    hfile | ⟨view, sourcePath, c, hinspect, hfile⟩
  · rw [hfile]
    exact ⟨_, rfl⟩
  · rw [hfile, JsonFile.loads, if_pos (inspectModelCandidate_ok hinspect).1]
    simp only [bind, Except.bind, ModelCandidate.fromDict_toDict]
    split
    · exact Except.returns_pure _
    · split
      · exact Except.returns_pure _
      · exact Except.returns_pure _

/-- The checks of a registration raise on nothing that validation does not raise on. -/
theorem checkCall_returns (view : StoreView) (hload : (loadManifest st.manifest).Returns)
    (hmodels : ∀ m, loadManifest st.manifest = .ok (.ok m) →
      ∀ modelId, LookupAnswers view m.models modelId)
    (call : Call) : (checkCall st call).Returns := by
  unfold checkCall
  split
  · exact Except.returns_pure _
  · obtain ⟨loaded, hloaded⟩ := hload
    unfold checkManifest
    refine Except.returns_bind.mpr ⟨loaded, hloaded, ?_⟩
    cases loaded with
    | error problem => exact Except.returns_pure _
    | ok manifest =>
      obtain ⟨loaded, hcandidate⟩ := loadCandidate_returns st.candidates call
      refine Except.returns_bind.mpr ⟨loaded, hcandidate, ?_⟩
      cases loaded with
      | error problem => exact Except.returns_pure _
      | ok candidate =>
        simp only
        split
        · exact Except.returns_pure _
        · rename_i modelId _
          obtain ⟨found, hfound, hentry⟩ := hmodels manifest hloaded modelId
          refine Except.returns_bind.mpr ⟨found, hfound, ?_⟩
          cases found with
          | none => exact Except.returns_pure _
          | some existing =>
            obtain ⟨rm, hrm, -⟩ := hentry existing rfl
            obtain ⟨fields, rfl, -⟩ := (RegisteredModel.fromDict_returns existing).mp ⟨rm, hrm⟩
            obtain ⟨same, hsame⟩ := modelsMatch_returns fields candidate
            refine Except.returns_bind.mpr ⟨same, hsame, ?_⟩
            cases same with
            | true => exact Except.returns_bind.mpr ⟨rm, hrm, Except.returns_pure _⟩
            | false => exact Except.returns_pure _

theorem LaidOut.register_returns (h : LaidOut st) (hfaults : call.faults = .none)
    (hcheck : (checkCall st call).Returns) : (registerModelCandidate st call).2.Returns := by
  obtain ⟨checked, hchecked⟩ := hcheck
  unfold registerModelCandidate
  rw [hchecked]
  cases checked with
  | error refused => exact Except.returns_ok _
  | ok plan =>
    simp only
    split
    · exact Except.returns_ok _
    · rename_i source _
      split
      · exact Except.returns_ok _
      · rw [Plan.carryOut]
        cases hrun : runOps call.faults [] (plan.copyOps source) st.tree with
        | mk tree ok =>
          cases ok with
          | false => exact Except.returns_ok _
          | true =>
            have hlaid : LaidOut { st with tree } := by
              refine ⟨h.root, ?_⟩
              intro d hd
              have hkeep : (runOps call.faults [] (plan.copyOps source) st.tree).1.node d =
                  some .dir := runOps_keepsDir _ (h.dirs d hd)
              rwa [hrun] at hkeep
            rw [hfaults]
            simp only [hlaid.write]
            exact Except.returns_ok _

/-- A manifest of version 1 is written back and reported as reused. -/
theorem LaidOut.settle_reused (h : LaidOut st) (hdoc : st.manifest = .document data)
    (hload : data.loadable = true) (hm : ModelRegistryManifest.fromDict data = .ok m)
    (hversion : m.schemaVersion = 1) (now : String) :
    settleManifest .none now [] st =
      ({ st with manifest := .document (m.touch now).toDict },
        .ok { manifestReused := true, directoriesCreated := [], schemaVersion := 1 }) := by
  simp [settleManifest, hdoc, JsonFile.exists, JsonFile.loads, hload, hm, hversion, h.write,
    Except.map]

/-- The written form keeps all fields but the date exactly when they were in it before. -/
theorem touch_get_iff (hm : ModelRegistryManifest.fromDict (.obj fields) = .ok m)
    (hversion : m.schemaVersion = 1) (now : String) :
    (∀ key v, key ≠ "updated_at" → (Json.obj fields).get key = .ok (some v) →
        (m.touch now).toDict.get key = .ok (some v)) ↔ WritesBack fields := by
  obtain ⟨_, heq, -, hmodels, hroot, hcreated, -⟩ :=
    (ModelRegistryManifest.fromDict_ok_iff _ _).mp hm
  cases heq
  constructor
  · intro h
    have hkept : ∀ key v, key ≠ "updated_at" → Json.field? key fields = some v →
        Json.field? key [("schema_version", .int m.schemaVersion), ("store_root", .str m.storeRoot),
            ("created_at", .str m.createdAt), ("updated_at", .str now),
            ("models", .arr m.models)] = some v :=
      fun key v hkey hv => Except.ok.inj (h key v hkey (congrArg Except.ok hv))
    refine ⟨?_, ?_, ?_, ?_, ?_⟩
    · intro v hv
      rw [← hversion]
      exact (Option.some.inj (hkept _ v (by decide) hv)).symm
    · intro v hv
      exact ⟨_, (Option.some.inj (hkept _ v (by decide) hv)).symm⟩
    · intro v hv
      exact ⟨_, (Option.some.inj (hkept _ v (by decide) hv)).symm⟩
    · intro v hv
      exact ⟨_, (Option.some.inj (hkept _ v (by decide) hv)).symm⟩
    · intro key hkey
      simp only [manifestFields, List.mem_cons, List.not_mem_nil, or_false, not_or] at hkey
      cases hv : Json.field? key fields with
      | none => rfl
      | some v =>
        have hnew := hkept key v hkey.2.2.2.1 hv
        simp [Json.field?, Ne.symm hkey.1, Ne.symm hkey.2.1, Ne.symm hkey.2.2.1,
          Ne.symm hkey.2.2.2.1, Ne.symm hkey.2.2.2.2] at hnew
  · rintro ⟨hv, hr, hc, hl, hothers⟩ key v hkey hget
    have hfield : Json.field? key fields = some v := Except.ok.inj hget
    show Except.ok _ = Except.ok (some v)
    by_cases h₁ : key = "schema_version"
    · subst h₁
      rw [hv v hfield, ← hversion]
      rfl
    by_cases h₂ : key = "store_root"
    · subst h₂
      obtain ⟨root, rfl⟩ := hr v hfield
      rw [fieldD_of_some hfield] at hroot
      rw [show root = m.storeRoot from hroot.symm]
      rfl
    by_cases h₃ : key = "created_at"
    · subst h₃
      obtain ⟨created, rfl⟩ := hc v hfield
      rw [fieldD_of_some hfield] at hcreated
      rw [show created = m.createdAt from hcreated.symm]
      rfl
    by_cases h₄ : key = "models"
    · subst h₄
      obtain ⟨l, rfl⟩ := hl v hfield
      rw [fieldD_of_some hfield] at hmodels
      cases hmodels
      rfl
    · rw [hothers key (by simp [manifestFields, h₁, h₂, h₃, h₄, hkey])] at hfield
      cases hfield

theorem EntriesReadable.lookups (h : EntriesReadable view models) (modelId : String) :
    LookupAnswers view models modelId :=
  (lookups_answer_iff view models).mpr ⟨h.dicts, h.answers⟩ modelId

theorem EntriesReadable.collectable (h : EntriesReadable view models) :
    Collectable view models [] models := by
  intro pre entry post hsplit
  obtain ⟨fields, rfl⟩ := h.dicts entry (by rw [hsplit]; simp)
  refine ⟨⟨_, rfl⟩, ?_⟩
  intro modelId hfresh
  obtain ⟨rm, hrm⟩ := h.printed pre _ post modelId hsplit hfresh
  exact ⟨rm, hrm, fun _ => h.lookups modelId⟩

theorem entriesReadable_of_returns (hvalidate : ∀ modelId, LookupAnswers view models modelId)
    (hcollect : Collectable view models [] models) : EntriesReadable view models := by
  obtain ⟨hdicts, hanswers⟩ := (lookups_answer_iff view models).mp hvalidate
  refine ⟨hdicts, ?_, hanswers⟩
  intro pre entry post modelId hsplit hfresh
  obtain ⟨rm, hrm, -⟩ := (hcollect pre entry post hsplit).2 modelId hfresh
  exact ⟨rm, hrm⟩

theorem Handled.wellFormed (h : LaidOut st) (hdoc : st.manifest = .document data)
    (hh : Handled st files) : WellFormed (st.view files) data := by
  have hraw : Text.strip "s" ≠ "" := by decide
  have hboot := hh.bootstrap "s" "" hraw
  rw [h.bootstrap hraw, (h.settle hdoc "").1] at hboot
  obtain ⟨hload, m, hm⟩ := hboot
  obtain ⟨fields, rfl, hn, hl, -⟩ := (ModelRegistryManifest.fromDict_ok_iff _ _).mp hm
  refine ⟨hload, fields, m.schemaVersion, m.models, rfl, hn, hl, ?_⟩
  intro hversion
  have hread : (st.view files).readEntries = .ok (.ok m.models) := by
    simp [h.readEntries_eq hdoc, hload, hm, Except.map, hversion]
  refine ⟨entriesReadable_of_returns ?_ ((collect_returns hread).mp hh.collect), ?_⟩
  · intro modelId
    rw [← validateAmong_returns, ← validate_eq_among hread]
    exact hh.validate modelId
  · have hsettle := h.settle_reused hdoc hload hm hversion ""
    have hkept := hh.preserved "s" "" { manifestReused := true, directoriesCreated := [] }
    rw [h.bootstrap hraw, hsettle] at hkept
    obtain ⟨old, new, hold, hnew, hsame⟩ := hkept rfl rfl
    rw [hdoc] at hold
    cases hold
    cases hnew
    exact (touch_get_iff hm hversion "").mp hsame

theorem WellFormed.handled (h : LaidOut st) (hdoc : st.manifest = .document data)
    (hw : WellFormed (st.view files) data) : Handled st files := by
  obtain ⟨hload, fields, n, models, rfl, hn, hl, hone⟩ := hw
  obtain ⟨m, hm, hmn, hml⟩ : ∃ m, ModelRegistryManifest.fromDict (.obj fields) = .ok m ∧
      m.schemaVersion = n ∧ m.models = models :=
    ⟨⟨n, _, _, _, models⟩, (ModelRegistryManifest.fromDict_ok_iff _ _).mpr
      ⟨fields, rfl, hn, hl, rfl, rfl, rfl⟩, rfl, rfl⟩
  have hread : (st.view files).readEntries = .ok (if n ≠ 1 then
      .error .manifestSchemaUnsupported else .ok models) := by
    simp [h.readEntries_eq hdoc, hload, hm, Except.map, hmn, hml]
  have hmanifest : loadManifest st.manifest = .ok (if n ≠ 1 then
      .error .manifestSchemaUnsupported else .ok m) := by
    simp [hdoc, loadManifest_eq, hload, hm, Except.map, hmn]
  refine ⟨?_, ?_, ?_, ?_, ?_⟩
  · intro raw now hraw
    rw [h.bootstrap hraw, (h.settle hdoc now).1]
    exact ⟨hload, m, hm⟩
  · intro call hfaults
    apply h.register_returns hfaults
    apply checkCall_returns (st.view files) ⟨_, hmanifest⟩
    intro m' hm'
    rw [hmanifest] at hm'
    by_cases hn1 : n = 1
    · simp only [hn1, ne_eq, not_true_eq_false, if_false, Except.ok.injEq] at hm'
      rw [← hm', hml]
      exact (hone hn1).1.lookups
    · simp [hn1] at hm'
  · intro modelId
    by_cases hn1 : n = 1
    · rw [if_neg (by simp [hn1])] at hread
      rw [validate_eq_among hread, validateAmong_returns]
      exact (hone hn1).1.lookups modelId
    · rw [if_pos hn1] at hread
      rw [validateRegisteredModelCompatibility, hread]
      exact Except.returns_pure _
  · by_cases hn1 : n = 1
    · rw [if_neg (by simp [hn1])] at hread
      rw [collect_returns hread]
      exact (hone hn1).1.collectable
    · rw [if_pos hn1] at hread
      rw [collectAdvertisableRegisteredModels, hread]
      exact Except.returns_pure _
  · intro raw now state hstate hreused
    have hraw : Text.strip raw ≠ "" := by
      intro hblank
      rw [bootstrapModelStore, if_pos (.inl hblank)] at hstate
      cases hstate
    rw [h.bootstrap hraw] at hstate ⊢
    obtain ⟨m', hm', hversion, hnew⟩ := (h.settle hdoc now).2 state hstate hreused
    rw [hm] at hm'
    cases hm'
    exact ⟨_, _, hdoc, hnew, (touch_get_iff hm hversion now).mpr (hone (hmn ▸ hversion)).2⟩

end

section
attribute [local instance] latin1Interpreter

/-- A bootstrapped store with a document in the manifest's place. -/
def storeWith (data : Json) : ModelStore :=
  { (bootstrapModelStore .none "/store" "t0" blankStore).1 with manifest := .document data }

theorem storeWith_laidOut (data : Json) : LaidOut (storeWith data) := by
  have hroot : (bootstrapModelStore .none "/store" "t0" blankStore).1.root.parts ≠ [] := by
    decide +kernel
  have hdirs : ∀ d ∈ allDirectories,
      (bootstrapModelStore .none "/store" "t0" blankStore).1.tree.node d = some .dir := by
    decide +kernel
  exact ⟨hroot, hdirs⟩

end

end Whooshd.Store
