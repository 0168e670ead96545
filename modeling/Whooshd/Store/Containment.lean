import Whooshd.Store.Inventory

namespace Whooshd.Store
set_option autoImplicit true

/-- The written path resolves to the store root or to a place below it, by components. -/
def Contained (st : StoreView) (managedPath : String) : Prop :=
  ∃ path, st.files.resolve (st.storeRoot.join managedPath) = .ok path ∧ st.storeRoot.Under path

/-- The entry leads to something that exists beside the store, behind a name that continues
the root's own, and looking at its files raises nothing. -/
def BesideRoot (st : StoreView) (rm : RegisteredModel) : Prop :=
  rm.IsManaged ∧ rm.managedPath ≠ "" ∧
    ∃ path kind, st.files.resolve (st.storeRoot.join rm.managedPath) = .ok path ∧
      st.storeRoot.ThroughLongerSibling path ∧ st.files.stat path.parts = .ok (some kind) ∧
      Inspects st rm path

/-- A path that passes the text comparison is contained or stands beside the root. -/
theorem Located.contained_or_beside (h : Located st rm path) (hi : Inspects st rm path) :
    Contained st rm.managedPath ∨ BesideRoot st rm := by
  obtain ⟨kind, hstat⟩ := h.present
  rcases (path.startsWith_iff st.storeRoot).mp h.passes with hunder | hsibling
  · exact .inl ⟨path, h.resolves, hunder⟩
  · exact .inr ⟨h.managed, h.given, path, kind, h.resolves, hsibling, hstat, hi⟩

theorem BesideRoot.reported (h : BesideRoot st rm) (modelId : String) :
    ¬ Contained st rm.managedPath ∧
      ∃ r, validateEntry st modelId rm = .ok r ∧ r.Reports ∧ r.managedPath = rm.managedPath := by
  obtain ⟨hman, hgiven, path, kind, hresolve, hsibling, hstat, hi⟩ := h
  have hloc : Located st rm path :=
    ⟨hman, hgiven, hresolve, (path.startsWith_iff _).mpr (.inr hsibling), kind, hstat⟩
  refine ⟨?_, ?_⟩
  · rintro ⟨path', hresolve', hunder⟩
    rw [hresolve] at hresolve'
    cases hresolve'
    exact hsibling.not_under hunder
  · obtain ⟨r, hr⟩ := (validateManaged_returns st modelId rm path).mpr hi
    obtain ⟨hevidence, hpath, -⟩ := validateManaged_ok hr
    exact ⟨r, (validateEntry_of_located hloc modelId).trans hr, .inl hevidence, hpath⟩

section
variable [Interpreter]

/-- The model is advertised on the strength of another entry: its own id is no text, and the
validation reads the entry under the text that it prints as. -/
def Borrowed (st : StoreView) (models : List Json) (rm : RegisteredModel) : Prop :=
  ∃ pre entry post modelId, models = pre ++ entry :: post ∧ Fresh [] pre entry modelId ∧
    entry.get "model_id" ≠ .ok (some (.str modelId)) ∧
    RegisteredModel.fromDict entry = .ok rm ∧ rm.IsManaged ∧
      LookupAdvertises st models modelId

/-- A collected model is validated itself or borrows the validation of another entry. -/
theorem Collected.advertises_or_borrowed (h : Collected st models [] models rm) :
    (∃ modelId entry, findEntry modelId models = .ok (some entry) ∧
      RegisteredModel.fromDict entry = .ok rm ∧ Advertises st rm) ∨ Borrowed st models rm := by
  obtain ⟨pre, entry, post, modelId, hsplit, hfresh, hrm, hman, hadv⟩ := h
  by_cases hid : entry.get "model_id" = .ok (some (.str modelId))
  · left
    obtain ⟨entry', rm', hfind, hrm', hadv⟩ := hadv
    have hsame : some entry' = some entry := by
      rw [hsplit] at hfind
      exact findEntry_first hfresh.first hid hfind
    cases hsame
    rw [hrm] at hrm'
    cases hrm'
    exact ⟨modelId, entry, hfind, hrm, hadv⟩
  · exact .inr ⟨pre, entry, post, modelId, hsplit, hfresh, hid, hrm, hman, hadv⟩

theorem Borrowed.collected (h : Borrowed st models rm) : Collected st models [] models rm := by
  obtain ⟨pre, entry, post, modelId, hsplit, hfresh, -, hrest⟩ := h
  exact ⟨pre, entry, post, modelId, hsplit, hfresh, hrest⟩

/-- What is reported or returned is contained exactly when no entry that validation can reach
lies beside the root, and no entry under an id that is not a text is returned with a path of
its own that nothing checks. -/
theorem managed_paths_contained_iff (st : StoreView) :
    ((∀ modelId r, validateRegisteredModelCompatibility st modelId = .ok r → r.Reports →
        Contained st r.managedPath) ∧
      ∀ models, collectAdvertisableRegisteredModels st = .ok models →
        ∀ rm ∈ models, Contained st rm.managedPath) ↔
    ∀ models, st.readEntries = .ok (.ok models) →
      (∀ modelId entry rm, findEntry modelId models = .ok (some entry) →
        RegisteredModel.fromDict entry = .ok rm → ¬ BesideRoot st rm) ∧
      (Collectable st models [] models → ∀ rm, Borrowed st models rm →
        Contained st rm.managedPath) := by
  constructor
  · rintro ⟨hvalidate, hcollect⟩ models hread
    refine ⟨?_, ?_⟩
    · intro modelId entry rm hfind hrm hbeside
      obtain ⟨hout, r, hr, hreports, hpath⟩ := hbeside.reported modelId
      apply hout
      rw [← hpath]
      apply hvalidate modelId r _ hreports
      rw [validate_eq_among hread]
      simpa [validateAmong, hfind, hrm, bind, Except.bind] using hr
    · intro hcollectable rm hborrowed
      obtain ⟨r, hr⟩ := (collect_returns hread).mpr hcollectable
      exact hcollect r hr rm ((mem_collect hread hr).mpr hborrowed.collected)
  · intro h
    refine ⟨?_, ?_⟩
    · intro modelId r hr hreports
      obtain ⟨read, hread, hrest⟩ := Except.bind_eq_ok_iff.mp hr
      cases read with
      | error problem =>
        cases hrest
        simp [CompatibilityResult.Reports] at hreports
      | ok models =>
        obtain ⟨entry, rm, path, hfind, hrm, hloc, hok⟩ := validateAmong_reports hrest hreports
        have hi := (validateManaged_returns st modelId rm path).mp ⟨r, hok⟩
        rw [(validateManaged_ok hok).2.1]
        exact (hloc.contained_or_beside hi).resolve_right
          ((h models hread).1 modelId entry rm hfind hrm)
    · intro r hr rm hmem
      obtain ⟨read, hread, hrest⟩ := Except.bind_eq_ok_iff.mp hr
      cases read with
      | error problem =>
        cases hrest
        cases hmem
      | ok models =>
        have hcollectable := (collect_returns hread).mp ⟨r, hr⟩
        rcases ((mem_collect hread hr).mp hmem).advertises_or_borrowed with
          ⟨modelId, entry, hfind, hrm, hadv⟩ | hborrowed
        · obtain ⟨path, hloc, hsome, found, problems, hcheck⟩ := hadv
          exact (hloc.contained_or_beside fun _ => ⟨_, hcheck⟩).resolve_right
            ((h models hread).1 modelId entry rm hfind hrm)
        · exact (h models hread).2 hcollectable rm hborrowed

end

/-- A store at `/data/store` with one entry, whose file lies under `/data/store-old`. -/
def siblingStore : StoreView where
  storeRoot := .ofParts ["data", "store"]
  registryDirExists := true
  manifest := .document (.obj [("schema_version", .int 1), ("models", .arr [.obj
    [("model_id", .str "m"), ("managed_path", .str "../store-old/m.gguf"),
      ("detected_format", .str "gguf")]])])
  files :=
    { resolve := fun path => .ok (.ofParts path)
      stat := fun path => .ok (if path = ["data", "store-old", "m.gguf"] then some .file else none)
      iterdir := fun _ => .error .osError }

section
attribute [local instance] latin1Interpreter

theorem sibling_store_reported : ∃ r,
    validateRegisteredModelCompatibility siblingStore "m" = .ok r ∧ r.Reports ∧
      r.advertisable = true ∧ ¬ Contained siblingStore r.managedPath := by
  have hval : (validateRegisteredModelCompatibility siblingStore "m").toOption.map
      (fun r => (r.advertisable, r.managedPath)) = some (true, "../store-old/m.gguf") := by
    decide +kernel
  cases hr : validateRegisteredModelCompatibility siblingStore "m" with
  | error e =>
    rw [hr] at hval
    cases hval
  | ok r =>
    rw [hr] at hval
    obtain ⟨hadv, hpath⟩ : r.advertisable = true ∧ r.managedPath = "../store-old/m.gguf" := by
      simpa [Except.toOption] using hval
    refine ⟨r, rfl, .inr hadv, hadv, ?_⟩
    rw [hpath]
    rintro ⟨path, hresolve, hunder⟩
    cases hresolve
    revert hunder
    decide +kernel

end

end Whooshd.Store
