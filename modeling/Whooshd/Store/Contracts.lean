import Whooshd.Library.Coerce
import Whooshd.Library.Path

namespace Whooshd.Store
set_option autoImplicit true

variable [Interpreter]

/-- The JSON values that conversions of single fields fall back to. -/
def noText : Json := .str ""

/-- The durable manifest, as `from_dict` reads it. -/
structure ModelRegistryManifest where
  schemaVersion : Int
  storeRoot : String
  createdAt : String
  updatedAt : String
  models : List Json

namespace ModelRegistryManifest

def create (storeRoot : ResolvedPath) (now : String) : ModelRegistryManifest :=
  { schemaVersion := 1, storeRoot := storeRoot.str, createdAt := now, updatedAt := now
    models := [] }

def touch (m : ModelRegistryManifest) (now : String) : ModelRegistryManifest :=
  { m with updatedAt := now }

def toDict (m : ModelRegistryManifest) : Json :=
  .obj [("schema_version", .int m.schemaVersion), ("store_root", .str m.storeRoot),
    ("created_at", .str m.createdAt), ("updated_at", .str m.updatedAt), ("models", .arr m.models)]

def fromDict (data : Json) : Except PyError ModelRegistryManifest := do
  let schemaVersion ← (← data.getD "schema_version" (.int 1)).toInt
  let storeRoot ← data.getD "store_root" noText
  let createdAt ← data.getD "created_at" noText
  let updatedAt ← data.getD "updated_at" noText
  let models ← (← data.getD "models" (.arr [])).toList
  return { schemaVersion, storeRoot := storeRoot.toStr, createdAt := createdAt.toStr
           updatedAt := updatedAt.toStr, models }

theorem fromDict_toDict (m : ModelRegistryManifest) : fromDict m.toDict = .ok m := rfl

/-- A document converts exactly when it is a dictionary whose version is a number and whose
models can be gone through. -/
theorem fromDict_ok_iff (data : Json) (m : ModelRegistryManifest) : fromDict data = .ok m ↔
    ∃ fields, data = .obj fields ∧
      (Json.fieldD "schema_version" (.int 1) fields).toInt = .ok m.schemaVersion ∧
      (Json.fieldD "models" (.arr []) fields).toList = .ok m.models ∧
      m.storeRoot = (Json.fieldD "store_root" noText fields).toStr ∧
      m.createdAt = (Json.fieldD "created_at" noText fields).toStr ∧
      m.updatedAt = (Json.fieldD "updated_at" noText fields).toStr := by
  obtain ⟨n, root, created, updated, models⟩ := m
  constructor
  · intro h
    obtain ⟨version, hversion, -⟩ := Except.bind_eq_ok_iff.mp h
    obtain ⟨fields, rfl⟩ := (Json.getD_returns _ _ _).mp ⟨version, hversion⟩
    obtain ⟨_, hv, h⟩ := Except.bind_eq_ok_iff.mp h
    cases hv
    obtain ⟨n', hn, h⟩ := Except.bind_eq_ok_iff.mp h
    obtain ⟨_, hr, h⟩ := Except.bind_eq_ok_iff.mp h
    cases hr
    obtain ⟨_, hc, h⟩ := Except.bind_eq_ok_iff.mp h
    cases hc
    obtain ⟨_, hu, h⟩ := Except.bind_eq_ok_iff.mp h
    cases hu
    obtain ⟨_, hm, h⟩ := Except.bind_eq_ok_iff.mp h
    cases hm
    obtain ⟨l, hl, h⟩ := Except.bind_eq_ok_iff.mp h
    cases h
    exact ⟨fields, rfl, hn, hl, rfl, rfl, rfl⟩
  · rintro ⟨fields, rfl, hn, hl, hr, hc, hu⟩
    simp only at hn hl hr hc hu
    simp [fromDict, hn, hl, hr, hc, hu, bind, Except.bind, pure, Except.pure]

end ModelRegistryManifest

/-- An inspected artifact, as its record holds it. -/
structure ModelCandidate where
  candidateId : String
  status : String
  sourcePath : String
  detectedFormat : String
  detectedFamily : String
  modalities : List Json
  evidence : List Json
  problems : List Json
  createdAt : String

namespace ModelCandidate

def toDict (c : ModelCandidate) : Json :=
  .obj [("candidate_id", .str c.candidateId), ("status", .str c.status),
    ("source_path", .str c.sourcePath), ("detected_format", .str c.detectedFormat),
    ("detected_family", .str c.detectedFamily), ("modalities", .arr c.modalities),
    ("evidence", .arr c.evidence), ("problems", .arr c.problems), ("created_at", .str c.createdAt)]

def fromDict (data : Json) : Except PyError ModelCandidate := do
  let candidateId ← data.getD "candidate_id" noText
  let status ← data.getD "status" (.str "candidate")
  let sourcePath ← data.getD "source_path" noText
  let detectedFormat ← data.getD "detected_format" (.str "unknown")
  let detectedFamily ← data.getD "detected_family" (.str "unknown")
  let modalities ← (← data.getD "modalities" (.arr [])).toList
  let evidence ← (← data.getD "evidence" (.arr [])).toList
  let problems ← (← data.getD "problems" (.arr [])).toList
  let createdAt ← data.getD "created_at" noText
  return { candidateId := candidateId.toStr, status := status.toStr
           sourcePath := sourcePath.toStr, detectedFormat := detectedFormat.toStr
           detectedFamily := detectedFamily.toStr, modalities, evidence, problems
           createdAt := createdAt.toStr }

theorem fromDict_toDict (c : ModelCandidate) : fromDict c.toDict = .ok c := rfl

end ModelCandidate

structure RegisteredModel where
  modelId : String
  displayName : String := ""
  status : String := "registered"
  storageMode : String := "managed"
  managedPath : String := ""
  sourceCandidateId : String := ""
  sourcePath : String := ""
  detectedFormat : String := "unknown"
  detectedFamily : String := "unknown"
  modalities : List Json := []
  evidence : List Json := []
  createdAt : String := ""
  updatedAt : String := ""

namespace RegisteredModel

def toDict (m : RegisteredModel) : Json :=
  .obj [("model_id", .str m.modelId), ("display_name", .str m.displayName),
    ("status", .str m.status), ("storage_mode", .str m.storageMode),
    ("managed_path", .str m.managedPath), ("source_candidate_id", .str m.sourceCandidateId),
    ("source_path", .str m.sourcePath), ("detected_format", .str m.detectedFormat),
    ("detected_family", .str m.detectedFamily), ("modalities", .arr m.modalities),
    ("evidence", .arr m.evidence), ("created_at", .str m.createdAt),
    ("updated_at", .str m.updatedAt)]

def fromDict (data : Json) : Except PyError RegisteredModel := do
  let modelId ← data.getD "model_id" noText
  let displayName ← data.getD "display_name" noText
  let status ← data.getD "status" (.str "registered")
  let storageMode ← data.getD "storage_mode" (.str "managed")
  let managedPath ← data.getD "managed_path" noText
  let sourceCandidateId ← data.getD "source_candidate_id" noText
  let sourcePath ← data.getD "source_path" noText
  let detectedFormat ← data.getD "detected_format" (.str "unknown")
  let detectedFamily ← data.getD "detected_family" (.str "unknown")
  let modalities ← (← data.getD "modalities" (.arr [])).toList
  let evidence ← (← data.getD "evidence" (.arr [])).toList
  let createdAt ← data.getD "created_at" noText
  let updatedAt ← data.getD "updated_at" noText
  return { modelId := modelId.toStr, displayName := displayName.toStr, status := status.toStr
           storageMode := storageMode.toStr, managedPath := managedPath.toStr
           sourceCandidateId := sourceCandidateId.toStr, sourcePath := sourcePath.toStr
           detectedFormat := detectedFormat.toStr, detectedFamily := detectedFamily.toStr
           modalities, evidence, createdAt := createdAt.toStr, updatedAt := updatedAt.toStr }

theorem fromDict_toDict (m : RegisteredModel) : fromDict m.toDict = .ok m := rfl

/-- An entry converts exactly when it is a dictionary whose modalities and evidence can be gone
through. -/
theorem fromDict_returns (data : Json) : (fromDict data).Returns ↔
    ∃ fields, data = .obj fields ∧
      (Json.fieldD "modalities" (.arr []) fields).isIterable = true ∧
      (Json.fieldD "evidence" (.arr []) fields).isIterable = true := by
  constructor
  · intro h
    obtain ⟨id, hid, h⟩ := Except.returns_bind.mp h
    obtain ⟨fields, rfl⟩ := (Json.getD_returns _ _ _).mp ⟨id, hid⟩
    simp only [Json.getD_obj, Except.returns_bind, Except.ok.injEq, exists_eq_left',
      Except.returns_pure, and_true] at h
    obtain ⟨ms, hms, evs, hevs, -⟩ := h
    exact ⟨fields, rfl, (Json.toList_returns _).mp ⟨ms, hms⟩,
      (Json.toList_returns _).mp ⟨evs, hevs⟩⟩
  · rintro ⟨fields, rfl, hms, hevs⟩
    obtain ⟨ms, hms⟩ := (Json.toList_returns _).mpr hms
    obtain ⟨evs, hevs⟩ := (Json.toList_returns _).mpr hevs
    simp [fromDict, Except.returns_bind, hms, hevs]

end RegisteredModel

/-- What is found at a path that is expected to hold a JSON file. -/
inductive JsonFile where
  | missing
  /-- Reading it raises `OSError`. -/
  | unreadable
  /-- Its bytes are not UTF-8. -/
  | undecodable
  | notJson
  | document (v : Json)

def JsonFile.exists : JsonFile → Bool
  | .missing => false
  | _ => true

/-- `json.loads(path.read_text())` under `except (JSONDecodeError, OSError)`: `none` when one
of these was caught. -/
def JsonFile.loads : JsonFile → Except PyError (Option Json)
  | .missing | .unreadable | .notJson => .ok none
  | .undecodable => .error .valueError
  | .document v => if v.loadable then .ok (some v) else .error .valueError

/-- The first entry under a model id; an entry that is no dictionary has no `get`. -/
def findEntry (modelId : String) : List Json → Except PyError (Option Json)
  | [] => .ok none
  | entry :: rest =>
    match entry.get "model_id" with
    | .error e => .error e
    | .ok (some (.str s)) => if s = modelId then .ok (some entry) else findEntry modelId rest
    | .ok _ => findEntry modelId rest

omit [Interpreter] in
theorem findEntry_none {entries : List RegisteredModel}
    (h : findEntry modelId (entries.map RegisteredModel.toDict) = .ok none) :
    ∀ e ∈ entries, e.modelId ≠ modelId := by
  induction entries with
  | nil => simp
  | cons e entries ih =>
    have hget : e.toDict.get "model_id" = .ok (some (.str e.modelId)) := rfl
    rw [List.map_cons, findEntry, hget] at h
    simp only at h
    split at h
    · cases h
    · rename_i hne
      intro e' he'
      cases he' with
      | head => exact hne
      | tail _ he' => exact ih h e' he'

theorem loads_eq_some {file : JsonFile} (h : file.loads = .ok (some data)) :
    file = .document data := by
  cases file with
  | document v =>
    rw [JsonFile.loads] at h
    split at h
    · cases h
      rfl
    · cases h
  | missing => cases h
  | unreadable => cases h
  | undecodable => cases h
  | notJson => cases h

end Whooshd.Store
