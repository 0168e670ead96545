import Whooshd.Store.Bootstrap

namespace Whooshd.Store
set_option autoImplicit true

variable [Interpreter]

/-- `str.isalnum` on one character; beyond ASCII it is asked of the Unicode tables. -/
def isAlnum (wide : Char → Bool) (c : Char) : Bool :=
  if c.toNat < 128 then c.isAlphanum else wide c

def isSafeChar (wide : Char → Bool) (c : Char) : Bool :=
  isAlnum wide c || c ∈ ['_', '-', '.']

def safeFilename (wide : Char → Bool) (name : String) : String :=
  String.ofList ((name.toList.filter (isSafeChar wide)).take 64)

/-- The pattern `^[a-zA-Z0-9][a-zA-Z0-9._-]{0,127}$`, without a final newline. -/
def matchesIdPattern : List Char → Bool
  | [] => false
  | c :: cs => c.isAlphanum && cs.all Text.isIdChar && decide (cs.length ≤ 127)

/-- `_validate_model_id`: whether the id is safe. The end of the pattern also matches before a
final newline. -/
def validateModelId (modelId : String) : Bool :=
  Text.strip modelId ≠ "" &&
    (matchesIdPattern modelId.toList ||
      (modelId.toList.getLast? = some '\n' && matchesIdPattern modelId.toList.dropLast)) &&
    !(Text.occursIn ['.', '.'] modelId.toList || Text.startsWith "/" modelId ||
      Text.startsWith "." modelId)

inductive RegistrationProblem where
  | storeNotBootstrapped | manifestUnreadable | manifestSchemaUnsupported | candidateMissing
  | candidateNotRegistrable | unsupportedFormat | unsafeModelId | duplicateModelId
  | managedDestinationExists | copyFailed
  deriving DecidableEq, Repr

structure ModelRegistrationResult where
  registeredModel : RegisteredModel
  managedPath : String := ""
  manifestUpdated : Bool := false
  problem : Option RegistrationProblem := none

/-- One call of `register_model_candidate`, with what it finds outside the store. -/
structure Call where
  candidateId : String
  modelId : Option String := none
  displayName : Option String := none
  now : String
  /-- What stands at an absolute path. -/
  source : String → Option StoredArtifact
  faults : Faults := .none
  wide : Char → Bool := fun _ => false

def fail (modelId : String) (problem : RegistrationProblem) : ModelRegistrationResult :=
  { registeredModel := { modelId }, problem := some problem }

def loadManifest (file : JsonFile) :
    Except PyError (Except RegistrationProblem ModelRegistryManifest) := do
  if file.exists = false then return .error .storeNotBootstrapped
  match ← file.loads with
  | none => return .error .manifestUnreadable
  | some data =>
  let manifest ← ModelRegistryManifest.fromDict data
  if manifest.schemaVersion ≠ 1 then return .error .manifestSchemaUnsupported
  return .ok manifest

def loadCandidate (candidates : CandidateRecords) (call : Call) :
    Except PyError (Except RegistrationProblem ModelCandidate) := do
  match ← (candidates.record (safeFilename call.wide call.candidateId)).loads with
  | none => return .error .candidateMissing
  | some data =>
  let candidate ← ModelCandidate.fromDict data
  if candidate.status ≠ "candidate" then return .error .candidateNotRegistrable
  if candidate.detectedFormat = "unknown" then return .error .unsupportedFormat
  return .ok candidate

/-- The last component of a source path. -/
def sourceName (candidate : ModelCandidate) : String := ResolvedPath.name candidate.sourcePath

def deriveModelId (candidate : ModelCandidate) : String :=
  let base := Text.removeSuffix ".gguf" (sourceName candidate)
  let safe := String.ofList ((base.toList.map fun c => if Text.isIdChar c then c else '-').take 64)
  let safe := Text.trim (fun c => c = '-' || c = '.') safe
  if safe = "" then "model-" ++ String.ofList (candidate.candidateId.toList.take 8) else safe

/-- The text after the last separator, `rsplit("/", 1)[-1]`. -/
def lastSegment (s : String) : String :=
  String.ofList (s.toList.reverse.takeWhile (· ≠ '/')).reverse

/-- `_managed_destination`: the directory to make and the managed path, from the store root. -/
def managedDestination (wide : Char → Bool) (candidate : ModelCandidate) (modelId : String) :
    List String × List String :=
  let safeId := ResolvedPath.split (safeFilename wide modelId)
  if candidate.detectedFormat = "gguf" then
    (["models", "gguf"] ++ safeId,
      ["models", "gguf"] ++ safeId ++ ResolvedPath.split (sourceName candidate))
  else if candidate.modalities.any ((Json.str "vision").pyEq ·) then
    (["models", "vlm"], ["models", "vlm"] ++ safeId)
  else (["models", "mlx"], ["models", "mlx"] ++ safeId)

/-- What the checks of a call lead to when none of them refuses it. -/
structure Plan where
  manifest : ModelRegistryManifest
  candidate : ModelCandidate
  modelId : String
  displayName : String
  destDir : List String
  managedRel : List String

/-- The field is there and equals the text. -/
def isText (s : String) : Option Json → Bool
  | some (.str t) => t = s
  | _ => false

/-- `_models_match` on an entry that was found under the id. -/
def modelsMatch (existing : Json) (candidate : ModelCandidate) : Except PyError Bool := do
  return isText candidate.candidateId (← existing.get "source_candidate_id") &&
    isText candidate.detectedFormat (← existing.get "detected_format")

/-- The id that the call asks for or that is derived, unless it is unsafe. -/
def resolveModelId (call : Call) (candidate : ModelCandidate) : Except String String :=
  match call.modelId with
  | some modelId =>
    if Text.strip modelId = "" then .error modelId
    else if validateModelId (Text.strip modelId) then .ok (Text.strip modelId)
    else .error (Text.strip modelId)
  | none =>
    if validateModelId (deriveModelId candidate) then .ok (deriveModelId candidate)
    else .error (deriveModelId candidate)

/-- The id that a refused call names in its result, `model_id or candidate_id`. -/
def Call.asked (call : Call) : String :=
  match call.modelId with
  | some modelId => if modelId = "" then call.candidateId else modelId
  | none => call.candidateId

/-- The checks that follow the reading of the manifest, up to the one for a duplicate. -/
def checkLoaded (candidates : CandidateRecords) (call : Call) (manifest : ModelRegistryManifest) :
    Except PyError (Except ModelRegistrationResult Plan) := do
  match ← loadCandidate candidates call with
  | .error problem => return .error (fail call.asked problem)
  | .ok candidate =>
  match resolveModelId call candidate with
  | .error modelId => return .error (fail modelId .unsafeModelId)
  | .ok modelId =>
  let (destDir, managedRel) := managedDestination call.wide candidate modelId
  match ← findEntry modelId manifest.models with
  | some existing =>
    if ← modelsMatch existing candidate then
      return .error { registeredModel := ← RegisteredModel.fromDict existing
                      managedPath := ResolvedPath.relative managedRel }
    else return .error (fail modelId .duplicateModelId)
  | none =>
    let displayName := match call.displayName with
      | some name => if name = "" then lastSegment candidate.sourcePath else name
      | none => lastSegment candidate.sourcePath
    return .ok { manifest, candidate, modelId, displayName, destDir, managedRel }

/-- What the file that was read as the manifest leads to. -/
def checkManifest (candidates : CandidateRecords) (call : Call) (file : JsonFile) :
    Except PyError (Except ModelRegistrationResult Plan) := do
  match ← loadManifest file with
  | .error problem => return .error (fail "" problem)
  | .ok manifest => checkLoaded candidates call manifest

/-- The checks of `register_model_candidate` before it looks at the source. -/
def checkCall (st : ModelStore) (call : Call) :
    Except PyError (Except ModelRegistrationResult Plan) := do
  if st.tree.node ["registry"] = none then
    return .error (fail call.asked .storeNotBootstrapped)
  checkManifest st.candidates call st.manifest

/-- The entry that the plan adds. -/
def Plan.entry (p : Plan) (now : String) : RegisteredModel :=
  { modelId := p.modelId, displayName := p.displayName, status := "registered"
    storageMode := "managed", managedPath := ResolvedPath.relative p.managedRel
    sourceCandidateId := p.candidate.candidateId, sourcePath := p.candidate.sourcePath
    detectedFormat := p.candidate.detectedFormat, detectedFamily := p.candidate.detectedFamily
    modalities := p.candidate.modalities, evidence := p.candidate.evidence
    createdAt := now, updatedAt := now }

/-- The manifest that the plan writes. -/
def Plan.updated (p : Plan) (now : String) : ModelRegistryManifest :=
  { p.manifest with models := p.manifest.models ++ [(p.entry now).toDict] }.touch now

/-- The operations of the copy. -/
def Plan.copyOps (p : Plan) (source : StoredArtifact) : List FileOp :=
  ensureDirs p.destDir ++ source.val.copyOps p.managedRel (sourceName p.candidate)

/-- What a call that has registered its model returns. -/
def Plan.result (p : Plan) (now : String) : ModelRegistrationResult :=
  { registeredModel := p.entry now, managedPath := ResolvedPath.relative p.managedRel
    manifestUpdated := true }

/-- The copy and the update of the manifest. -/
def Plan.carryOut (p : Plan) (source : StoredArtifact) (st : ModelStore) (call : Call) :
    ModelStore × Except PyError ModelRegistrationResult :=
  match runOps call.faults [] (p.copyOps source) st.tree with
  | (tree, false) => ({ st with tree }, .ok (fail p.modelId .copyFailed))
  | (tree, true) =>
    let (st, written) := writeManifestAtomic call.faults (p.updated call.now) { st with tree }
    (st, written.map fun _ => p.result call.now)

def registerModelCandidate (st : ModelStore) (call : Call) :
    ModelStore × Except PyError ModelRegistrationResult :=
  match checkCall st call with
  | .error e => (st, .error e)
  | .ok (.error refused) => (st, .ok refused)
  | .ok (.ok plan) =>
    match call.source plan.candidate.sourcePath with
    | none => (st, .ok (fail plan.modelId .candidateMissing))
    | some source =>
      if (st.tree.node plan.managedRel).isSome then
        (st, .ok (fail plan.modelId .managedDestinationExists))
      else plan.carryOut source st call

/-- Nothing refuses the call: it goes on to the copy. -/
structure Ready (st : ModelStore) (call : Call) (plan : Plan) (source : StoredArtifact) :
    Prop where
  checked : checkCall st call = .ok (.ok plan)
  found : call.source plan.candidate.sourcePath = some source
  free : st.tree.node plan.managedRel = none

theorem register_of_ready (h : Ready st call plan source) :
    registerModelCandidate st call = plan.carryOut source st call := by
  simp [registerModelCandidate, h.checked, h.found, h.free]

/-- The copy fails, or the manifest cannot be replaced after it, or both are done. -/
theorem carryOut_cases (p : Plan) (source : StoredArtifact) (st : ModelStore) (call : Call) :
    ∃ tree ok, runOps call.faults [] (p.copyOps source) st.tree = (tree, ok) ∧
      ((ok = false ∧ p.carryOut source st call =
          ({ st with tree }, .ok (fail p.modelId .copyFailed))) ∨
        (ok = true ∧ ∃ tree', (∀ q, ¬ q <+: ["tmp"] → tree'.node q = tree.node q) ∧
          (∀ q, tree.node q ≠ none → tree'.node q ≠ none) ∧
          (p.carryOut source st call = ({ st with tree := tree' }, .error .osError) ∨
            p.carryOut source st call =
              ({ st with tree := tree', manifest := .document (p.updated call.now).toDict },
                .ok (p.result call.now))))) := by
  unfold Plan.carryOut
  cases hrun : runOps call.faults [] (p.copyOps source) st.tree with
  | mk tree ok =>
    refine ⟨tree, ok, rfl, ?_⟩
    cases ok with
    | false => exact .inl ⟨rfl, rfl⟩
    | true =>
      obtain ⟨tree', hframe, hkeeps, hwrite⟩ :=
        writeManifestAtomic_cases call.faults (p.updated call.now) { st with tree }
      refine .inr ⟨rfl, tree', hframe, hkeeps, ?_⟩
      rcases hwrite with hwrite | hwrite
      · left
        simp only [hwrite]
        rfl
      · right
        simp only [hwrite]
        rfl

/-- What the checks have established of a plan, from the file that was read. -/
structure Planned (candidates : CandidateRecords) (call : Call) (file : JsonFile) (plan : Plan) :
    Prop where
  manifest : loadManifest file = .ok (.ok plan.manifest)
  candidate : loadCandidate candidates call = .ok (.ok plan.candidate)
  modelId : resolveModelId call plan.candidate = .ok plan.modelId
  destination : managedDestination call.wide plan.candidate plan.modelId =
    (plan.destDir, plan.managedRel)
  fresh : findEntry plan.modelId plan.manifest.models = .ok none

/-- The same of a plan for a store, whose registry directory exists. -/
structure Checked (st : ModelStore) (call : Call) (plan : Plan) : Prop
    extends Planned st.candidates call st.manifest plan where
  registry : st.tree.node ["registry"] ≠ none

theorem checkManifest_ok (h : checkManifest candidates call file = .ok x) :
    match x with
    | .ok plan => Planned candidates call file plan
    | .error refused => refused.manifestUpdated = false := by
  unfold checkManifest at h
  obtain ⟨loaded, hloaded, h⟩ := Except.bind_eq_ok_iff.mp h
  cases loaded with
  | error problem =>
    cases h
    rfl
  | ok manifest =>
    obtain ⟨loaded, hcandidate, h⟩ := Except.bind_eq_ok_iff.mp h
    cases loaded with
    | error problem =>
      cases h
      rfl
    | ok candidate =>
      cases hid : resolveModelId call candidate with
      | error modelId =>
        simp only [hid] at h
        cases h
        rfl
      | ok modelId =>
        simp only [hid] at h
        obtain ⟨found, hfound, h⟩ := Except.bind_eq_ok_iff.mp h
        cases found with
        | some existing =>
          obtain ⟨same, -, h⟩ := Except.bind_eq_ok_iff.mp h
          cases same with
          | true =>
            obtain ⟨rm, -, h⟩ := Except.bind_eq_ok_iff.mp h
            cases h
            rfl
          | false =>
            cases h
            rfl
        | none =>
          cases h
          exact ⟨hloaded, hcandidate, hid, rfl, hfound⟩

theorem checkCall_ok (h : checkCall st call = .ok x) :
    match x with
    | .ok plan => Checked st call plan
    | .error refused => refused.manifestUpdated = false := by
  unfold checkCall at h
  split at h
  · cases h
    rfl
  · rename_i hregistry
    have hplanned := checkManifest_ok h
    cases x with
    | ok plan => exact ⟨hplanned, hregistry⟩
    | error refused => exact hplanned

theorem Ready.plan_checked (h : Ready st call plan source) : Checked st call plan :=
  checkCall_ok h.checked

/-- A call that is not carried out changes nothing and reports no update. -/
theorem register_of_not_ready (h : ∀ plan source, ¬ Ready st call plan source) :
    (registerModelCandidate st call).1 = st ∧
      ∀ r, (registerModelCandidate st call).2 = .ok r → r.manifestUpdated = false := by
  unfold registerModelCandidate
  split
  · exact ⟨rfl, by simp⟩
  · rename_i refused hcheck
    refine ⟨rfl, ?_⟩
    intro r hr
    cases hr
    exact checkCall_ok hcheck
  · rename_i plan hcheck
    split
    · refine ⟨rfl, ?_⟩
      intro r hr
      cases hr
      rfl
    · rename_i source hsource
      split
      · refine ⟨rfl, ?_⟩
        intro r hr
        cases hr
        rfl
      · rename_i hfree
        exact absurd ⟨hcheck, hsource, by simpa using hfree⟩ (h plan source)

theorem ready_or_not (st : ModelStore) (call : Call) :
    (∃ plan source, Ready st call plan source) ∨ ∀ plan source, ¬ Ready st call plan source := by
  by_cases h : ∃ plan source, Ready st call plan source
  · exact .inl h
  · exact .inr fun plan source hr => h ⟨plan, source, hr⟩

end Whooshd.Store
