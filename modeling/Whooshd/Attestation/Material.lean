import Whooshd.Attestation.Encoding

namespace Whooshd.Attestation
set_option autoImplicit true

inductive MaterialValue where
  | null
  | text (s : String)
  | object (fields : Dict String (Option String))
  | other

abbrev Material := Dict String MaterialValue

/-- The types of the fields of the attestation, with the limits of their lengths. -/
inductive FieldType where
  | text (limit : Nat)
  | optionalText (limit : Nat)
  | object (fields : List (String × Nat))

def attestationFields : List (String × FieldType) :=
  [("attestation_schema_version", .text 128),
    ("canonicalization_profile", .text 128),
    ("invocation_model_id", .optionalText 256),
    ("resolved_model_id", .optionalText 256),
    ("artifact_identity", .object [("kind", 64), ("value", 256)]),
    ("quantization", .optionalText 128),
    ("runtime_kind", .optionalText 64),
    ("adapter", .object [("name", 64), ("semantic_build", 128)]),
    ("whooshd_build_identity", .optionalText 128),
    ("serving_runtime", .object [("package", 64), ("version", 128)]),
    ("structured_decoder", .object [("package", 64), ("version", 128)]),
    ("tokenizer", .object [("implementation", 128), ("identity_fingerprint", 128)]),
    ("chat_template_fingerprint", .optionalText 128),
    ("tool_template_parser", .object [("relationship", 64), ("identity_fingerprint", 128)]),
    ("structured_transport", .object [("mode", 128), ("protocol_version", 128)]),
    ("qualification_protocol_version", .optionalText 128),
    ("digest_algorithm", .optionalText 32),
    ("attestation_digest", .optionalText 80)]

/-- Every field has a default. -/
def FieldType.accepts : FieldType → Option MaterialValue → Bool
  | _, none => true
  | .text limit, some (.text s) => s.length ≤ limit
  | .optionalText _, some .null => true
  | .optionalText limit, some (.text s) => s.length ≤ limit
  | .object fields, some (.object d) =>
    d.entries.all fun entry =>
      match (fields.find? (fun f => f.1 = entry.1)).map Prod.snd with
      | none => false
      | some limit => entry.2.all fun s => s.length ≤ limit
  | _, _ => false

/-- The validation of the class, which forbids other fields. -/
def validMaterial (data : Material) : Bool :=
  data.keys.all (· ∈ attestationFields.map Prod.fst) &&
    attestationFields.all fun f => f.2.accepts (data.get? f.1)

def textField (data : Material) (name : String) : Option String :=
  match data.get? name with
  | some (.text s) => some s
  | _ => none

def objectField (data : Material) (name field : String) : Option String :=
  match data.get? name with
  | some (.object d) => (d.get? field).join
  | _ => none

structure ArtifactIdentity where
  kind : Option String
  value : Option String

structure AdapterIdentity where
  name : Option String
  semanticBuild : Option String

structure PackageIdentity where
  package : Option String
  version : Option String

structure TokenizerIdentity where
  implementation : Option String
  identityFingerprint : Option String

structure ToolTemplateParserIdentity where
  relationship : Option String
  identityFingerprint : Option String

structure StructuredTransportIdentity where
  mode : Option String
  protocolVersion : Option String

structure RuntimeQualificationAttestation where
  attestationSchemaVersion : String
  canonicalizationProfile : String
  invocationModelId : Option String
  resolvedModelId : Option String
  artifactIdentity : ArtifactIdentity
  quantization : Option String
  runtimeKind : Option String
  adapter : AdapterIdentity
  whooshdBuildIdentity : Option String
  servingRuntime : PackageIdentity
  structuredDecoder : PackageIdentity
  tokenizer : TokenizerIdentity
  chatTemplateFingerprint : Option String
  toolTemplateParser : ToolTemplateParserIdentity
  structuredTransport : StructuredTransportIdentity
  qualificationProtocolVersion : Option String
  digestAlgorithm : Option String
  attestationDigest : Option String

/-- `data.setdefault(key, value)`. -/
def setDefault (data : Material) (key value : String) : Material :=
  if data.contains key then data else data.set key (.text value)

def withDefaults (material : Material) : Material :=
  setDefault (setDefault material "attestation_schema_version" ATTESTATION_SCHEMA_VERSION)
    "canonicalization_profile" CANONICALIZATION_PROFILE

def Value.ofText : Option String → Value
  | some s => .str s
  | none => .other

namespace RuntimeQualificationAttestation

def ofData (data : Material) : Except String RuntimeQualificationAttestation :=
  if validMaterial data then .ok
    { attestationSchemaVersion :=
        (textField data "attestation_schema_version").getD ATTESTATION_SCHEMA_VERSION
      canonicalizationProfile :=
        (textField data "canonicalization_profile").getD CANONICALIZATION_PROFILE
      invocationModelId := textField data "invocation_model_id"
      resolvedModelId := textField data "resolved_model_id"
      artifactIdentity :=
        ⟨objectField data "artifact_identity" "kind", objectField data "artifact_identity" "value"⟩
      quantization := textField data "quantization"
      runtimeKind := textField data "runtime_kind"
      adapter := ⟨objectField data "adapter" "name", objectField data "adapter" "semantic_build"⟩
      whooshdBuildIdentity := textField data "whooshd_build_identity"
      servingRuntime :=
        ⟨objectField data "serving_runtime" "package", objectField data "serving_runtime" "version"⟩
      structuredDecoder :=
        ⟨objectField data "structured_decoder" "package",
          objectField data "structured_decoder" "version"⟩
      tokenizer :=
        ⟨objectField data "tokenizer" "implementation",
          objectField data "tokenizer" "identity_fingerprint"⟩
      chatTemplateFingerprint := textField data "chat_template_fingerprint"
      toolTemplateParser :=
        ⟨objectField data "tool_template_parser" "relationship",
          objectField data "tool_template_parser" "identity_fingerprint"⟩
      structuredTransport :=
        ⟨objectField data "structured_transport" "mode",
          objectField data "structured_transport" "protocol_version"⟩
      qualificationProtocolVersion := textField data "qualification_protocol_version"
      digestAlgorithm := textField data "digest_algorithm"
      attestationDigest := textField data "attestation_digest" }
  else .error "ValidationError"

def candidate (a : RuntimeQualificationAttestation) : Value :=
  .mapping
    [(.str "attestation_schema_version", .str a.attestationSchemaVersion),
      (.str "canonicalization_profile", .str a.canonicalizationProfile),
      (.str "invocation_model_id", .ofText a.invocationModelId),
      (.str "resolved_model_id", .ofText a.resolvedModelId),
      (.str "artifact_identity",
        .mapping [(.str "kind", .ofText a.artifactIdentity.kind),
          (.str "value", .ofText a.artifactIdentity.value)]),
      (.str "quantization", .ofText a.quantization),
      (.str "runtime_kind", .ofText a.runtimeKind),
      (.str "adapter",
        .mapping [(.str "name", .ofText a.adapter.name),
          (.str "semantic_build", .ofText a.adapter.semanticBuild)]),
      (.str "whooshd_build_identity", .ofText a.whooshdBuildIdentity),
      (.str "serving_runtime",
        .mapping [(.str "package", .ofText a.servingRuntime.package),
          (.str "version", .ofText a.servingRuntime.version)]),
      (.str "structured_decoder",
        .mapping [(.str "package", .ofText a.structuredDecoder.package),
          (.str "version", .ofText a.structuredDecoder.version)]),
      (.str "tokenizer",
        .mapping [(.str "implementation", .ofText a.tokenizer.implementation),
          (.str "identity_fingerprint", .ofText a.tokenizer.identityFingerprint)]),
      (.str "chat_template_fingerprint", .ofText a.chatTemplateFingerprint),
      (.str "tool_template_parser",
        .mapping [(.str "relationship", .ofText a.toolTemplateParser.relationship),
          (.str "identity_fingerprint", .ofText a.toolTemplateParser.identityFingerprint)]),
      (.str "structured_transport",
        .mapping [(.str "mode", .ofText a.structuredTransport.mode),
          (.str "protocol_version", .ofText a.structuredTransport.protocolVersion)]),
      (.str "qualification_protocol_version", .ofText a.qualificationProtocolVersion)]

variable (t : TextForms)

def materialIdentity (a : RuntimeQualificationAttestation) : Option Value :=
  match canonicalizeIdentityDocument t a.candidate with
  | .ok _ => some a.candidate
  | .error _ => none

def complete (a : RuntimeQualificationAttestation) : Bool := a.attestationDigest.isSome

end RuntimeQualificationAttestation

def buildAttestation (t : TextForms) (sha256Hex : ByteArray → String) (material : Material) :
    Except String RuntimeQualificationAttestation := do
  let attestation ← RuntimeQualificationAttestation.ofData (withDefaults material)
  match attestation.materialIdentity t with
  | none => return attestation
  | some identity =>
    let digest ← digestIdentityDocument t sha256Hex identity
    return { attestation with
      digestAlgorithm := some DIGEST_ALGORITHM
      attestationDigest := some digest }

mutual

/-- The document with some of the texts of its leaves. -/
def Spec.document : Spec → (List String → Option String) → Value
  | .str, leaf => .ofText (leaf [])
  | .object fields, leaf => .mapping (documentItems fields leaf)

def documentItems : List (String × Spec) → (List String → Option String) → List (Key × Value)
  | [], _ => []
  | (name, spec) :: fields, leaf =>
    (.str name, spec.document fun path => leaf (name :: path)) :: documentItems fields leaf

end

/-- What the material says about a leaf of the document. -/
def materialText (material : Material) : List String → Option String
  | [name] => textField (withDefaults material) name
  | [name, field] => objectField (withDefaults material) name field
  | _ => none

def materialDocument (material : Material) : Value :=
  v1DocumentSpec.document (materialText material)

mutual

/-- The keys of a specification are plain ASCII. -/
def Spec.ascii : Spec → Bool
  | .str => true
  | .object fields => asciiFields fields

def asciiFields : List (String × Spec) → Bool
  | [] => true
  | (name, spec) :: fields => name.toList.all (·.toNat < 128) && spec.ascii && asciiFields fields

end

theorem v1DocumentSpec_ascii : v1DocumentSpec.ascii = true := by decide +kernel

variable {t : TextForms}

theorem asciiFields_iff {fields : List (String × Spec)} :
    asciiFields fields = true ↔
      ∀ f ∈ fields, f.1.toList.all (·.toNat < 128) = true ∧ f.2.ascii = true := by
  induction fields with
  | nil => simp [asciiFields]
  | cons f fields ih =>
    rw [asciiFields, Bool.and_eq_true, Bool.and_eq_true, ih, List.forall_mem_cons]

theorem documentItems_eq (fields : List (String × Spec)) (leaf : List String → Option String) :
    documentItems fields leaf =
      fields.map fun f => (.str f.1, f.2.document fun path => leaf (f.1 :: path)) := by
  induction fields with
  | nil => rfl
  | cons f fields ih => rw [documentItems, ih, List.map_cons]

theorem keys_documentItems {fields : List (String × Spec)} (hascii : asciiFields fields = true)
    (leaf : List String → Option String) :
    (documentItems fields leaf).map (fun item => nfcKey t item.1) = fields.map (some ·.1) := by
  rw [documentItems_eq, List.map_map]
  apply List.map_congr_left
  intro f hf
  exact congrArg some (t.nfc_ascii f.1 (asciiFields_iff.mp hascii f hf).1)

theorem nodup_documentItems {fields : List (String × Spec)} (hascii : asciiFields fields = true)
    (hdistinct : (fields.map Prod.fst).Nodup) (leaf : List String → Option String) :
    ((documentItems fields leaf).map fun item => nfcKey t item.1).Nodup := by
  have hkeys := hdistinct.map (Option.some_injective String)
  rw [List.map_map] at hkeys
  rw [keys_documentItems hascii]
  exact hkeys

theorem Spec.textAt_document (spec : Spec) (leaf : List String → Option String)
    (hascii : spec.ascii = true) (hdistinct : spec.Distinct) :
    ∀ path ∈ spec.leaves, textAt t (spec.document leaf) path = leaf path := by
  induction spec using Spec.rule generalizing leaf with
  | str =>
    intro path hpath
    rw [Spec.leaves, List.mem_singleton] at hpath
    rw [hpath, Spec.document]
    cases leaf [] <;> rfl
  | object fields ih =>
    intro path hpath
    obtain ⟨name, spec, rest, hmem, hrest, rfl⟩ := mem_fieldLeaves.mp hpath
    have hfield := asciiFields_iff.mp hascii _ hmem
    have hitem : (Key.str name, spec.document fun path => leaf (name :: path)) ∈
        documentItems fields leaf := by
      rw [documentItems_eq, List.mem_map]
      exact ⟨_, hmem, rfl⟩
    rw [Spec.document, textAt,
      itemAt_of_mem (nodup_documentItems hascii hdistinct.1 leaf) hitem]
    · exact ih _ hmem _ hfield.2 (distinctFields_iff.mp hdistinct.2 _ hmem) rest hrest
    · exact congrArg some (t.nfc_ascii name hfield.1)

theorem Spec.fits_document (spec : Spec) (leaf : List String → Option String)
    (hascii : spec.ascii = true) (hdistinct : spec.Distinct) :
    Fits t (spec.document leaf) spec ↔
      ∀ path ∈ spec.leaves, ∃ s, leaf path = some s ∧ Evidence t s := by
  constructor
  · intro h path hpath
    rw [← spec.textAt_document leaf hascii hdistinct path hpath]
    exact h.textAt_leaf hdistinct path hpath
  · intro h
    induction spec using Spec.rule generalizing leaf with
    | str =>
      obtain ⟨s, hs, hevidence⟩ := h [] (by simp [Spec.leaves])
      rw [Spec.document, hs]
      exact hevidence
    | object fields ih =>
      refine ⟨nodup_documentItems hascii hdistinct.1 leaf, ?_, ?_⟩
      · intro f hf
        rw [keys_documentItems hascii]
        exact List.mem_map_of_mem (f := fun f : String × Spec => some f.1) hf
      · rw [itemsFit_iff]
        intro item hitem
        rw [documentItems_eq] at hitem
        obtain ⟨f, hf, rfl⟩ := List.mem_map.mp hitem
        have hfield := asciiFields_iff.mp hascii f hf
        refine ⟨f.1, f.2, congrArg some (t.nfc_ascii f.1 hfield.1),
          fieldSpec_of_mem hdistinct.1 hf, ?_⟩
        apply ih f hf _ hfield.2 (distinctFields_iff.mp hdistinct.2 f hf)
        intro path hpath
        exact h _ (mem_fieldLeaves.mpr ⟨f.1, f.2, path, hf, hpath, rfl⟩)

theorem get?_setDefault_ne {data : Material} {key key' value : String} (h : key' ≠ key) :
    (setDefault data key value).get? key' = data.get? key' := by
  rw [setDefault]
  split
  · rfl
  · exact Dict.get?_set_ne h _

theorem contains_setDefault (data : Material) (key value : String) :
    (setDefault data key value).contains key = true := by
  rw [setDefault]
  split
  · assumption
  · simp [Dict.contains]

theorem textField_of_valid {data : Material} (hvalid : validMaterial data = true) {name : String}
    {limit : Nat} (hfield : (name, FieldType.text limit) ∈ attestationFields)
    (h : data.contains name = true) : ∃ s, textField data name = some s := by
  rw [validMaterial, Bool.and_eq_true] at hvalid
  have haccepts := List.all_eq_true.mp hvalid.2 _ hfield
  obtain ⟨v, hv⟩ := Option.isSome_iff_exists.mp h
  simp only [hv] at haccepts
  cases v with
  | text s => exact ⟨s, by rw [textField, hv]⟩
  | null => simp [FieldType.accepts] at haccepts
  | object fields => simp [FieldType.accepts] at haccepts
  | other => simp [FieldType.accepts] at haccepts

theorem textField_withDefaults {material : Material} {name : String}
    (hversion : name ≠ "attestation_schema_version")
    (hprofile : name ≠ "canonicalization_profile") :
    textField (withDefaults material) name = textField material name := by
  rw [textField, withDefaults, get?_setDefault_ne hprofile, get?_setDefault_ne hversion, textField]

/-- The document of a validated attestation is that of its material. -/
theorem candidate_ofData {material : Material}
    (hvalid : validMaterial (withDefaults material) = true) {a : RuntimeQualificationAttestation}
    (h : RuntimeQualificationAttestation.ofData (withDefaults material) = .ok a) :
    a.candidate = materialDocument material := by
  have hcontains : (withDefaults material).contains "attestation_schema_version" = true := by
    rw [Dict.contains, withDefaults, get?_setDefault_ne (by decide)]
    exact contains_setDefault material _ _
  have hfield : ("attestation_schema_version", FieldType.text 128) ∈ attestationFields ∧
      ("canonicalization_profile", FieldType.text 128) ∈ attestationFields := by
    simp [attestationFields]
  obtain ⟨version, hversion⟩ := textField_of_valid hvalid hfield.1 hcontains
  obtain ⟨profile, hprofile⟩ := textField_of_valid hvalid hfield.2 (contains_setDefault _ _ _)
  rw [RuntimeQualificationAttestation.ofData, if_pos hvalid] at h
  cases h
  simp only [RuntimeQualificationAttestation.candidate, hversion, hprofile, Option.getD_some,
    materialDocument, v1DocumentSpec, Spec.document, documentItems, materialText, Value.ofText]

/-- The evidence that a material must hold. -/
structure CompleteEvidence (t : TextForms) (material : Material) : Prop where
  leaf : ∀ path ∈ v1DocumentSpec.leaves, ∃ s, materialText material path = some s ∧ Evidence t s
  version : (materialText material ["attestation_schema_version"]).map t.nfc =
    some ATTESTATION_SCHEMA_VERSION
  profile : (materialText material ["canonicalization_profile"]).map t.nfc =
    some CANONICALIZATION_PROFILE

theorem evidenceAt_materialDocument (material : Material) {path : List String}
    (h : path ∈ v1DocumentSpec.leaves) :
    evidenceAt t (materialDocument material) path = (materialText material path).map t.nfc := by
  rw [evidenceAt, materialDocument,
    v1DocumentSpec.textAt_document _ v1DocumentSpec_ascii v1DocumentSpec_distinct path h]

theorem accepted_materialDocument_iff {material : Material} :
    Accepted t (materialDocument material) ↔ CompleteEvidence t material := by
  have hfits := v1DocumentSpec.fits_document (t := t) (materialText material) v1DocumentSpec_ascii
    v1DocumentSpec_distinct
  have hleaves : ["attestation_schema_version"] ∈ v1DocumentSpec.leaves ∧
      ["canonicalization_profile"] ∈ v1DocumentSpec.leaves := by decide
  have hversion := evidenceAt_materialDocument (t := t) material hleaves.1
  have hprofile := evidenceAt_materialDocument (t := t) material hleaves.2
  constructor
  · intro h
    exact ⟨hfits.mp h.fits, hversion ▸ h.version, hprofile ▸ h.profile⟩
  · intro h
    exact ⟨hfits.mpr h.leaf, hversion.trans h.version, hprofile.trans h.profile⟩

variable {sha256Hex : ByteArray → String}

/-- A valid material gets a digest exactly if it holds all the evidence, and then it is the digest
of its document. -/
theorem buildAttestation_complete_iff {material : Material}
    (hvalid : validMaterial (withDefaults material) = true)
    (hown : textField material "attestation_digest" = none) :
    ∃ a, buildAttestation t sha256Hex material = .ok a ∧
      (a.complete = true ↔ CompleteEvidence t material) ∧
      ∀ digest, a.attestationDigest = some digest → a.digestAlgorithm = some DIGEST_ALGORITHM ∧
        digestIdentityDocument t sha256Hex (materialDocument material) = .ok digest := by
  obtain ⟨a, ha⟩ : ∃ a, RuntimeQualificationAttestation.ofData (withDefaults material) = .ok a :=
    ⟨_, if_pos hvalid⟩
  have hcandidate := candidate_ofData hvalid ha
  have hdigest : a.attestationDigest = none := by
    rw [RuntimeQualificationAttestation.ofData, if_pos hvalid] at ha
    cases ha
    exact (textField_withDefaults (by decide) (by decide)).trans hown
  rw [← accepted_materialDocument_iff, ← hcandidate]
  simp only [buildAttestation, ha, RuntimeQualificationAttestation.materialIdentity, bind,
    Except.bind]
  cases hok : canonicalizeIdentityDocument t a.candidate with
  | error e =>
    refine ⟨a, rfl, ?_, ?_⟩
    · rw [RuntimeQualificationAttestation.complete, hdigest]
      constructor
      · intro h
        cases h
      · intro h
        rw [canonicalize_ok_iff.mpr ⟨h, rfl⟩] at hok
        cases hok
    · intro digest h
      rw [hdigest] at h
      cases h
  | ok bytes =>
    have hbytes : digestIdentityDocument t sha256Hex a.candidate =
        .ok s!"{DIGEST_ALGORITHM}:{sha256Hex bytes}" := by
      rw [digestIdentityDocument, hok]
      rfl
    refine ⟨{ a with
      digestAlgorithm := some DIGEST_ALGORITHM
      attestationDigest := some s!"{DIGEST_ALGORITHM}:{sha256Hex bytes}" }, ?_, ?_, ?_⟩
    · simp only [hbytes]
      rfl
    · exact ⟨fun _ => (canonicalize_ok_iff.mp hok).1, fun _ => rfl⟩
    · intro digest h
      cases h
      exact ⟨rfl, hbytes⟩

def Value.material : Value → MaterialValue
  | .str s => .text s
  | .mapping items => .object (items.foldl (fun d item =>
      match item with
      | (.str name, .str s) => d.set name (some s)
      | _ => d) .empty)
  | .other => .null

/-- The material of a complete identity. -/
def identityMaterial : Material :=
  (identityItems "bits-4").foldl (fun material item =>
    match item.1 with
    | .str name => material.set name item.2.material
    | .other => material) .empty

theorem completeEvidence_identity : CompleteEvidence asciiForms identityMaterial where
  leaf path hpath := by
    have hall : ∀ path ∈ v1DocumentSpec.leaves,
        (materialText identityMaterial path).any (validEvidence asciiForms) = true := by
      decide +kernel
    obtain ⟨s, hs, hvalid⟩ := (Option.any_eq_true _ _).mp (hall path hpath)
    exact ⟨s, hs, validEvidence_iff.mp hvalid⟩
  version := by decide +kernel
  profile := by decide +kernel

theorem buildAttestation_identity :
    ∃ a digest, buildAttestation asciiForms identityDigest identityMaterial = .ok a ∧
      a.attestationDigest = some digest ∧ a.digestAlgorithm = some DIGEST_ALGORITHM ∧
      digestIdentityDocument asciiForms identityDigest (materialDocument identityMaterial) =
        .ok digest := by
  have hvalid : validMaterial (withDefaults identityMaterial) = true := by decide +kernel
  obtain ⟨a, hbuild, hcomplete, hdigest⟩ :=
    @buildAttestation_complete_iff asciiForms identityDigest identityMaterial hvalid rfl
  obtain ⟨digest, hsome⟩ := Option.isSome_iff_exists.mp (hcomplete.mpr completeEvidence_identity)
  obtain ⟨halgorithm, hdocument⟩ := hdigest digest hsome
  exact ⟨a, digest, hbuild, hsome, halgorithm, hdocument⟩

end Whooshd.Attestation
