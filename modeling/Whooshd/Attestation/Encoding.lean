import Whooshd.Attestation.Canonical

namespace Whooshd.Attestation
set_option autoImplicit true

/-- The text of a path, as it is encoded. -/
def evidenceAt (t : TextForms) (value : Value) (path : List String) : Option String :=
  (textAt t value path).map t.nfc

/-- A complete identity of the first version. -/
structure Accepted (t : TextForms) (identity : Value) : Prop where
  fits : Fits t identity v1DocumentSpec
  version : evidenceAt t identity ["attestation_schema_version"] = some ATTESTATION_SCHEMA_VERSION
  profile : evidenceAt t identity ["canonicalization_profile"] = some CANONICALIZATION_PROFILE

variable {t : TextForms}

theorem mem_dumps_normalItems {items : List (Key × Value)} {fields : List (String × Spec)}
    (hfit : ItemsFit t items fields) {name text : String} :
    (name, text) ∈ Json.dumpsFields (normalItems t items) ↔
      ∃ item ∈ items, nfcKey t item.1 = some name ∧ text = (normal t item.2).dumps := by
  rw [Json.dumpsFields_eq, normalItems_eq, List.map_map, List.mem_map]
  constructor
  · rintro ⟨item, hitem, hsame⟩
    obtain ⟨name', -, hname', -⟩ := itemsFit_iff.mp hfit item hitem
    simp only [Function.comp_apply, hname', Option.getD_some, Prod.mk.injEq] at hsame
    exact ⟨item, hitem, hname'.trans (congrArg some hsame.1), hsame.2.symm⟩
  · rintro ⟨item, hitem, hname, rfl⟩
    exact ⟨item, hitem, by simp [hname]⟩

theorem mem_dumps_fillFields {fields : List (String × Spec)} {leaf : List String → String}
    {name text : String} :
    (name, text) ∈ Json.dumpsFields (fillFields fields leaf) ↔
      ∃ spec, (name, spec) ∈ fields ∧ text = (spec.fill fun path => leaf (name :: path)).dumps := by
  rw [Json.dumpsFields_eq, fillFields_eq, List.map_map, List.mem_map]
  constructor
  · rintro ⟨⟨name', spec⟩, hmem, hsame⟩
    obtain ⟨rfl, rfl⟩ := Prod.mk.inj hsame
    exact ⟨spec, hmem, rfl⟩
  · rintro ⟨spec, hmem, rfl⟩
    exact ⟨(name, spec), hmem, rfl⟩

/-- What fits is written by its texts alone. -/
theorem Fits.dumps_normal {value : Value} {spec : Spec} (h : Fits t value spec) :
    spec.Distinct → (normal t value).dumps =
      (spec.fill fun path => (evidenceAt t value path).getD "").dumps := by
  refine Fits.rule ?_ ?_ value spec h
  · intro s _ _
    rfl
  · intro items fields hkeys hall hfit ih hdistinct
    rw [normal, Spec.fill, Json.dumps, Json.dumps]
    have hnormal : ((Json.dumpsFields (normalItems t items)).map Prod.fst).Nodup := by
      rw [Json.dumpsFields_eq, List.map_map]
      apply List.Nodup.of_map some
      exact (keys_normalItems hfit).symm ▸ hkeys
    have hfill : ((Json.dumpsFields (fillFields fields fun path =>
        (evidenceAt t (.mapping items) path).getD "")).map Prod.fst).Nodup := by
      rw [Json.dumpsFields_eq, List.map_map]
      exact (keys_fillFields fields _).symm ▸ hdistinct.1
    have hvalue : ∀ item ∈ items, ∀ name spec, nfcKey t item.1 = some name →
        (name, spec) ∈ fields → Fits t item.2 spec → (normal t item.2).dumps =
          (spec.fill fun path => (evidenceAt t (.mapping items) (name :: path)).getD "").dumps := by
      intro item hitem name spec hname hmem hitemFits
      rw [ih item hitem spec hitemFits (distinctFields_iff.mp hdistinct.2 _ hmem)]
      simp only [evidenceAt, textAt, itemAt_of_mem hkeys hitem hname]
    rw [Json.sortMembers_of_perm _ hnormal]
    rw [List.perm_ext_iff_of_nodup (.of_map _ hnormal) (.of_map _ hfill)]
    rintro ⟨name, text⟩
    rw [mem_dumps_normalItems hfit, mem_dumps_fillFields]
    constructor
    · rintro ⟨item, hitem, hname, rfl⟩
      obtain ⟨name', spec, hname', hspec, hitemFits⟩ := itemsFit_iff.mp hfit item hitem
      obtain rfl := Option.some.inj (hname'.symm.trans hname)
      have hmem := mem_of_fieldSpec hspec
      exact ⟨spec, hmem, hvalue item hitem _ spec hname hmem hitemFits⟩
    · rintro ⟨spec, hmem, rfl⟩
      obtain ⟨item, hitem, hname, hitemFits⟩ := exists_item hdistinct.1 hall hfit hmem
      exact ⟨item, hitem, hname, (hvalue item hitem name spec hname hmem hitemFits).symm⟩

theorem Fits.dumps_eq_iff {value value' : Value} {spec : Spec} (hdistinct : spec.Distinct)
    (h : Fits t value spec) (h' : Fits t value' spec) :
    (normal t value).dumps = (normal t value').dumps ↔
      ∀ path ∈ spec.leaves, evidenceAt t value path = evidenceAt t value' path := by
  rw [h.dumps_normal hdistinct, h'.dumps_normal hdistinct,
    Json.dumps_eq_iff (spec.fill_textTree _ hdistinct) (spec.fill_textTree _ hdistinct)]
  constructor
  · intro hsorted path hpath
    have hsame := spec.fill_cancel hdistinct _ _ hsorted path hpath
    obtain ⟨s, hs, -⟩ := h.textAt_leaf hdistinct path hpath
    obtain ⟨s', hs', -⟩ := h'.textAt_leaf hdistinct path hpath
    simpa [evidenceAt, hs, hs'] using hsame
  · intro hagree
    congr 1
    apply spec.fill_congr
    intro path hpath
    rw [hagree path hpath]

theorem Fits.field_text {items : List (Key × Value)} {fields : List (String × Spec)}
    (hdistinct : (Spec.object fields).Distinct) (h : Fits t (.mapping items) (.object fields))
    {name : String} (hmem : (name, Spec.str) ∈ fields) :
    Json.field? name (normalItems t items) =
      (evidenceAt t (.mapping items) [name]).map Json.str := by
  obtain ⟨item, hitem, hname, hvalue⟩ := exists_item hdistinct.1 h.2.1 h.2.2 hmem
  have hkeys : ((normalItems t items).map Prod.fst).Nodup := h.textTree.1
  have hfield : Json.field? name (normalItems t items) = some (normal t item.2) := by
    have hmember : (name, normal t item.2) ∈ normalItems t items := by
      rw [normalItems_eq, List.mem_map]
      exact ⟨item, hitem, by simp [hname]⟩
    rw [Json.field?, Json.find?_member hkeys hmember]
    rfl
  rw [hfield, evidenceAt, textAt, itemAt_of_mem h.1 hitem hname]
  cases hitemValue : item.2 with
  | str s => rfl
  | mapping items =>
    rw [hitemValue] at hvalue
    exact hvalue.elim
  | other =>
    rw [hitemValue] at hvalue
    exact hvalue.elim

theorem isText_map (v : Option String) (s : String) :
    isText (v.map Json.str) s = true ↔ v = some s := by
  cases v with
  | none => simp [isText]
  | some s' => simp [isText]

theorem Accepted.isText_iff {items : List (Key × Value)}
    (h : Fits t (.mapping items) v1DocumentSpec) :
    Accepted t (.mapping items) ↔
      isText (Json.field? "attestation_schema_version" (normalItems t items))
          ATTESTATION_SCHEMA_VERSION = true ∧
        isText (Json.field? "canonicalization_profile" (normalItems t items))
          CANONICALIZATION_PROFILE = true := by
  rw [h.field_text v1DocumentSpec_distinct (by simp), isText_map,
    h.field_text v1DocumentSpec_distinct (by simp), isText_map]
  constructor
  · rintro ⟨-, hversion, hprofile⟩
    exact ⟨hversion, hprofile⟩
  · rintro ⟨hversion, hprofile⟩
    exact ⟨h, hversion, hprofile⟩

theorem canonicalize_ok_iff {identity : Value} {bytes : ByteArray} :
    canonicalizeIdentityDocument t identity = .ok bytes ↔
      Accepted t identity ∧ bytes = (normal t identity).dumps.toUTF8 := by
  rw [canonicalizeIdentityDocument, Except.bind_eq_ok_iff]
  constructor
  · rintro ⟨j, hj, h⟩
    obtain ⟨hfits, rfl⟩ := (normalizeObject_ok_iff _ _ _ _).mp hj
    cases identity with
    | str s => exact hfits.elim
    | other => exact hfits.elim
    | mapping items =>
      rw [Accepted.isText_iff hfits]
      simp only [normal] at h ⊢
      split_ifs at h with hversion hprofile
      cases h
      rw [Bool.not_eq_false] at hversion hprofile
      exact ⟨⟨hversion, hprofile⟩, rfl⟩
  · rintro ⟨haccepted, rfl⟩
    refine ⟨_, (normalizeObject_ok_iff _ _ _ _).mpr ⟨haccepted.fits, rfl⟩, ?_⟩
    cases identity with
    | str s => exact haccepted.fits.elim
    | other => exact haccepted.fits.elim
    | mapping items =>
      obtain ⟨hversion, hprofile⟩ := (Accepted.isText_iff haccepted.fits).mp haccepted
      simp only [normal]
      rw [if_neg (by rw [hversion]; decide), if_neg (by rw [hprofile]; decide)]
      rfl

/-- A document of texts that can be encoded is canonicalised exactly if it is a complete identity of
the first version. -/
theorem canonicalize_returns_iff (identity : Value) :
    (canonicalizeIdentityDocument t identity).Returns ↔ Accepted t identity := by
  constructor
  · rintro ⟨bytes, h⟩
    exact (canonicalize_ok_iff.mp h).1
  · intro h
    exact ⟨_, canonicalize_ok_iff.mpr ⟨h, rfl⟩⟩

theorem Accepted.bytes_eq_iff {identity identity' : Value} (h : Accepted t identity)
    (h' : Accepted t identity') :
    (normal t identity).dumps.toUTF8 = (normal t identity').dumps.toUTF8 ↔
      ∀ path ∈ v1DocumentSpec.leaves,
        evidenceAt t identity path = evidenceAt t identity' path := by
  rw [← h.fits.dumps_eq_iff v1DocumentSpec_distinct h'.fits]
  exact String.toByteArray_inj

/-- Two identities have the same bytes, and the same digest, exactly if the corresponding texts
are the same after normalisation. -/
theorem digest_eq_iff (sha256Hex : ByteArray → String) {identity identity' : Value}
    {bytes bytes' : ByteArray} (h : canonicalizeIdentityDocument t identity = .ok bytes)
    (h' : canonicalizeIdentityDocument t identity' = .ok bytes')
    (hcollision : Set.InjOn sha256Hex {bytes, bytes'}) :
    (bytes = bytes' ↔ ∀ path ∈ v1DocumentSpec.leaves,
      evidenceAt t identity path = evidenceAt t identity' path) ∧
    (digestIdentityDocument t sha256Hex identity = digestIdentityDocument t sha256Hex identity' ↔
      ∀ path ∈ v1DocumentSpec.leaves,
        evidenceAt t identity path = evidenceAt t identity' path) := by
  obtain ⟨haccepted, rfl⟩ := canonicalize_ok_iff.mp h
  obtain ⟨haccepted', rfl⟩ := canonicalize_ok_iff.mp h'
  refine ⟨haccepted.bytes_eq_iff haccepted', ?_⟩
  rw [← haccepted.bytes_eq_iff haccepted', digestIdentityDocument, digestIdentityDocument, h, h']
  constructor
  · intro hdigest
    have hsame := String.append_right_inj _ |>.mp (Except.ok.inj hdigest)
    exact hcollision (by simp) (by simp) hsame
  · intro hbytes
    rw [hbytes]

/-- The forms of a text without accents. -/
def asciiForms : TextForms where
  nfc s := s
  casefold := String.toLower
  nfc_nfc _ := rfl
  nfc_ne_empty _ h := h
  nfc_placeholder _ := .rfl
  nfc_ascii _ _ := rfl

def identityItems (quantization : String) : List (Key × Value) :=
  [(.str "attestation_schema_version", .str ATTESTATION_SCHEMA_VERSION),
    (.str "canonicalization_profile", .str CANONICALIZATION_PROFILE),
    (.str "invocation_model_id", .str "org/m"),
    (.str "resolved_model_id", .str "org/m"),
    (.str "artifact_identity", .mapping [(.str "kind", .str "k"), (.str "value", .str "v")]),
    (.str "quantization", .str quantization),
    (.str "runtime_kind", .str "mlx_vlm"),
    (.str "adapter", .mapping [(.str "name", .str "mlx-vlm"), (.str "semantic_build", .str "b")]),
    (.str "whooshd_build_identity", .str "w"),
    (.str "serving_runtime", .mapping [(.str "package", .str "p"), (.str "version", .str "1")]),
    (.str "structured_decoder", .mapping [(.str "package", .str "d"), (.str "version", .str "1")]),
    (.str "tokenizer",
      .mapping [(.str "implementation", .str "i"), (.str "identity_fingerprint", .str "f")]),
    (.str "chat_template_fingerprint", .str "c"),
    (.str "tool_template_parser",
      .mapping [(.str "relationship", .str "r"), (.str "identity_fingerprint", .str "f")]),
    (.str "structured_transport",
      .mapping [(.str "mode", .str "m"), (.str "protocol_version", .str "1")]),
    (.str "qualification_protocol_version", .str "q")]

theorem Fits.of_isOk {value : Value} {spec : Spec} (path : String)
    (h : (normalizeObject t value spec path).isOk = true) : Fits t value spec := by
  cases hok : normalizeObject t value spec path with
  | error e =>
    rw [hok] at h
    cases h
  | ok j => exact ((normalizeObject_ok_iff value spec path j).mp hok).1

theorem accepted_items : Accepted asciiForms (.mapping (identityItems "bits-4")) where
  fits := .of_isOk "identity" (by decide +kernel)
  version := rfl
  profile := rfl

theorem accepted_items_reverse :
    Accepted asciiForms (.mapping (identityItems "bits-8").reverse) where
  fits := .of_isOk "identity" (by decide +kernel)
  version := rfl
  profile := rfl

/-- The digests of the two identities. -/
def identityDigest (bytes : ByteArray) : String :=
  if bytes.data.toList =
      (normal asciiForms (.mapping (identityItems "bits-4"))).dumps.toUTF8.data.toList then
    "cd06cf157dbd008dcb72c6e788ff8f1ee5602dfaefa6122e1eddd4f496cf8b5c"
  else "9116bc1c04fba40ba30a333e0169d430284086e2ffc118704311e61a92cdfb5c"

theorem digest_eq_quantization :
    ((normal asciiForms (.mapping (identityItems "bits-4"))).dumps.toUTF8 =
        (normal asciiForms (.mapping (identityItems "bits-8").reverse)).dumps.toUTF8 ↔
      ∀ path ∈ v1DocumentSpec.leaves,
        evidenceAt asciiForms (.mapping (identityItems "bits-4")) path =
          evidenceAt asciiForms (.mapping (identityItems "bits-8").reverse) path) ∧
    (digestIdentityDocument asciiForms identityDigest (.mapping (identityItems "bits-4")) =
        digestIdentityDocument asciiForms identityDigest
          (.mapping (identityItems "bits-8").reverse) ↔
      ∀ path ∈ v1DocumentSpec.leaves,
        evidenceAt asciiForms (.mapping (identityItems "bits-4")) path =
          evidenceAt asciiForms (.mapping (identityItems "bits-8").reverse) path) := by
  apply digest_eq_iff identityDigest (canonicalize_ok_iff.mpr ⟨accepted_items, rfl⟩)
    (canonicalize_ok_iff.mpr ⟨accepted_items_reverse, rfl⟩)
  rw [Set.injOn_pair]
  intro h
  by_contra hdiffer
  rw [identityDigest, if_pos rfl, identityDigest, if_neg fun hlist =>
    hdiffer (ByteArray.ext (Array.toList_inj.mp hlist)).symm] at h
  exact absurd h (by decide)

/-- The document that is read back from what is written. -/
def readBack (t : TextForms) (value : Value) : Value := ofJson (normal t value).sortKeys

theorem ofJsonFields_eq (fields : List (String × Json)) :
    ofJsonFields fields = fields.map fun f => (.str f.1, ofJson f.2) := by
  induction fields with
  | nil => rfl
  | cons f fields ih => rw [ofJsonFields, ih, List.map_cons]

theorem readBack_mapping (items : List (Key × Value)) :
    ∃ back, readBack t (.mapping items) = .mapping back ∧ back.Perm
      (items.map fun item => (.str ((nfcKey t item.1).getD ""), readBack t item.2)) := by
  have hperm := (List.perm_insertionSort (fun a b : String × Json => a.1 ≤ b.1)
    (Json.sortKeysFields (normalItems t items))).map fun f => (Key.str f.1, ofJson f.2)
  rw [← ofJsonFields_eq, Json.sortKeysFields_eq, normalItems_eq, List.map_map, List.map_map]
    at hperm
  refine ⟨_, rfl, ?_⟩
  rw [Json.sortKeysFields_eq, normalItems_eq, List.map_map]
  exact hperm

theorem nfcKey_again {key : Key} {name : String} (h : nfcKey t key = some name) :
    nfcKey t (.str name) = some name := by
  cases key with
  | str s =>
    cases h
    rw [nfcKey, t.nfc_nfc]
  | other => cases h

theorem Evidence.nfc {s : String} (h : Evidence t s) : Evidence t (t.nfc s) :=
  ⟨t.nfc_ne_empty s h.1, fun hplaceholder => h.2 ((t.nfc_placeholder s).mp hplaceholder)⟩

/-- What is read back fits as well, with the texts that were encoded. -/
theorem Fits.readBack {value : Value} {spec : Spec} (h : Fits t value spec) :
    Fits t (readBack t value) spec ∧
      ∀ path, textAt t (Attestation.readBack t value) path = evidenceAt t value path := by
  refine Fits.rule ?_ ?_ value spec h
  · intro s hs
    refine ⟨hs.nfc, ?_⟩
    intro path
    cases path <;> rfl
  · intro items fields hkeys hall hfit ih
    obtain ⟨back, hback, hperm⟩ := readBack_mapping (t := t) items
    have hnames : (back.map fun item => nfcKey t item.1).Perm
        (items.map fun item => nfcKey t item.1) := by
      have := hperm.map fun item => nfcKey t item.1
      rw [List.map_map] at this
      refine this.trans (.of_eq (List.map_congr_left ?_))
      intro item hitem
      obtain ⟨name, -, hname, -⟩ := itemsFit_iff.mp hfit item hitem
      simp [hname, nfcKey_again hname]
    have hbackKeys := hnames.nodup_iff.mpr hkeys
    rw [hback]
    refine ⟨⟨hbackKeys, ?_, ?_⟩, ?_⟩
    · intro f hf
      exact hnames.mem_iff.mpr (hall f hf)
    · rw [itemsFit_iff]
      intro item hitem
      obtain ⟨source, hsource, rfl⟩ := List.mem_map.mp (hperm.mem_iff.mp hitem)
      obtain ⟨name, spec, hname, hspec, hvalue⟩ := itemsFit_iff.mp hfit source hsource
      refine ⟨name, spec, ?_, hspec, (ih source hsource spec hvalue).1⟩
      simp [hname, nfcKey_again hname]
    · intro path
      cases path with
      | nil => rfl
      | cons name path =>
        rw [evidenceAt, textAt, textAt]
        by_cases hname : some name ∈ items.map fun item => nfcKey t item.1
        · obtain ⟨source, hsource, hsame⟩ := List.mem_map.mp hname
          obtain ⟨-, spec, -, -, hvalue⟩ := itemsFit_iff.mp hfit source hsource
          have hitem := hperm.mem_iff.mpr (List.mem_map_of_mem hsource)
          rw [itemAt_of_mem hbackKeys hitem (by simp [hsame, nfcKey_again hsame]),
            itemAt_of_mem hkeys hsource hsame]
          exact (ih source hsource spec hvalue).2 path
        · rw [itemAt_of_not_mem hname, itemAt_of_not_mem]
          · rfl
          · rwa [hnames.mem_iff]

theorem Fits.evidenceAt_readBack {value : Value} {spec : Spec} (h : Fits t value spec)
    (path : List String) :
    evidenceAt t (Attestation.readBack t value) path = evidenceAt t value path := by
  rw [evidenceAt, h.readBack.2, evidenceAt, Option.map_map]
  congr 1
  funext s
  exact t.nfc_nfc s

theorem Accepted.readBack {identity : Value} (h : Accepted t identity) :
    Accepted t (readBack t identity) where
  fits := h.fits.readBack.1
  version := (h.fits.evidenceAt_readBack _).trans h.version
  profile := (h.fits.evidenceAt_readBack _).trans h.profile

/-- The bytes are JSON. The document read from them has the normalised texts, and is
canonicalised to the same bytes. -/
theorem canonicalize_loads (reprFloat : String → String) {identity : Value} {bytes : ByteArray}
    (h : canonicalizeIdentityDocument t identity = .ok bytes) :
    ∃ j, Json.loadsBytes reprFloat bytes = some j ∧
      canonicalizeIdentityDocument t (ofJson j) = .ok bytes ∧
      ∀ path, textAt t (ofJson j) path = evidenceAt t identity path := by
  obtain ⟨haccepted, rfl⟩ := canonicalize_ok_iff.mp h
  refine ⟨_, Json.loadsBytes_dumps_sorted reprFloat haccepted.fits.textTree, ?_,
    haccepted.fits.readBack.2⟩
  refine canonicalize_ok_iff.mpr ⟨haccepted.readBack, ?_⟩
  apply (haccepted.bytes_eq_iff haccepted.readBack).mpr
  intro path _
  exact (haccepted.fits.evidenceAt_readBack path).symm

theorem canonicalize_loads_items :
    ∃ j, Json.loadsBytes id (normal asciiForms
        (.mapping (identityItems "bits-8").reverse)).dumps.toUTF8 = some j ∧
      canonicalizeIdentityDocument asciiForms (ofJson j) =
        .ok (normal asciiForms (.mapping (identityItems "bits-8").reverse)).dumps.toUTF8 ∧
      ∀ path, textAt asciiForms (ofJson j) path =
        evidenceAt asciiForms (.mapping (identityItems "bits-8").reverse) path :=
  canonicalize_loads id (canonicalize_ok_iff.mpr ⟨accepted_items_reverse, rfl⟩)

end Whooshd.Attestation
