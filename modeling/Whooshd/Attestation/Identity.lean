import Whooshd.Library.Coerce
import Whooshd.Library.JsonRead

namespace Whooshd.Attestation
set_option autoImplicit true

def ATTESTATION_SCHEMA_VERSION : String := "whooshd.qualification-attestation.v1"

def CANONICALIZATION_PROFILE : String := "whooshd.qualification-attestation.canonical-json.v1"

def DIGEST_ALGORITHM : String := "sha256"

def placeholders : List String := ["unknown", "unavailable", "n/a"]

/-- Unicode normalisation and case folding, with what is relied on. -/
structure TextForms where
  nfc : String → String
  casefold : String → String
  nfc_nfc : ∀ s, nfc (nfc s) = nfc s
  nfc_ne_empty : ∀ s, s ≠ "" → nfc s ≠ ""
  nfc_placeholder : ∀ s, casefold (nfc s) ∈ placeholders ↔ casefold s ∈ placeholders
  nfc_ascii : ∀ s, s.toList.all (·.toNat < 128) = true → nfc s = s

inductive Key where
  | str (s : String)
  | other
  deriving DecidableEq, Repr

/-- A text, a mapping, or any other object. -/
inductive Value where
  | str (s : String)
  | mapping (items : List (Key × Value))
  | other

inductive Spec where
  | str
  | object (fields : List (String × Spec))

/-- What a specification asks for under a key. -/
def fieldSpec (fields : List (String × Spec)) (key : String) : Option Spec :=
  (fields.find? (fun f => f.1 = key)).map Prod.snd

def v1DocumentSpec : Spec :=
  .object
    [("attestation_schema_version", .str),
      ("canonicalization_profile", .str),
      ("invocation_model_id", .str),
      ("resolved_model_id", .str),
      ("artifact_identity", .object [("kind", .str), ("value", .str)]),
      ("quantization", .str),
      ("runtime_kind", .str),
      ("adapter", .object [("name", .str), ("semantic_build", .str)]),
      ("whooshd_build_identity", .str),
      ("serving_runtime", .object [("package", .str), ("version", .str)]),
      ("structured_decoder", .object [("package", .str), ("version", .str)]),
      ("tokenizer", .object [("implementation", .str), ("identity_fingerprint", .str)]),
      ("chat_template_fingerprint", .str),
      ("tool_template_parser", .object [("relationship", .str), ("identity_fingerprint", .str)]),
      ("structured_transport", .object [("mode", .str), ("protocol_version", .str)]),
      ("qualification_protocol_version", .str)]

variable (t : TextForms)

def validEvidence (s : String) : Bool := s ≠ "" && t.casefold s ∉ placeholders

mutual

def normalizeObject : Value → Spec → String → Except String Json
  | .str s, .str, path =>
    if validEvidence t s then .ok (.str (t.nfc s))
    else .error s!"invalid required evidence at {path}"
  | _, .str, path => .error s!"invalid required evidence at {path}"
  | .mapping items, .object fields, path => do
    let normalized ← normalizeItems items fields path []
    if ∀ key ∈ fields.map Prod.fst, key ∈ normalized.map Prod.fst then return .obj normalized
    else throw s!"incomplete identity object at {path}"
  | _, .object _, path => .error s!"invalid identity object at {path}"

/-- The loop over the items. Each key taken in is known, so that the sets of keys agree at the
end if no known one is missing. -/
def normalizeItems : List (Key × Value) → List (String × Spec) → String →
    List (String × Json) → Except String (List (String × Json))
  | [], _, _, normalized => .ok normalized
  | (.other, _) :: _, _, path, _ => .error s!"non-string identity key at {path}"
  | (.str rawKey, rawValue) :: items, fields, path, normalized =>
    let key := t.nfc rawKey
    if key ∈ normalized.map Prod.fst then
      .error s!"duplicate normalized identity key at {path}"
    else
      match fieldSpec fields key with
      | none => .error s!"unknown identity field at {path}.{key}"
      | some spec => do
        let value ← normalizeObject rawValue spec s!"{path}.{key}"
        normalizeItems items fields path (normalized ++ [(key, value)])

end

def isText (v : Option Json) (s : String) : Bool :=
  match v with
  | some (.str s') => s' = s
  | _ => false

/-- `canonicalize_identity_document`. A text holds no lone surrogate here; on one the encoding at
the end, which is outside of the `try`, would raise. -/
def canonicalizeIdentityDocument (identity : Value) : Except String ByteArray := do
  match ← normalizeObject t identity v1DocumentSpec "identity" with
  | .obj normalized =>
    if isText (Json.field? "attestation_schema_version" normalized) ATTESTATION_SCHEMA_VERSION
        = false then
      throw "unexpected attestation schema version"
    else if isText (Json.field? "canonicalization_profile" normalized) CANONICALIZATION_PROFILE
        = false then
      throw "unexpected canonicalization profile"
    else return (Json.obj normalized).dumps.toUTF8
  -- excluded by the assertion that the result is a dictionary
  | _ => throw "AssertionError"

variable (sha256Hex : ByteArray → String)

def digestIdentityDocument (identity : Value) : Except String String :=
  (canonicalizeIdentityDocument t identity).map fun bytes =>
    s!"{DIGEST_ALGORITHM}:{sha256Hex bytes}"

end Whooshd.Attestation
