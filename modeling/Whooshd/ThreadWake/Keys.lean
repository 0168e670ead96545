import Whooshd.Library.Json

namespace Whooshd.ThreadWake
set_option autoImplicit true

inductive ThreadWakeScope where
  | request | thread | project | user | global
  deriving DecidableEq, Repr

def ThreadWakeScope.text : ThreadWakeScope → String
  | request => "request"
  | thread => "thread"
  | project => "project"
  | user => "user"
  | global => "global"

theorem ThreadWakeScope.text_injective : Function.Injective text := by
  intro a b h
  cases a <;> cases b <;> first | rfl | exact absurd h (by decide)

inductive Stability where
  | stable | semiStable | dynamic
  deriving DecidableEq, Repr

def Stability.text : Stability → String
  | stable => "stable"
  | semiStable => "semi_stable"
  | dynamic => "dynamic"

/-- A hashed prompt segment. -/
structure PromptSegment where
  name : String
  role : String
  contentHash : String
  segmentType : String
  stability : Stability
  tokenCount : Nat
  scope : ThreadWakeScope
  multimodal : Bool
  inStablePrefix : Bool
  deriving DecidableEq, Repr

structure PromptGraph where
  modelId : Option String
  backend : Option String
  chatTemplateHash : String
  tokenizerHash : Option String
  segments : List PromptSegment
  stablePrefixHash : String
  fullPromptHash : String
  stablePrefixTokens : Nat
  dynamicTokens : Nat
  orderedSegmentHashes : List String
  fullPrefixChainHash : String
  continuationCandidate : Bool
  deriving DecidableEq, Repr

def threadwakeKeyVersion : String := "threadwake-v0-phase-a"

/-- `value.replace("\r\n", "\n").replace("\r", "\n")` in one pass. -/
def normalizeLineEnds : List Char → List Char
  | '\r' :: '\n' :: cs => '\n' :: normalizeLineEnds cs
  | '\r' :: cs => '\n' :: normalizeLineEnds cs
  | c :: cs => c :: normalizeLineEnds cs
  | [] => []

def normalizeText (s : String) : String := String.ofList (normalizeLineEnds s.toList)

mutual

def normalizeValue : Json → Json
  | .str s => .str (normalizeText s)
  | .arr items => .arr (normalizeItems items)
  | .obj fields => .obj (normalizeFields fields)
  | v => v

def normalizeItems : List Json → List Json
  | [] => []
  | v :: vs => normalizeValue v :: normalizeItems vs

def normalizeFields : List (String × Json) → List (String × Json)
  | [] => []
  | (k, v) :: fs => (k, normalizeValue v) :: normalizeFields fs

end

def canonicalJson (v : Json) : String := v.dumps

def canonicalizeContent (content : Json) : String :=
  match normalizeValue content with
  | .str s => s
  | v => canonicalJson v

section
variable (sha256Hex : String → String)

def hashJson (v : Json) : String := sha256Hex (canonicalJson v)

def buildThreadwakeCacheKey (graph : PromptGraph) (scope : ThreadWakeScope)
    (modelRevision quantization : Option String) : String :=
  hashJson sha256Hex (.obj
    [("version", .str threadwakeKeyVersion),
     ("backend", .ofOption graph.backend),
     ("model_id", .ofOption graph.modelId),
     ("model_revision", .ofOption modelRevision),
     ("quantization", .ofOption quantization),
     ("tokenizer_hash", .ofOption graph.tokenizerHash),
     ("chat_template_hash", .str graph.chatTemplateHash),
     ("stable_prefix_hash", .str graph.stablePrefixHash),
     ("scope", .str scope.text)])

end

/-- The key payload in the order in which it is printed. -/
def keyPayload (graph : PromptGraph) (scope : ThreadWakeScope)
    (modelRevision quantization : Option String) : List (String × Option String) :=
  [("backend", graph.backend),
   ("chat_template_hash", some graph.chatTemplateHash),
   ("model_id", graph.modelId),
   ("model_revision", modelRevision),
   ("quantization", quantization),
   ("scope", some scope.text),
   ("stable_prefix_hash", some graph.stablePrefixHash),
   ("tokenizer_hash", graph.tokenizerHash),
   ("version", some threadwakeKeyVersion)]

def payloadMember (f : String × Option String) : String :=
  Json.member (f.1, (Json.ofOption f.2).dumps)

theorem buildThreadwakeCacheKey_eq (sha256Hex : String → String) (graph : PromptGraph)
    (scope : ThreadWakeScope) (modelRevision quantization : Option String) :
    buildThreadwakeCacheKey sha256Hex graph scope modelRevision quantization =
      sha256Hex ("\x7b" ++ (",".intercalate
        ((keyPayload graph scope modelRevision quantization).map payloadMember) ++ "\x7d")) := by
  simp [buildThreadwakeCacheKey, hashJson, canonicalJson, Json.dumps, Json.dumpsFields,
    Json.sortMembers, keyPayload, payloadMember, Json.ofOption, List.orderedInsert]

theorem payloadMember_selfDelimiting : SelfDelimiting payloadMember := by
  have h := Json.member_selfDelimiting Json.dumps_ofOption_selfDelimiting
  exact h

/-- The cache key commits to everything it is built from, the scope among it. -/
theorem buildThreadwakeCacheKey_injective {sha256Hex : String → String}
    (hsha : Function.Injective sha256Hex) (h : buildThreadwakeCacheKey sha256Hex g c r q =
      buildThreadwakeCacheKey sha256Hex g' c' r' q') :
    keyPayload g c r q = keyPayload g' c' r' q' := by
  rw [buildThreadwakeCacheKey_eq, buildThreadwakeCacheKey_eq] at h
  have hm := (String.append_right_inj _).1 (hsha h)
  have hlen : (keyPayload g c r q).length = (keyPayload g' c' r' q').length := rfl
  exact Json.intercalate_cancel payloadMember_selfDelimiting hlen hm

theorem buildThreadwakeCacheKey_scope {sha256Hex : String → String}
    (hsha : Function.Injective sha256Hex) (h : buildThreadwakeCacheKey sha256Hex g c r q =
      buildThreadwakeCacheKey sha256Hex g' c' r' q') : c = c' := by
  have hp := buildThreadwakeCacheKey_injective hsha h
  simp only [keyPayload, List.cons.injEq, Prod.mk.injEq, Option.some.injEq] at hp
  exact ThreadWakeScope.text_injective hp.2.2.2.2.2.1.2

end Whooshd.ThreadWake
