import Mathlib.Data.Set.Function
import Whooshd.Library.Sequences
import Whooshd.ThreadWake.Tokenizer

namespace Whooshd.ThreadWake
set_option autoImplicit true

inductive PrefixMismatchReason where
  | realTokenizationUnavailable
  | tokenizerChanged
  | chatTemplateChanged
  | modelChanged
  | backendChanged
  | tokenSequenceChanged
  | emptyPrompt
  deriving DecidableEq, Repr

structure PrefixProof where
  compatible : Bool := false
  sharedPrefixTokens : Nat := 0
  divergenceIndex : Option Nat := none
  prefixHash : Option String := none
  tokenizerHash : Option String := none
  chatTemplateHash : Option String := none
  modelId : Option String := none
  backend : Option String := none
  reason : Option PrefixMismatchReason := none
  deriving DecidableEq, Repr

/-- What is compared of a tokenized prompt. -/
structure ComparedPrompt where
  realTokenization : Bool
  modelId : Option String
  backend : Option String
  tokenizerHash : Option String
  chatTemplateHash : Option String
  tokenIds : List TokenId
  deriving DecidableEq, Repr

structure EngineStats where
  comparisons : Nat
  matched : Nat
  mismatches : Nat
  deriving DecidableEq, Repr

/-- `shared_prefix_length`: the loop ends at the first pair that differs. -/
def sharedPrefixLength (a b : List TokenId) : Nat := CommonPrefix.length a b

def prefixPayload (tokens : List TokenId) : String :=
  (String.singleton ',').intercalate (tokens.map toString)

section Compare

variable (sha256Hex : String → String)

def hashPrefix (tokens : List TokenId) : String := sha256Hex (prefixPayload tokens)

/-- The proof for prompts with a common beginning. -/
def compatibleProof (a b : ComparedPrompt) : PrefixProof :=
  let shared := sharedPrefixLength a.tokenIds b.tokenIds
  { compatible := true
    sharedPrefixTokens := shared
    divergenceIndex :=
      if shared < max a.tokenIds.length b.tokenIds.length then some shared else none
    prefixHash := some (hashPrefix sha256Hex (a.tokenIds.take shared))
    tokenizerHash := a.tokenizerHash
    chatTemplateHash := a.chatTemplateHash
    modelId := some (a.modelId.getD "")
    backend := some (a.backend.getD "") }

/-- `compare` without its counters. -/
def comparePrompts (a b : ComparedPrompt) : PrefixProof :=
  let aModel := a.modelId.getD ""
  let aBackend := a.backend.getD ""
  if !a.realTokenization || !b.realTokenization then
    { reason := some .realTokenizationUnavailable }
  else if aModel ≠ b.modelId.getD "" then { modelId := some aModel, reason := some .modelChanged }
  else if aBackend ≠ b.backend.getD "" then
    { backend := some aBackend, reason := some .backendChanged }
  else if a.tokenizerHash ≠ b.tokenizerHash then
    { tokenizerHash := a.tokenizerHash, reason := some .tokenizerChanged }
  else if a.chatTemplateHash ≠ b.chatTemplateHash then
    { chatTemplateHash := a.chatTemplateHash, reason := some .chatTemplateChanged }
  else if a.tokenIds.isEmpty || b.tokenIds.isEmpty then { reason := some .emptyPrompt }
  else if sharedPrefixLength a.tokenIds b.tokenIds = 0 then
    { divergenceIndex := some 0
      reason := some .tokenSequenceChanged
      modelId := some aModel
      backend := some aBackend
      tokenizerHash := a.tokenizerHash
      chatTemplateHash := a.chatTemplateHash }
  else compatibleProof sha256Hex a b

def compare (stats : EngineStats) (a b : ComparedPrompt) : PrefixProof × EngineStats :=
  let proof := comparePrompts sha256Hex a b
  (proof,
    { comparisons := stats.comparisons + 1
      matched := stats.matched + proof.compatible.toNat
      mismatches := stats.mismatches + (!proof.compatible).toNat })

end Compare

/-- What two prompts must have in common for one to be continued with the state of the other. -/
structure SameSetup (a b : ComparedPrompt) : Prop where
  real : a.realTokenization = true ∧ b.realTokenization = true
  model : a.modelId.getD "" = b.modelId.getD ""
  backend : a.backend.getD "" = b.backend.getD ""
  tokenizer : a.tokenizerHash = b.tokenizerHash
  template : a.chatTemplateHash = b.chatTemplateHash

variable {sha256Hex : String → String} {a b c : ComparedPrompt}

theorem SameSetup.symm (h : SameSetup a b) : SameSetup b a where
  real := h.real.symm
  model := h.model.symm
  backend := h.backend.symm
  tokenizer := h.tokenizer.symm
  template := h.template.symm

theorem SameSetup.trans (h : SameSetup a b) (h' : SameSetup b c) : SameSetup a c where
  real := ⟨h.real.1, h'.real.2⟩
  model := h.model.trans h'.model
  backend := h.backend.trans h'.backend
  tokenizer := h.tokenizer.trans h'.tokenizer
  template := h.template.trans h'.template

/-- Prompts with the same setup and the same first token are compatible. -/
def Comparable (a b : ComparedPrompt) : Prop :=
  SameSetup a b ∧ 0 < CommonPrefix.length a.tokenIds b.tokenIds

theorem Comparable.symm (h : Comparable a b) : Comparable b a :=
  ⟨h.1.symm, by rw [CommonPrefix.length_comm]; exact h.2⟩

theorem Comparable.trans (h : Comparable a b) (h' : Comparable b c) : Comparable a c :=
  ⟨h.1.trans h'.1,
    Nat.lt_of_lt_of_le (Nat.lt_min.mpr ⟨h.2, h'.2⟩) (CommonPrefix.length_trans _ _ _)⟩

theorem comparePrompts_of_comparable (h : Comparable a b) :
    comparePrompts sha256Hex a b = compatibleProof sha256Hex a b := by
  obtain ⟨hsetup, hshared⟩ := h
  obtain ⟨x, a', b', ha, hb⟩ := CommonPrefix.length_pos_iff.mp hshared
  simp only [comparePrompts]
  rw [if_neg (by simp [hsetup.real]), if_neg (not_not.mpr hsetup.model),
    if_neg (not_not.mpr hsetup.backend), if_neg (not_not.mpr hsetup.tokenizer),
    if_neg (not_not.mpr hsetup.template), if_neg (by simp [ha, hb]),
    if_neg (show ¬sharedPrefixLength a.tokenIds b.tokenIds = 0 from Nat.pos_iff_ne_zero.mp hshared)]

theorem comparePrompts_compatible_iff :
    (comparePrompts sha256Hex a b).compatible = true ↔ Comparable a b := by
  constructor
  · intro h
    simp only [comparePrompts] at h
    split_ifs at h with hreal hmodel hbackend htokenizer htemplate hempty hshared
    rw [Bool.or_eq_true, Bool.not_eq_true', Bool.not_eq_true', not_or, Bool.not_eq_false,
      Bool.not_eq_false] at hreal
    rw [ne_eq, not_not] at hmodel hbackend htokenizer htemplate
    exact ⟨⟨hreal, hmodel, hbackend, htokenizer, htemplate⟩, Nat.pos_of_ne_zero hshared⟩
  · intro h
    rw [comparePrompts_of_comparable h]
    rfl

theorem prefixPayload_injective {l m : List TokenId} (hl : l ≠ []) (hm : m ≠ [])
    (h : prefixPayload l = prefixPayload m) : l = m := by
  have hcomma (tokens : List TokenId) : ∀ part ∈ tokens.map toString, ',' ∉ part.toList := by
    intro part hpart hmem
    obtain ⟨n, -, rfl⟩ := List.mem_map.mp hpart
    rcases Text.mem_toString_int hmem with hsign | hdigit
    · exact absurd hsign (by decide)
    · exact absurd hdigit (by decide)
  have hparts :=
    Text.intercalate_injective (by simpa using hl) (by simpa using hm) (hcomma l) (hcomma m) h
  exact List.map_injective_iff.mpr (fun _ _ => Text.toString_int_injective) hparts

/-- Proofs of compatibility: which prompts have one, that it names the longest common beginning
and where the prompts part, that it does not depend on the order of the two, and that prompts
which both agree with a third agree with each other as far. -/
theorem comparePrompts_spec (sha256Hex : String → String) (a b c : ComparedPrompt) :
    ((comparePrompts sha256Hex a b).compatible = true ↔ Comparable a b) ∧
    (Comparable a b →
      (∀ m, m ≤ (comparePrompts sha256Hex a b).sharedPrefixTokens ↔
        m ≤ a.tokenIds.length ∧ m ≤ b.tokenIds.length ∧ a.tokenIds.take m = b.tokenIds.take m) ∧
      ((comparePrompts sha256Hex a b).divergenceIndex = none ↔ a.tokenIds = b.tokenIds) ∧
      (∀ i, (comparePrompts sha256Hex a b).divergenceIndex = some i →
        a.tokenIds[i]? ≠ b.tokenIds[i]? ∧ a.tokenIds.take i = b.tokenIds.take i) ∧
      comparePrompts sha256Hex b a = comparePrompts sha256Hex a b) ∧
    (Comparable a b → Comparable b c → Comparable a c ∧
      min (comparePrompts sha256Hex a b).sharedPrefixTokens
          (comparePrompts sha256Hex b c).sharedPrefixTokens ≤
        (comparePrompts sha256Hex a c).sharedPrefixTokens) := by
  refine ⟨comparePrompts_compatible_iff, ?_, ?_⟩
  · intro h
    obtain ⟨-, -, htake⟩ := CommonPrefix.le_length_iff.mp
      (Nat.le_refl (CommonPrefix.length a.tokenIds b.tokenIds))
    have hindex : ∀ o, (comparePrompts sha256Hex a b).divergenceIndex = o ↔
        (if CommonPrefix.length a.tokenIds b.tokenIds <
            max a.tokenIds.length b.tokenIds.length then
          some (CommonPrefix.length a.tokenIds b.tokenIds) else none) = o := by
      intro o
      rw [comparePrompts_of_comparable h]
      rfl
    refine ⟨?_, ?_, ?_, ?_⟩
    · intro m
      rw [comparePrompts_of_comparable h]
      exact CommonPrefix.le_length_iff
    · rw [hindex, ite_eq_right_iff, CommonPrefix.length_lt_max_iff]
      constructor
      · intro hnone
        by_contra hne
        cases hnone hne
      · intro heq hne
        exact absurd heq hne
    · intro i hi
      rw [hindex] at hi
      split_ifs at hi with hdiffer
      cases hi
      rw [CommonPrefix.length_lt_max_iff] at hdiffer
      exact ⟨fun hsame => hdiffer (CommonPrefix.getElem?_length.mp hsame), htake⟩
    · rw [comparePrompts_of_comparable h, comparePrompts_of_comparable h.symm]
      simp only [compatibleProof, sharedPrefixLength,
        CommonPrefix.length_comm b.tokenIds a.tokenIds, Nat.max_comm b.tokenIds.length, ← htake,
        h.1.model, h.1.backend, h.1.tokenizer, h.1.template]
      rfl
  · intro hab hbc
    refine ⟨hab.trans hbc, ?_⟩
    rw [comparePrompts_of_comparable hab, comparePrompts_of_comparable hbc,
      comparePrompts_of_comparable (hab.trans hbc)]
    exact CommonPrefix.length_trans _ _ _

/-- The hashes of two proofs are the same exactly if they are of the same common beginning. -/
theorem prefixHash_eq_iff {a b c d : ComparedPrompt} (hab : Comparable a b) (hcd : Comparable c d)
    (hcollision : Set.InjOn sha256Hex
      {prefixPayload (a.tokenIds.take (sharedPrefixLength a.tokenIds b.tokenIds)),
        prefixPayload (c.tokenIds.take (sharedPrefixLength c.tokenIds d.tokenIds))}) :
    (comparePrompts sha256Hex a b).prefixHash = (comparePrompts sha256Hex c d).prefixHash ↔
      a.tokenIds.take (sharedPrefixLength a.tokenIds b.tokenIds) =
        c.tokenIds.take (sharedPrefixLength c.tokenIds d.tokenIds) := by
  have hne {a b : ComparedPrompt} (h : Comparable a b) :
      a.tokenIds.take (sharedPrefixLength a.tokenIds b.tokenIds) ≠ [] := by
    obtain ⟨x, a', b', ha, hb⟩ := CommonPrefix.length_pos_iff.mp h.2
    have hshared := h.2
    rw [sharedPrefixLength, ha]
    rw [ha] at hshared
    cases hlength : CommonPrefix.length (x :: a') b.tokenIds with
    | zero => omega
    | succ n => simp
  rw [comparePrompts_of_comparable hab, comparePrompts_of_comparable hcd]
  constructor
  · intro h
    exact prefixPayload_injective (hne hab) (hne hcd)
      (hcollision (by simp) (by simp) (Option.some.inj h))
  · intro h
    change some (hashPrefix sha256Hex _) = some (hashPrefix sha256Hex _)
    rw [h]

/-- The digests of two payloads. -/
def payloadDigest (payload : String) : String :=
  if payload = "1,2" then "17f8af97ad4a7f7639a4c9171d5185cbafb85462877a4746c21bdb0a4f940ca0"
  else "6b86b273ff34fce19d6b804eff5a3f5747ada4eaa22f1d49c01e52ddb7875b4b"

def tokenPrompt (tokens : List TokenId) : ComparedPrompt where
  realTokenization := true
  modelId := some "m"
  backend := some "mlx"
  tokenizerHash := none
  chatTemplateHash := none
  tokenIds := tokens

theorem tokenPrompt_comparable {tokens tokens' : List TokenId}
    (h : 0 < CommonPrefix.length tokens tokens') :
    Comparable (tokenPrompt tokens) (tokenPrompt tokens') :=
  ⟨⟨⟨rfl, rfl⟩, rfl, rfl, rfl, rfl⟩, h⟩

theorem prefixHash_tokenPrompt :
    (comparePrompts payloadDigest (tokenPrompt [1, 2, 3]) (tokenPrompt [1, 2, 4])).prefixHash =
        (comparePrompts payloadDigest (tokenPrompt [1, 5]) (tokenPrompt [1, 6])).prefixHash ↔
      (tokenPrompt [1, 2]).tokenIds = (tokenPrompt [1]).tokenIds := by
  have hab : Comparable (tokenPrompt [1, 2, 3]) (tokenPrompt [1, 2, 4]) :=
    tokenPrompt_comparable (by decide)
  have hcd : Comparable (tokenPrompt [1, 5]) (tokenPrompt [1, 6]) :=
    tokenPrompt_comparable (by decide)
  have hcollision : Set.InjOn payloadDigest
      {prefixPayload (tokenPrompt [1, 2]).tokenIds, prefixPayload (tokenPrompt [1]).tokenIds} := by
    rw [Set.injOn_pair]
    intro h
    exact absurd h (by decide +kernel)
  exact prefixHash_eq_iff hab hcd hcollision

end Whooshd.ThreadWake
