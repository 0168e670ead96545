import Whooshd.Library.HashChain
import Whooshd.ThreadWake.Compiler

namespace Whooshd.ThreadWake
set_option autoImplicit true

/-- The texts that are hashed for the chain of a graph. -/
def PromptGraph.chainTexts (sha256Hex : String → String) (graph : PromptGraph) : Set String :=
  {text | ∃ before h after, graph.orderedSegmentHashes = before ++ h :: after ∧
    text = chainHash sha256Hex before ++ h}

/-- The hash, on the characters of a text. -/
def charDigest (sha256Hex : String → String) (text : List Char) : List Char :=
  (sha256Hex (String.ofList text)).toList

variable {sha256Hex : String → String}

theorem chainHash_toList (hashes : List String) :
    (chainHash sha256Hex hashes).toList =
      HashChain.chain (charDigest sha256Hex) (hashes.map String.toList) := by
  induction hashes using List.reverseRecOn with
  | nil => rfl
  | append_singleton hashes h ih =>
    rw [List.map_append, List.map_singleton, HashChain.chain_concat, ← ih, chainHash,
      List.foldl_append, charDigest, String.ofList_append, String.ofList_toList,
      String.ofList_toList]
    rfl

theorem chainTexts_of_texts {graph : PromptGraph} {text : List Char}
    (h : text ∈ HashChain.texts (charDigest sha256Hex)
      (graph.orderedSegmentHashes.map String.toList)) :
    String.ofList text ∈ graph.chainTexts sha256Hex := by
  obtain ⟨before, part, after, hparts, rfl⟩ := h
  obtain ⟨hashes, rest, hhashes, rfl, hrest⟩ := List.map_eq_append_iff.mp hparts
  obtain ⟨h, tail, rfl, rfl, -⟩ := List.map_eq_cons_iff.mp hrest
  refine ⟨hashes, h, tail, hhashes, ?_⟩
  rw [← chainHash_toList, String.ofList_append, String.ofList_toList, String.ofList_toList]

theorem messageSegmentsFrom_hashes (scope : ThreadWakeScope) (latestUserIdx : Option Nat)
    (idx : Nat) (messages : List ChatMessage) :
    ∀ seg ∈ messageSegmentsFrom sha256Hex scope latestUserIdx idx messages,
      ∃ text, seg.contentHash = sha256Hex text := by
  induction messages generalizing idx with
  | nil =>
    intro seg hseg
    cases hseg
  | cons m messages ih =>
    intro seg hseg
    rw [messageSegmentsFrom, List.mem_cons] at hseg
    cases hseg with
    | inl h =>
      rw [h]
      exact ⟨_, rfl⟩
    | inr h => exact ih (idx + 1) seg h

theorem inferredSegments_hashes (inp : PromptInputs) :
    ∀ seg ∈ inferredSegments sha256Hex inp, ∃ text, seg.contentHash = sha256Hex text := by
  intro seg hseg
  rw [inferredSegments, List.mem_append, List.mem_append] at hseg
  rcases hseg with (htools | hchoice) | hmessage
  · obtain ⟨ts, -, rfl⟩ := Option.map_eq_some_iff.mp (Option.mem_toList.mp htools)
    exact ⟨_, rfl⟩
  · obtain ⟨c, -, rfl⟩ := Option.map_eq_some_iff.mp (Option.mem_toList.mp hchoice)
    exact ⟨_, rfl⟩
  · exact messageSegmentsFrom_hashes _ _ _ _ seg hmessage

theorem mergeSegment_hash (metas : List CodexifySegmentMeta) (messages : List ChatMessage)
    (allowGlobal : Bool) (i : Nat) (seg : PromptSegment) :
    (mergeSegment sha256Hex metas messages allowGlobal i seg).1.contentHash = seg.contentHash := by
  rw [mergeSegment]
  split
  · rfl
  · split <;> rfl

theorem mergeSegmentsFrom_hashes (metas : List CodexifySegmentMeta) (messages : List ChatMessage)
    (allowGlobal : Bool) (i : Nat) (segs : List PromptSegment) :
    (mergeSegmentsFrom sha256Hex metas messages allowGlobal i segs).1.map (·.contentHash) =
      segs.map (·.contentHash) := by
  induction segs generalizing i with
  | nil => rfl
  | cons seg segs ih =>
    rw [mergeSegmentsFrom, List.map_cons, List.map_cons, ih, mergeSegment_hash]

theorem markStablePrefix_hashes (segs : List PromptSegment) :
    (markStablePrefix segs).map (·.contentHash) = segs.map (·.contentHash) := by
  induction segs with
  | nil => rfl
  | cons seg segs ih =>
    rw [markStablePrefix]
    split
    · rfl
    · rw [List.map_cons, List.map_cons, ih]

/-- The metadata of a request do not change what its segments hash to. -/
theorem compilePromptGraph_hashes (inp : PromptInputs) :
    (compilePromptGraph sha256Hex inp).orderedSegmentHashes =
      (inferredSegments sha256Hex inp).map (·.contentHash) := by
  rw [compilePromptGraph]
  simp only [markStablePrefix_hashes]
  cases inp.codexifySegments with
  | none => rfl
  | some metas =>
    simp only [validateAndMergeSegments]
    split
    · rfl
    · exact mergeSegmentsFrom_hashes metas inp.messages inp.allowGlobal 0 _

theorem orderedSegmentHashes_length (hlength : ∀ text, (sha256Hex text).length = 64)
    (inp : PromptInputs) :
    ∀ part ∈ (compilePromptGraph sha256Hex inp).orderedSegmentHashes.map String.toList,
      part.length = 64 := by
  intro part hpart
  obtain ⟨h, hh, rfl⟩ := List.mem_map.mp hpart
  rw [compilePromptGraph_hashes] at hh
  obtain ⟨seg, hseg, rfl⟩ := List.mem_map.mp hh
  obtain ⟨text, htext⟩ := inferredSegments_hashes inp seg hseg
  rw [htext, String.length_toList]
  exact hlength text

/-- The chain hash of a compiled graph commits to the hashes of its segments. -/
theorem chainHash_commits (hlength : ∀ text, (sha256Hex text).length = 64)
    (inp inp' : PromptInputs)
    (hinj : Set.InjOn sha256Hex ((compilePromptGraph sha256Hex inp).chainTexts sha256Hex ∪
      (compilePromptGraph sha256Hex inp').chainTexts sha256Hex)) :
    (compilePromptGraph sha256Hex inp).fullPrefixChainHash =
        (compilePromptGraph sha256Hex inp').fullPrefixChainHash ↔
      (compilePromptGraph sha256Hex inp).orderedSegmentHashes =
        (compilePromptGraph sha256Hex inp').orderedSegmentHashes := by
  constructor
  · intro h
    have hchain := congrArg String.toList h
    have hdigits (text : List Char) : (charDigest sha256Hex text).length = 64 := by
      rw [charDigest, String.length_toList]
      exact hlength _
    have hchars : Set.InjOn (charDigest sha256Hex)
        (HashChain.texts (charDigest sha256Hex)
            ((compilePromptGraph sha256Hex inp).orderedSegmentHashes.map String.toList) ∪
          HashChain.texts (charDigest sha256Hex)
            ((compilePromptGraph sha256Hex inp').orderedSegmentHashes.map String.toList)) := by
      intro text htext text' htext' heq
      have hsame := hinj (htext.imp chainTexts_of_texts chainTexts_of_texts)
        (htext'.imp chainTexts_of_texts chainTexts_of_texts) (String.toList_inj.mp heq)
      exact String.ofList_inj.mp hsame
    have hparts := HashChain.chain_inj (by decide) hdigits
      (orderedSegmentHashes_length hlength inp) (orderedSegmentHashes_length hlength inp')
      hchars (by rw [← chainHash_toList, ← chainHash_toList]; exact hchain)
    exact List.map_injective_iff.mpr (fun _ _ => String.toList_inj.mp) hparts
  · intro h
    exact congrArg (chainHash sha256Hex) h

/-- The digests of two short messages and of the links of their chain. -/
def chatDigest (text : String) : String :=
  if text = "\x7b\"content\":\"hi\",\"role\":\"user\"\x7d" then
    "9017285104d1b249960a30732b8e92f6e2fb3acf8d8e4b2a16c116ad0c1ed211"
  else if text = "\x7b\"content\":\"yo\",\"role\":\"assistant\"\x7d" then
    "16824524f7ed8e3bfc18a59b9092fce6dba9797e03e7bb5c2246a67ab42ded1e"
  else if text = "9017285104d1b249960a30732b8e92f6e2fb3acf8d8e4b2a16c116ad0c1ed211" then
    "9990699f0badbefda87aff0edb70a63313437d46b9b51df43191caacc00001a4"
  else "05fc2cdf324a390b0a00157a2a25e98ae9cf76f6161dfea4e20cb2627be35d9e"

/-- A chat of some messages, without tools and metadata. -/
def chatInputs (messages : List ChatMessage) : PromptInputs where
  messages
  modelId := some "m"
  backend := some "mlx"
  tools := none
  toolChoice := none
  tokenizerHash := none
  chatTemplateHash := none
  scope := .thread
  codexifySegments := none
  allowGlobal := false

def question : ChatMessage := ⟨"user", .str "hi", none, none, none⟩

def reply : ChatMessage := ⟨"assistant", .str "yo", none, none, none⟩

theorem chainHash_commits_chat :
    (compilePromptGraph chatDigest (chatInputs [question])).fullPrefixChainHash =
        (compilePromptGraph chatDigest (chatInputs [question, reply])).fullPrefixChainHash ↔
      (compilePromptGraph chatDigest (chatInputs [question])).orderedSegmentHashes =
        (compilePromptGraph chatDigest (chatInputs [question, reply])).orderedSegmentHashes := by
  have hlength (text : String) : (chatDigest text).length = 64 := by
    unfold chatDigest
    split_ifs <;> decide +kernel
  have hone : (compilePromptGraph chatDigest (chatInputs [question])).orderedSegmentHashes =
      ["9017285104d1b249960a30732b8e92f6e2fb3acf8d8e4b2a16c116ad0c1ed211"] := by decide +kernel
  have htwo : (compilePromptGraph chatDigest (chatInputs [question, reply])).orderedSegmentHashes =
      ["9017285104d1b249960a30732b8e92f6e2fb3acf8d8e4b2a16c116ad0c1ed211",
        "16824524f7ed8e3bfc18a59b9092fce6dba9797e03e7bb5c2246a67ab42ded1e"] := by decide +kernel
  apply chainHash_commits hlength
  have htexts : (compilePromptGraph chatDigest (chatInputs [question])).chainTexts chatDigest ∪
      (compilePromptGraph chatDigest (chatInputs [question, reply])).chainTexts chatDigest ⊆
        {"9017285104d1b249960a30732b8e92f6e2fb3acf8d8e4b2a16c116ad0c1ed211",
          "9990699f0badbefda87aff0edb70a63313437d46b9b51df43191caacc00001a4" ++
            "16824524f7ed8e3bfc18a59b9092fce6dba9797e03e7bb5c2246a67ab42ded1e"} := by
    rintro text (⟨before, h, after, hsplit, rfl⟩ | ⟨before, h, after, hsplit, rfl⟩)
    · rw [hone] at hsplit
      cases before with
      | nil => exact .inl (List.cons.inj hsplit).1.symm
      | cons b before => simp at hsplit
    · rw [htwo] at hsplit
      cases before with
      | nil => exact .inl (List.cons.inj hsplit).1.symm
      | cons b before =>
        rw [List.cons_append, List.cons.injEq] at hsplit
        obtain ⟨rfl, hsplit⟩ := hsplit
        cases before with
        | nil =>
          right
          rw [List.nil_append, List.cons.injEq] at hsplit
          rw [← hsplit.1]
          decide +kernel
        | cons c before => simp at hsplit
  refine Set.InjOn.mono htexts ?_
  rintro x (rfl | rfl) y (rfl | rfl) <;> decide +kernel

end Whooshd.ThreadWake
