import Whooshd.ThreadWake.Compiler

namespace Whooshd.ThreadWake
set_option autoImplicit true

/-- A segment without the mark that the compiler puts on the stable prefix at the end. -/
def PromptSegment.unmarked (s : PromptSegment) : PromptSegment := { s with inStablePrefix := false }

/-- The number of segments in front of those of the messages. -/
def PromptInputs.toolCount (inp : PromptInputs) : Nat :=
  inp.tools.isSome.toNat + inp.toolChoice.isSome.toNat

/-- A metadata entry that repeats what the segment of the tools has of itself. -/
def EchoesTools (inp : PromptInputs) (md : CodexifySegmentMeta) : Prop :=
  inp.tools.isSome = true ∧ md.messageIndex = 0 ∧ md.segmentType = .tools ∧
    (md.name = "" ∨ md.name = "tools") ∧ md.stability.getD .stable = .stable ∧
    md.cacheable ≠ some false ∧ md.scope = inp.scope

section
variable (sha256Hex : String → String) (inp : PromptInputs) (metas : List CodexifySegmentMeta)

/-- The compiled segment at an index of the segment list. -/
def segmentAt (j : Nat) : Option PromptSegment :=
  ((compilePromptGraph sha256Hex { inp with codexifySegments := some metas }).segments[j]?).map
    PromptSegment.unmarked

def inferredAt (j : Nat) : Option PromptSegment :=
  ((inferredSegments sha256Hex inp)[j]?).map PromptSegment.unmarked

/-- The entry passes validation against the message it names. -/
def CodexifySegmentMeta.Valid (md : CodexifySegmentMeta) : Prop :=
  validateSingleMeta sha256Hex md inp.messages inp.allowGlobal = none

/-- Metadata changes the segments of the messages that it names, and nothing else. -/
structure HitsNamed : Prop where
  own : ∀ k j, j ≠ inp.toolCount + k → segmentAt sha256Hex inp metas j =
    segmentAt sha256Hex inp (metas.filter (fun md => md.messageIndex ≠ k)) j
  tools : ∀ j < inp.toolCount, segmentAt sha256Hex inp metas j = inferredAt sha256Hex inp j
  unnamed : ∀ k, (∀ md ∈ metas, md.messageIndex = k → ¬md.Valid sha256Hex inp) →
    segmentAt sha256Hex inp metas (inp.toolCount + k) =
      inferredAt sha256Hex inp (inp.toolCount + k)
  hashes : ∀ j, (segmentAt sha256Hex inp metas j).map (fun s => (s.contentHash, s.tokenCount)) =
    (inferredAt sha256Hex inp j).map (fun s => (s.contentHash, s.tokenCount))

/-- No tool segment stands in front of the messages, or every entry that is applied says of the
segment of the tools what it says itself. -/
def MetadataAligned : Prop :=
  inp.tools = none ∧ inp.toolChoice = none ∨
    ∀ md, metaByIndex metas md.messageIndex = some md → md.Valid sha256Hex inp → EchoesTools inp md

end

variable {sha256Hex : String → String} {inp : PromptInputs} {metas : List CodexifySegmentMeta}

theorem metaByIndex_some (h : metaByIndex metas i = some md) : md ∈ metas ∧ md.messageIndex = i :=
  ⟨List.mem_of_find?_eq_some h, by simpa using List.find?_some h⟩

theorem metaByIndex_filter (k i : Nat) :
    metaByIndex (metas.filter (fun md => md.messageIndex ≠ k)) i =
      if i = k then none else metaByIndex metas i := by
  induction metas with
  | nil => simp [metaByIndex]
  | cons md metas ih =>
    simp only [metaByIndex] at ih ⊢
    by_cases hk : md.messageIndex = k
    · by_cases hi : i = k
      · simp_all
      · have hne : ¬k = i := fun h => hi h.symm
        simp_all
    · by_cases hi : md.messageIndex = i
      · have hik : ¬i = k := fun h => hk (hi.trans h)
        simp_all
      · simp_all

theorem mergeSegmentsFrom_getElem? (messages : List ChatMessage) (allowGlobal : Bool) (i : Nat)
    (segs : List PromptSegment) (j : Nat) :
    (mergeSegmentsFrom sha256Hex metas messages allowGlobal i segs).1[j]? =
      segs[j]?.map (fun seg =>
        (mergeSegment sha256Hex metas messages allowGlobal (i + j) seg).1) := by
  induction segs generalizing i j with
  | nil => simp [mergeSegmentsFrom]
  | cons seg segs ih =>
    rw [mergeSegmentsFrom]
    cases j with
    | zero => rfl
    | succ j =>
      rw [List.getElem?_cons_succ, List.getElem?_cons_succ, ih, Nat.succ_add_eq_add_succ]

theorem validateAndMergeSegments_getElem? (messages : List ChatMessage) (allowGlobal : Bool)
    (segs : List PromptSegment) (j : Nat) :
    (validateAndMergeSegments sha256Hex metas messages allowGlobal segs).1[j]? =
      segs[j]?.map (fun seg => (mergeSegment sha256Hex metas messages allowGlobal j seg).1) := by
  rw [validateAndMergeSegments]
  cases metas with
  | nil => simp [mergeSegment, metaByIndex]
  | cons md metas =>
    have h := @mergeSegmentsFrom_getElem? sha256Hex (md :: metas) messages allowGlobal 0 segs j
    rwa [Nat.zero_add] at h

theorem markStablePrefix_unmarked (segs : List PromptSegment) :
    (markStablePrefix segs).map PromptSegment.unmarked = segs.map PromptSegment.unmarked := by
  induction segs with
  | nil => rfl
  | cons seg segs ih =>
    rw [markStablePrefix]
    split
    · rfl
    · rw [List.map_cons, List.map_cons, ih]
      rfl

/-- The merge works on the segment list: it applies the entry whose message index is the index
of the segment. -/
theorem segmentAt_eq (j : Nat) :
    segmentAt sha256Hex inp metas j = ((inferredSegments sha256Hex inp)[j]?).map (fun seg =>
      (mergeSegment sha256Hex metas inp.messages inp.allowGlobal j seg).1.unmarked) := by
  rw [segmentAt, compilePromptGraph, ← List.getElem?_map, markStablePrefix_unmarked,
    List.getElem?_map, validateAndMergeSegments_getElem?, Option.map_map]
  rfl

theorem applyMeta_unmarked (md : CodexifySegmentMeta) (seg : PromptSegment) :
    (applyMeta md seg).unmarked = seg.unmarked ↔
      (md.name = "" ∨ md.name = seg.name) ∧ md.segmentType.defaultSegmentType = seg.segmentType ∧
        mergedStability md = seg.stability ∧ md.scope = seg.scope := by
  obtain ⟨name, role, contentHash, segmentType, stability, tokenCount, scope, multimodal, mark⟩ :=
    seg
  simp only [applyMeta, PromptSegment.unmarked, PromptSegment.mk.injEq, true_and, and_true]
  by_cases hname : md.name = ""
  · simp [hname]
  · simp [hname]

theorem messageSegmentsFrom_segmentType
    (h : seg ∈ messageSegmentsFrom sha256Hex scope latest i ms) :
    seg.segmentType = "message" ∨ seg.segmentType = "multimodal_message" := by
  induction ms generalizing i with
  | nil => cases h
  | cons m ms ih =>
    rw [messageSegmentsFrom, List.mem_cons] at h
    rcases h with rfl | h
    · rw [messageSegment]
      dsimp only
      split
      · exact .inr rfl
      · exact .inl rfl
    · exact ih h

theorem messageSegmentsFrom_length (scope : ThreadWakeScope) (latest : Option Nat) (i : Nat)
    (ms : List ChatMessage) :
    (messageSegmentsFrom sha256Hex scope latest i ms).length = ms.length := by
  induction ms generalizing i with
  | nil => rfl
  | cons m ms ih => rw [messageSegmentsFrom, List.length_cons, ih, List.length_cons]

theorem inferredSegments_length :
    (inferredSegments sha256Hex inp).length = inp.toolCount + inp.messages.length := by
  rw [inferredSegments, List.length_append, List.length_append, messageSegmentsFrom_length,
    PromptInputs.toolCount]
  cases inp.tools <;> cases inp.toolChoice <;> rfl

/-- The segment of the tools is the only one of a type that an entry can have. -/
theorem defaultSegmentType_inferred {md : CodexifySegmentMeta}
    (hget : (inferredSegments sha256Hex inp)[j]? = some seg)
    (htype : md.segmentType.defaultSegmentType = seg.segmentType) :
    inp.tools.isSome = true ∧ j = 0 ∧ md.segmentType = .tools ∧
      seg.name = "tools" ∧ seg.stability = .stable ∧ seg.scope = inp.scope := by
  have hother : seg.segmentType ≠ "tool_instruction" ∧ seg.segmentType ≠ "message" ∧
      seg.segmentType ≠ "multimodal_message" := by
    rw [← htype]
    cases md.segmentType <;> decide
  have hmessage (h : seg ∈ messageSegmentsFrom sha256Hex inp.scope
      (latestUserIndex inp.messages) 0 inp.messages) : False := by
    rcases messageSegmentsFrom_segmentType h with h | h
    · exact hother.2.1 h
    · exact hother.2.2 h
  have hchoice (h : seg ∈ (inp.toolChoice.map (fun c => toolSegment sha256Hex "tool_choice"
      "tool_instruction" "tool_instruction" inp.scope (.obj [("tool_choice", c)]))).toList) :
      False := by
    rw [Option.mem_toList, Option.map_eq_some_iff] at h
    obtain ⟨c, -, rfl⟩ := h
    exact hother.1 rfl
  rw [inferredSegments] at hget
  cases htools : inp.tools with
  | none =>
    rw [htools, Option.map_none, Option.toList_none, List.nil_append] at hget
    rcases List.mem_append.mp (List.mem_of_getElem? hget) with h | h
    · exact (hchoice h).elim
    · exact (hmessage h).elim
  | some ts =>
    rw [htools, Option.map_some, Option.toList_some, List.append_assoc,
      List.singleton_append] at hget
    cases j with
    | zero =>
      rw [List.getElem?_cons_zero, Option.some.injEq] at hget
      subst hget
      refine ⟨rfl, rfl, ?_, rfl, rfl, rfl⟩
      revert htype
      cases md.segmentType <;> simp [CodexifySegmentType.defaultSegmentType, toolSegment]
    | succ j =>
      rw [List.getElem?_cons_succ] at hget
      rcases List.mem_append.mp (List.mem_of_getElem? hget) with h | h
      · exact (hchoice h).elim
      · exact (hmessage h).elim

theorem mergedStability_tools (h : md.segmentType = .tools) :
    mergedStability md = .stable ↔
      md.stability.getD .stable = .stable ∧ md.cacheable ≠ some false := by
  simp only [mergedStability, h, CodexifySegmentType.defaultStability]
  split
  · next hc => simp [hc]
  · next hc => simp [hc]

/-- An entry leaves the segment at its own index as inferred only if it echoes the tools. -/
theorem applyMeta_inferred_iff {md : CodexifySegmentMeta}
    (hget : (inferredSegments sha256Hex inp)[md.messageIndex]? = some seg) :
    (applyMeta md seg).unmarked = seg.unmarked ↔ EchoesTools inp md := by
  rw [applyMeta_unmarked]
  constructor
  · rintro ⟨hname, htype, hstability, hscope⟩
    obtain ⟨htools, hzero, hmd, hsegName, hstable, hsegScope⟩ :=
      defaultSegmentType_inferred hget htype
    rw [hsegName] at hname
    rw [hstable, mergedStability_tools hmd] at hstability
    exact ⟨htools, hzero, hmd, hname, hstability.1, hstability.2, hscope.trans hsegScope⟩
  · rintro ⟨htools, hzero, hmd, hname, hstability, hcacheable, hscope⟩
    obtain ⟨ts, hts⟩ := Option.isSome_iff_exists.mp htools
    rw [hzero, inferredSegments, hts, Option.map_some, Option.toList_some, List.append_assoc,
      List.singleton_append, List.getElem?_cons_zero, Option.some.injEq] at hget
    subst hget
    refine ⟨hname, ?_, (mergedStability_tools hmd).mpr ⟨hstability, hcacheable⟩, hscope⟩
    rw [hmd]
    rfl

theorem segmentAt_inferred
    (h : ∀ md, metaByIndex metas j = some md → md.Valid sha256Hex inp → EchoesTools inp md) :
    segmentAt sha256Hex inp metas j = inferredAt sha256Hex inp j := by
  rw [segmentAt_eq, inferredAt]
  cases hget : (inferredSegments sha256Hex inp)[j]? with
  | none => rfl
  | some seg =>
    rw [Option.map_some, Option.map_some, mergeSegment]
    cases hmeta : metaByIndex metas j with
    | none => rfl
    | some md =>
      dsimp only
      cases hvalid : validateSingleMeta sha256Hex md inp.messages inp.allowGlobal with
      | some error => rfl
      | none =>
        have hindex := (metaByIndex_some hmeta).2
        rw [← hindex] at hget
        exact congrArg some ((applyMeta_inferred_iff hget).mpr (h md hmeta hvalid))

theorem segmentAt_hashes (j : Nat) :
    (segmentAt sha256Hex inp metas j).map (fun s => (s.contentHash, s.tokenCount)) =
      (inferredAt sha256Hex inp j).map (fun s => (s.contentHash, s.tokenCount)) := by
  rw [segmentAt_eq, inferredAt, Option.map_map, Option.map_map]
  refine congrArg (Option.map · _) (funext fun seg => ?_)
  simp only [Function.comp_apply, mergeSegment]
  split
  · rfl
  · split <;> rfl

theorem filtered_aligned (h : ∀ md, metaByIndex metas md.messageIndex = some md →
      md.Valid sha256Hex inp → EchoesTools inp md) (k : Nat) :
    ∀ md, metaByIndex (metas.filter (fun md => md.messageIndex ≠ k)) md.messageIndex = some md →
      md.Valid sha256Hex inp → EchoesTools inp md := by
  intro md hmeta hvalid
  rw [metaByIndex_filter] at hmeta
  split at hmeta
  · cases hmeta
  · exact h md hmeta hvalid

theorem HitsNamed.of_echoes (h : ∀ md, metaByIndex metas md.messageIndex = some md →
      md.Valid sha256Hex inp → EchoesTools inp md) : HitsNamed sha256Hex inp metas := by
  have hinferred {metas : List CodexifySegmentMeta} (h : ∀ md,
      metaByIndex metas md.messageIndex = some md → md.Valid sha256Hex inp → EchoesTools inp md)
      (j : Nat) : segmentAt sha256Hex inp metas j = inferredAt sha256Hex inp j := by
    apply segmentAt_inferred
    intro md hmeta hvalid
    have hindex := (metaByIndex_some hmeta).2
    rw [← hindex] at hmeta
    exact h md hmeta hvalid
  constructor
  · intro k j _
    rw [hinferred h, hinferred (filtered_aligned h k)]
  · intro j _
    exact hinferred h j
  · intro k _
    exact hinferred h _
  · exact segmentAt_hashes

theorem HitsNamed.of_no_tools (htools : inp.tools = none) (hchoice : inp.toolChoice = none) :
    HitsNamed sha256Hex inp metas := by
  have hcount : inp.toolCount = 0 := by rw [PromptInputs.toolCount, htools, hchoice]; rfl
  constructor
  · intro k j hne
    rw [hcount, Nat.zero_add] at hne
    rw [segmentAt_eq, segmentAt_eq]
    simp only [mergeSegment, metaByIndex_filter, if_neg hne]
  · intro j hj
    omega
  · intro k hnone
    rw [hcount, Nat.zero_add]
    apply segmentAt_inferred
    intro md hmeta hvalid
    obtain ⟨hmem, hindex⟩ := metaByIndex_some hmeta
    exact absurd hvalid (hnone md hmem hindex)
  · exact segmentAt_hashes

/-- An entry that is applied behind a tool segment changes a segment that it does not name. -/
theorem HitsNamed.echoes (h : HitsNamed sha256Hex inp metas) (hcount : 0 < inp.toolCount)
    (hmeta : metaByIndex metas md.messageIndex = some md) (hvalid : md.Valid sha256Hex inp) :
    EchoesTools inp md := by
  have hlt : md.messageIndex < inp.messages.length := by
    by_contra hge
    have hnone : inp.messages[md.messageIndex]? = none :=
      List.getElem?_eq_none (Nat.le_of_not_lt hge)
    rw [CodexifySegmentMeta.Valid, validateSingleMeta, hnone] at hvalid
    cases hvalid
  have hlength : md.messageIndex < (inferredSegments sha256Hex inp).length := by
    rw [inferredSegments_length]
    omega
  have hget := List.getElem?_eq_getElem hlength
  have hown := h.own md.messageIndex md.messageIndex (by omega)
  have hmerged : mergeSegment sha256Hex metas inp.messages inp.allowGlobal md.messageIndex =
      fun seg => (applyMeta md seg, none) := by
    funext seg
    rw [CodexifySegmentMeta.Valid] at hvalid
    simp only [mergeSegment, hmeta, hvalid]
  rw [segmentAt_eq, segmentAt_eq, hget, Option.map_some, Option.map_some, hmerged, mergeSegment,
    metaByIndex_filter, if_pos rfl, Option.some.injEq] at hown
  exact (applyMeta_inferred_iff hget).mp hown

/-- The metadata hits the messages it names exactly if there is no tool segment, or every entry
that is applied only repeats the segment of the tools. -/
theorem hitsNamed_iff (sha256Hex : String → String) (inp : PromptInputs)
    (metas : List CodexifySegmentMeta) :
    HitsNamed sha256Hex inp metas ↔ MetadataAligned sha256Hex inp metas := by
  constructor
  · intro h
    by_cases hnone : inp.tools = none ∧ inp.toolChoice = none
    · exact .inl hnone
    · have hcount : 0 < inp.toolCount := by
        rw [PromptInputs.toolCount]
        cases htools : inp.tools with
        | some ts => exact Nat.add_pos_left Nat.one_pos _
        | none =>
          cases hchoice : inp.toolChoice with
          | some c => exact Nat.one_pos
          | none => exact absurd ⟨htools, hchoice⟩ hnone
      exact .inr fun md hmeta hvalid => h.echoes hcount hmeta hvalid
  · rintro (⟨htools, hchoice⟩ | h)
    · exact .of_no_tools htools hchoice
    · exact .of_echoes h

/-- An entry for the only message, a request with tools: the segment of the tools is the one
that becomes dynamic. -/
theorem metadata_hits_tools : ¬ ∀ (sha256Hex : String → String) (inp : PromptInputs)
    (metas : List CodexifySegmentMeta), HitsNamed sha256Hex inp metas := by
  intro h
  let named : CodexifySegmentMeta :=
    { name := "question", messageIndex := 0, segmentType := .user, stability := none
      scope := .thread, contentHash := none, cacheable := none }
  let inp : PromptInputs :=
    { messages := [⟨"user", .str "hi", none, none, none⟩], modelId := none, backend := none
      tools := some [], toolChoice := none, tokenizerHash := none, chatTemplateHash := none
      scope := .thread, codexifySegments := none, allowGlobal := false }
  have htool := (h id inp [named]).tools 0 (by decide)
  have hname := congrArg (Option.map PromptSegment.name) htool
  revert hname
  decide +kernel

end Whooshd.ThreadWake
