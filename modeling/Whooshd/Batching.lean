import Mathlib.Data.List.Perm.Basic
import Mathlib.Algebra.Order.Ring.Int

namespace Whooshd.Batching
set_option autoImplicit true

inductive BatchCapability where
  | unsupported | analysisOnly
  deriving DecidableEq, Repr

inductive BatchIncompatibilityReason where
  | differentModel | differentBackend | streamingUnsupported | visionUnsupported
  | samplingMismatch | tokenBudgetExceeded | backendUnsupported
  deriving DecidableEq, Repr

structure BatchCandidate where
  requestId : String
  model : String
  backend : Option String := none
  stream : Bool := false
  estimatedPromptTokens : Option Int := none
  maxTokens : Option Int := none
  samplingClass : Option String := none
  hasImage : Bool := false
  deriving DecidableEq, Repr

structure BatchGroup where
  groupId : String
  requestIds : List String
  model : String
  backend : Option String := none
  eligible : Bool := false
  reasons : List BatchIncompatibilityReason := []
  estimatedTotalTokens : Option Int := none
  deriving DecidableEq, Repr

structure BatchAnalysis where
  enabled : Bool
  capability : BatchCapability
  candidateCount : Nat
  groupCount : Nat
  eligibleGroupCount : Nat
  groups : List BatchGroup := []
  maxGroupSize : Int := 4
  maxTotalTokens : Int := 8192
  deriving DecidableEq, Repr

structure BatchAnalyzer where
  maxGroupSize : Int := 4
  maxTotalTokens : Int := 8192
  deriving DecidableEq, Repr

/-- `_check_compatibility`: a different model or backend ends the check. -/
def checkCompatibility (a b : BatchCandidate) : List BatchIncompatibilityReason :=
  if a.model ≠ b.model then [.differentModel]
  else if a.backend ≠ b.backend then [.differentBackend]
  else
    (if a.stream || b.stream then [.streamingUnsupported] else []) ++
      (if a.hasImage || b.hasImage then [.visionUnsupported] else []) ++
        (if a.samplingClass ≠ b.samplingClass then [.samplingMismatch] else [])

/-- The inner loop, from the candidate at the position `i` on: the group so far and the
positions that it has taken. -/
def findCompatible (maxGroupSize : Int) (anchor : BatchCandidate) (i : Nat) :
    List BatchCandidate → List BatchCandidate × List Nat → List BatchCandidate × List Nat
  | [], found => found
  | other :: others, (compatible, toRemove) =>
    if maxGroupSize ≤ compatible.length then (compatible, toRemove)
    else if checkCompatibility anchor other = [] then
      findCompatible maxGroupSize anchor (i + 1) others (compatible ++ [other], toRemove ++ [i])
    else findCompatible maxGroupSize anchor (i + 1) others (compatible, toRemove)

/-- Takes the positions out, the last one first. -/
def removeMatched (remaining : List BatchCandidate) (toRemove : List Nat) :
    List BatchCandidate :=
  toRemove.reverse.foldl List.eraseIdx remaining

/-- The tokens that a group is estimated at. -/
def totalTokens (members : List BatchCandidate) : Int :=
  (members.map fun c => c.estimatedPromptTokens.getD 0 + c.maxTokens.getD 0).sum

def buildGroup (analyzer : BatchAnalyzer) (groupId : String) (anchor : BatchCandidate)
    (compatible : List BatchCandidate) : BatchGroup :=
  let total := totalTokens compatible
  let eligible := decide (1 < compatible.length)
  { groupId, requestIds := compatible.map (·.requestId), model := anchor.model
    backend := anchor.backend
    eligible := eligible && decide (total ≤ analyzer.maxTotalTokens)
    reasons := if eligible then [] else [.tokenBudgetExceeded]
    estimatedTotalTokens := if total = 0 then none else some total }

theorem length_removeMatched_le (remaining : List BatchCandidate) (toRemove : List Nat) :
    (removeMatched remaining toRemove).length ≤ remaining.length := by
  rw [removeMatched]
  induction toRemove.reverse generalizing remaining with
  | nil => exact Nat.le_refl _
  | cons i is ih => exact Nat.le_trans (ih _) (List.eraseIdx_sublist remaining i).length_le

/-- The outer loop; the `k`-th group gets the `k`-th fresh id. -/
def groupAll (analyzer : BatchAnalyzer) (freshId : Nat → String) (k : Nat) :
    List BatchCandidate → List BatchGroup
  | [] => []
  | anchor :: remaining =>
    let found := findCompatible analyzer.maxGroupSize anchor 0 remaining ([anchor], [])
    buildGroup analyzer (freshId k) anchor found.1 ::
      groupAll analyzer freshId (k + 1) (removeMatched remaining found.2)
termination_by remaining => remaining.length
decreasing_by
  exact Nat.lt_succ_of_le (length_removeMatched_le _ _)

def BatchAnalyzer.analyze (analyzer : BatchAnalyzer) (freshId : Nat → String)
    (candidates : List BatchCandidate) (enabled : Bool) : BatchAnalysis :=
  if !enabled || candidates.isEmpty then
    { enabled, capability := .analysisOnly, candidateCount := candidates.length, groupCount := 0
      eligibleGroupCount := 0, maxGroupSize := analyzer.maxGroupSize
      maxTotalTokens := analyzer.maxTotalTokens }
  else
    let groups := groupAll analyzer freshId 0 candidates
    { enabled, capability := .analysisOnly, candidateCount := candidates.length
      groupCount := groups.length, eligibleGroupCount := groups.countP (·.eligible), groups
      maxGroupSize := analyzer.maxGroupSize, maxTotalTokens := analyzer.maxTotalTokens }

/-- Neither of two candidates has a reason against the other. -/
def Compatible (a b : BatchCandidate) : Prop :=
  checkCompatibility a b = [] ∧ checkCompatibility b a = []

/-- The group is one of candidates in their order that all go together. -/
structure GroupOf (analyzer : BatchAnalyzer) (candidates members : List BatchCandidate)
    (g : BatchGroup) : Prop where
  ids : g.requestIds = members.map (·.requestId)
  order : members.Sublist candidates
  nonempty : 1 ≤ members.length
  size : (members.length : Int) ≤ analyzer.maxGroupSize
  compatible : members.Pairwise Compatible
  total : g.estimatedTotalTokens.getD 0 = totalTokens members
  several : g.eligible = true → 2 ≤ members.length
  budget : g.eligible = true → totalTokens members ≤ analyzer.maxTotalTokens

theorem checkCompatibility_nil :
    checkCompatibility a b = [] ↔ a.model = b.model ∧ a.backend = b.backend ∧
      (a.stream = false ∧ b.stream = false) ∧ (a.hasImage = false ∧ b.hasImage = false) ∧
        a.samplingClass = b.samplingClass := by
  unfold checkCompatibility
  by_cases hmodel : a.model = b.model
  · by_cases hbackend : a.backend = b.backend
    · simp [hmodel, hbackend]
    · simp [hmodel, hbackend]
  · simp [hmodel]

theorem Compatible.of_anchor (ha : checkCompatibility anchor a = [])
    (hb : checkCompatibility anchor b = []) : Compatible a b := by
  rw [checkCompatibility_nil] at ha hb
  obtain ⟨hmodel, hbackend, hstream, himage, hsampling⟩ := ha
  obtain ⟨hmodel', hbackend', hstream', himage', hsampling'⟩ := hb
  constructor
  · exact checkCompatibility_nil.mpr ⟨hmodel.symm.trans hmodel', hbackend.symm.trans hbackend',
      ⟨hstream.2, hstream'.2⟩, ⟨himage.2, himage'.2⟩, hsampling.symm.trans hsampling'⟩
  · exact checkCompatibility_nil.mpr ⟨hmodel'.symm.trans hmodel, hbackend'.symm.trans hbackend,
      ⟨hstream'.2, hstream.2⟩, ⟨himage'.2, himage.2⟩, hsampling'.symm.trans hsampling⟩

theorem Compatible.of_check (h : checkCompatibility anchor a = []) : Compatible anchor a := by
  apply And.intro h
  rw [checkCompatibility_nil] at h ⊢
  obtain ⟨hmodel, hbackend, hstream, himage, hsampling⟩ := h
  exact ⟨hmodel.symm, hbackend.symm, hstream.symm, himage.symm, hsampling.symm⟩

/-- What the inner loop does from a position on: it picks some of the candidates that are left
and keeps the others, both in their order. -/
structure Picks (maxGroupSize : Int) (anchor : BatchCandidate) (i : Nat)
    (others compatible : List BatchCandidate) (toRemove : List Nat)
    (found : List BatchCandidate × List Nat) (picked kept : List BatchCandidate) : Prop where
  group : found.1 = compatible ++ picked
  split : (picked ++ kept).Perm others
  pickedOrder : picked.Sublist others
  keptOrder : kept.Sublist others
  checked : ∀ c ∈ picked, checkCompatibility anchor c = []
  size : (compatible.length : Int) ≤ maxGroupSize → (found.1.length : Int) ≤ maxGroupSize
  removed : ∃ taken, found.2 = toRemove ++ taken ∧
    ∀ before : List BatchCandidate, before.length = i →
      removeMatched (before ++ others) taken = before ++ kept

theorem removeMatched_cons (l : List BatchCandidate) (i : Nat) (is : List Nat) :
    removeMatched l (i :: is) = (removeMatched l is).eraseIdx i := by
  simp [removeMatched]

theorem findCompatible_picks (maxGroupSize : Int) (anchor : BatchCandidate) (i : Nat)
    (others compatible : List BatchCandidate) (toRemove : List Nat) :
    ∃ picked kept, Picks maxGroupSize anchor i others compatible toRemove
      (findCompatible maxGroupSize anchor i others (compatible, toRemove)) picked kept := by
  induction others generalizing i compatible toRemove with
  | nil =>
    refine ⟨[], [], (List.append_nil _).symm, .nil, .slnil, .slnil, by simp, id, [],
      (List.append_nil _).symm, ?_⟩
    intro before _
    rfl
  | cons other others ih =>
    rw [findCompatible]
    split
    · refine ⟨[], other :: others, (List.append_nil _).symm, .refl _, List.nil_sublist _,
        List.Sublist.refl _, by simp, id, [], by simp, ?_⟩
      intro before _
      rfl
    · next hroom =>
      split
      · next hcheck =>
        obtain ⟨picked, kept, h⟩ := ih (i + 1) (compatible ++ [other]) (toRemove ++ [i])
        obtain ⟨taken, htaken, hremoved⟩ := h.removed
        refine ⟨other :: picked, kept, ?_, h.split.cons other, h.pickedOrder.cons_cons other,
          h.keptOrder.cons other, ?_, ?_, i :: taken, ?_, ?_⟩
        · rw [h.group, List.append_assoc]
          rfl
        · intro c hc
          rcases List.mem_cons.mp hc with rfl | hc
          · exact hcheck
          · exact h.checked c hc
        · intro _
          apply h.size
          rw [List.length_append, List.length_singleton]
          omega
        · rw [htaken, List.append_assoc]
          rfl
        · intro before hbefore
          have hrest := hremoved (before ++ [other]) (by simp [hbefore])
          rw [List.append_assoc, List.append_assoc] at hrest
          simp only [List.singleton_append] at hrest
          rw [removeMatched_cons, hrest, List.eraseIdx_append_of_length_le (Nat.le_of_eq hbefore),
            hbefore, Nat.sub_self, List.eraseIdx_cons_zero]
      · next hcheck =>
        obtain ⟨picked, kept, h⟩ := ih (i + 1) compatible toRemove
        obtain ⟨taken, htaken, hremoved⟩ := h.removed
        refine ⟨picked, other :: kept, h.group, ?_, h.pickedOrder.cons other,
          h.keptOrder.cons_cons other, h.checked, h.size, taken, htaken, ?_⟩
        · exact List.perm_middle.trans (h.split.cons other)
        · intro before hbefore
          have hrest := hremoved (before ++ [other]) (by simp [hbefore])
          rw [List.append_assoc, List.append_assoc] at hrest
          exact hrest

theorem buildGroup_of {analyzer : BatchAnalyzer} (hsize : 1 ≤ analyzer.maxGroupSize)
    (groupId : String) (anchor : BatchCandidate)
    (h : Picks analyzer.maxGroupSize anchor 0 remaining [anchor] [] found picked kept) :
    GroupOf analyzer (anchor :: remaining) (anchor :: picked)
      (buildGroup analyzer groupId anchor found.1) := by
  have hgroup : found.1 = anchor :: picked := h.group
  have hmembers : found.1.length = picked.length + 1 := by rw [hgroup, List.length_cons]
  have hlimit := h.size (by simpa using hsize)
  rw [hgroup]
  constructor
  · rfl
  · exact h.pickedOrder.cons_cons anchor
  · exact Nat.succ_pos _
  · rwa [← hgroup]
  · rw [List.pairwise_cons]
    apply And.intro fun c hc => Compatible.of_check (h.checked c hc)
    exact List.pairwise_of_forall_mem_list fun a ha b hb =>
      Compatible.of_anchor (h.checked a ha) (h.checked b hb)
  · simp only [buildGroup]
    split
    · next hzero => exact hzero.symm
    · rfl
  · intro heligible
    simp only [buildGroup, Bool.and_eq_true, decide_eq_true_eq] at heligible
    exact heligible.1
  · intro heligible
    simp only [buildGroup, Bool.and_eq_true, decide_eq_true_eq] at heligible
    exact heligible.2

theorem GroupOf.sublist {members : List BatchCandidate} (h : GroupOf analyzer kept members g)
    (hkept : kept.Sublist candidates) : GroupOf analyzer candidates members g :=
  { h with order := h.order.trans hkept }

theorem groupAll_partition (analyzer : BatchAnalyzer) (hsize : 1 ≤ analyzer.maxGroupSize)
    (freshId : Nat → String) (k : Nat) (candidates : List BatchCandidate) :
    ((groupAll analyzer freshId k candidates).flatMap (·.requestIds)).Perm
        (candidates.map (·.requestId)) ∧
      ∀ g ∈ groupAll analyzer freshId k candidates,
        ∃ members, GroupOf analyzer candidates members g := by
  induction k, candidates using groupAll.induct analyzer with
  | case1 k => simp [groupAll]
  | case2 k anchor remaining found ih =>
    obtain ⟨picked, kept, h⟩ :=
      findCompatible_picks analyzer.maxGroupSize anchor 0 remaining [anchor] []
    obtain ⟨taken, htaken, hremoved⟩ := h.removed
    have hkept : removeMatched remaining found.2 = kept := by
      rw [htaken]
      exact hremoved [] rfl
    rw [hkept] at ih
    have hgroup : found.1 = anchor :: picked := h.group
    rw [groupAll, hkept]
    constructor
    · rw [List.flatMap_cons]
      have hids : (buildGroup analyzer (freshId k) anchor found.1).requestIds =
          anchor.requestId :: picked.map (·.requestId) := by rw [hgroup]; rfl
      rw [hids, List.map_cons, List.cons_append]
      apply List.Perm.cons
      have hsplit := h.split.map (·.requestId)
      rw [List.map_append] at hsplit
      exact (List.Perm.append_left _ ih.1).trans hsplit
    · intro g hg
      rcases List.mem_cons.mp hg with rfl | hg
      · exact ⟨_, buildGroup_of hsize (freshId k) anchor h⟩
      · obtain ⟨members, hmembers⟩ := ih.2 g hg
        exact ⟨members, hmembers.sublist (h.keptOrder.cons anchor)⟩

/-- The groups of an analysis are a partition of the candidates into groups that go together. -/
theorem analyze_partition (analyzer : BatchAnalyzer) (hsize : 1 ≤ analyzer.maxGroupSize)
    (freshId : Nat → String) (candidates : List BatchCandidate) :
    ((analyzer.analyze freshId candidates true).groups.flatMap (·.requestIds)).Perm
        (candidates.map (·.requestId)) ∧
      ∀ g ∈ (analyzer.analyze freshId candidates true).groups,
        ∃ members, GroupOf analyzer candidates members g := by
  have hgroups : (analyzer.analyze freshId candidates true).groups =
      groupAll analyzer freshId 0 candidates := by
    cases candidates with
    | nil => simp [BatchAnalyzer.analyze, groupAll]
    | cons c cs => rfl
  rw [hgroups]
  exact groupAll_partition analyzer hsize freshId 0 candidates

/-- The first and the last go together; the second one streams. -/
def threeCandidates : List BatchCandidate :=
  [{ requestId := "r1", model := "m", maxTokens := some 16 },
    { requestId := "r2", model := "m", stream := true },
    { requestId := "r3", model := "m", estimatedPromptTokens := some 8 }]

theorem analyze_partition_three :
    1 ≤ ({} : BatchAnalyzer).maxGroupSize ∧
      ((({} : BatchAnalyzer).analyze toString threeCandidates true).groups.flatMap
        (·.requestIds)).Perm ["r1", "r2", "r3"] ∧
      ∀ g ∈ (({} : BatchAnalyzer).analyze toString threeCandidates true).groups,
        ∃ members, GroupOf {} threeCandidates members g :=
  ⟨by decide, analyze_partition {} (by decide) toString threeCandidates⟩

end Whooshd.Batching
