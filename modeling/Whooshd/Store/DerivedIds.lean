import Whooshd.Library.Cut
import Whooshd.Store.Registration

namespace Whooshd.Store
set_option autoImplicit true

/-- A letter, a digit or an underscore: what an id is not stripped of at its ends. -/
def isKept (c : Char) : Bool := c.isAlphanum || c = '_'

/-- A digit of a hexadecimal number. -/
def isHexDigit (c : Char) : Bool :=
  c.isDigit || c ∈ ['a', 'b', 'c', 'd', 'e', 'f', 'A', 'B', 'C', 'D', 'E', 'F']

/-- Two dots in a row, with kept characters before and behind them. -/
def DotsInside (base : List Char) : Prop :=
  ∃ before after, base = before ++ '.' :: '.' :: after ∧
    before.any isKept = true ∧ after.any isKept = true

/-- The part of a source name that an id is derived from. -/
def idBase (candidate : ModelCandidate) : List Char :=
  (Text.removeSuffix ".gguf" (sourceName candidate)).toList.take 64

/-- No underscore is the first kept character, and no dots in a row stand inside. -/
def IsSafeBase (base : List Char) : Prop := base.find? isKept ≠ some '_' ∧ ¬ DotsInside base

/-- The character of an id that stands for one of a name. -/
def idChar (c : Char) : Char := if Text.isIdChar c then c else '-'

/-- What is stripped of an id. -/
def isTrimmed (c : Char) : Bool := c = '-' || c = '.'

theorem isIdChar_idChar (c : Char) : Text.isIdChar (idChar c) = true := by
  rw [idChar]
  split
  · assumption
  · rfl

theorem isIdChar_of_isKept {c : Char} (h : isKept c = true) : Text.isIdChar c = true := by
  rw [isKept, Bool.or_eq_true, decide_eq_true_eq] at h
  cases h with
  | inl h => rw [Text.isIdChar, h, Bool.true_or]
  | inr h => rw [h]; rfl

theorem isTrimmed_eq {c : Char} (h : Text.isIdChar c = true) : isTrimmed c = !isKept c := by
  rw [Text.isIdChar, Bool.or_eq_true, decide_eq_true_eq] at h
  cases h with
  | inl h =>
    have hdash : c ≠ '-' := by
      rintro rfl
      cases h
    have hdot : c ≠ '.' := by
      rintro rfl
      cases h
    rw [isTrimmed, isKept, h, decide_eq_false hdash, decide_eq_false hdot]
    rfl
  | inr h =>
    simp only [List.mem_cons, List.not_mem_nil, or_false] at h
    rcases h with rfl | rfl | rfl <;> rfl

theorem isKept_idChar (c : Char) : isKept (idChar c) = isKept c := by
  rw [idChar]
  split
  · rfl
  · next h => exact (Bool.eq_false_iff.mpr (mt isIdChar_of_isKept h)).symm

theorem idChar_dot {c : Char} : idChar c = '.' ↔ c = '.' := by
  rw [idChar]
  split
  · exact Iff.rfl
  · next h =>
    constructor
    · intro hdash
      cases hdash
    · rintro rfl
      exact absurd rfl h

theorem trimmed_nil {cs : List Char} (hall : ∀ c ∈ cs, Text.isIdChar c = true)
    (h : cs.find? isKept = none) : (cs.dropWhile isTrimmed).rdropWhile isTrimmed = [] := by
  have hdrop : cs.dropWhile isTrimmed = [] := by
    rw [List.dropWhile_eq_nil_iff]
    intro c hc
    rw [isTrimmed_eq (hall c hc)]
    simpa using List.find?_eq_none.mp h c hc
  rw [hdrop, List.rdropWhile_nil]

theorem trimmed_cons {cs : List Char} (hall : ∀ c ∈ cs, Text.isIdChar c = true) {first : Char}
    (h : cs.find? isKept = some first) :
    ∃ front back rest, cs = front ++ ((first :: rest) ++ back) ∧
      (cs.dropWhile isTrimmed).rdropWhile isTrimmed = first :: rest ∧
      isKept ((first :: rest).getLast (List.cons_ne_nil first rest)) = true := by
  obtain ⟨hkept, front, tail, rfl, hfront⟩ := List.find?_eq_some_iff_append.mp h
  have htrim : isTrimmed first = false := by
    rw [isTrimmed_eq (hall first (by simp)), hkept, Bool.not_true]
  have hdrop : (front ++ first :: tail).dropWhile isTrimmed = first :: tail := by
    rw [List.dropWhile_append_of_pos, List.dropWhile_cons_of_neg]
    · rw [htrim]
      exact Bool.false_ne_true
    · intro c hc
      rw [isTrimmed_eq (hall c (List.mem_append_left _ hc))]
      exact hfront c hc
  have hne : (first :: tail).rdropWhile isTrimmed ≠ [] := by
    rw [Ne, List.rdropWhile_eq_nil_iff]
    intro hnone
    exact Bool.false_ne_true (htrim.symm.trans (hnone first List.mem_cons_self))
  obtain ⟨back, hback⟩ := List.rdropWhile_prefix isTrimmed (l := first :: tail)
  obtain ⟨d, rest, hrest⟩ := List.exists_cons_of_ne_nil hne
  have hlast := List.rdropWhile_last_not isTrimmed (first :: tail) hne
  simp only [hrest] at hback hlast
  rw [List.cons_append, List.cons.injEq] at hback
  obtain ⟨rfl, rfl⟩ := hback
  refine ⟨front, back, rest, rfl, ?_, ?_⟩
  · rw [hdrop, hrest]
  · rw [Bool.not_eq_true, isTrimmed_eq] at hlast
    · simpa using hlast
    · have hin : (d :: rest).getLast (List.cons_ne_nil d rest) ∈ (d :: rest) ++ back :=
        List.mem_append_left back (List.getLast_mem _)
      exact hall _ (List.mem_append_right front hin)

theorem DotsInside.trimmed {cs : List Char} (hall : ∀ c ∈ cs, Text.isIdChar c = true)
    (h : DotsInside cs) : ['.', '.'] <:+: (cs.dropWhile isTrimmed).rdropWhile isTrimmed := by
  obtain ⟨before, after, rfl, hbefore, hafter⟩ := h
  obtain ⟨k, hk, hkept⟩ := List.any_eq_true.mp hbefore
  obtain ⟨k', hk', hkept'⟩ := List.any_eq_true.mp hafter
  have htrim : isTrimmed k = false := by
    rw [isTrimmed_eq (hall k (List.mem_append_left _ hk)), hkept, Bool.not_true]
  have htrim' : isTrimmed k' = false := by
    rw [isTrimmed_eq (hall k' (by simp [hk'])), hkept', Bool.not_true]
  obtain ⟨x, y, rfl⟩ := List.mem_iff_append.mp hk
  obtain ⟨x', y', rfl⟩ := List.mem_iff_append.mp hk'
  rw [List.append_assoc, List.cons_append, Cut.dropWhile_append htrim]
  have hsplit : x.dropWhile isTrimmed ++ k :: (y ++ '.' :: '.' :: (x' ++ k' :: y')) =
      (x.dropWhile isTrimmed ++ k :: (y ++ '.' :: '.' :: x')) ++ k' :: y' := by simp
  rw [hsplit, Cut.rdropWhile_append htrim']
  exact ⟨x.dropWhile isTrimmed ++ k :: y, x' ++ k' :: y'.rdropWhile isTrimmed, by simp⟩

/-- Dots that stand in a row in the stripped id stand inside what it was stripped from. -/
theorem dots_trimmed {cs : List Char} (hall : ∀ c ∈ cs, Text.isIdChar c = true) :
    ['.', '.'] <:+: (cs.dropWhile isTrimmed).rdropWhile isTrimmed ↔ DotsInside cs := by
  constructor
  · intro h
    cases hfind : cs.find? isKept with
    | none =>
      rw [trimmed_nil hall hfind, List.infix_nil] at h
      cases h
    | some first =>
      obtain ⟨front, back, rest, hcs, htrimmed, hlast⟩ := trimmed_cons hall hfind
      have hkept := List.find?_some hfind
      rw [htrimmed] at h
      obtain ⟨x, y, hxy⟩ := h
      refine ⟨front ++ x, y ++ back, ?_, ?_, ?_⟩
      · rw [hcs, ← hxy]
        simp
      · cases x with
        | nil =>
          rw [List.nil_append, List.cons_append, List.cons.injEq] at hxy
          rw [← hxy.1] at hkept
          cases hkept
        | cons d x =>
          rw [List.cons_append, List.cons_append, List.cons.injEq] at hxy
          simp [hxy.1, hkept]
      · by_cases hy : y = []
        · simp only [← hxy, hy, List.append_nil] at hlast
          rw [List.getLast_append_of_ne_nil _ (by simp)] at hlast
          cases hlast
        · simp only [← hxy] at hlast
          rw [List.getLast_append_of_ne_nil _ hy] at hlast
          rw [List.any_append, List.any_eq_true.mpr ⟨_, List.getLast_mem hy, hlast⟩, Bool.true_or]
  · exact DotsInside.trimmed hall

theorem any_map (cs : List Char) : (cs.map idChar).any isKept = cs.any isKept := by
  rw [List.any_map]
  exact congrArg (cs.any ·) (funext isKept_idChar)

theorem dots_map (base : List Char) : DotsInside (base.map idChar) ↔ DotsInside base := by
  constructor
  · rintro ⟨before, after, hbase, hbefore, hafter⟩
    obtain ⟨x, y, rfl, rfl, hy⟩ := List.map_eq_append_iff.mp hbase
    obtain ⟨d, z, rfl, hd, hz⟩ := List.map_eq_cons_iff.mp hy
    obtain ⟨d', z', rfl, hd', rfl⟩ := List.map_eq_cons_iff.mp hz
    rw [any_map] at hbefore hafter
    exact ⟨x, z', by rw [idChar_dot.mp hd, idChar_dot.mp hd'], hbefore, hafter⟩
  · rintro ⟨before, after, rfl, hbefore, hafter⟩
    refine ⟨before.map idChar, after.map idChar, ?_, ?_, ?_⟩
    · rw [List.map_append, List.map_cons, List.map_cons]
      rfl
    · rwa [any_map]
    · rwa [any_map]

theorem find_map (base : List Char) : (base.map idChar).find? isKept = base.find? isKept := by
  induction base with
  | nil => rfl
  | cons c cs ih =>
    rw [List.map_cons, List.find?_cons, List.find?_cons, ih, isKept_idChar]
    cases hkept : isKept c with
    | false => rfl
    | true => rw [idChar, if_pos (isIdChar_of_isKept hkept)]

theorem isKept_not_space {c : Char} (h : isKept c = true) : Text.isSpace c = false := by
  rw [isKept, Bool.or_eq_true, decide_eq_true_eq] at h
  cases h with
  | inl h =>
    have hlow := Text.isAlphanum_ge h
    have hhigh := Text.isAlphanum_lt h
    rw [Bool.eq_false_iff]
    intro hspace
    simp only [Text.isSpace, Bool.or_eq_true, Bool.and_eq_true, decide_eq_true_eq] at hspace
    omega
  | inr h => rw [h]; rfl

theorem strip_ne {first : Char} (hfirst : isKept first = true) (rest : List Char) :
    Text.strip (String.ofList (first :: rest)) ≠ "" := by
  have hspace := isKept_not_space hfirst
  intro h
  rw [Text.strip, Text.trim, Text.trimChars, String.toList_ofList,
    List.dropWhile_cons_of_neg (by simp [hspace]), String.ofList_eq_empty_iff,
    List.rdropWhile_eq_nil_iff] at h
  exact Bool.false_ne_true (hspace.symm.trans (h first (by simp)))

theorem validateModelId_iff {first : Char} {rest : List Char}
    (hall : ∀ c ∈ first :: rest, Text.isIdChar c = true) (hfirst : isKept first = true)
    (hlength : rest.length ≤ 127) :
    validateModelId (String.ofList (first :: rest)) = true ↔
      first ≠ '_' ∧ ¬ ['.', '.'] <:+: first :: rest := by
  have hstart (c : Char) (hc : isKept c = false) :
      [c].isPrefixOf (first :: rest) = false := by
    rw [List.isPrefixOf_cons_cons, Bool.and_eq_false_iff]
    left
    rw [beq_eq_false_iff_ne]
    rintro rfl
    exact Bool.false_ne_true (hc.symm.trans hfirst)
  have hline : (first :: rest).getLast? ≠ some '\n' := by
    intro h
    exact absurd (hall '\n' (List.mem_of_getLast? h)) (by decide)
  have halnum : first.isAlphanum = true ↔ first ≠ '_' := by
    rw [isKept, Bool.or_eq_true, decide_eq_true_eq] at hfirst
    constructor
    · rintro h rfl
      cases h
    · exact hfirst.resolve_right
  have hrest : rest.all Text.isIdChar = true :=
    List.all_eq_true.mpr fun c hc => hall c (List.mem_cons_of_mem first hc)
  have hslash : Text.startsWith "/" (String.ofList (first :: rest)) = false := by
    rw [Text.startsWith, @String.toList_ofList (first :: rest)]
    exact hstart '/' rfl
  have hdot : Text.startsWith "." (String.ofList (first :: rest)) = false := by
    rw [Text.startsWith, @String.toList_ofList (first :: rest)]
    exact hstart '.' rfl
  rw [validateModelId, hslash, hdot, String.toList_ofList, decide_eq_false hline,
    decide_eq_true (strip_ne hfirst rest), matchesIdPattern, hrest, decide_eq_true hlength]
  rw [Bool.true_and, Bool.and_true, Bool.and_true, Bool.false_and, Bool.or_false, Bool.or_false,
    Bool.or_false, Bool.and_eq_true, halnum, Bool.not_eq_true', Bool.eq_false_iff, Ne,
    Ne, Text.occursIn_iff]

theorem isHexDigit_isKept {c : Char} (h : isHexDigit c = true) : isKept c = true ∧ c ≠ '.' := by
  rw [isHexDigit, Bool.or_eq_true, decide_eq_true_eq] at h
  cases h with
  | inl h =>
    refine ⟨by rw [isKept, Char.isAlphanum, h, Bool.or_true, Bool.true_or], ?_⟩
    rintro rfl
    cases h
  | inr h =>
    simp only [List.mem_cons, List.not_mem_nil, or_false] at h
    rcases h with rfl | rfl | rfl | rfl | rfl | rfl | rfl | rfl | rfl | rfl | rfl | rfl <;> decide

theorem fallback_safe {candidateId : String}
    (hid : ∀ c ∈ candidateId.toList, isHexDigit c = true) :
    validateModelId ("model-" ++ String.ofList (candidateId.toList.take 8)) = true := by
  have hdigits : ∀ c ∈ candidateId.toList.take 8, isKept c = true ∧ c ≠ '.' :=
    fun c hc => isHexDigit_isKept (hid c (List.mem_of_mem_take hc))
  have htext : "model-" ++ String.ofList (candidateId.toList.take 8) =
      String.ofList ('m' :: ['o', 'd', 'e', 'l', '-'] ++ candidateId.toList.take 8) := by
    rw [String.ofList_append]
  rw [htext, List.cons_append, validateModelId_iff]
  · refine ⟨by decide, fun hdots => ?_⟩
    have hin : '.' ∈ 'm' :: (['o', 'd', 'e', 'l', '-'] ++ candidateId.toList.take 8) :=
      hdots.subset List.mem_cons_self
    have hin' : '.' ∈ candidateId.toList.take 8 := by simpa using hin
    exact (hdigits '.' hin').2 rfl
  · intro c hc
    simp only [List.cons_append, List.nil_append, List.mem_cons] at hc
    rcases hc with rfl | rfl | rfl | rfl | rfl | rfl | h
    · rfl
    · rfl
    · rfl
    · rfl
    · rfl
    · rfl
    · exact isIdChar_of_isKept (hdigits c h).1
  · rfl
  · rw [List.length_append]
    have htake := List.length_take_le 8 candidateId.toList
    simp only [List.length_cons, List.length_nil]
    omega

/-- A derived id is safe exactly where the name it is derived from is. -/
theorem deriveModelId_safe_iff {candidate : ModelCandidate}
    (hid : ∀ c ∈ candidate.candidateId.toList, isHexDigit c = true) :
    validateModelId (deriveModelId candidate) = true ↔ IsSafeBase (idBase candidate) := by
  have hall : ∀ c ∈ (idBase candidate).map idChar, Text.isIdChar c = true := by
    intro c hc
    obtain ⟨d, -, rfl⟩ := List.mem_map.mp hc
    exact isIdChar_idChar d
  have hderived : deriveModelId candidate =
      if String.ofList ((((idBase candidate).map idChar).dropWhile isTrimmed).rdropWhile
          isTrimmed) = "" then
        "model-" ++ String.ofList (candidate.candidateId.toList.take 8)
      else String.ofList ((((idBase candidate).map idChar).dropWhile isTrimmed).rdropWhile
        isTrimmed) := by
    rw [deriveModelId, idBase, List.map_take]
    simp only [Text.trim, Text.trimChars, String.toList_ofList]
    rfl
  rw [hderived, IsSafeBase, ← find_map, ← dots_map, ← dots_trimmed hall]
  cases hfind : ((idBase candidate).map idChar).find? isKept with
  | none =>
    rw [trimmed_nil hall hfind, if_pos rfl, List.infix_nil]
    have hsafe : (none : Option Char) ≠ some '_' ∧ ¬ ['.', '.'] = ([] : List Char) := by simp
    exact ⟨fun _ => hsafe, fun _ => fallback_safe hid⟩
  | some first =>
    obtain ⟨front, back, rest, hcs, htrimmed, -⟩ := trimmed_cons hall hfind
    have hne : ¬ String.ofList (first :: rest) = "" := by
      rw [String.ofList_eq_empty_iff]
      exact List.cons_ne_nil first rest
    have hlength : rest.length ≤ 127 := by
      have hsize := congrArg List.length hcs
      rw [idBase, List.length_map, List.length_append, List.length_append,
        List.length_cons] at hsize
      have htake := List.length_take_le 64
        (Text.removeSuffix ".gguf" (sourceName candidate)).toList
      omega
    rw [htrimmed, if_neg hne, validateModelId_iff _ (List.find?_some hfind) hlength, Ne, Ne,
      Option.some.injEq]
    intro c hc
    apply hall
    rw [hcs]
    exact List.mem_append_right front (List.mem_append_left back hc)

/-- A candidate as the inspection of a file of weights records it. -/
def namedCandidate (sourcePath : String) : ModelCandidate where
  candidateId := "0a1b2c3d4e5f"
  status := "candidate"
  sourcePath
  detectedFormat := "gguf"
  detectedFamily := "qwen"
  modalities := [.str "text"]
  evidence := [.str "found_gguf_file"]
  problems := []
  createdAt := "2026-01-01T00:00:00+00:00"

theorem deriveModelId_safe_qwen :
    validateModelId (deriveModelId (namedCandidate "/models/Qwen3-8B.Q4_K_M.gguf")) = true ↔
      IsSafeBase (idBase (namedCandidate "/models/Qwen3-8B.Q4_K_M.gguf")) :=
  deriveModelId_safe_iff (by simp [namedCandidate, isHexDigit])

/-- An underscore in front and dots in a row survive the derivation. -/
theorem derived_id_refused :
    (deriveModelId (namedCandidate "/models/_draft.gguf") = "_draft" ∧
        validateModelId (deriveModelId (namedCandidate "/models/_draft.gguf")) = false) ∧
      deriveModelId (namedCandidate "/models/qwen..v2.gguf") = "qwen..v2" ∧
        validateModelId (deriveModelId (namedCandidate "/models/qwen..v2.gguf")) = false := by
  decide +kernel

end Whooshd.Store
