import Whooshd.LogSafety.Sizes

set_option autoImplicit true

namespace Whooshd.LogSafety

theorem summary_eq_self (t : List Char) : summary (.str t) = t ↔ t = settledSummary := by
  constructor
  · intro h
    have hlen := (summary_summary t).mp (by rw [h, h])
    rw [← h, summary, hlen]
    rfl
  · rintro rfl
    rfl

theorem keptNames_eq_self (t : List Char) :
    keptNames t = t ↔ (splitComma t).length ≤ 32 ∧ t.length ≤ 256 := by
  constructor
  · intro h
    constructor
    · have hlen := Cut.splitOn_length_le ',' (List.take_prefix 256
        ([','].intercalate ((splitComma t).take 32)))
      have hshort : (([','].intercalate ((splitComma t).take 32)).splitOn ',').length ≤ 32 := by
        rw [splitComma, Cut.splitOn_take ',' t (by decide)]
        exact List.length_take_le 32 _
      rw [← keptNames, h] at hlen
      exact hlen.trans hshort
    · rw [← h]
      exact List.length_take_le 256 _
  · rintro ⟨hparts, hlen⟩
    rw [keptNames, List.take_of_length_le hparts, splitComma, List.intercalate_splitOn,
      List.take_of_length_le hlen]

theorem keptNames_keptNames (t : List Char) : keptNames (keptNames t) = keptNames t := by
  rw [keptNames_eq_self]
  constructor
  · have hlen := Cut.splitOn_length_le ',' (List.take_prefix 256
      ([','].intercalate ((splitComma t).take 32)))
    rw [splitComma, Cut.splitOn_take ',' t (by decide)] at hlen
    exact hlen.trans (List.length_take_le 32 _)
  · exact List.length_take_le 256 _

theorem keptNames_head {t : List Char} (h : isFieldNames t = true) :
    ∃ c rest, keptNames t = c :: rest ∧ c.isAlpha = true := by
  cases hparts : splitComma t with
  | nil => exact absurd hparts (List.splitOn_ne_nil ',' t)
  | cons first parts =>
    rw [isFieldNames, hparts, List.all_cons, Bool.and_eq_true, Bool.and_eq_true] at h
    cases first with
    | nil => simp at h
    | cons c first =>
      have hc : c.isAlpha = true := by simpa using h.1.1
      have hjoin : ∃ rest, [','].intercalate ((c :: first) :: parts.take 31) = c :: rest := by
        cases parts.take 31 with
        | nil => exact ⟨first, by simp⟩
        | cons second parts => exact ⟨first ++ ',' :: [','].intercalate (second :: parts), by simp⟩
      obtain ⟨rest, hrest⟩ := hjoin
      refine ⟨c, rest.take 255, ?_, hc⟩
      rw [keptNames, hparts, List.take_succ_cons, hrest, List.take_succ_cons]

theorem isFieldNames_head {t : List Char} (h : isFieldNames t = true) :
    ∃ c rest, t = c :: rest ∧ c.isAlpha = true := by
  cases t with
  | nil => exact absurd h (by decide)
  | cons c t =>
    refine ⟨c, t, rfl, ?_⟩
    rw [isFieldNames, splitComma, List.splitOn_cons_eq_if_modifyHead] at h
    cases hc : c == ',' with
    | true => simp [hc] at h
    | false =>
      cases hparts : t.splitOn ',' with
      | nil => exact absurd hparts (List.splitOn_ne_nil ',' t)
      | cons first parts =>
        rw [hc, hparts, if_neg Bool.false_ne_true, List.modifyHead_cons, List.all_cons,
          Bool.and_eq_true, Bool.and_eq_true] at h
        simpa using h.1.1

/-- Reads a list of field names, from inside of a name or from the start of one. -/
def readsNames : Bool → List Char → Bool
  | inside, [] => inside
  | inside, c :: cs =>
    if c = ',' then inside && readsNames false cs
    else (if inside then isNameChar c else c.isAlpha) && readsNames true cs

def isFieldName (name : List Char) : Bool := name.head?.any Char.isAlpha && name.all isNameChar

theorem readsNames_splitComma (t : List Char) :
    readsNames false t = (splitComma t).all isFieldName ∧
      readsNames true t = ((splitComma t).head?.any (·.all isNameChar) &&
        (splitComma t).tail.all isFieldName) := by
  induction t with
  | nil => exact ⟨rfl, rfl⟩
  | cons c t ih =>
    obtain ⟨houtside, hinside⟩ := ih
    have hne := List.splitOn_ne_nil ',' t
    rw [splitComma] at houtside hinside ⊢
    rw [List.splitOn_cons_eq_if_modifyHead]
    by_cases hc : c = ','
    · subst hc
      simp only [readsNames, if_true, houtside, BEq.rfl, List.all_cons, List.head?_cons,
        List.tail_cons, Option.any_some, List.all_nil, Bool.true_and]
      exact ⟨rfl, trivial⟩
    · have hbeq : (c == ',') = false := by simpa using hc
      cases hparts : t.splitOn ',' with
      | nil => exact absurd hparts hne
      | cons first parts =>
        rw [hparts] at hinside
        have halpha : c.isAlpha = true → isNameChar c = true := by
          intro h
          simp [isNameChar, Char.isAlphanum, h]
        simp only [readsNames, if_neg hc, hbeq, hinside, Bool.false_eq_true, if_false, if_true,
          List.modifyHead_cons, List.all_cons, List.head?_cons, List.tail_cons, Option.any_some,
          isFieldName, Bool.and_assoc]
        constructor
        · cases hletter : c.isAlpha with
          | false => rfl
          | true => simp [halpha hletter]
        · trivial

theorem isFieldNames_eq (t : List Char) : isFieldNames t = readsNames false t :=
  (readsNames_splitComma t).1.symm

/-- A part from the start is a list of names unless it ends with a comma. -/
theorem readsNames_append {inside : Bool} {t rest : List Char}
    (h : readsNames inside (t ++ rest) = true) :
    readsNames inside t = true ↔ if t = [] then inside = true else t.getLast? ≠ some ',' := by
  induction t generalizing inside with
  | nil => simp [readsNames]
  | cons c t ih =>
    rw [List.cons_append] at h
    simp only [readsNames] at h ⊢
    rw [if_neg (List.cons_ne_nil c t)]
    split at h <;> rw [Bool.and_eq_true] at h
    · next hc =>
      rw [if_pos hc, h.1, Bool.true_and, ih h.2]
      cases t with
      | nil => simp [hc]
      | cons d t => simp
    · next hc =>
      rw [if_neg hc, h.1, Bool.true_and, ih h.2]
      cases t with
      | nil => simp [hc]
      | cons d t => simp

theorem isFieldNames_start_iff {t kept : List Char} (h : isFieldNames t = true) (hkept : kept <+: t)
    (hne : kept ≠ []) : isFieldNames kept = true ↔ kept.getLast? ≠ some ',' := by
  obtain ⟨rest, rfl⟩ := hkept
  rw [isFieldNames_eq] at h ⊢
  rw [readsNames_append h, if_neg hne]

/-- The 256th character is a comma, and one of the first 31. -/
def IsCutAtComma (t : List Char) : Prop := t[255]? = some ',' ∧ (t.take 255).count ',' < 31

/-- The first 32 names stop before the 32nd comma. -/
theorem firstNames_count (t : List Char) :
    ([','].intercalate ((splitComma t).take 32)).count ',' = min 31 (t.count ',') := by
  have hparts := Cut.splitOn_length ',' ([','].intercalate ((splitComma t).take 32))
  have hsplit := Cut.splitOn_length ',' t
  rw [splitComma, Cut.splitOn_take ',' t (by decide), List.length_take, hsplit] at hparts
  rw [splitComma]
  omega

/-- A name is cut short behind a comma where one of the first 31 commas is the 256th character. -/
theorem firstNames_cut (t : List Char) :
    ([','].intercalate ((splitComma t).take 32))[255]? = some ',' ↔ IsCutAtComma t := by
  have hcount := firstNames_count t
  have hwhole : t.count ',' ≤ 31 → [','].intercalate ((splitComma t).take 32) = t := by
    intro h
    have hparts := Cut.splitOn_length ',' t
    rw [splitComma, List.take_of_length_le (by omega), List.intercalate_splitOn]
  have hstart := Cut.intercalate_take_prefix [','] (splitComma t) 32
  have htext : [','].intercalate (splitComma t) = t := List.intercalate_splitOn ','
  rw [htext] at hstart
  generalize [','].intercalate ((splitComma t).take 32) = names at *
  constructor
  · intro hcomma
    obtain ⟨rest, rfl⟩ := hstart
    have hlen : 255 < names.length := (List.getElem?_eq_some_iff.mp hcomma).1
    refine ⟨(List.getElem?_append_left hlen).trans hcomma, ?_⟩
    rw [List.take_append_of_le_length (Nat.le_of_lt hlen)]
    have hmore := (List.take_sublist 256 names).count_le ','
    rw [List.take_add_one, hcomma, List.count_append] at hmore
    simp only [Option.toList_some, List.count_singleton_self] at hmore
    omega
  · rintro ⟨hcomma, hfew⟩
    by_cases hlen : 255 < names.length
    · obtain ⟨rest, rfl⟩ := hstart
      rwa [List.getElem?_append_left hlen] at hcomma
    · by_cases hmany : t.count ',' ≤ 31
      · rw [← hwhole hmany, List.getElem?_eq_none (Nat.le_of_not_lt hlen)] at hcomma
        cases hcomma
      · have hpart : names <+: t.take 255 :=
          List.prefix_take_iff.mpr ⟨hstart, Nat.le_of_not_lt hlen⟩
        have hle := hpart.sublist.count_le ','
        omega

theorem isFieldNames_keptNames {t : List Char} (h : isFieldNames t = true) :
    isFieldNames (keptNames t) = true ↔ ¬ IsCutAtComma t := by
  have hnames : isFieldNames ([','].intercalate ((splitComma t).take 32)) = true := by
    rw [isFieldNames, splitComma, splitComma, Cut.splitOn_take ',' t (by decide), List.all_eq_true]
    intro name hname
    exact List.all_eq_true.mp h name (List.mem_of_mem_take hname)
  obtain ⟨c, rest, hkept, -⟩ := keptNames_head h
  have hne : keptNames t ≠ [] := by simp [hkept]
  rw [keptNames] at hne
  rw [← firstNames_cut, keptNames, isFieldNames_start_iff hnames (List.take_prefix 256 _) hne]
  generalize [','].intercalate ((splitComma t).take 32) = names at *
  apply not_congr
  by_cases hlen : names.length ≤ 255
  · have hself := List.prefix_refl names
    have hlast := (isFieldNames_start_iff hnames hself (by simpa using hne)).mp hnames
    rw [List.take_of_length_le (by omega), List.getElem?_eq_none hlen]
    simpa using hlast
  · rw [List.getLast?_eq_getElem?, List.length_take, Nat.min_eq_left (by omega),
      List.getElem?_take_of_lt (by omega)]

theorem not_isFieldNames_summary (v : LogValue) : isFieldNames (summary v) = false := by
  rw [← Bool.not_eq_true]
  intro h
  obtain ⟨c, rest, heq, hc⟩ := isFieldNames_head h
  obtain ⟨rest', heq'⟩ := summary_head v
  rw [heq', List.cons.injEq] at heq
  rw [← heq.1] at hc
  exact absurd hc (by decide)

theorem isSafeDiagnostic_summary (v : LogValue) : isSafeDiagnostic (summary v) = false := by
  obtain ⟨rest, heq⟩ := summary_head v
  simp [isSafeDiagnostic, heq, typeLabel]

theorem looksLikePrivatePath_eq (t : List Char) :
    looksLikePrivatePath t = true ↔ '/' ∈ t ∨ startsWithDrive t = true := by
  have hstart : startsWithAny ["/", "~/", "./", "../"] t = true → '/' ∈ t := by
    have hall : ∀ start ∈ ["/", "~/", "./", "../"], '/' ∈ start.toList := by decide
    simp only [startsWithAny, List.any_eq_true, List.isPrefixOf_iff_prefix]
    rintro ⟨start, hin, hpre⟩
    exact hpre.subset (hall start hin)
  rw [looksLikePrivatePath, Bool.or_eq_true, Bool.or_eq_true, decide_eq_true_eq]
  constructor
  · rintro ((h | h) | h)
    · exact .inl (hstart h)
    · exact .inl h
    · exact .inr h
  · rintro (h | h)
    · exact .inl (.inr h)
    · exact .inr h

theorem withoutBreak_ne (c : Char) : withoutBreak c ≠ '\n' ∧ withoutBreak c ≠ '\r' := by
  unfold withoutBreak
  split
  · decide
  · rename_i hne
    rwa [Bool.or_eq_true, decide_eq_true_eq, decide_eq_true_eq, not_or] at hne

theorem withoutBreak_eq {c d : Char} (h : withoutBreak c = d) (hd : d ≠ ' ') : c = d := by
  unfold withoutBreak at h
  split at h
  · exact absurd h.symm hd
  · exact h

theorem oneLine_breaks (t : List Char) : '\n' ∉ oneLine t ∧ '\r' ∉ oneLine t := by
  have hchar : ∀ c ∈ oneLine t, c ≠ '\n' ∧ c ≠ '\r' := by
    intro c hc
    obtain ⟨d, -, rfl⟩ := List.mem_map.mp (List.mem_of_mem_take hc)
    exact withoutBreak_ne d
  exact ⟨fun hin => (hchar _ hin).1 rfl, fun hin => (hchar _ hin).2 rfl⟩

theorem oneLine_eq_self (t : List Char) :
    oneLine t = t ↔ t.length ≤ 160 ∧ '\n' ∉ t ∧ '\r' ∉ t := by
  constructor
  · intro h
    have hbreaks := oneLine_breaks t
    rw [h] at hbreaks
    refine ⟨?_, hbreaks⟩
    rw [← h]
    exact List.length_take_le 160 _
  · rintro ⟨hlen, hn, hr⟩
    have hmap : t.map withoutBreak = t.map id := by
      apply List.map_congr_left
      intro c hc
      have hcn : c ≠ '\n' := fun heq => hn (heq ▸ hc)
      have hcr : c ≠ '\r' := fun heq => hr (heq ▸ hc)
      simp [withoutBreak, hcn, hcr]
    rw [oneLine, hmap, List.map_id, List.take_of_length_le hlen]

theorem oneLine_oneLine (t : List Char) : oneLine (oneLine t) = oneLine t := by
  rw [oneLine_eq_self]
  exact ⟨List.length_take_le 160 _, oneLine_breaks t⟩

theorem startsWithDrive_cons (a b c : Char) (rest : List Char) :
    startsWithDrive (a :: b :: c :: rest) = true ↔
      b = ':' ∧ a.isAlpha = true ∧ (c = '\\' ∨ c = '/') := by
  by_cases hb : b = ':'
  · rw [hb]
    simp [startsWithDrive]
  · simp [startsWithDrive, hb]

theorem oneLine_public {t : List Char} (h : looksLikePrivatePath t = false) :
    looksLikePrivatePath (oneLine t) = false := by
  rw [← Bool.not_eq_true, looksLikePrivatePath_eq, not_or] at h ⊢
  constructor
  · intro hin
    obtain ⟨d, hd, heq⟩ := List.mem_map.mp (List.mem_of_mem_take hin)
    exact h.1 (withoutBreak_eq heq (by decide) ▸ hd)
  · intro hdrive
    apply h.2
    rcases t with _ | ⟨a, _ | ⟨b, _ | ⟨c, t⟩⟩⟩
    · exact hdrive
    · simp [oneLine, startsWithDrive] at hdrive
    · simp [oneLine, startsWithDrive] at hdrive
    · rw [oneLine, List.map_cons, List.map_cons, List.map_cons, List.take_succ_cons,
        List.take_succ_cons, List.take_succ_cons, startsWithDrive_cons] at hdrive
      obtain ⟨hb, ha, hc⟩ := hdrive
      rw [startsWithDrive_cons]
      refine ⟨withoutBreak_eq hb (by decide), ?_, ?_⟩
      · unfold withoutBreak at ha
        split at ha
        · exact absurd ha (by decide)
        · exact ha
      · cases hc with
        | inl hc => exact .inl (withoutBreak_eq hc (by decide))
        | inr hc => exact .inr (withoutBreak_eq hc (by decide))

/-- The characters that make a text private or break its line. -/
def IsQuiet (c : Char) : Prop := c ≠ '/' ∧ c ≠ '\n' ∧ c ≠ '\r'

instance (c : Char) : Decidable (IsQuiet c) := inferInstanceAs (Decidable (_ ∧ _))

theorem isQuiet_of_name {c : Char} (h : isNameChar c = true) : IsQuiet c := by
  refine ⟨?_, ?_, ?_⟩ <;> rintro rfl <;> exact absurd h (by decide)

theorem isQuiet_of_lower {c : Char} (h : (c.isLower || c = '_') = true) : IsQuiet c := by
  refine ⟨?_, ?_, ?_⟩ <;> rintro rfl <;> exact absurd h (by decide)

theorem isSafeDiagnostic_cut {t : List Char} (h : isSafeDiagnostic t = true) :
    ∃ name kind, t = typeLabel ++ (name ++ (classLabel ++ kind)) ∧ name.length ≤ 80 ∧
      kind.length ≤ 40 ∧ (∀ c ∈ name, IsQuiet c) ∧ ∀ c ∈ kind, IsQuiet c := by
  simp only [isSafeDiagnostic, Bool.and_eq_true, List.isPrefixOf_iff_prefix, decide_eq_true_eq,
    List.all_eq_true] at h
  obtain ⟨⟨⟨⟨⟨rest, rfl⟩, hname⟩, ⟨kind, hkind⟩⟩, hlen⟩, hchars⟩ := h
  rw [List.drop_left] at hname hkind hlen hchars
  rw [← hkind, List.drop_left] at hlen hchars
  refine ⟨rest.takeWhile isNameChar, kind, ?_, hname.2, hlen.2, ?_, ?_⟩
  · rw [hkind, List.takeWhile_append_dropWhile]
  · intro c hc
    exact isQuiet_of_name (List.mem_takeWhile_imp hc)
  · intro c hc
    exact isQuiet_of_lower (hchars c hc)

theorem isSafeDiagnostic_plain {t : List Char} (h : isSafeDiagnostic t = true) :
    looksLikePrivatePath t = false ∧ oneLine t = t := by
  obtain ⟨name, kind, rfl, hname, hkind, hnameQuiet, hkindQuiet⟩ := isSafeDiagnostic_cut h
  have hlabel : ∀ c ∈ typeLabel, IsQuiet c := by simp [typeLabel, IsQuiet]
  have hclass : ∀ c ∈ classLabel, IsQuiet c := by simp [classLabel, IsQuiet]
  have hquiet : ∀ c ∈ typeLabel ++ (name ++ (classLabel ++ kind)), IsQuiet c := by
    intro c hc
    rw [List.mem_append, List.mem_append, List.mem_append] at hc
    rcases hc with hc | hc | hc | hc
    · exact hlabel c hc
    · exact hnameQuiet c hc
    · exact hclass c hc
    · exact hkindQuiet c hc
  constructor
  · rw [← Bool.not_eq_true, looksLikePrivatePath_eq, not_or]
    refine ⟨fun hin => (hquiet _ hin).1 rfl, fun hdrive => ?_⟩
    have hx := (startsWithDrive_cons 'e' 'x' 'c' _).mp hdrive
    exact absurd hx.1 (by decide)
  · rw [oneLine_eq_self]
    refine ⟨?_, fun hin => (hquiet _ hin).2.1 rfl, fun hin => (hquiet _ hin).2.2 rfl⟩
    have htype : typeLabel.length = 15 := rfl
    have hclassLen : classLabel.length = 15 := rfl
    rw [List.length_append, List.length_append, List.length_append]
    omega

/-- The texts that the field shows as they are. -/
def IsShown (normalized t : List Char) : Prop :=
  if normalized = diagnosticField then isSafeDiagnostic t = true ∨ t = settledSummary
  else if isIn fieldNamesFields normalized then
    t = [] ∨ t = settledSummary ∨
      isFieldNames t = true ∧ (splitComma t).length ≤ 32 ∧ t.length ≤ 256
  else if isIn modelFields normalized then isPrivateAlias t = false
  else looksLikePrivatePath t = false ∧ t.length ≤ 160 ∧ '\n' ∉ t ∧ '\r' ∉ t

/-- The texts that the field shows the same when it is given what it showed. -/
def IsSettledText (normalized t : List Char) : Prop :=
  if normalized = diagnosticField then isSafeDiagnostic t = true ∨ t.length = 19
  else if isIn fieldNamesFields normalized then
    t = [] ∨ (if isFieldNames t then ¬ IsCutAtComma t else t.length = 19)
  else True

theorem sanitizeSafeText_diagnostic (t : List Char) :
    sanitizeSafeText diagnosticField t =
      if isSafeDiagnostic t then t else summary (.str t) := by
  have hnames : isIn fieldNamesFields diagnosticField = false := by decide
  have hmodel : isIn modelFields diagnosticField = false := by decide
  cases h : isSafeDiagnostic t with
  | false => simp only [sanitizeSafeText, h, decide_true, Bool.not_false, Bool.and_self, if_true,
      Bool.false_eq_true, if_false]
  | true =>
    obtain ⟨hpublic, hline⟩ := isSafeDiagnostic_plain h
    simp only [sanitizeSafeText, h, hnames, hmodel, hpublic, hline, Bool.not_true, Bool.and_false,
      Bool.false_eq_true, if_false, if_true]

theorem sanitizeSafeText_names {normalized : List Char} (hd : normalized ≠ diagnosticField)
    (hn : isIn fieldNamesFields normalized = true) (t : List Char) :
    sanitizeSafeText normalized t =
      if t = [] then [] else if isFieldNames t then keptNames t else summary (.str t) := by
  cases h : isFieldNames t <;>
    simp only [sanitizeSafeText, hd, hn, h, decide_false, Bool.false_and, Bool.false_eq_true,
      if_false, if_true, Bool.not_false, Bool.not_true]

theorem sanitizeSafeText_model {normalized : List Char} (hd : normalized ≠ diagnosticField)
    (hn : isIn fieldNamesFields normalized = false) (hm : isIn modelFields normalized = true)
    (t : List Char) : sanitizeSafeText normalized t = safeModelAlias t := by
  simp only [sanitizeSafeText, hd, hn, hm, decide_false, Bool.false_and, Bool.false_eq_true,
    if_false, if_true]

theorem sanitizeSafeText_plain {normalized : List Char} (hd : normalized ≠ diagnosticField)
    (hn : isIn fieldNamesFields normalized = false) (hm : isIn modelFields normalized = false)
    (t : List Char) : sanitizeSafeText normalized t =
      if looksLikePrivatePath t then pathPresent else oneLine t := by
  simp only [sanitizeSafeText, hd, hn, hm, decide_false, Bool.false_and, Bool.false_eq_true,
    if_false]

theorem pathPresent_public : looksLikePrivatePath pathPresent = false := by decide

theorem sanitizeSafeText_eq_self (normalized t : List Char) :
    sanitizeSafeText normalized t = t ↔ IsShown normalized t := by
  unfold IsShown
  split
  · rename_i hd
    rw [hd, sanitizeSafeText_diagnostic]
    cases isSafeDiagnostic t with
    | true => simp
    | false => simpa using summary_eq_self t
  · rename_i hd
    split
    · rename_i hn
      rw [sanitizeSafeText_names hd hn]
      split
      · rename_i hnil
        simp [hnil]
      · rename_i hne
        cases hnames : isFieldNames t with
        | true =>
          have hsettled : t ≠ settledSummary := by
            rintro rfl
            exact absurd hnames (by decide)
          simp [hne, hsettled, keptNames_eq_self]
        | false => simpa [hne] using summary_eq_self t
    · rename_i hn
      rw [Bool.not_eq_true] at hn
      split
      · rename_i hm
        rw [sanitizeSafeText_model hd hn hm, safeModelAlias]
        cases hp : isPrivateAlias t with
        | false => simp
        | true =>
          have hne : redacted ≠ t := by
            rintro rfl
            exact absurd hp (by decide)
          simp [hne]
      · rename_i hm
        rw [Bool.not_eq_true] at hm
        rw [sanitizeSafeText_plain hd hn hm, ← oneLine_eq_self]
        cases hp : looksLikePrivatePath t with
        | false => simp
        | true =>
          have hne : pathPresent ≠ t := by
            rintro rfl
            exact absurd hp (by decide)
          simp [hne]

theorem sanitizeSafeText_settled (normalized t : List Char) :
    sanitizeSafeText normalized (sanitizeSafeText normalized t) = sanitizeSafeText normalized t ↔
      IsSettledText normalized t := by
  unfold IsSettledText
  split
  · rename_i hd
    rw [hd, sanitizeSafeText_diagnostic t]
    cases h : isSafeDiagnostic t with
    | true => simp [sanitizeSafeText_diagnostic, h]
    | false =>
      have hsummary := isSafeDiagnostic_summary (.str t)
      simpa [sanitizeSafeText_diagnostic, hsummary] using summary_summary t
  · rename_i hd
    split
    · rename_i hn
      rw [sanitizeSafeText_names hd hn t]
      split
      · rename_i hnil
        simp [sanitizeSafeText_names hd hn, hnil]
      · rename_i hne
        cases hnames : isFieldNames t with
        | true =>
          obtain ⟨c, rest, hkept, hc⟩ := keptNames_head hnames
          have hkeptNe : keptNames t ≠ [] := by simp [hkept]
          have hcut := isFieldNames_keptNames hnames
          cases hagain : isFieldNames (keptNames t) with
          | true =>
            have hwhole := hcut.mp hagain
            simp [sanitizeSafeText_names hd hn, hkeptNe, hagain, hne, keptNames_keptNames, hwhole]
          | false =>
            obtain ⟨rest', hsummary⟩ := summary_head (.str (keptNames t))
            have hchar : '<' ≠ c := by
              rintro rfl
              exact absurd hc (by decide)
            have hdiff : summary (.str (keptNames t)) ≠ keptNames t := by
              rw [hsummary, hkept]
              simp [hchar]
            have hcut' : IsCutAtComma t := by
              rwa [hagain, Bool.false_eq_true, false_iff, not_not] at hcut
            simp [sanitizeSafeText_names hd hn, hkeptNe, hagain, hne, hdiff, hcut']
        | false =>
          obtain ⟨rest, hsummary⟩ := summary_head (.str t)
          have hsummaryNe : summary (.str t) ≠ [] := by simp [hsummary]
          have hagain := not_isFieldNames_summary (.str t)
          simpa [sanitizeSafeText_names hd hn, hsummaryNe, hagain, hne] using summary_summary t
    · rename_i hn
      rw [Bool.not_eq_true] at hn
      rw [iff_true]
      by_cases hm : isIn modelFields normalized = true
      · have hredacted : isPrivateAlias redacted = false := by decide
        rw [sanitizeSafeText_model hd hn hm, sanitizeSafeText_model hd hn hm]
        cases hp : isPrivateAlias t <;> simp [safeModelAlias, hp, hredacted]
      · rw [Bool.not_eq_true] at hm
        have hpath : oneLine pathPresent = pathPresent := by decide
        rw [sanitizeSafeText_plain hd hn hm, sanitizeSafeText_plain hd hn hm]
        cases hp : looksLikePrivatePath t with
        | true => simp [pathPresent_public, hpath]
        | false => simp [oneLine_public hp, oneLine_oneLine]

end Whooshd.LogSafety
