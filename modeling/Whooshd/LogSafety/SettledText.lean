import Whooshd.LogSafety.Sizes

set_option autoImplicit true

namespace Whooshd.LogSafety

open Regex

/-- The characters that a plain event text does not hold. -/
def isMark (c : Char) : Bool := c ∈ ['<', '%', '=']

theorem mem_of_isMark {c : Char} (h : isMark c = true) : c = '<' ∨ c = '%' ∨ c = '=' := by
  simpa [isMark] using h

theorem mark_redacted : '<' ∈ redacted := by decide

theorem sanitizeLogText_cases (u : Unicode) (text : List Char) :
    sanitizeLogText u text = text ∨ '<' ∈ sanitizeLogText u text := by
  have hquery : '<' ∈ redactedQuery := by decide
  have hstep {a : Pattern} {behind cs : List Char} (hbehind : '<' ∈ behind)
      (h : cs = text ∨ '<' ∈ cs) : a.sub behind cs = text ∨ '<' ∈ a.sub behind cs := by
    cases Pattern.sub_cases a behind cs with
    | inl heq => rwa [heq]
    | inr hin => exact .inr (hin _ hbehind)
  exact hstep mark_redacted (hstep hquery (hstep mark_redacted (hstep mark_redacted (.inl rfl))))

theorem isEventName_unmarked {text : List Char} (h : isEventName text = true) :
    ∀ c ∈ text, isMark c = false := by
  intro c hc
  rw [isEventName, Bool.and_eq_true, List.all_eq_true] at h
  have hchar := h.2 c hc
  rw [← Bool.not_eq_true]
  intro hmark
  rcases mem_of_isMark hmark with rfl | rfl | rfl <;> exact absurd hchar (by decide)

theorem isWordFolded_unmarked {state : String} (hstate : state ∈ states) {text : List Char}
    (h : isWordFolded state text = true) : ∀ c ∈ text, isMark c = false := by
  have hletters : (states.all fun state => state.toList.all fun letter =>
      ['<', '%', '='].all fun c => !Pattern.ignoringCase letter c) = true := by decide
  simp only [List.all_eq_true, Bool.not_eq_true'] at hletters
  intro c hc
  rw [isWordFolded, Bool.and_eq_true, List.all_eq_true, decide_eq_true_eq] at h
  obtain ⟨i, hi, rfl⟩ := List.mem_iff_getElem.mp hc
  have hletter : i < state.toList.length := by omega
  have hin : (state.toList[i], text[i]) ∈ state.toList.zip text := by
    rw [List.mem_iff_getElem]
    exact ⟨i, by rw [List.length_zip]; omega, List.getElem_zip⟩
  have hfolds := h.2 _ hin
  cases hmark : isMark text[i] with
  | false => rfl
  | true =>
    have hmem : text[i] ∈ ['<', '%', '='] := by simpa using mem_of_isMark hmark
    have hnot := hletters state hstate state.toList[i] (List.getElem_mem hletter) text[i] hmem
    exact absurd (hnot.symm.trans hfolds) Bool.false_ne_true

theorem isStateLine_unmarked {text : List Char} (h : isStateLine text = true) :
    ∀ c ∈ text, isMark c = false := by
  unfold isStateLine at h
  split at h
  · rename_i inner
    split at h
    · rename_i tail hdrop
      rw [Bool.and_eq_true, Bool.and_eq_true, List.any_eq_true] at h
      obtain ⟨⟨-, -⟩, state, hstate, hword⟩ := h
      have hinner : inner = inner.takeWhile isAnyEventChar ++ ']' :: tail := by
        rw [← hdrop, List.takeWhile_append_dropWhile]
      intro c hc
      rw [hinner, List.mem_cons, List.mem_append, List.mem_cons] at hc
      rcases hc with rfl | hc | rfl | hc
      · rfl
      · have hchar := List.mem_takeWhile_imp hc
        rw [← Bool.not_eq_true]
        intro hmark
        rcases mem_of_isMark hmark with rfl | rfl | rfl <;> exact absurd hchar (by decide)
      · rfl
      · rw [← List.takeWhile_append_dropWhile (p := Text.isSpace) (l := tail),
          List.mem_append] at hc
        cases hc with
        | inl hc =>
          have hspace := List.mem_takeWhile_imp hc
          rw [← Bool.not_eq_true]
          intro hmark
          rcases mem_of_isMark hmark with rfl | rfl | rfl <;> exact absurd hspace (by decide)
        | inr hc => exact isWordFolded_unmarked hstate hword c hc
    · cases h
  · cases h

theorem isPlainEvent_unmarked {u : Unicode} {text : List Char} (h : isPlainEvent u text = true) :
    ∀ c ∈ text, isMark c = false := by
  simp only [isPlainEvent, Bool.and_eq_true, Bool.or_eq_true] at h
  cases h.2 with
  | inl hname => exact isEventName_unmarked hname
  | inr hline => exact isStateLine_unmarked hline

theorem sanitizeFreeformText_summary {u : Unicode} {text : List Char}
    (h : ¬ isPlainEvent u (sanitizeLogText u text) = true) :
    sanitizeFreeformText u text = eventSummary text.length := by
  simp only [sanitizeFreeformText, h, Bool.false_eq_true, if_false]

theorem sanitizeFreeformText_marked (u : Unicode) {text : List Char} {c : Char}
    (hc : isMark c = true) (h : c ∈ text) :
    sanitizeFreeformText u text = eventSummary text.length := by
  have hmark : ∃ c ∈ sanitizeLogText u text, isMark c = true := by
    cases sanitizeLogText_cases u text with
    | inl heq => exact ⟨c, by rwa [heq], hc⟩
    | inr hin => exact ⟨'<', hin, rfl⟩
  obtain ⟨d, hd, hdmark⟩ := hmark
  have hplain : ¬ isPlainEvent u (sanitizeLogText u text) = true := fun hplain =>
    Bool.false_ne_true ((isPlainEvent_unmarked hplain d hd).symm.trans hdmark)
  exact sanitizeFreeformText_summary hplain

theorem mark_eventSummary (n : Nat) : '<' ∈ eventSummary n := by
  rw [eventSummary, List.append_assoc, List.append_assoc]
  exact List.mem_append_right _ (List.mem_append_left _ mark_redacted)

theorem sanitizeFreeformText_plain {u : Unicode} {text : List Char}
    (h : isPlainEvent u (sanitizeLogText u text) = true) : sanitizeFreeformText u text = text := by
  have heq : sanitizeLogText u text = text := by
    cases sanitizeLogText_cases u text with
    | inl heq => exact heq
    | inr hin => exact absurd (isPlainEvent_unmarked h _ hin) (by decide)
  rw [sanitizeFreeformText, if_pos h, heq]

/-- The event texts that are the same when they are sanitised again. -/
def IsSettledEvent (u : Unicode) (text : List Char) : Prop :=
  isPlainEvent u (sanitizeLogText u text) = true ∨ text.length = 29

theorem sanitizeFreeformText_settled (u : Unicode) (text : List Char) :
    sanitizeFreeformText u (sanitizeFreeformText u text) = sanitizeFreeformText u text ↔
      IsSettledEvent u text := by
  by_cases h : isPlainEvent u (sanitizeLogText u text) = true
  · rw [sanitizeFreeformText_plain h, sanitizeFreeformText_plain h]
    exact ⟨fun _ => .inl h, fun _ => rfl⟩
  · have hagain := sanitizeFreeformText_marked u rfl (mark_eventSummary text.length)
    rw [sanitizeFreeformText_summary h, hagain, eventSummary_fixed]
    exact (or_iff_right h).symm

theorem mark_summary (v : LogValue) : '<' ∈ summary v := by
  obtain ⟨rest, hrest⟩ := summary_head v
  rw [hrest]
  exact List.mem_cons_self

/-- A message that is no text is summarised, and its summary is summarised once more. -/
theorem sanitizeFreeform_settled (u : Unicode) (message : LogValue) :
    sanitizeFreeform u (.str (sanitizeFreeform u message)) = sanitizeFreeform u message ↔
      ∃ text, message = .str text ∧ IsSettledEvent u text := by
  by_cases hstr : ∃ text, message = .str text
  · obtain ⟨text, rfl⟩ := hstr
    rw [sanitizeFreeform, sanitizeFreeform, sanitizeFreeformText_settled]
    simp
  · have hfirst : sanitizeFreeform u message = summary message := by
      cases message with
      | str text => exact absurd ⟨text, rfl⟩ hstr
      | _ => rfl
    obtain ⟨rest, hrest⟩ := summary_head message
    have hne : eventSummary (summary message).length ≠ summary message := by
      rw [hrest]
      simp [eventSummary, eventLabel]
    rw [hfirst, sanitizeFreeform, sanitizeFreeformText_marked u rfl (mark_summary message)]
    constructor
    · intro h
      exact absurd h hne
    · rintro ⟨text, h, -⟩
      exact absurd ⟨text, h⟩ hstr

theorem placeholder_blind (last last' : Option Char) (cs : List Char) :
    placeholder last cs = placeholder last' cs := rfl

theorem placeholder_none {c : Char} (h : c ≠ '%') (cs : List Char) :
    placeholder none (c :: cs) = none := by
  unfold placeholder
  split
  · rename_i heq
    exact absurd (List.cons.inj heq).1 h
  · rfl

theorem conversionEnd_cons {cs rest : List Char} (h : conversionEnd cs = some rest) :
    ∃ c, cs = c :: rest ∧ isConversion c = true := by
  cases cs with
  | nil => cases h
  | cons c cs =>
    simp only [conversionEnd] at h
    split at h
    · rename_i hc
      rw [Option.some.injEq] at h
      exact ⟨c, by rw [h], hc⟩
    · cases h

theorem isConversion_ne {c : Char} (h : isConversion c = true) :
    c ≠ '(' ∧ c ≠ '.' ∧ isDecimal c = false := by
  have hall : (['d', 'i', 'o', 'u', 'x', 'X', 'e', 'E', 'f', 'F', 'g', 'G', 'c', 'r', 's', 'a',
      '%'].all fun d => d ≠ '(' && (d ≠ '.' && !isDecimal d)) = true := by decide +kernel
  simp only [List.all_eq_true, Bool.and_eq_true, decide_eq_true_eq, Bool.not_eq_true'] at hall
  exact hall c (by simpa [isConversion] using h)

theorem precision_local {cs rest : List Char} (h : conversionEnd (dropPrecision cs) = some rest) :
    ∃ c part, cs = c :: part ++ rest ∧ c ≠ '(' ∧ isDecimal c = false ∧
      ∀ rest', conversionEnd (dropPrecision (c :: part ++ rest')) = some rest' := by
  obtain ⟨c, hc, hconv⟩ := conversionEnd_cons h
  obtain ⟨hparen, hdot, hdecimal⟩ := isConversion_ne hconv
  have hplain : dropPrecision cs = cs → ∃ c part, cs = c :: part ++ rest ∧ c ≠ '(' ∧
      isDecimal c = false ∧
      ∀ rest', conversionEnd (dropPrecision (c :: part ++ rest')) = some rest' := by
    intro heq
    refine ⟨c, [], heq.symm.trans hc, hparen, hdecimal, ?_⟩
    intro rest'
    have hkeep : dropPrecision (c :: rest') = c :: rest' := by
      unfold dropPrecision
      split
      · rename_i heq'
        exact absurd (List.cons.inj heq').1 hdot
      · rfl
    rw [List.cons_append, List.nil_append, hkeep, conversionEnd, if_pos hconv]
  cases cs with
  | nil => exact hplain rfl
  | cons d digits =>
    by_cases hd : d = '.' ∧ digits.takeWhile isDecimal ≠ []
    · obtain ⟨rfl, hdigits⟩ := hd
      have hdrop : dropPrecision ('.' :: digits) = digits.dropWhile isDecimal := by
        simp only [dropPrecision, hdigits, if_false]
      have hsplit : digits = digits.takeWhile isDecimal ++ c :: rest := by
        rw [← hc, hdrop, List.takeWhile_append_dropWhile]
      refine ⟨'.', digits.takeWhile isDecimal ++ [c], ?_, by decide, by decide +kernel, ?_⟩
      · rw [List.cons_append, List.append_assoc, List.singleton_append, ← hsplit]
      · intro rest'
        have hall : ∀ e ∈ digits.takeWhile isDecimal, isDecimal e = true :=
          fun e he => List.mem_takeWhile_imp he
        have htake : (digits.takeWhile isDecimal ++ c :: rest').takeWhile isDecimal =
            digits.takeWhile isDecimal := by
          rw [List.takeWhile_append_of_pos hall, List.takeWhile_cons, hdecimal,
            if_neg Bool.false_ne_true, List.append_nil]
        have hdrop' : (digits.takeWhile isDecimal ++ c :: rest').dropWhile isDecimal =
            c :: rest' := by
          rw [List.dropWhile_append_of_pos hall, List.dropWhile_cons, hdecimal,
            if_neg Bool.false_ne_true]
        rw [List.cons_append, List.append_assoc, List.singleton_append]
        simp only [dropPrecision, htake, hdigits, if_false, hdrop', conversionEnd, hconv, if_true]
    · apply hplain
      unfold dropPrecision
      split
      · rename_i heq
        obtain ⟨rfl, rfl⟩ := List.cons.inj heq
        rw [not_and, not_not] at hd
        rw [if_pos (hd rfl)]
      · rfl

theorem digits_local {cs rest : List Char}
    (h : conversionEnd (dropPrecision (cs.dropWhile isDecimal)) = some rest) :
    ∃ c part, cs = c :: part ++ rest ∧ c ≠ '(' ∧
      ∀ rest', conversionEnd (dropPrecision ((c :: part ++ rest').dropWhile isDecimal)) =
        some rest' := by
  obtain ⟨c, part, hcs, hparen, hdecimal, hlocal⟩ := precision_local h
  have hall : ∀ e ∈ cs.takeWhile isDecimal, isDecimal e = true :=
    fun e he => List.mem_takeWhile_imp he
  have hsplit : cs = cs.takeWhile isDecimal ++ (c :: part ++ rest) := by
    rw [← hcs, List.takeWhile_append_dropWhile]
  have hdrop (tail : List Char) :
      (cs.takeWhile isDecimal ++ (c :: part ++ tail)).dropWhile isDecimal = c :: part ++ tail := by
    rw [List.dropWhile_append_of_pos hall, List.cons_append, List.dropWhile_cons, hdecimal,
      if_neg Bool.false_ne_true]
  cases hdigits : cs.takeWhile isDecimal with
  | nil =>
    rw [hdigits, List.nil_append] at hsplit
    simp only [hdigits, List.nil_append] at hdrop
    exact ⟨c, part, hsplit, hparen, fun rest' => by rw [hdrop, hlocal]⟩
  | cons d digits =>
    have hd : isDecimal d = true := hall d (hdigits ▸ List.mem_cons_self)
    refine ⟨d, digits ++ c :: part, ?_, ?_, ?_⟩
    · rw [hsplit, hdigits, ← List.append_assoc, List.cons_append]
    · rintro rfl
      exact absurd hd (by decide +kernel)
    · intro rest'
      have hagain := hdrop rest'
      rw [hdigits, ← List.append_assoc, List.cons_append] at hagain
      rw [hagain, hlocal]

theorem conversion_local {cs rest : List Char}
    (h : conversionEnd (dropPrecision ((dropFlag cs).dropWhile isDecimal)) = some rest) :
    ∃ c part, cs = c :: part ++ rest ∧ c ≠ '(' ∧ ∀ rest',
      conversionEnd (dropPrecision ((dropFlag (c :: part ++ rest')).dropWhile isDecimal)) =
        some rest' := by
  obtain ⟨c, part, hcs, hparen, hlocal⟩ := digits_local h
  cases cs with
  | nil => cases hcs
  | cons d cs =>
    by_cases hd : d ∈ ['#', '0', '-', ' ', '+']
    · rw [dropFlag, if_pos hd] at hcs
      refine ⟨d, c :: part, by rw [hcs]; rfl, ?_, ?_⟩
      · rintro rfl
        exact absurd hd (by decide)
      · intro rest'
        rw [List.cons_append, dropFlag, if_pos hd, hlocal]
    · rw [dropFlag, if_neg hd] at hcs
      have hhead : d = c := (List.cons.inj hcs).1
      refine ⟨c, part, hcs, hparen, ?_⟩
      intro rest'
      rw [List.cons_append, dropFlag, if_neg (hhead ▸ hd), ← List.cons_append, hlocal]

theorem dropKey_of_ne {c : Char} (h : c ≠ '(') (cs : List Char) : dropKey (c :: cs) = c :: cs := by
  unfold dropKey
  split
  · rename_i heq
    exact absurd (List.cons.inj heq).1 h
  · rfl

theorem dropKey_cases (cs : List Char) : dropKey cs = cs ∨
    ∃ key, cs = '(' :: (key ++ ')' :: dropKey cs) ∧
      ∀ rest, dropKey ('(' :: (key ++ ')' :: rest)) = rest := by
  unfold dropKey
  split
  · rename_i inner
    by_cases hkey : inner.takeWhile (· ≠ ')') = []
    · rw [if_pos hkey]
      exact .inl rfl
    · rw [if_neg hkey]
      split
      · rename_i rest hdrop
        refine .inr ⟨inner.takeWhile (· ≠ ')'), ?_, ?_⟩
        · rw [← hdrop, List.takeWhile_append_dropWhile]
        · intro rest'
          have hall : ∀ e ∈ inner.takeWhile (· ≠ ')'), decide (e ≠ ')') = true :=
            fun e he => List.mem_takeWhile_imp (p := fun c => decide (c ≠ ')')) he
          have htake : (inner.takeWhile (· ≠ ')') ++ ')' :: rest').takeWhile (· ≠ ')') =
              inner.takeWhile (· ≠ ')') := by
            rw [List.takeWhile_append_of_pos hall, List.takeWhile_cons, if_neg (by decide),
              List.append_nil]
          have hdrop' : (inner.takeWhile (· ≠ ')') ++ ')' :: rest').dropWhile (· ≠ ')') =
              ')' :: rest' := by
            rw [List.dropWhile_append_of_pos hall, List.dropWhile_cons, if_neg (by decide)]
          simp only [htake, hkey, if_false, hdrop']
      · exact .inl rfl
  · exact .inl rfl

theorem placeholderEnd_local {cs rest : List Char} (h : placeholderEnd cs = some rest) :
    ∃ part, cs = part ++ rest ∧ ∀ rest', placeholderEnd (part ++ rest') = some rest' := by
  obtain ⟨c, part, hcs, hparen, hlocal⟩ := conversion_local h
  cases dropKey_cases cs with
  | inl hkeep =>
    refine ⟨c :: part, hkeep.symm.trans hcs, fun rest' => ?_⟩
    rw [placeholderEnd, List.cons_append, dropKey_of_ne hparen, ← List.cons_append, hlocal]
  | inr hkey =>
    obtain ⟨key, hkey, hdrop⟩ := hkey
    refine ⟨'(' :: (key ++ ')' :: c :: part), ?_, fun rest' => ?_⟩
    · rw [hkey, hcs]
      simp
    · have htext : '(' :: (key ++ ')' :: c :: part) ++ rest' =
          '(' :: (key ++ ')' :: (c :: part ++ rest')) := by simp
      rw [placeholderEnd, htext, hdrop, hlocal]

/-- A placeholder that is found is read again before any text. -/
theorem placeholder_local {last : Option Char} {cs token : List Char} {n : Nat}
    (h : placeholder last cs = some (token, n)) : ∃ c part, token = c :: part ∧
      ∀ rest, placeholder none (token ++ rest) = some (token, part.length) := by
  unfold placeholder at h
  split at h
  · rename_i cs
    rw [Option.map_eq_some_iff] at h
    obtain ⟨rest, hend, heq⟩ := h
    rw [Prod.mk.injEq] at heq
    obtain ⟨part, rfl, hlocal⟩ := placeholderEnd_local hend
    have htoken : token = '%' :: part := by
      rw [← heq.1, List.length_append, Nat.add_sub_cancel, List.take_left]
    refine ⟨'%', part, htoken, fun rest' => ?_⟩
    rw [htoken, List.cons_append]
    simp only [placeholder, hlocal, Option.map_some, List.length_append, Nat.add_sub_cancel,
      List.take_left]
  · cases h

/-- A template with its stretches between the placeholders rewritten. -/
def rewriteGaps (f : List Char → List Char) (message : List Char) : List Char :=
  (tokens placeholder message).1.flatMap (fun found => f found.gap ++ found.token) ++
    f (tokens placeholder message).2

/-- The placeholders of a rewritten template are those of the template. -/
theorem tokens_rewriteGaps {f : List Char → List Char} (hf : ∀ t, ∀ c ∈ f t, c ≠ '%')
    (message : List Char) :
    tokens placeholder (rewriteGaps f message) =
      ((tokens placeholder message).1.map fun found => ⟨f found.gap, found.token⟩,
        f (tokens placeholder message).2) := by
  have hrebuild := @tokens_rebuild placeholder placeholder_blind (· ≠ '%')
    (fun c hc cs => placeholder_none hc cs)
    ((tokens placeholder message).1.map fun found => ⟨f found.gap, found.token⟩)
    (by
      intro found hfound
      obtain ⟨g, hg, rfl⟩ := List.mem_map.mp hfound
      refine ⟨hf g.gap, ?_⟩
      exact scan_tokens (fun last cs token n h => placeholder_local h) g hg)
    (f (tokens placeholder message).2) (hf _)
  rw [List.flatMap_map] at hrebuild
  exact hrebuild

theorem rewriteGaps_rewriteGaps {f : List Char → List Char} (hf : ∀ t, ∀ c ∈ f t, c ≠ '%')
    (message : List Char) :
    rewriteGaps f (rewriteGaps f message) = rewriteGaps f message ↔
      (∀ found ∈ (tokens placeholder message).1, f (f found.gap) = f found.gap) ∧
        f (f (tokens placeholder message).2) = f (tokens placeholder message).2 := by
  have htokens := tokens_rewriteGaps hf message
  constructor
  · intro h
    have hagain := congrArg (tokens placeholder) h
    rw [tokens_rewriteGaps hf, htokens, Prod.mk.injEq, List.map_map] at hagain
    obtain ⟨hfound, htail⟩ := hagain
    refine ⟨fun found hin => ?_, htail⟩
    have heq := List.map_inj_left.mp hfound found hin
    rw [Function.comp_apply, Found.mk.injEq] at heq
    exact heq.1
  · rintro ⟨hgaps, htail⟩
    have hflat := List.flatMap_congr (l := (tokens placeholder message).1)
      (f := fun found => f (f found.gap) ++ found.token)
      (g := fun found => f found.gap ++ found.token)
      fun found hin => by rw [hgaps found hin]
    have hagain : rewriteGaps f (rewriteGaps f message) =
        (tokens placeholder message).1.flatMap (fun found => f (f found.gap) ++ found.token) ++
          f (f (tokens placeholder message).2) := by
      rw [rewriteGaps, htokens, List.flatMap_map]
    rw [hagain, hflat, htail, rewriteGaps]

/-- The templates whose stretches between the placeholders are the same when they are sanitised
again. -/
def IsSettledTemplate (u : Unicode) (message : List Char) : Prop :=
  (∀ found ∈ (tokens placeholder message).1, IsSettledEvent u found.gap) ∧
    IsSettledEvent u (tokens placeholder message).2

theorem sanitizeFreeformText_quiet (u : Unicode) (text : List Char) :
    ∀ c ∈ sanitizeFreeformText u text, c ≠ '%' := by
  intro c hc
  rintro rfl
  by_cases h : isPlainEvent u (sanitizeLogText u text) = true
  · simp only [sanitizeFreeformText, h, if_true] at hc
    exact absurd (isPlainEvent_unmarked h _ hc) (by decide)
  · rw [sanitizeFreeformText_summary h, eventSummary, List.append_assoc, List.append_assoc,
      List.mem_append, List.mem_append, List.mem_append, decimal_eq] at hc
    rcases hc with hc | hc | hc | hc
    · exact absurd hc (by decide)
    · exact absurd hc (by decide)
    · exact absurd hc (by decide)
    · exact absurd (Nat.isDigit_of_mem_toDigits (by decide) (by decide) hc) (by decide)

/-- A sanitised template shows its stretches between the placeholders. -/
theorem sanitizeFormatTemplate_settled (u : Unicode) (message : List Char) :
    sanitizeFormatTemplate u (sanitizeFormatTemplate u message) =
      sanitizeFormatTemplate u message ↔ IsSettledTemplate u message := by
  have hagain := rewriteGaps_rewriteGaps (sanitizeFreeformText_quiet u) message
  simp only [sanitizeFreeformText_settled] at hagain
  exact hagain

end Whooshd.LogSafety
