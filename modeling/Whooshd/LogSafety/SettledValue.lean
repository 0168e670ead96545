import Whooshd.LogSafety.SafeText
import Whooshd.LogSafety.SettledUrl

set_option autoImplicit true

namespace Whooshd.LogSafety

/-- The values that a safe field shows the same when it is given what it showed: a count of items
is one item itself, and what is turned into a text must be a text that is shown. -/
def IsSettledSafe (normalized : List Char) : LogValue → Prop
  | .none | .bool _ | .int _ | .float _ => True
  | .str s => IsSettledText normalized s
  | .mapping size _ | .sequence size _ | .memoryview size _ => size = 1
  | .bytes _ text | .other text => IsShown normalized (text.take 80)
  | .exception e => IsShown normalized (e.text.take 80)

/-- A summary of a text that is as long as its summary. -/
def IsSettledSummary (value : LogValue) : Prop := ∃ s, value = .str s ∧ s.length = 19

/-- The values that are the same when they are sanitised again under the same name. -/
def IsSettledValue (u : Unicode) (value : LogValue) (field : Option (List Char)) : Prop :=
  let normalized := normalizedField u field
  match value with
  | .exception e =>
    isIn urlFields normalized = false ∧ isIn safeFields normalized = true ∧
      IsShown normalized (exceptionMetadata u (some e))
  | value =>
    if isIn urlFields normalized then IsSettledUrl u value.text
    else if isIn safeFields normalized then IsSettledSafe normalized value
    else if isUnsafe normalized then IsSettledSummary value
    else value.isContent = true → IsSettledSummary value

theorem itemCount_inj {m n : Nat} (h : itemCount m = itemCount n) : m = n := by
  rw [itemCount, itemCount, LogValue.mapping.injEq, List.append_cancel_right_eq,
    List.append_cancel_left_eq] at h
  exact decimal_inj h.2

theorem sanitizeSafe_settled (normalized : List Char) (value : LogValue) :
    sanitizeSafe normalized (sanitizeSafe normalized value) = sanitizeSafe normalized value ↔
      IsSettledSafe normalized value := by
  have hitems (size : Nat) : itemCount 1 = itemCount size ↔ size = 1 :=
    ⟨fun h => (itemCount_inj h).symm, fun h => by rw [h]⟩
  cases value with
  | none => simp [sanitizeSafe, IsSettledSafe]
  | bool b => simp [sanitizeSafe, IsSettledSafe]
  | int n => simp [sanitizeSafe, IsSettledSafe]
  | float text => simp [sanitizeSafe, IsSettledSafe]
  | str s =>
    rw [sanitizeSafe, sanitizeSafe, LogValue.str.injEq]
    exact sanitizeSafeText_settled normalized s
  | bytes size text =>
    rw [sanitizeSafe, sanitizeSafe, LogValue.str.injEq]
    exact sanitizeSafeText_eq_self normalized _
  | memoryview size text => exact hitems size
  | mapping size text => exact hitems size
  | sequence size text => exact hitems size
  | exception e =>
    rw [sanitizeSafe, sanitizeSafe, LogValue.str.injEq]
    exact sanitizeSafeText_eq_self normalized _
  | other text =>
    rw [sanitizeSafe, sanitizeSafe, LogValue.str.injEq]
    exact sanitizeSafeText_eq_self normalized _

theorem sanitizeValue_str (u : Unicode) (t : List Char) (field : Option (List Char)) :
    sanitizeValue u (.str t) field =
      .str (if isIn urlFields (normalizedField u field) then safeUrl u t
        else if isIn safeFields (normalizedField u field) then
          sanitizeSafeText (normalizedField u field) t
        else summary (.str t)) := by
  simp only [sanitizeValue, sanitizeSafe, LogValue.text, LogValue.isContent, if_true]
  split
  · rfl
  · split
    · rfl
    · rw [ite_self]

theorem splitScheme_metadata (rest : List Char) : (splitScheme (typeLabel ++ rest)).1 = [] := by
  have hcolon : ∀ c ∈ typeLabel, decide (c ≠ ':') = true := by simp [typeLabel]
  have hall : (typeLabel ++ rest.takeWhile (· ≠ ':')).all isSchemeChar = false := by
    rw [List.all_append]
    rfl
  simp only [splitScheme, List.takeWhile_append_of_pos hcolon, hall, Bool.and_false,
    Bool.false_eq_true, if_false]
  split <;> rfl

theorem safeUrl_metadata (u : Unicode) (e : LogException) :
    safeUrl u (exceptionMetadata u (some e)) = redacted := by
  apply safeUrl_bare
  intro scheme netloc path h
  obtain ⟨rest, hrest⟩ : ∃ rest, exceptionMetadata u (some e) = typeLabel ++ rest :=
    ⟨e.typeName.take 80 ++ (classLabel ++ failureClass u (some e)), by simp [exceptionMetadata]⟩
  have hlabel : typeLabel.filter (!isRemoved ·) = typeLabel := by decide
  have hclean : ((typeLabel ++ rest).dropWhile isControlOrSpace).filter (!isRemoved ·) =
      typeLabel ++ rest.filter (!isRemoved ·) := by
    have hdrop : (typeLabel ++ rest).dropWhile isControlOrSpace = typeLabel ++ rest := rfl
    rw [hdrop, List.filter_append, hlabel]
  have hscheme := splitScheme_metadata (rest.filter (!isRemoved ·))
  rw [hrest] at h
  simp only [urlsplit, hclean] at h
  split at h
  · rw [Option.some.injEq, Prod.mk.injEq] at h
    exact .inl (h.1.symm.trans hscheme)
  · cases h

theorem metadata_head (u : Unicode) (e : Option LogException) :
    ∃ rest, exceptionMetadata u e = 'e' :: rest := by
  cases e with
  | none => exact ⟨_, rfl⟩
  | some e => exact ⟨_, rfl⟩

theorem sanitizeValue_exception (u : Unicode) (e : LogException) (field : Option (List Char)) :
    sanitizeValue u (sanitizeValue u (.exception e) field) field =
      sanitizeValue u (.exception e) field ↔ IsSettledValue u (.exception e) field := by
  obtain ⟨rest, hrest⟩ := metadata_head u (some e)
  have hredacted : redacted ≠ exceptionMetadata u (some e) := by
    rw [hrest, redacted]
    simp
  have hsummary : summary (.str (exceptionMetadata u (some e))) ≠ exceptionMetadata u (some e) := by
    obtain ⟨rest', hrest'⟩ := summary_head (.str (exceptionMetadata u (some e)))
    rw [hrest', hrest]
    simp
  have hfirst : sanitizeValue u (.exception e) field = .str (exceptionMetadata u (some e)) := rfl
  rw [hfirst, sanitizeValue_str, LogValue.str.injEq, safeUrl_metadata]
  simp only [IsSettledValue]
  cases isIn urlFields (normalizedField u field) with
  | true => simp [hredacted]
  | false =>
    cases isIn safeFields (normalizedField u field) with
    | true => simp [sanitizeSafeText_eq_self]
    | false => simp [hsummary]

theorem sanitizeValue_safe {u : Unicode} {value : LogValue} {field : Option (List Char)}
    (hurl : isIn urlFields (normalizedField u field) = false)
    (hsafe : isIn safeFields (normalizedField u field) = true)
    (hvalue : ∀ e, value ≠ .exception e) :
    sanitizeValue u value field = sanitizeSafe (normalizedField u field) value := by
  cases value with
  | exception e => exact absurd rfl (hvalue e)
  | _ => simp only [sanitizeValue, hurl, hsafe, Bool.false_eq_true, if_false, if_true]

theorem sanitizeSafe_not_exception (normalized : List Char) (value : LogValue)
    (hvalue : ∀ e, value ≠ .exception e) (e : LogException) :
    sanitizeSafe normalized value ≠ .exception e := by
  cases value with
  | exception e => exact absurd rfl (hvalue e)
  | _ => simp [sanitizeSafe, itemCount]

theorem sanitizeValue_other {u : Unicode} {value : LogValue} {field : Option (List Char)}
    (hurl : isIn urlFields (normalizedField u field) = false)
    (hsafe : isIn safeFields (normalizedField u field) = false)
    (hvalue : ∀ e, value ≠ .exception e) :
    sanitizeValue u value field =
      if isUnsafe (normalizedField u field) || value.isContent then .str (summary value)
      else value := by
  cases value with
  | exception e => exact absurd rfl (hvalue e)
  | _ =>
    cases hunsafe : isUnsafe (normalizedField u field) <;>
      simp only [sanitizeValue, hurl, hsafe, hunsafe, Bool.false_eq_true, if_false, if_true,
        Bool.true_or, Bool.false_or]

/-- What decides whether a value that is no exception is settled. -/
theorem isSettledValue_iff {u : Unicode} {value : LogValue} {field : Option (List Char)}
    (hvalue : ∀ e, value ≠ .exception e) :
    IsSettledValue u value field ↔
      if isIn urlFields (normalizedField u field) then IsSettledUrl u value.text
      else if isIn safeFields (normalizedField u field) then
        IsSettledSafe (normalizedField u field) value
      else isUnsafe (normalizedField u field) = true ∨ value.isContent = true →
        IsSettledSummary value := by
  cases value with
  | exception e => exact absurd rfl (hvalue e)
  | _ =>
    simp only [IsSettledValue]
    cases isIn urlFields (normalizedField u field) <;>
      cases isIn safeFields (normalizedField u field) <;>
      cases isUnsafe (normalizedField u field) <;> simp

theorem sanitizeValue_settled (u : Unicode) (value : LogValue) (field : Option (List Char)) :
    sanitizeValue u (sanitizeValue u value field) field = sanitizeValue u value field ↔
      IsSettledValue u value field := by
  by_cases hvalue : ∀ e, value ≠ .exception e
  · rw [isSettledValue_iff hvalue]
    cases hurl : isIn urlFields (normalizedField u field) with
    | true =>
      have hfirst : sanitizeValue u value field = .str (safeUrl u value.text) := by
        cases value with
        | exception e => exact absurd rfl (hvalue e)
        | _ => simp only [sanitizeValue, hurl, if_true]
      rw [hfirst, sanitizeValue_str, hurl, if_pos rfl, if_pos rfl, LogValue.str.injEq]
      exact safeUrl_settled u value.text
    | false =>
      rw [if_neg Bool.false_ne_true]
      cases hsafe : isIn safeFields (normalizedField u field) with
      | true =>
        have hagain := sanitizeSafe_not_exception (normalizedField u field) value hvalue
        rw [sanitizeValue_safe hurl hsafe hvalue, sanitizeValue_safe hurl hsafe hagain, if_pos rfl]
        exact sanitizeSafe_settled (normalizedField u field) value
      | false =>
        rw [if_neg Bool.false_ne_true, sanitizeValue_other hurl hsafe hvalue]
        cases hshown : isUnsafe (normalizedField u field) || value.isContent with
        | true =>
          rw [if_pos rfl, sanitizeValue_str, hurl, if_neg Bool.false_ne_true, hsafe,
            if_neg Bool.false_ne_true, LogValue.str.injEq, summary_fixed]
          rw [Bool.or_eq_true] at hshown
          exact ⟨fun h _ => h, fun h => h hshown⟩
        | false =>
          rw [if_neg Bool.false_ne_true, sanitizeValue_other hurl hsafe hvalue, hshown,
            if_neg Bool.false_ne_true]
          rw [← Bool.not_eq_true, Bool.or_eq_true] at hshown
          exact ⟨fun _ h => absurd h hshown, fun _ => rfl⟩
  · obtain ⟨e, he⟩ := not_forall.mp hvalue
    rw [not_not.mp he]
    exact sanitizeValue_exception u e field

end Whooshd.LogSafety
