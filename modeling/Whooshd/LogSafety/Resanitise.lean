import Whooshd.LogSafety.SettledText
import Whooshd.LogSafety.SettledValue

set_option autoImplicit true

namespace Whooshd.LogSafety

open Regex

/-- The fields that are the same when they are sanitised again. A coloured message is a template
the second time, whatever it was. -/
def IsSettledField (u : Unicode) (key : List Char) (value : LogValue) : Prop :=
  key.head? = some '_' ∨
    if key = colorField then ∃ s, value = .str s ∧ IsSettledTemplate u s
    else IsSettledValue u value (some key)

theorem rewriteGaps_starts (f : List Char → List Char) {quiet : List Char}
    (hquiet : ∀ c ∈ quiet, c ≠ '%') (cs : List Char) :
    ∃ more rest, rewriteGaps f (quiet ++ cs) = f (quiet ++ more) ++ rest := by
  have hnone : ∀ c ∈ quiet, ∀ cs, placeholder none (c :: cs) = none :=
    fun c hc cs => placeholder_none (hquiet c hc) cs
  have htokens : tokens placeholder (quiet ++ cs) = scan placeholder 0 none quiet cs := by
    rw [tokens, scan_gap placeholder_blind hnone, List.nil_append]
  rw [rewriteGaps, htokens]
  cases scan_starts placeholder 0 none quiet cs with
  | inl hfound =>
    obtain ⟨more, token, found, h⟩ := hfound
    exact ⟨more, _, by rw [h, List.flatMap_cons, List.append_assoc, List.append_assoc]⟩
  | inr htail =>
    obtain ⟨hnil, more, h⟩ := htail
    exact ⟨more, [], by rw [h, hnil, List.flatMap_nil, List.nil_append, List.append_nil]⟩

theorem sanitizeFormatTemplate_marked (u : Unicode) (quiet : List Char) {mark : Char}
    (hmark : isMark mark = true) (hin : mark ∈ quiet) (hquiet : ∀ c ∈ quiet, c ≠ '%')
    (cs : List Char) : ∃ rest, sanitizeFormatTemplate u (quiet ++ cs) = 'l' :: rest := by
  obtain ⟨more, rest, h⟩ := rewriteGaps_starts (sanitizeFreeformText u) hquiet cs
  rw [sanitizeFreeformText_marked u hmark (List.mem_append_left more hin)] at h
  exact ⟨_, h⟩

theorem sanitizeFormatTemplate_summary (u : Unicode) (value : LogValue) :
    sanitizeFormatTemplate u (summary value) ≠ summary value := by
  obtain ⟨rest, hrest⟩ := summary_head value
  obtain ⟨rest', h⟩ := sanitizeFormatTemplate_marked u ['<'] rfl
    List.mem_cons_self (by simp) rest
  rw [hrest]
  intro heq
  rw [List.singleton_append] at h
  rw [h] at heq
  exact absurd (List.cons.inj heq).1 (by decide)

theorem sanitizeFormatTemplate_metadata (u : Unicode) (e : LogException) :
    sanitizeFormatTemplate u (exceptionMetadata u (some e)) ≠ exceptionMetadata u (some e) := by
  obtain ⟨rest, hrest⟩ : ∃ rest, exceptionMetadata u (some e) = typeLabel ++ rest :=
    ⟨_, by rw [exceptionMetadata, List.append_assoc, List.append_assoc]⟩
  have hin : '=' ∈ typeLabel := by decide
  obtain ⟨rest', h⟩ := sanitizeFormatTemplate_marked u typeLabel rfl hin
    (by simp [typeLabel]) rest
  rw [hrest, h]
  intro heq
  exact absurd (List.cons.inj heq).1 (by decide)

/-- A coloured message that is not a text is shown by no more than its size. -/
theorem sanitizeValue_color (u : Unicode) (value : LogValue) :
    ∃ s, sanitizeValue u value (some colorField) = .str s ∧ sanitizeFormatTemplate u s ≠ s := by
  have hlower : normalizedField u (some colorField) = colorField := by
    have hascii := u.lower_ascii colorField (by decide)
    have hsame : colorField.map Char.toLower = colorField := by decide
    rw [hsame] at hascii
    rw [normalizedField, Option.filter_some, decide_eq_true (by decide), if_pos rfl,
      Option.map_some, hascii, Option.getD_some]
  have hurl : isIn urlFields colorField = false := by decide +kernel
  have hsafe : isIn safeFields colorField = false := by decide +kernel
  have hunsafe : isUnsafe colorField = true := by decide +kernel
  by_cases hvalue : ∀ e, value ≠ .exception e
  · refine ⟨summary value, ?_, sanitizeFormatTemplate_summary u value⟩
    rw [← hlower] at hurl hsafe
    rw [sanitizeValue_other hurl hsafe hvalue, hlower, hunsafe, Bool.true_or, if_pos rfl]
  · obtain ⟨e, he⟩ := not_forall.mp hvalue
    rw [not_not.mp he]
    exact ⟨_, rfl, sanitizeFormatTemplate_metadata u e⟩

theorem sanitizeField_other {u : Unicode} {key : List Char} (value : LogValue)
    (hshown : key.head? ≠ some '_') (hcolor : key ≠ colorField) :
    sanitizeField u key value = sanitizeValue u value (some key) := by
  unfold sanitizeField
  rw [if_neg hshown]
  cases value with
  | str s => exact if_neg hcolor
  | _ => rfl

theorem sanitizeField_color_str (u : Unicode) (s : List Char) :
    sanitizeField u colorField (.str s) = .str (sanitizeFormatTemplate u s) := rfl

theorem sanitizeField_color_other (u : Unicode) {value : LogValue} (h : ∀ s, value ≠ .str s) :
    sanitizeField u colorField value = sanitizeValue u value (some colorField) := by
  cases value with
  | str s => exact absurd rfl (h s)
  | _ => rfl

theorem sanitizeField_settled (u : Unicode) (key : List Char) (value : LogValue) :
    sanitizeField u key (sanitizeField u key value) = sanitizeField u key value ↔
      IsSettledField u key value := by
  by_cases hshown : key.head? = some '_'
  · have hsame (v : LogValue) : sanitizeField u key v = v := by
      unfold sanitizeField
      exact if_pos hshown
    rw [hsame, hsame, IsSettledField]
    exact ⟨fun _ => .inl hshown, fun _ => rfl⟩
  rw [IsSettledField, or_iff_right hshown]
  by_cases hcolor : key = colorField
  · rw [if_pos hcolor, hcolor]
    by_cases hstr : ∃ s, value = .str s
    · obtain ⟨s, rfl⟩ := hstr
      rw [sanitizeField_color_str, sanitizeField_color_str, LogValue.str.injEq,
        sanitizeFormatTemplate_settled]
      constructor
      · intro h
        exact ⟨s, rfl, h⟩
      · rintro ⟨s', heq, h⟩
        rwa [LogValue.str.inj heq]
    · obtain ⟨s, hs, hne⟩ := sanitizeValue_color u value
      rw [sanitizeField_color_other u (not_exists.mp hstr), hs, sanitizeField_color_str,
        LogValue.str.injEq]
      constructor
      · intro h
        exact absurd h hne
      · rintro ⟨s', heq, -⟩
        exact absurd ⟨s', heq⟩ hstr
  · rw [if_neg hcolor, sanitizeField_other value hshown hcolor,
      sanitizeField_other _ hshown hcolor]
    exact sanitizeValue_settled u value (some key)

/-- The arguments that are the same when they are sanitised again, or the message where there are
no arguments. -/
def IsSettledArgs (u : Unicode) (record : LogRecord) : Prop :=
  match record.args with
  | .mapping entries => ∀ entry ∈ entries, IsSettledValue u entry.2 (some entry.1)
  | .tuple [] => ∃ text, record.msg = .str text ∧ IsSettledEvent u text
  | .tuple values => ∀ (index : Nat) value, values[index]? = some value →
      IsSettledValue u value (placeholderFields u record.msg.text)[index]?.join

/-- The records that are the same when they are sanitised again. None with an exception is: the
message that names it is an event text the second time. -/
structure IsSettledRecord (u : Unicode) (record : LogRecord) : Prop where
  noException : record.excInfo = none
  args : IsSettledArgs u record
  extra : ∀ field ∈ record.extra, IsSettledField u field.1 field.2

/-- Whether the second and the third time leave the rendered message and the extra fields as the
first time left them. -/
def IsIdempotent (u : Unicode) (format : List Char → LogArgs → Option (List Char))
    (record : LogRecord) : Prop :=
  let once := sanitizeRecord u true record
  let twice := sanitizeRecord u true once
  let thrice := sanitizeRecord u true twice
  (getMessage format twice = getMessage format once ∧ twice.extra = once.extra) ∧
    getMessage format thrice = getMessage format once ∧ thrice.extra = once.extra

theorem sanitizeArgs_excInfo (u : Unicode) (record : LogRecord) :
    (sanitizeArgs u record).excInfo = record.excInfo := by
  unfold sanitizeArgs
  split <;> rfl

theorem sanitizeArgs_extra (u : Unicode) (record : LogRecord) :
    (sanitizeArgs u record).extra = record.extra := by
  unfold sanitizeArgs
  split <;> rfl

theorem sanitizeException_extra (u : Unicode) (record : LogRecord) :
    (sanitizeException u record).extra = record.extra := by
  unfold sanitizeException
  split <;> rfl

theorem sanitizeException_excInfo (u : Unicode) (record : LogRecord) :
    (sanitizeException u record).excInfo = none := by
  unfold sanitizeException
  split
  · assumption
  · rfl

theorem sanitizeRecord_force (u : Unicode) (record : LogRecord) :
    sanitizeRecord u true record =
      { sanitizeExtra u (sanitizeException u (sanitizeArgs u record)) with sanitized := true } := by
  rw [sanitizeRecord, Bool.not_true, Bool.and_false, if_neg Bool.false_ne_true]

theorem sanitizeRecord_extra (u : Unicode) (record : LogRecord) :
    (sanitizeRecord u true record).extra =
      record.extra.map fun field => (field.1, sanitizeField u field.1 field.2) := by
  rw [sanitizeRecord_force]
  show (sanitizeException u (sanitizeArgs u record)).extra.map _ = _
  rw [sanitizeException_extra, sanitizeArgs_extra]

theorem sanitizeRecord_excInfo (u : Unicode) (record : LogRecord) :
    (sanitizeRecord u true record).excInfo = none := by
  rw [sanitizeRecord_force]
  exact sanitizeException_excInfo u (sanitizeArgs u record)

theorem sanitizeRecord_shown {u : Unicode} {record : LogRecord} (h : record.excInfo = none) :
    (sanitizeRecord u true record).msg = (sanitizeArgs u record).msg ∧
      (sanitizeRecord u true record).args = (sanitizeArgs u record).args := by
  rw [← sanitizeArgs_excInfo u record] at h
  rw [sanitizeRecord_force, sanitizeException, h]
  exact ⟨rfl, rfl⟩

theorem extra_settled (u : Unicode) (record : LogRecord) :
    (sanitizeRecord u true (sanitizeRecord u true record)).extra =
        (sanitizeRecord u true record).extra ↔
      ∀ field ∈ record.extra, IsSettledField u field.1 field.2 := by
  rw [sanitizeRecord_extra, sanitizeRecord_extra, List.map_map, List.map_inj_left]
  refine forall₂_congr fun field _ => ?_
  rw [← sanitizeField_settled, Function.comp_apply, Prod.mk.injEq]
  exact and_iff_right rfl

theorem getMessage_formatted {record : LogRecord} (htuple : record.args ≠ .tuple [])
    (hmapping : record.args ≠ .mapping []) (format : List Char → LogArgs → Option (List Char)) :
    getMessage format record = format record.msg.text record.args := by
  unfold getMessage
  split
  · contradiction
  · contradiction
  · rfl

theorem getMessage_text {record : LogRecord} {s : List Char} (hmsg : record.msg = .str s)
    (hargs : record.args = .tuple []) (format : List Char → LogArgs → Option (List Char)) :
    getMessage format record = some s := by
  rw [getMessage, hargs, hmsg, LogValue.text]

theorem getMessage_congr {record record' : LogRecord} (hmsg : record'.msg = record.msg)
    (hargs : record'.args = record.args) (format : List Char → LogArgs → Option (List Char)) :
    getMessage format record' = getMessage format record := by
  rw [getMessage, getMessage, hmsg, hargs]

/-- Some way of rendering tells different arguments apart. -/
theorem getMessage_eq_iff {record record' : LogRecord} (hmsg : record'.msg = record.msg)
    (hargs : record.args ≠ .tuple [] ∧ record.args ≠ .mapping [])
    (hargs' : record'.args ≠ .tuple [] ∧ record'.args ≠ .mapping []) :
    (∀ format, getMessage format record' = getMessage format record) ↔
      record'.args = record.args := by
  constructor
  · intro h
    have hformat := h fun _ args => if args = record.args then some [] else none
    rw [getMessage_formatted hargs.1 hargs.2, getMessage_formatted hargs'.1 hargs'.2,
      if_pos rfl] at hformat
    by_contra hne
    rw [if_neg hne] at hformat
    cases hformat
  · intro h format
    exact getMessage_congr hmsg h format

theorem sanitizeArgs_mapping {u : Unicode} {record : LogRecord}
    {entries : List (List Char × LogValue)} (h : record.args = .mapping entries) :
    (sanitizeArgs u record).msg = record.msg ∧ (sanitizeArgs u record).args =
      .mapping (entries.map fun entry => (entry.1, sanitizeValue u entry.2 (some entry.1))) := by
  rw [sanitizeArgs, h]
  exact ⟨rfl, rfl⟩

theorem sanitizeArgs_message {u : Unicode} {record : LogRecord} (h : record.args = .tuple []) :
    (sanitizeArgs u record).msg = .str (sanitizeFreeform u record.msg) ∧
      (sanitizeArgs u record).args = .tuple [] := by
  rw [sanitizeArgs, h]
  exact ⟨rfl, rfl⟩

theorem sanitizeArgs_tuple {u : Unicode} {record : LogRecord} {values : List LogValue}
    (h : record.args = .tuple values) (hne : values ≠ []) :
    (sanitizeArgs u record).msg = record.msg ∧
      (sanitizeArgs u record).args = .tuple (sanitizeTuple u record.msg.text values) := by
  obtain ⟨value, rest, rfl⟩ := List.exists_cons_of_ne_nil hne
  rw [sanitizeArgs, h]
  exact ⟨rfl, rfl⟩

theorem sanitizeTuple_ne_nil {u : Unicode} {template : List Char} {values : List LogValue}
    (h : values ≠ []) : sanitizeTuple u template values ≠ [] := by
  rw [sanitizeTuple, Ne, List.mapIdx_eq_nil_iff]
  exact h

theorem sanitizeTuple_settled (u : Unicode) (template : List Char) (values : List LogValue) :
    sanitizeTuple u template (sanitizeTuple u template values) =
        sanitizeTuple u template values ↔
      ∀ (index : Nat) value, values[index]? = some value →
        IsSettledValue u value (placeholderFields u template)[index]?.join := by
  rw [List.ext_getElem?_iff]
  refine forall_congr' fun index => ?_
  rw [sanitizeTuple, sanitizeTuple, List.getElem?_mapIdx, List.getElem?_mapIdx]
  cases values[index]? with
  | none => simp
  | some value =>
    rw [Option.map_some, Option.map_some, Option.some.injEq, sanitizeValue_settled]
    exact ⟨fun h _ heq => Option.some.inj heq ▸ h, fun h => h value rfl⟩

theorem isSettledArgs_tuple {u : Unicode} {record : LogRecord} {values : List LogValue}
    (h : record.args = .tuple values) (hne : values ≠ []) :
    IsSettledArgs u record ↔ sanitizeTuple u record.msg.text
        (sanitizeTuple u record.msg.text values) = sanitizeTuple u record.msg.text values := by
  obtain ⟨value, rest, rfl⟩ := List.exists_cons_of_ne_nil hne
  rw [IsSettledArgs, h, sanitizeTuple_settled]

theorem isSettledArgs_mapping {u : Unicode} {record : LogRecord}
    {entries : List (List Char × LogValue)} (h : record.args = .mapping entries) :
    IsSettledArgs u record ↔
      entries.map ((fun entry => (entry.1, sanitizeValue u entry.2 (some entry.1))) ∘
          fun entry => (entry.1, sanitizeValue u entry.2 (some entry.1))) =
        entries.map fun entry => (entry.1, sanitizeValue u entry.2 (some entry.1)) := by
  rw [IsSettledArgs, h, List.map_inj_left]
  refine forall₂_congr fun entry _ => ?_
  rw [← sanitizeValue_settled, Function.comp_apply, Prod.mk.injEq]
  exact (and_iff_right rfl).symm

/-- Settled arguments are those that leave the message and themselves as they are. -/
theorem shown_settled {u : Unicode} {record : LogRecord} (h : record.excInfo = none) :
    ((sanitizeRecord u true (sanitizeRecord u true record)).msg =
          (sanitizeRecord u true record).msg ∧
        (sanitizeRecord u true (sanitizeRecord u true record)).args =
          (sanitizeRecord u true record).args) ↔ IsSettledArgs u record := by
  obtain ⟨hmsg, hargs⟩ := sanitizeRecord_shown (u := u) h
  obtain ⟨hmsg', hargs'⟩ := sanitizeRecord_shown (u := u) (sanitizeRecord_excInfo u record)
  cases hkind : record.args with
  | mapping entries =>
    obtain ⟨hm, ha⟩ := sanitizeArgs_mapping (u := u) hkind
    rw [ha] at hargs
    obtain ⟨hm', ha'⟩ := sanitizeArgs_mapping (u := u) hargs
    rw [hmsg', hm', hargs', ha', hargs, List.map_map, LogArgs.mapping.injEq,
      isSettledArgs_mapping hkind]
    exact and_iff_right rfl
  | tuple values =>
    by_cases hempty : values = []
    · rw [hempty] at hkind
      obtain ⟨hm, ha⟩ := sanitizeArgs_message (u := u) hkind
      rw [ha] at hargs
      obtain ⟨hm', ha'⟩ := sanitizeArgs_message (u := u) hargs
      rw [hmsg', hm', hargs', ha', hargs, hmsg, hm, LogValue.str.injEq,
        sanitizeFreeform_settled, IsSettledArgs, hkind]
      exact and_iff_left rfl
    · obtain ⟨hm, ha⟩ := sanitizeArgs_tuple (u := u) hkind hempty
      rw [ha] at hargs
      obtain ⟨hm', ha'⟩ := sanitizeArgs_tuple (u := u) hargs (sanitizeTuple_ne_nil hempty)
      rw [hmsg', hm', hargs', ha', hargs, hmsg, hm, LogArgs.tuple.injEq,
        isSettledArgs_tuple hkind hempty]
      exact and_iff_right rfl

theorem rendered_iff {u : Unicode} {record : LogRecord} (h : record.excInfo = none)
    (hstr : record.args = .tuple [] → ∃ s, record.msg = .str s) :
    (∀ format, getMessage format (sanitizeRecord u true record) = getMessage format record) ↔
      (sanitizeRecord u true record).msg = record.msg ∧
        (sanitizeRecord u true record).args = record.args := by
  obtain ⟨hmsg, hargs⟩ := sanitizeRecord_shown (u := u) h
  refine ⟨fun hformat => ?_, fun heq => getMessage_congr heq.1 heq.2⟩
  cases hkind : record.args with
  | mapping entries =>
    obtain ⟨hm, ha⟩ := sanitizeArgs_mapping (u := u) hkind
    rw [hm] at hmsg
    rw [ha] at hargs
    refine ⟨hmsg, ?_⟩
    by_cases hempty : entries = []
    · rw [hargs, hempty, List.map_nil]
    · rw [← hkind]
      refine (getMessage_eq_iff hmsg ?_ ?_).mp hformat
      · rw [hkind]
        simpa using hempty
      · rw [hargs]
        simpa using hempty
  | tuple values =>
    by_cases hempty : values = []
    · rw [hempty] at hkind
      obtain ⟨s, hs⟩ := hstr hkind
      obtain ⟨hm, ha⟩ := sanitizeArgs_message (u := u) hkind
      rw [hm] at hmsg
      rw [ha] at hargs
      have htext := hformat fun _ _ => none
      rw [getMessage_text hmsg hargs, getMessage_text hs hkind] at htext
      rw [hmsg, hargs, hempty, Option.some.inj htext, hs]
      exact ⟨rfl, rfl⟩
    · obtain ⟨hm, ha⟩ := sanitizeArgs_tuple (u := u) hkind hempty
      rw [hm] at hmsg
      rw [ha] at hargs
      have hne : sanitizeTuple u record.msg.text values ≠ [] := sanitizeTuple_ne_nil hempty
      refine ⟨hmsg, hkind ▸ (getMessage_eq_iff hmsg ?_ ?_).mp hformat⟩
      · rw [hkind]
        simpa using hempty
      · rw [hargs]
        simpa using hne

theorem sanitizeRecord_text {u : Unicode} {record : LogRecord} (h : record.excInfo = none)
    (hargs : (sanitizeRecord u true record).args = .tuple []) :
    ∃ s, (sanitizeRecord u true record).msg = .str s := by
  obtain ⟨hmsg, hargs'⟩ := sanitizeRecord_shown (u := u) h
  rw [hargs'] at hargs
  rw [hmsg]
  cases hkind : record.args with
  | mapping entries =>
    rw [(sanitizeArgs_mapping hkind).2] at hargs
    cases hargs
  | tuple values =>
    by_cases hempty : values = []
    · rw [hempty] at hkind
      exact ⟨_, (sanitizeArgs_message hkind).1⟩
    · rw [(sanitizeArgs_tuple hkind hempty).2, LogArgs.tuple.injEq] at hargs
      exact absurd hargs (sanitizeTuple_ne_nil hempty)

theorem metadata_length (u : Unicode) (e : Option LogException) :
    30 ≤ (exceptionMetadata u e).length := by
  have htype : typeLabel.length = 15 := rfl
  have hclass : classLabel.length = 15 := rfl
  cases e with
  | none =>
    rw [exceptionMetadata, List.length_append, List.length_append, List.length_append]
    omega
  | some e =>
    rw [exceptionMetadata, List.length_append, List.length_append, List.length_append]
    omega

theorem metadata_marked (u : Unicode) (e : Option LogException) : '=' ∈ exceptionMetadata u e := by
  have hlabel : '=' ∈ typeLabel := by decide
  cases e with
  | none => exact List.mem_append_left _ (List.mem_append_left _ (List.mem_append_left _ hlabel))
  | some e => exact List.mem_append_left _ (List.mem_append_left _ (List.mem_append_left _ hlabel))

theorem sanitizeRecord_exception {u : Unicode} {record : LogRecord} {e : Option LogException}
    (h : record.excInfo = some e) :
    (sanitizeRecord u true record).msg =
        .str ((sanitizeArgs u record).msg.text ++ ' ' :: exceptionMetadata u e) ∧
      (sanitizeRecord u true record).args = .tuple [] := by
  rw [← sanitizeArgs_excInfo u record] at h
  rw [sanitizeRecord_force, sanitizeException, h]
  exact ⟨rfl, rfl⟩

/-- The message of an exception is longer than a text that reports its own length. -/
theorem rendered_exception (u : Unicode) {record : LogRecord} {e : Option LogException}
    (h : record.excInfo = some e) (format : List Char → LogArgs → Option (List Char)) :
    getMessage format (sanitizeRecord u true (sanitizeRecord u true record)) ≠
      getMessage format (sanitizeRecord u true record) := by
  obtain ⟨hmsg, hargs⟩ := sanitizeRecord_exception (u := u) h
  obtain ⟨hmsg', hargs'⟩ := sanitizeRecord_shown (u := u) (sanitizeRecord_excInfo u record)
  obtain ⟨hm, ha⟩ := sanitizeArgs_message (u := u) hargs
  have hlong := metadata_length u e
  have hin : '=' ∈ (sanitizeArgs u record).msg.text ++ ' ' :: exceptionMetadata u e :=
    List.mem_append_right _ (List.mem_cons_of_mem _ (metadata_marked u e))
  rw [hm, hmsg, sanitizeFreeform, sanitizeFreeformText_marked u rfl hin] at hmsg'
  rw [ha] at hargs'
  rw [getMessage_text hmsg hargs, getMessage_text hmsg' hargs', Ne, Option.some.injEq]
  intro heq
  have hsize := congrArg List.length heq
  rw [eventSummary_length, size_fixed (by decide) (by decide),
    List.length_append, List.length_cons] at hsize
  omega

theorem sanitizeArgs_congr (u : Unicode) {record record' : LogRecord}
    (hmsg : record'.msg = record.msg) (hargs : record'.args = record.args) :
    (sanitizeArgs u record').msg = (sanitizeArgs u record).msg ∧
      (sanitizeArgs u record').args = (sanitizeArgs u record).args := by
  unfold sanitizeArgs
  rw [hargs, hmsg]
  split <;> exact ⟨rfl, rfl⟩

/-- What the second time leaves, the third time leaves. -/
theorem sanitizeRecord_third {u : Unicode} {record : LogRecord} (h : IsSettledRecord u record) :
    (sanitizeRecord u true (sanitizeRecord u true (sanitizeRecord u true record))).msg =
        (sanitizeRecord u true record).msg ∧
      (sanitizeRecord u true (sanitizeRecord u true (sanitizeRecord u true record))).args =
        (sanitizeRecord u true record).args ∧
      (sanitizeRecord u true (sanitizeRecord u true (sanitizeRecord u true record))).extra =
        (sanitizeRecord u true record).extra := by
  obtain ⟨hmsg, hargs⟩ := (shown_settled (u := u) h.noException).mpr h.args
  have hextra := (extra_settled u record).mpr h.extra
  obtain ⟨hmsg', hargs'⟩ := sanitizeArgs_congr u hmsg hargs
  have honce := sanitizeRecord_shown (u := u) (sanitizeRecord_excInfo u record)
  have htwice := sanitizeRecord_shown (u := u)
    (sanitizeRecord_excInfo u (sanitizeRecord u true record))
  refine ⟨?_, ?_, ?_⟩
  · rw [htwice.1, hmsg', ← honce.1, hmsg]
  · rw [htwice.2, hargs', ← honce.2, hargs]
  · rw [sanitizeRecord_extra, hextra, ← sanitizeRecord_extra, hextra]

/-- A record is the same the second and the third time, however it is rendered, where no exception
is in it and its message, its arguments and its extra fields are settled. -/
theorem sanitizeRecord_idempotent (u : Unicode) (record : LogRecord) :
    (∀ format, IsIdempotent u format record) ↔ IsSettledRecord u record := by
  constructor
  · intro h
    have hnone : record.excInfo = none := by
      cases hexc : record.excInfo with
      | none => rfl
      | some e => exact absurd (h fun _ _ => none).1.1 (rendered_exception u hexc _)
    have hrendered := (rendered_iff (sanitizeRecord_excInfo u record)
      (sanitizeRecord_text hnone)).mp fun format => (h format).1.1
    exact ⟨hnone, (shown_settled hnone).mp hrendered,
      (extra_settled u record).mp (h fun _ _ => none).1.2⟩
  · intro h format
    obtain ⟨hmsg, hargs⟩ := (shown_settled (u := u) h.noException).mpr h.args
    obtain ⟨hmsg', hargs', hextra'⟩ := sanitizeRecord_third h
    exact ⟨⟨getMessage_congr hmsg hargs format, (extra_settled u record).mpr h.extra⟩,
      getMessage_congr hmsg' hargs' format, hextra'⟩

/-- The letters of ASCII alone. -/
def asciiOnly : Unicode where
  lower s := s.map Char.toLower
  lower_mem := by
    intro s c hc hsmall hletter
    obtain ⟨d, hd, rfl⟩ := List.mem_map.mp hc
    cases Text.toLower_cases d with
    | inl hsame => rwa [hsame]
    | inr hlow =>
      rw [Text.isAlpha_eq, (Text.isLower_iff _).mpr hlow, Bool.or_true] at hletter
      cases hletter
  lower_ascii s _ := rfl
  lower_take s n := by
    rw [← List.map_take, List.map_map]
    exact List.map_congr_left fun c _ => Text.toLower_toLower c
  isWord c := c.isAlphanum || c = '_'
  netlocChar _ := true
  netlocChar_ascii _ _ := rfl
  netlocChar_lower s _ := by simp
  addressValid _ := true

/-- A failure that is logged with its exception. -/
def failureRecord : LogRecord where
  msg := .str "generation.failed".toList
  args := .tuple []
  excInfo := some (some ⟨"TimeoutError".toList, []⟩)
  excText := .none
  stackInfo := .none
  extra := []
  sanitized := false

/-- The second time takes the metadata of the exception away. There are no arguments to render. -/
theorem failureRecord_lost :
    getMessage (fun _ _ => none) (sanitizeRecord asciiOnly true failureRecord) =
        some "generation.failed exception_type=TimeoutError failure_class=timeout".toList ∧
      getMessage (fun _ _ => none) (sanitizeRecord asciiOnly true
          (sanitizeRecord asciiOnly true failureRecord)) =
        some "log_event=<redacted> chars=67".toList ∧
      ¬ IsIdempotent asciiOnly (fun _ _ => none) failureRecord := by
  have honce : (sanitizeRecord asciiOnly true failureRecord).msg = .str
      "generation.failed exception_type=TimeoutError failure_class=timeout".toList := by
    decide +kernel
  have htwice : (sanitizeRecord asciiOnly true (sanitizeRecord asciiOnly true failureRecord)).msg =
      .str "log_event=<redacted> chars=67".toList := by decide +kernel
  have hargs : (sanitizeRecord asciiOnly true failureRecord).args = .tuple [] := by decide +kernel
  have hargs' : (sanitizeRecord asciiOnly true
      (sanitizeRecord asciiOnly true failureRecord)).args = .tuple [] := by decide +kernel
  have hshown := getMessage_text honce hargs fun _ _ => none
  have hshown' := getMessage_text htwice hargs' fun _ _ => none
  refine ⟨hshown, hshown', fun h => ?_⟩
  have heq := hshown'.symm.trans (h.1.1.trans hshown)
  exact absurd heq (by decide +kernel)

end Whooshd.LogSafety
