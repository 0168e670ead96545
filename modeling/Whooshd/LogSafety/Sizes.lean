import Whooshd.LogSafety.Record

set_option autoImplicit true

namespace Whooshd.LogSafety

theorem decimal_eq (n : Nat) : decimal n = Nat.toDigits 10 n := Nat.toList_repr

theorem decimal_inj {m n : Nat} (h : decimal m = decimal n) : m = n := by
  rw [decimal_eq, decimal_eq] at h
  rw [← @Nat.ofDigitChars_ten_toDigits m, h, Nat.ofDigitChars_ten_toDigits]

theorem decimal_length_le {n k : Nat} (hk : 0 < k) : (decimal n).length ≤ k ↔ n < 10 ^ k := by
  rw [decimal_eq, Nat.length_toDigits_le_iff (by decide) hk]

theorem digitChar_of_isDigit {c : Char} (h : c.isDigit = true) :
    c.toNat - '0'.toNat < 10 ∧ (c.toNat - '0'.toNat).digitChar = c := by
  have hrange : 48 ≤ c.toNat ∧ c.toNat ≤ 57 := by
    rw [Char.isDigit, Bool.and_eq_true, decide_eq_true_eq, decide_eq_true_eq] at h
    exact h
  have hzero : '0'.toNat = 48 := rfl
  refine ⟨by omega, Char.toNat_inj.mp ?_⟩
  rw [Nat.toNat_digitChar_of_lt_ten (by omega)]
  omega

/-- Digits behind a number that is not zero are read on to the number that shows them. -/
theorem decimal_append {n : Nat} (hn : 0 < n) {digits : List Char}
    (h : ∀ c ∈ digits, c.isDigit = true) :
    decimal (Nat.ofDigitChars 10 digits n) = decimal n ++ digits := by
  rw [decimal_eq, decimal_eq]
  induction digits generalizing n with
  | nil => simp
  | cons c digits ih =>
    obtain ⟨hlt, hchar⟩ := digitChar_of_isDigit (h c List.mem_cons_self)
    have hstep := Nat.toDigits_append_toDigits (b := 10) (by decide) hn hlt
    rw [Nat.toDigits_of_lt_base hlt, hchar] at hstep
    rw [Nat.ofDigitChars_cons, ih (by omega) fun d hd => h d (List.mem_cons_of_mem c hd), ← hstep,
      List.append_assoc, List.singleton_append]

theorem ofDigitChars_lt {digits : List Char} (h : ∀ c ∈ digits, c.isDigit = true) (n : Nat) :
    Nat.ofDigitChars 10 digits n < (n + 1) * 10 ^ digits.length := by
  induction digits generalizing n with
  | nil => simp
  | cons c digits ih =>
    obtain ⟨hlt, -⟩ := digitChar_of_isDigit (h c List.mem_cons_self)
    rw [Nat.ofDigitChars_cons]
    calc Nat.ofDigitChars 10 digits (10 * n + (c.toNat - '0'.toNat))
        < (10 * n + (c.toNat - '0'.toNat) + 1) * 10 ^ digits.length :=
          ih (fun d hd => h d (List.mem_cons_of_mem c hd)) _
      _ ≤ (10 * (n + 1)) * 10 ^ digits.length := Nat.mul_le_mul_right _ (by omega)
      _ = (n + 1) * 10 ^ (c :: digits).length := by
          rw [List.length_cons, Nat.pow_succ', Nat.mul_comm 10 (n + 1), Nat.mul_assoc]

/-- Digits show a number, or a shorter text does. -/
theorem decimal_ofDigitChars {digits : List Char} (h : ∀ c ∈ digits, c.isDigit = true)
    (hne : digits ≠ []) : decimal (Nat.ofDigitChars 10 digits 0) = digits ∨
      (decimal (Nat.ofDigitChars 10 digits 0)).length < digits.length := by
  cases digits with
  | nil => exact absurd rfl hne
  | cons c digits =>
    have hrest : ∀ d ∈ digits, d.isDigit = true := fun d hd => h d (List.mem_cons_of_mem c hd)
    obtain ⟨hlt, hchar⟩ := digitChar_of_isDigit (h c List.mem_cons_self)
    rw [Nat.ofDigitChars_cons, Nat.mul_zero, Nat.zero_add]
    by_cases hzero : c.toNat - '0'.toNat = 0
    · rw [hzero] at hchar ⊢
      cases digits with
      | nil =>
        left
        rw [← hchar]
        rfl
      | cons d digits =>
        right
        have hsmall := ofDigitChars_lt hrest 0
        rw [Nat.zero_add, Nat.one_mul] at hsmall
        have hlen := (decimal_length_le (by simp)).mpr hsmall
        exact Nat.lt_succ_of_le hlen
    · left
      rw [decimal_append (Nat.pos_of_ne_zero hzero) hrest, decimal_eq, Nat.toDigits_of_lt_base hlt,
        hchar, List.singleton_append]

theorem size_fixed {base n : Nat} (hlow : 10 ≤ base) (hhigh : base ≤ 27) :
    base + (decimal n).length = n ↔ n = base + 2 := by
  have hpos : 0 < (decimal n).length := by
    rw [decimal_eq]
    exact Nat.length_toDigits_pos
  have hone := @decimal_length_le n 1 (by decide)
  have htwo := @decimal_length_le n 2 (by decide)
  constructor
  · intro h
    by_cases hn : n < 100
    · have hlen := htwo.mpr (by omega)
      by_cases hsmall : n < 10
      · have hlen' := hone.mpr (by omega)
        omega
      · have hlen' := mt hone.mp (by omega)
        omega
    · have hlong : n < 10 ^ (n - base - 1) := by
        obtain ⟨k, hk⟩ : ∃ k, n - base - 1 = k + 2 := ⟨n - base - 3, by omega⟩
        have hgrow : k < 10 ^ k := Nat.lt_pow_self (by decide)
        have hsize : n < 100 * (k + 1) := by omega
        calc n < 100 * (k + 1) := hsize
          _ ≤ 100 * 10 ^ k := Nat.mul_le_mul_left 100 hgrow
          _ = 10 ^ (n - base - 1) := by rw [hk, Nat.pow_add, Nat.mul_comm]
      have hlen := (decimal_length_le (by omega)).mpr hlong
      omega
  · intro h
    have hlen := htwo.mpr (by omega)
    have hlen' := mt hone.mp (by omega)
    omega

/-- The text that reports its own length. -/
def settledSummary : List Char := redacted ++ charsLabel ++ ['1', '9']

theorem summary_head (v : LogValue) : ∃ rest, summary v = '<' :: rest := by
  cases v <;> exact ⟨_, rfl⟩

theorem summary_str_length (s : List Char) :
    (summary (.str s)).length = 17 + (decimal s.length).length := by
  have hlabel : (redacted ++ charsLabel).length = 17 := rfl
  rw [summary, List.length_append, hlabel]

theorem summary_str_inj {s t : List Char} (h : summary (.str s) = summary (.str t)) :
    s.length = t.length := by
  rw [summary, summary, List.append_cancel_left_eq] at h
  exact decimal_inj h

/-- A summary of a text is the summary of that summary when it has the length it reports. -/
theorem summary_summary (s : List Char) :
    summary (.str (summary (.str s))) = summary (.str s) ↔ s.length = 19 := by
  have hsize := @size_fixed 17 s.length (by decide) (by decide)
  rw [← hsize, ← summary_str_length]
  constructor
  · exact summary_str_inj
  · intro h
    rw [summary, h, summary]

theorem eventSummary_length (n : Nat) : (eventSummary n).length = 27 + (decimal n).length := by
  have hlabel : (eventLabel ++ redacted ++ charsLabel).length = 27 := rfl
  rw [eventSummary, List.length_append, hlabel]

theorem eventSummary_inj {m n : Nat} (h : eventSummary m = eventSummary n) : m = n := by
  rw [eventSummary, eventSummary, List.append_cancel_left_eq] at h
  exact decimal_inj h

theorem eventSummary_fixed (n : Nat) : eventSummary (eventSummary n).length = eventSummary n ↔
    n = 29 := by
  have hsize := @size_fixed 27 n (by decide) (by decide)
  rw [← hsize, ← eventSummary_length]
  exact ⟨eventSummary_inj, congrArg eventSummary⟩

theorem summary_unfixed {v : LogValue} {t : List Char} (hv : summary v = redacted ++ t)
    (ht : ∀ rest, t ≠ charsLabel ++ rest) : summary (.str (summary v)) ≠ summary v := by
  intro heq
  rw [hv, summary, List.append_assoc, List.append_cancel_left_eq] at heq
  exact ht _ heq.symm

theorem summary_fixed (v : LogValue) : summary (.str (summary v)) = summary v ↔
    ∃ s, v = .str s ∧ s.length = 19 := by
  have hbytes : ∀ n rest, bytesLabel ++ decimal n ≠ charsLabel ++ rest := by
    simp [bytesLabel, charsLabel]
  have hitems : ∀ n rest, itemsLabel ++ decimal n ≠ charsLabel ++ rest := by
    simp [itemsLabel, charsLabel]
  cases v with
  | str s =>
    rw [summary_summary]
    simp
  | bytes size text =>
    simpa using summary_unfixed (v := .bytes size text) (List.append_assoc _ _ _) (hbytes size)
  | memoryview size text =>
    simpa using summary_unfixed (v := .memoryview size text) (List.append_assoc _ _ _) (hbytes size)
  | mapping size text =>
    simpa using summary_unfixed (v := .mapping size text) (List.append_assoc _ _ _) (hitems size)
  | sequence size text =>
    simpa using summary_unfixed (v := .sequence size text) (List.append_assoc _ _ _) (hitems size)
  | none => simpa using summary_unfixed (v := .none) (List.append_nil _).symm (by simp [charsLabel])
  | bool b =>
    simpa using summary_unfixed (v := .bool b) (List.append_nil _).symm (by simp [charsLabel])
  | int n =>
    simpa using summary_unfixed (v := .int n) (List.append_nil _).symm (by simp [charsLabel])
  | float text =>
    simpa using summary_unfixed (v := .float text) (List.append_nil _).symm (by simp [charsLabel])
  | exception e =>
    simpa using summary_unfixed (v := .exception e) (List.append_nil _).symm (by simp [charsLabel])
  | other text =>
    simpa using summary_unfixed (v := .other text) (List.append_nil _).symm (by simp [charsLabel])

end Whooshd.LogSafety
