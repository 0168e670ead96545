import Mathlib.Data.List.Basic
import Mathlib.Order.Basic
import Whooshd.Library.Text

set_option autoImplicit true

namespace CommonPrefix

/-- The number of elements at the beginning of two lists that are equal. -/
def length [DecidableEq α] (a b : List α) : Nat :=
  ((a.zip b).takeWhile fun p => p.1 = p.2).length

variable [DecidableEq α] {a b c : List α} {m : Nat}

@[simp] theorem length_nil_left (b : List α) : length [] b = 0 := rfl

@[simp] theorem length_nil_right (a : List α) : length a [] = 0 := by
  rw [length, List.zip_nil_right]
  rfl

theorem length_cons (x y : α) (a b : List α) :
    length (x :: a) (y :: b) = if x = y then length a b + 1 else 0 := by
  rw [length, List.zip_cons_cons, List.takeWhile_cons]
  by_cases h : x = y
  · simp [h, length]
  · simp [h]

theorem le_length_iff :
    m ≤ length a b ↔ m ≤ a.length ∧ m ≤ b.length ∧ a.take m = b.take m := by
  induction a generalizing b m with
  | nil =>
    rw [length_nil_left, List.length_nil]
    constructor
    · intro h
      obtain rfl := Nat.le_zero.mp h
      exact ⟨Nat.le_refl 0, Nat.zero_le _, rfl⟩
    · exact fun h => h.1
  | cons x a ih =>
    cases b with
    | nil =>
      rw [length_nil_right, List.length_nil]
      constructor
      · intro h
        obtain rfl := Nat.le_zero.mp h
        exact ⟨Nat.zero_le _, Nat.le_refl 0, rfl⟩
      · exact fun h => h.2.1
    | cons y b =>
      rw [length_cons]
      cases m with
      | zero => simp
      | succ m =>
        by_cases h : x = y
        · simp [h, ih]
        · simp [h]

theorem length_comm (a b : List α) : length a b = length b a := by
  apply Nat.le_antisymm
  · obtain ⟨ha, hb, heq⟩ := le_length_iff.mp (Nat.le_refl (length a b))
    exact le_length_iff.mpr ⟨hb, ha, heq.symm⟩
  · obtain ⟨hb, ha, heq⟩ := le_length_iff.mp (Nat.le_refl (length b a))
    exact le_length_iff.mpr ⟨ha, hb, heq.symm⟩

theorem length_trans (a b c : List α) : min (length a b) (length b c) ≤ length a c := by
  obtain ⟨ha, -, hab⟩ := le_length_iff.mp (Nat.min_le_left (length a b) (length b c))
  obtain ⟨-, hc, hbc⟩ := le_length_iff.mp (Nat.min_le_right (length a b) (length b c))
  exact le_length_iff.mpr ⟨ha, hc, hab.trans hbc⟩

theorem length_pos_iff : 0 < length a b ↔ ∃ x a' b', a = x :: a' ∧ b = x :: b' := by
  cases a with
  | nil => simp
  | cons x a =>
    cases b with
    | nil => simp
    | cons y b =>
      rw [length_cons]
      by_cases h : x = y
      · simp [h]
      · simp [h, Ne.symm h]

theorem getElem?_length : a[length a b]? = b[length a b]? ↔ a = b := by
  induction a generalizing b with
  | nil =>
    cases b with
    | nil => simp
    | cons y b => simp
  | cons x a ih =>
    cases b with
    | nil => simp
    | cons y b =>
      rw [length_cons]
      by_cases h : x = y
      · simp [h, ih]
      · simp [h]

theorem length_lt_max_iff : length a b < max a.length b.length ↔ a ≠ b := by
  obtain ⟨ha, hb, -⟩ := le_length_iff.mp (Nat.le_refl (length a b))
  have hend := getElem?_length (a := a) (b := b)
  rw [← not_iff_not, not_lt, ne_eq, not_not, max_le_iff, ← hend]
  constructor
  · rintro ⟨ha', hb'⟩
    rw [List.getElem?_eq_none ha', List.getElem?_eq_none hb']
  · intro hsame
    by_cases h : length a b < a.length
    · exfalso
      have hb' : length a b < b.length := by
        rw [List.getElem?_eq_getElem h] at hsame
        exact (List.getElem?_eq_some_iff.mp hsame.symm).1
      have hmore : length a b + 1 ≤ length a b := by
        obtain ⟨-, -, htake⟩ := le_length_iff.mp (Nat.le_refl (length a b))
        refine le_length_iff.mpr ⟨h, hb', ?_⟩
        rw [List.take_add_one, List.take_add_one, htake, hsame]
      omega
    · rw [List.getElem?_eq_none (Nat.not_lt.mp h)] at hsame
      exact ⟨Nat.not_lt.mp h, List.getElem?_eq_none_iff.mp hsame.symm⟩

end CommonPrefix

namespace Text

theorem repr_toList (n : Nat) : (Nat.repr n).toList = Nat.toDigits 10 n := by
  rw [Nat.repr, String.toList_ofList]

theorem repr_injective {m n : Nat} (h : Nat.repr m = Nat.repr n) : m = n := by
  have hdigits := congrArg (fun s => Nat.ofDigitChars 10 s.toList 0) h
  simpa only [repr_toList, Nat.ofDigitChars_ten_toDigits] using hdigits

theorem isDigit_repr {n : Nat} {c : Char} (h : c ∈ (Nat.repr n).toList) : c.isDigit = true := by
  rw [repr_toList] at h
  exact Nat.isDigit_of_mem_toDigits (by decide) (by decide) h

theorem mem_toString_int {n : Int} {c : Char} (h : c ∈ (toString n).toList) :
    c = '-' ∨ c.isDigit = true := by
  cases n with
  | ofNat m => exact .inr (isDigit_repr h)
  | negSucc m =>
    have hsign : (toString (Int.negSucc m)).toList = '-' :: (Nat.repr (m + 1)).toList := by
      change ("-" ++ Nat.repr (m + 1)).toList = _
      rw [String.toList_append]
      rfl
    rw [hsign] at h
    exact (List.mem_cons.mp h).imp_right isDigit_repr

theorem toString_int_injective {m n : Int} (h : toString m = toString n) : m = n := by
  have hneg (k l : Nat) : Nat.repr k ≠ "-" ++ Nat.repr (l + 1) := by
    intro heq
    have hmem : '-' ∈ (Nat.repr k).toList := by
      rw [heq, String.toList_append]
      exact List.mem_cons_self
    exact absurd (isDigit_repr hmem) (by decide)
  cases m with
  | ofNat k =>
    cases n with
    | ofNat l => exact congrArg Int.ofNat (repr_injective h)
    | negSucc l => exact absurd h (hneg k l)
  | negSucc k =>
    cases n with
    | ofNat l => exact absurd h.symm (hneg l k)
    | negSucc l =>
      have hrepr := (String.append_right_inj "-").mp h
      rw [Nat.succ.inj (repr_injective hrepr)]

theorem separator_cancel {c : Char} {u v x y : List Char} (hu : c ∉ u) (hv : c ∉ v)
    (h : u ++ c :: x = v ++ c :: y) : u = v ∧ x = y := by
  induction u generalizing v with
  | nil =>
    cases v with
    | nil => exact ⟨rfl, (List.cons.inj h).2⟩
    | cons d v => exact absurd ((List.cons.inj h).1 ▸ List.mem_cons_self) hv
  | cons d u ih =>
    cases v with
    | nil => exact absurd ((List.cons.inj h).1.symm ▸ List.mem_cons_self) hu
    | cons e v =>
      obtain ⟨rfl, hrest⟩ := List.cons.inj h
      rw [List.mem_cons, not_or] at hu hv
      obtain ⟨rfl, hxy⟩ := ih hu.2 hv.2 hrest
      exact ⟨rfl, hxy⟩

theorem intercalate_injective {c : Char} {parts parts' : List String} (hne : parts ≠ [])
    (hne' : parts' ≠ []) (h : ∀ part ∈ parts, c ∉ part.toList)
    (h' : ∀ part ∈ parts', c ∉ part.toList)
    (heq : (String.singleton c).intercalate parts = (String.singleton c).intercalate parts') :
    parts = parts' := by
  have hsep (part next : String) (rest : List String) :
      ((String.singleton c).intercalate (part :: next :: rest)).toList =
        part.toList ++ c :: ((String.singleton c).intercalate (next :: rest)).toList := by
    rw [String.intercalate_cons_cons, String.toList_append, String.toList_append,
      String.toList_singleton, List.append_assoc]
    rfl
  induction parts generalizing parts' with
  | nil => exact absurd rfl hne
  | cons part parts ih =>
    cases parts' with
    | nil => exact absurd rfl hne'
    | cons part' parts' =>
      have hpart := h part List.mem_cons_self
      have hpart' := h' part' List.mem_cons_self
      cases parts with
      | nil =>
        cases parts' with
        | nil =>
          rw [String.intercalate_singleton, String.intercalate_singleton] at heq
          rw [heq]
        | cons next' parts' =>
          have hlist := congrArg String.toList heq
          rw [hsep, String.intercalate_singleton] at hlist
          rw [hlist] at hpart
          exact absurd (List.mem_append_right _ List.mem_cons_self) hpart
      | cons next parts =>
        cases parts' with
        | nil =>
          have hlist := congrArg String.toList heq
          rw [hsep, String.intercalate_singleton] at hlist
          rw [← hlist] at hpart'
          exact absurd (List.mem_append_right _ List.mem_cons_self) hpart'
        | cons next' parts' =>
          have hlist := congrArg String.toList heq
          rw [hsep, hsep] at hlist
          obtain ⟨hfirst, hrest⟩ := separator_cancel hpart hpart' hlist
          rw [String.toList_inj.mp hfirst]
          congr 1
          exact ih (by simp) (by simp) (fun p hp => h p (List.mem_cons_of_mem _ hp))
            (fun p hp => h' p (List.mem_cons_of_mem _ hp)) (String.toList_inj.mp hrest)

end Text
