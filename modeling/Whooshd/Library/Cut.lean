import Mathlib.Data.List.DropRight
import Mathlib.Data.List.Infix

set_option autoImplicit true

namespace Cut

variable {α : Type u}

/-- What follows the last occurrence of a pattern. -/
def afterLast [DecidableEq α] (pat : List α) : List α → Option (List α)
  | [] => none
  | c :: cs =>
    match afterLast pat cs with
    | some tail => some tail
    | none =>
      if pat.isPrefixOf (c :: cs) then some ((c :: cs).drop pat.length) else none

/-- `str.partition`: the text before the first separator, the separator when there is one, and
the text after it. -/
def partition [DecidableEq α] (sep : List α) : List α → List α × List α × List α
  | [] => ([], [], [])
  | c :: cs =>
    if sep.isPrefixOf (c :: cs) then ([], sep, (c :: cs).drop sep.length)
    else
      let (before, found, after) := partition sep cs
      (c :: before, found, after)

theorem afterLast_none [DecidableEq α] {pat s : List α} (h : ¬ pat <:+: s) :
    afterLast pat s = none := by
  induction s with
  | nil => rfl
  | cons c cs ih =>
    rw [List.infix_cons_iff, not_or] at h
    have hp : pat.isPrefixOf (c :: cs) = false := by
      rw [← Bool.not_eq_true, List.isPrefixOf_iff_prefix]
      exact h.1
    simp only [afterLast, ih h.2, hp, Bool.false_eq_true, if_false]

/-- The occurrence is the last one when none starts inside or after it. -/
theorem afterLast_append [DecidableEq α] {pat after : List α} (hne : pat ≠ [])
    (h : ¬ pat <:+: (pat ++ after).tail) (before : List α) :
    afterLast pat (before ++ (pat ++ after)) = some after := by
  induction before with
  | nil =>
    cases pat with
    | nil => exact absurd rfl hne
    | cons c pat =>
      have hp : (c :: pat).isPrefixOf (c :: (pat ++ after)) = true := by
        rw [List.isPrefixOf_iff_prefix]
        exact List.prefix_append (c :: pat) after
      have hd : (c :: (pat ++ after)).drop (c :: pat).length = after :=
        @List.drop_left α (c :: pat) after
      rw [List.cons_append, List.tail_cons] at h
      simp only [List.nil_append, List.cons_append, afterLast, afterLast_none h, hp, if_true, hd]
  | cons b before ih => simp only [List.cons_append, afterLast, ih]

/-- The separator found is the one shown when no earlier one ends before its last element. -/
theorem partition_append [DecidableEq α] {sep before : List α} (hne : sep ≠ [])
    (h : ¬ sep <:+: before ++ sep.dropLast) (after : List α) :
    partition sep (before ++ (sep ++ after)) = (before, sep, after) := by
  induction before with
  | nil =>
    cases sep with
    | nil => exact absurd rfl hne
    | cons c sep =>
      have hp : (c :: sep).isPrefixOf (c :: (sep ++ after)) = true := by
        rw [List.isPrefixOf_iff_prefix]
        exact List.prefix_append (c :: sep) after
      have hd : (c :: (sep ++ after)).drop (c :: sep).length = after :=
        @List.drop_left α (c :: sep) after
      simp only [List.nil_append, List.cons_append, partition, hp, if_true, hd]
  | cons b before ih =>
    rw [List.cons_append, List.infix_cons_iff, not_or] at h
    have hp : sep.isPrefixOf (b :: (before ++ (sep ++ after))) = false := by
      rw [← Bool.not_eq_true, List.isPrefixOf_iff_prefix]
      intro hpre
      apply h.1
      have hlong : b :: (before ++ sep.dropLast) <+: b :: (before ++ (sep ++ after)) := by
        rw [List.cons_prefix_cons]
        exact ⟨rfl, (List.prefix_append_right_inj before).mpr
          ((List.dropLast_prefix sep).trans (List.prefix_append sep after))⟩
      apply List.prefix_of_prefix_length_le hpre hlong
      have hlen := List.length_pos_iff.mpr hne
      rw [List.length_cons, List.length_append, List.length_dropLast]
      omega
    simp only [List.cons_append, partition, hp, Bool.false_eq_true, if_false, ih h.2]

/-- A pattern without the separator lies on one side of it. -/
theorem infix_of_infix_append {pat before after : List α} {c : α} (hc : c ∉ pat)
    (h : pat <:+: before ++ c :: after) : pat <:+: before ∨ pat <:+: after := by
  induction before with
  | nil =>
    rw [List.nil_append, List.infix_cons_iff] at h
    cases h with
    | inr h => exact .inr h
    | inl h =>
      cases pat with
      | nil => exact .inl (List.nil_infix)
      | cons a pat =>
        rw [List.cons_prefix_cons] at h
        exact absurd (h.1 ▸ List.mem_cons_self) hc
  | cons b before ih =>
    rw [List.cons_append, List.infix_cons_iff] at h
    cases h with
    | inr h =>
      cases ih h with
      | inl h => exact .inl (List.infix_cons h)
      | inr h => exact .inr h
    | inl h =>
      left
      obtain ⟨rest, hrest⟩ := h
      rw [← List.cons_append, List.append_eq_append_iff] at hrest
      obtain ⟨mid, hmid, _⟩ | ⟨mid, hpat, htail⟩ := hrest
      · rw [hmid]
        exact List.infix_append_left
      · cases mid with
        | nil =>
          rw [List.append_nil] at hpat
          rw [hpat]
        | cons a mid =>
          rw [List.cons_append, List.cons.injEq] at htail
          rw [hpat, htail.1] at hc
          exact absurd (List.mem_append_right _ List.mem_cons_self) hc

theorem exists_last {c : α} {s : List α} (h : c ∈ s) : ∃ a b, s = a ++ c :: b ∧ c ∉ b := by
  obtain ⟨a, b, hs, ha⟩ := List.eq_append_cons_of_mem (List.mem_reverse.mpr h)
  refine ⟨b.reverse, a.reverse, ?_, fun hb => ha (List.mem_reverse.mp hb)⟩
  rw [← List.reverse_reverse s, hs, List.reverse_append, List.reverse_cons, List.append_assoc,
    List.singleton_append]

theorem last_unique {c : α} {a b a' b' : List α} (h : a ++ c :: b = a' ++ c :: b')
    (hb : c ∉ b) (hb' : c ∉ b') : a = a' ∧ b = b' := by
  rw [List.append_eq_append_iff] at h
  obtain ⟨mid, ha, htail⟩ | ⟨mid, ha, htail⟩ := h
  · cases mid with
    | nil => exact ⟨by rw [ha, List.append_nil], by simpa using htail⟩
    | cons d mid =>
      rw [List.cons_append, List.cons.injEq] at htail
      exact absurd (htail.2 ▸ List.mem_append_right _ List.mem_cons_self) hb
  · cases mid with
    | nil => exact ⟨by rw [ha, List.append_nil], by simpa using htail.symm⟩
    | cons d mid =>
      rw [List.cons_append, List.cons.injEq] at htail
      exact absurd (htail.2 ▸ List.mem_append_right _ List.mem_cons_self) hb'

theorem first_unique {c : α} {a b a' b' : List α} (h : a ++ c :: b = a' ++ c :: b')
    (ha : c ∉ a) (ha' : c ∉ a') : a = a' ∧ b = b' := by
  have hrev := congrArg List.reverse h
  simp only [List.reverse_append, List.reverse_cons, List.append_assoc,
    List.singleton_append] at hrev
  obtain ⟨hb, ha⟩ := last_unique hrev (mt List.mem_reverse.mp ha) (mt List.mem_reverse.mp ha')
  exact ⟨List.reverse_inj.mp ha, List.reverse_inj.mp hb⟩

/-- The last of three joined parts holds what the first of three others has more than the first. -/
def Shifted (c : α) (a b d a' b' d' : List α) : Prop :=
  ∃ t, a' = a ++ c :: (b ++ t) ∧ c :: d = t ++ c :: (b' ++ c :: d')

theorem Shifted.of_append {c : α} {a b d r b' d' : List α} (hb : c ∉ b) (hne : r ≠ [])
    (h : c :: (b ++ c :: d) = r ++ c :: (b' ++ c :: d')) : Shifted c a b d (a ++ r) b' d' := by
  cases r with
  | nil => exact absurd rfl hne
  | cons e r =>
    rw [List.cons_append, List.cons.injEq] at h
    obtain ⟨rfl, h⟩ := h
    rw [List.append_eq_append_iff] at h
    obtain ⟨t, rfl, htail⟩ | ⟨t, rfl, htail⟩ := h
    · exact ⟨t, rfl, htail⟩
    · cases t with
      | nil => exact ⟨[], by rw [List.append_nil, List.append_nil], htail.symm⟩
      | cons e t =>
        rw [List.cons_append, List.cons.injEq] at htail
        exact absurd (htail.1 ▸ List.mem_append_right _ List.mem_cons_self) hb

theorem Shifted.joined_eq {c : α} {a b d a' b' d' : List α} (h : Shifted c a b d a' b' d') :
    a ++ c :: (b ++ c :: d) = a' ++ c :: (b' ++ c :: d') := by
  obtain ⟨t, rfl, hd⟩ := h
  rw [hd, List.append_assoc, List.cons_append, List.append_assoc]

/-- Three parts joined by a separator are read back where the one in the middle does not hold it,
unless the cut has shifted. -/
theorem joined_eq_iff {c : α} {a b d a' b' d' : List α} (hb : c ∉ b) (hb' : c ∉ b') :
    a ++ c :: (b ++ c :: d) = a' ++ c :: (b' ++ c :: d') ↔
      (a = a' ∧ b = b' ∧ d = d') ∨ Shifted c a b d a' b' d' ∨ Shifted c a' b' d' a b d := by
  constructor
  · intro h
    rw [List.append_eq_append_iff] at h
    obtain ⟨r, rfl, htail⟩ | ⟨r, rfl, htail⟩ := h
    · by_cases hr : r = []
      · rw [hr, List.nil_append, List.cons.injEq] at htail
        obtain ⟨rfl, rfl⟩ := first_unique htail.2 hb hb'
        exact .inl ⟨by rw [hr, List.append_nil], rfl, rfl⟩
      · exact .inr (.inl (.of_append hb hr htail))
    · by_cases hr : r = []
      · rw [hr, List.nil_append, List.cons.injEq] at htail
        obtain ⟨rfl, rfl⟩ := first_unique htail.2 hb' hb
        exact .inl ⟨by rw [hr, List.append_nil], rfl, rfl⟩
      · exact .inr (.inr (.of_append hb' hr htail))
  · rintro (⟨rfl, rfl, rfl⟩ | h | h)
    · rfl
    · exact h.joined_eq
    · exact h.joined_eq.symm

theorem rdropWhile_append {p : α → Bool} {c : α} (hc : p c = false) (a b : List α) :
    (a ++ c :: b).rdropWhile p = a ++ c :: b.rdropWhile p := by
  induction b using List.reverseRecOn with
  | nil => rw [List.rdropWhile_nil, List.rdropWhile_concat, hc, if_neg Bool.false_ne_true]
  | append_singleton b d ih =>
    rw [List.rdropWhile_concat p b d, ← List.cons_append, ← List.append_assoc,
      List.rdropWhile_concat]
    cases p d with
    | true => exact ih
    | false =>
      rw [if_neg Bool.false_ne_true, if_neg Bool.false_ne_true, List.append_assoc,
        List.cons_append]

theorem rdropWhile_last {p : α → Bool} {c : α} {b : List α} (hc : p c = false)
    (hb : ∀ d ∈ b, p d = true) (a : List α) : (a ++ c :: b).rdropWhile p = a ++ [c] := by
  rw [rdropWhile_append hc, List.rdropWhile_eq_nil_iff.mpr hb]

theorem rtakeWhile_last {p : α → Bool} {c : α} {b : List α} (hc : p c = false)
    (hb : ∀ d ∈ b, p d = true) (a : List α) : (a ++ c :: b).rtakeWhile p = b := by
  have hsplit : (a ++ c :: b).rdropWhile p ++ (a ++ c :: b).rtakeWhile p = a ++ c :: b :=
    List.rdropWhile_append_rtakeWhile
  rw [rdropWhile_last hc hb, List.append_assoc] at hsplit
  simpa using List.append_cancel_left hsplit

theorem dropWhile_append {p : α → Bool} {c : α} (hc : p c = false) (a b : List α) :
    (a ++ c :: b).dropWhile p = a.dropWhile p ++ c :: b := by
  induction a with
  | nil => rw [List.nil_append, List.dropWhile_cons, hc, if_neg Bool.false_ne_true]; rfl
  | cons d a ih =>
    rw [List.cons_append, List.dropWhile_cons, List.dropWhile_cons]
    cases p d with
    | true => exact ih
    | false => rfl

theorem splitOn_length [DecidableEq α] (c : α) (s : List α) :
    (s.splitOn c).length = s.count c + 1 := by
  induction s with
  | nil => rfl
  | cons d s ih =>
    rw [List.splitOn_cons_eq_if_modifyHead, List.count_cons]
    cases d == c with
    | true => simpa using ih
    | false => simpa using ih

theorem notMem_of_splitOn [DecidableEq α] {c : α} {s part : List α} (h : part ∈ s.splitOn c) :
    c ∉ part := by
  induction s generalizing part with
  | nil =>
    rw [List.splitOn_nil, List.mem_singleton] at h
    rw [h]
    exact List.not_mem_nil
  | cons d s ih =>
    rw [List.splitOn_cons_eq_if_modifyHead] at h
    cases hd : d == c with
    | true =>
      rw [hd, if_pos rfl, List.mem_cons] at h
      cases h with
      | inl h => rw [h]; exact List.not_mem_nil
      | inr h => exact ih h
    | false =>
      rw [hd, if_neg Bool.false_ne_true] at h
      cases hparts : s.splitOn c with
      | nil => exact absurd hparts (List.splitOn_ne_nil c s)
      | cons first parts =>
        rw [hparts] at h ih
        rw [List.modifyHead_cons, List.mem_cons] at h
        cases h with
        | inl h =>
          rw [h, List.mem_cons, not_or]
          exact ⟨fun heq => by simp [heq] at hd, ih List.mem_cons_self⟩
        | inr h => exact ih (List.mem_cons_of_mem _ h)

theorem splitOn_length_le [DecidableEq α] (c : α) {s t : List α} (h : t <+: s) :
    (t.splitOn c).length ≤ (s.splitOn c).length := by
  rw [splitOn_length, splitOn_length]
  exact Nat.add_le_add_right (h.sublist.count_le c) 1

theorem intercalate_take_prefix (sep : List α) (parts : List (List α)) (n : Nat) :
    sep.intercalate (parts.take n) <+: sep.intercalate parts := by
  induction parts generalizing n with
  | nil => simp
  | cons part parts ih =>
    cases n with
    | zero => exact List.nil_prefix
    | succ n =>
      rw [List.take_succ_cons]
      cases parts with
      | nil => simp
      | cons next parts =>
        have htail := ih n
        cases n with
        | zero =>
          rw [List.take_zero, List.intercalate_singleton, List.intercalate_cons_cons,
            List.append_assoc]
          exact List.prefix_append part _
        | succ n =>
          rw [List.take_succ_cons] at htail ⊢
          rw [List.intercalate_cons_cons, List.intercalate_cons_cons]
          exact (List.prefix_append_right_inj _).mpr htail

theorem splitOn_take [DecidableEq α] (c : α) (s : List α) {n : Nat} (hn : 0 < n) :
    ([c].intercalate ((s.splitOn c).take n)).splitOn c = (s.splitOn c).take n := by
  apply List.splitOn_intercalate
  · intro part hpart
    exact notMem_of_splitOn (List.mem_of_mem_take hpart)
  · cases hparts : s.splitOn c with
    | nil => exact absurd hparts (List.splitOn_ne_nil c s)
    | cons first parts =>
      obtain ⟨k, rfl⟩ := Nat.exists_eq_succ_of_ne_zero (Nat.ne_of_gt hn)
      exact List.cons_ne_nil _ _

end Cut
