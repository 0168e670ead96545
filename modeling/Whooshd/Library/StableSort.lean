import Mathlib.Data.List.Nodup
import Mathlib.Data.List.Sort

set_option autoImplicit true

namespace List

section StableSort

variable {r : α → α → Prop} [DecidableRel r]

theorem filter_insertionSort_of_pairwise (p : α → Bool) {l : List α}
    (h : (l.filter p).Pairwise r) : (l.insertionSort r).filter p = l.filter p := by
  have hsub : (l.filter p).Sublist ((l.insertionSort r).filter p) := by
    have := (sublist_insertionSort h filter_sublist).filter p
    rwa [filter_filter, show (fun a => p a && p a) = p from funext fun a => Bool.and_self _] at this
  have hlength : ((l.insertionSort r).filter p).length = (l.filter p).length :=
    ((perm_insertionSort r l).filter p).length_eq
  exact (hsub.eq_of_length hlength.symm).symm

theorem pairwise_key_iff [DecidableEq κ] {key : α → κ} {R : α → α → Prop} {l : List α} :
    l.Pairwise (fun a b => key a = key b → R a b) ↔
      ∀ k, (l.filter fun a => key a = k).Pairwise R := by
  constructor
  · intro h k
    apply (h.sublist filter_sublist).imp_of_mem
    intro a b ha hb hR
    rw [mem_filter, decide_eq_true_eq] at ha hb
    exact hR (ha.2.trans hb.2.symm)
  · intro h
    induction l with
    | nil => exact .nil
    | cons a l ih =>
      apply Pairwise.cons
      · intro b hb hkey
        have ha := h (key a)
        rw [filter_cons_of_pos (by simp)] at ha
        exact (pairwise_cons.mp ha).1 b (mem_filter.mpr ⟨hb, by simp [hkey]⟩)
      · apply ih
        intro k
        exact (h k).sublist ((sublist_cons_self a l).filter _)

variable [Std.Total r] [IsTrans α r]

/-- How a list stands in another order once it is sorted by an order whose ties are those of a
key. -/
theorem pairwise_insertionSort_iff [DecidableEq κ] {key : α → κ} {R : α → α → Prop} {l : List α}
    (htie : ∀ a b, r a b ∧ r b a ↔ key a = key b) :
    (l.insertionSort r).Pairwise R ↔
      l.Pairwise (fun a b => key a = key b → R a b) ∧
        ∀ a ∈ l, ∀ b ∈ l, key a ≠ key b → r a b → R a b := by
  have hparts : ∀ k, (l.insertionSort r).filter (fun a => key a = k) =
      l.filter fun a => key a = k := by
    intro k
    apply filter_insertionSort_of_pairwise
    apply pairwise_of_forall_mem_list
    intro a ha b hb
    rw [mem_filter, decide_eq_true_eq] at ha hb
    exact ((htie a b).mpr (ha.2.trans hb.2.symm)).1
  have hsame : (l.insertionSort r).Pairwise (fun a b => key a = key b → R a b) ↔
      l.Pairwise fun a b => key a = key b → R a b := by
    simp only [pairwise_key_iff, hparts]
  have hsorted := pairwise_insertionSort r l
  constructor
  · intro h
    have hwithin : (l.insertionSort r).Pairwise fun a b => key a = key b → R a b := by
      apply h.imp
      intro a b hR _
      exact hR
    refine ⟨hsame.mp hwithin, ?_⟩
    have hacross : ∀ ⦃a⦄, a ∈ l.insertionSort r → ∀ ⦃b⦄, b ∈ l.insertionSort r →
        key a ≠ key b → r a b → R a b := by
      apply Pairwise.forall_of_forall_of_flip
      · intro a _ hne
        exact absurd rfl hne
      · apply h.imp
        intro a b hR _ _
        exact hR
      · -- an element that stands first is not above the other, unless their keys are the same
        apply hsorted.imp
        intro a b hab hne hba
        exact absurd ((htie b a).mp ⟨hba, hab⟩) hne
    intro a ha b hb
    exact hacross ((mem_insertionSort r).mpr ha) ((mem_insertionSort r).mpr hb)
  · intro h
    apply (hsorted.and (hsame.mpr h.1)).imp_of_mem
    intro a b ha hb hab
    by_cases hkey : key a = key b
    · exact hab.2 hkey
    · exact h.2 a ((mem_insertionSort r).mp ha) b ((mem_insertionSort r).mp hb) hkey hab.1

end StableSort

section Pairs

variable {r : α → α → Prop} [DecidableRel r]

theorem exists_orderedInsert_of_map_fst {a : α} {l : List α} {pairs : List (α × β)}
    (h : pairs.map Prod.fst = l.orderedInsert r a) :
    ∃ (b : β) (rest : List (α × β)), rest.map Prod.fst = l ∧
      pairs = rest.orderedInsert (fun p q => r p.1 q.1) (a, b) := by
  induction l generalizing pairs with
  | nil =>
    obtain ⟨p, rest, rfl, rfl, hrest⟩ := map_eq_cons_iff.mp h
    rw [map_eq_nil_iff] at hrest
    exact ⟨p.2, [], rfl, by rw [hrest]; rfl⟩
  | cons c l ih =>
    rw [orderedInsert_cons] at h
    by_cases hac : r a c
    · rw [if_pos hac] at h
      obtain ⟨p, rest, rfl, rfl, hrest⟩ := map_eq_cons_iff.mp h
      obtain ⟨q, tail, rfl, rfl, htail⟩ := map_eq_cons_iff.mp hrest
      exact ⟨p.2, q :: tail, hrest, by rw [orderedInsert_cons, if_pos hac]⟩
    · rw [if_neg hac] at h
      obtain ⟨q, tail, rfl, rfl, htail⟩ := map_eq_cons_iff.mp h
      obtain ⟨b, rest, hrest, rfl⟩ := ih htail
      exact ⟨b, q :: rest, by rw [map_cons, hrest], by rw [orderedInsert_cons, if_neg hac]⟩

/-- What is paired with a sorted list could have been paired with it before it was sorted. -/
theorem exists_insertionSort_of_map_fst {l : List α} {pairs : List (α × β)}
    (h : pairs.map Prod.fst = l.insertionSort r) :
    ∃ paired : List (α × β), paired.map Prod.fst = l ∧
      pairs = paired.insertionSort fun p q => r p.1 q.1 := by
  induction l generalizing pairs with
  | nil =>
    rw [insertionSort_nil, map_eq_nil_iff] at h
    exact ⟨[], rfl, h⟩
  | cons a l ih =>
    rw [insertionSort_cons] at h
    obtain ⟨b, rest, hrest, rfl⟩ := exists_orderedInsert_of_map_fst h
    obtain ⟨paired, rfl, rfl⟩ := ih hrest
    exact ⟨(a, b) :: paired, rfl, rfl⟩

end Pairs

end List
