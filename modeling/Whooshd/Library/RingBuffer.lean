import Mathlib.Data.List.Rotate

set_option autoImplicit true

namespace RingBuffer

/-- Put an element at the end, or over the oldest one if the buffer is full. The cursor counts
what has been put in so far. -/
def put (capacity : Nat) (slots : List α) (cursor : Nat) (a : α) : List α :=
  if slots.length < capacity then slots ++ [a] else slots.set (cursor % capacity) a

/-- The buffer holds the last elements of a list; turned by the cursor, it has them in order. -/
structure Holds (capacity : Nat) (slots : List α) (cursor : Nat) (l : List α) : Prop where
  cursor_eq : cursor = l.length
  length_eq : slots.length = min l.length capacity
  rotate_eq : slots.rotate cursor = l.drop (l.length - capacity)

theorem holds_empty (capacity : Nat) : Holds capacity ([] : List α) 0 [] :=
  ⟨rfl, by simp, by simp⟩

theorem rotate_set {slots : List α} (hpos : 0 < slots.length) (cursor : Nat) (a : α) :
    (slots.set (cursor % slots.length) a).rotate (cursor + 1) =
      (slots.rotate cursor).tail ++ [a] := by
  have hp : cursor % slots.length < slots.length := Nat.mod_lt _ hpos
  have hlength : (slots.set (cursor % slots.length) a).length = slots.length := List.length_set
  have hleft : (slots.set (cursor % slots.length) a).rotate (cursor + 1) =
      (slots.set (cursor % slots.length) a).rotate (cursor % slots.length + 1) := by
    rw [← List.rotate_mod, ← List.rotate_mod _ (cursor % slots.length + 1), hlength,
      Nat.mod_add_mod]
  rw [hleft, ← List.rotate_mod slots cursor]
  generalize cursor % slots.length = p at hp hlength
  rw [List.rotate_eq_drop_append_take (by omega), List.rotate_eq_drop_append_take hp.le,
    List.drop_eq_getElem_cons hp, List.cons_append, List.tail_cons, List.append_assoc,
    List.drop_set_of_lt (by omega), List.take_add_one, List.take_set_of_le (Nat.le_refl p),
    List.getElem?_set_self hp, Option.toList_some]

theorem Holds.put {capacity : Nat} {slots l : List α} {cursor : Nat} (hpos : 0 < capacity)
    (h : Holds capacity slots cursor l) (a : α) :
    Holds capacity (put capacity slots cursor a) (cursor + 1) (l ++ [a]) := by
  obtain ⟨rfl, hlength, hrotate⟩ := h
  rw [RingBuffer.put]
  by_cases hfull : slots.length < capacity
  · rw [if_pos hfull]
    have hslots : slots.length = l.length := by omega
    rw [← hslots, List.rotate_length, hslots, Nat.sub_eq_zero_of_le (by omega),
      List.drop_zero] at hrotate
    subst hrotate
    refine ⟨by simp, by simp; omega, ?_⟩
    have hall : slots.length + 1 = (slots ++ [a]).length := by simp
    rw [hall, List.rotate_length, Nat.sub_eq_zero_of_le (by simp; omega), List.drop_zero]
  · rw [if_neg hfull]
    have hslots : slots.length = capacity := by omega
    refine ⟨by simp, by simp; omega, ?_⟩
    have hturn := rotate_set (hslots ▸ hpos) l.length a
    rw [hslots] at hturn
    have hdrop : (l ++ [a]).length - capacity = (l.length - capacity) + 1 := by
      rw [List.length_append, List.length_singleton]
      omega
    rw [hturn, hrotate, hdrop, List.tail_drop, List.drop_append_of_le_length (by omega)]

theorem Holds.perm {capacity : Nat} {slots l : List α} {cursor : Nat}
    (h : Holds capacity slots cursor l) : slots.Perm (l.drop (l.length - capacity)) := by
  rw [← h.rotate_eq]
  exact (List.rotate_perm slots cursor).symm

end RingBuffer

namespace FlooredCounter

/-- Count up and down, but never below zero. -/
def count (n : Nat) (moves : List Bool) : Nat :=
  moves.foldl (fun n up => if up then n + 1 else n - 1) n

def ups (moves : List Bool) : Nat := moves.count true

def downs (moves : List Bool) : Nat := moves.count false

theorem count_concat (n : Nat) (moves : List Bool) (up : Bool) :
    count n (moves ++ [up]) = if up then count n moves + 1 else count n moves - 1 := by
  rw [count, List.foldl_append]
  rfl

/-- The count is the largest surplus of the moves up over those down, at the end of the moves. -/
theorem count_eq_surplus (moves : List Bool) :
    (∀ last, last <:+ moves → ups last ≤ count 0 moves + downs last) ∧
      ∃ last, last <:+ moves ∧ ups last = count 0 moves + downs last := by
  induction moves using List.reverseRecOn with
  | nil =>
    refine ⟨?_, [], List.suffix_rfl, rfl⟩
    intro last hlast
    rw [List.suffix_nil.mp hlast]
    rfl
  | append_singleton moves up ih =>
    obtain ⟨hall, last, hlast, heq⟩ := ih
    rw [count_concat]
    cases up with
    | true =>
      rw [if_pos rfl]
      constructor
      · intro last' hlast'
        rcases List.suffix_concat_iff.mp hlast' with rfl | ⟨last, rfl, hlast⟩
        · exact Nat.zero_le _
        · have := hall last hlast
          simp only [ups, downs, List.count_append] at this ⊢
          simp
          omega
      · refine ⟨last ++ [true], List.suffix_concat_iff.mpr (.inr ⟨last, rfl, hlast⟩), ?_⟩
        simp only [ups, downs, List.count_append] at heq ⊢
        simp
        omega
    | false =>
      rw [if_neg (by decide)]
      constructor
      · intro last' hlast'
        rcases List.suffix_concat_iff.mp hlast' with rfl | ⟨last, rfl, hlast⟩
        · exact Nat.zero_le _
        · have := hall last hlast
          simp only [ups, downs, List.count_append] at this ⊢
          simp
          omega
      · by_cases hzero : count 0 moves = 0
        · exact ⟨[], List.nil_suffix, by rw [hzero]; rfl⟩
        · refine ⟨last ++ [false], List.suffix_concat_iff.mpr (.inr ⟨last, rfl, hlast⟩), ?_⟩
          simp only [ups, downs, List.count_append] at heq ⊢
          simp
          omega

/-- The count is exact as long as nothing goes down that has not gone up before. -/
theorem count_exact_iff (moves : List Bool) :
    ups moves = count 0 moves + downs moves ↔
      ∀ first, first <+: moves → downs first ≤ ups first := by
  induction moves using List.reverseRecOn with
  | nil =>
    simp only [List.prefix_nil, forall_eq]
    exact ⟨fun _ => Nat.le_refl _, fun _ => rfl⟩
  | append_singleton moves up ih =>
    have hbeginning : (∀ first, first <+: moves ++ [up] → downs first ≤ ups first) ↔
        (∀ first, first <+: moves → downs first ≤ ups first) ∧
          downs (moves ++ [up]) ≤ ups (moves ++ [up]) := by
      constructor
      · intro h
        exact ⟨fun first hfirst => h first (hfirst.trans (List.prefix_append ..)),
          h _ List.prefix_rfl⟩
      · rintro ⟨hfirst, hwhole⟩ first h
        rcases List.prefix_concat_iff.mp h with rfl | h
        · exact hwhole
        · exact hfirst first h
    have hlower := (count_eq_surplus moves).1 moves List.suffix_rfl
    rw [hbeginning, ← ih, count_concat]
    cases up with
    | true =>
      simp only [ups, downs, List.count_append] at hlower ⊢
      simp
      omega
    | false =>
      simp only [ups, downs, List.count_append] at hlower ⊢
      simp
      omega

end FlooredCounter
