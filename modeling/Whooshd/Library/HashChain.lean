import Mathlib.Data.List.Induction
import Mathlib.Data.Set.Function

set_option autoImplicit true

namespace HashChain

variable {α : Type u} (digest : List α → List α)

def chain (parts : List (List α)) : List α :=
  parts.foldl (fun link part => digest (link ++ part)) []

/-- The texts that are digested for a chain. -/
def texts (parts : List (List α)) : Set (List α) :=
  {text | ∃ before part after, parts = before ++ part :: after ∧
    text = chain digest before ++ part}

variable {digest}

theorem chain_concat (parts : List (List α)) (part : List α) :
    chain digest (parts ++ [part]) = digest (chain digest parts ++ part) := by
  rw [chain, List.foldl_append, List.foldl_cons, List.foldl_nil, chain]

theorem last_mem_texts (parts : List (List α)) (part : List α) :
    chain digest parts ++ part ∈ texts digest (parts ++ [part]) :=
  ⟨parts, part, [], rfl, rfl⟩

theorem texts_subset (parts : List (List α)) (part : List α) :
    texts digest parts ⊆ texts digest (parts ++ [part]) := by
  rintro text ⟨before, p, after, rfl, rfl⟩
  exact ⟨before, p, after ++ [part], by rw [List.append_assoc, List.cons_append], rfl⟩

theorem chain_length {n : Nat} (hlen : ∀ text, (digest text).length = n) {parts : List (List α)}
    (h : parts ≠ []) : (chain digest parts).length = n := by
  rw [← List.dropLast_concat_getLast h, chain_concat]
  exact hlen _

/-- Where digests and parts have one length and no two texts of the chains share a digest, a chain
tells its parts: the last link tells the last part and the link before it. -/
theorem chain_inj {n : Nat} (hn : 0 < n) (hlen : ∀ text, (digest text).length = n)
    {parts parts' : List (List α)} (hparts : ∀ part ∈ parts, part.length = n)
    (hparts' : ∀ part ∈ parts', part.length = n)
    (hinj : Set.InjOn digest (texts digest parts ∪ texts digest parts'))
    (h : chain digest parts = chain digest parts') : parts = parts' := by
  induction parts using List.reverseRecOn generalizing parts' with
  | nil =>
    by_contra hne
    have hlength := chain_length hlen (Ne.symm hne)
    rw [← h, chain, List.foldl_nil, List.length_nil] at hlength
    omega
  | append_singleton parts part ih =>
    cases parts' using List.reverseRecOn with
    | nil =>
      have hlength := chain_length hlen (List.append_ne_nil_of_right_ne_nil parts
        (List.cons_ne_nil part []))
      rw [h, chain, List.foldl_nil, List.length_nil] at hlength
      omega
    | append_singleton parts' part' =>
      rw [chain_concat, chain_concat] at h
      have hlast := hinj (.inl (last_mem_texts parts part)) (.inr (last_mem_texts parts' part')) h
      have hpart : part.length = part'.length := by
        rw [hparts part (by simp), hparts' part' (by simp)]
      obtain ⟨hlink, rfl⟩ := List.append_inj' hlast hpart
      have hbefore := ih (fun p hp => hparts p (List.mem_append_left _ hp))
        (fun p hp => hparts' p (List.mem_append_left _ hp))
        (hinj.mono (Set.union_subset_union (texts_subset parts part) (texts_subset parts' part)))
        hlink
      rw [hbefore]

end HashChain
