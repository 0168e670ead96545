import Mathlib.Data.List.Dedup

set_option autoImplicit true

/-- The keys are listed in the order of their last uses. -/
def RecentlyUsed (lru used : List κ) [DecidableEq κ] : Prop := lru.Sublist used.dedup

namespace RecentlyUsed

variable [DecidableEq κ] {lru used : List κ}

theorem dedup_append_singleton (used : List κ) (key : κ) :
    (used ++ [key]).dedup = used.dedup.erase key ++ [key] := by
  induction used with
  | nil => simp
  | cons k used ih =>
    rw [List.cons_append]
    by_cases hused : k ∈ used
    · rw [List.dedup_cons_of_mem (List.mem_append_left _ hused), List.dedup_cons_of_mem hused, ih]
    · rw [List.dedup_cons_of_notMem hused]
      by_cases hkey : k = key
      · subst hkey
        rw [List.dedup_cons_of_mem List.mem_concat_self, ih, List.erase_cons_head,
          List.erase_of_not_mem (mt List.mem_dedup.mp hused)]
      · have hnot : k ∉ used ++ [key] := by
          simp [hused, hkey]
        rw [List.dedup_cons_of_notMem hnot, ih, List.erase_cons_tail (by simpa using hkey),
          List.cons_append]

theorem nil : RecentlyUsed ([] : List κ) [] := List.Sublist.refl _

theorem sublist (h : RecentlyUsed lru used) (hsub : lru'.Sublist lru) : RecentlyUsed lru' used :=
  hsub.trans h

theorem promote (h : RecentlyUsed lru used) (key : κ) :
    RecentlyUsed (lru.erase key ++ [key]) (used ++ [key]) := by
  rw [RecentlyUsed, dedup_append_singleton]
  exact (h.erase key).append (List.Sublist.refl _)

theorem append_new (h : RecentlyUsed lru used) (hnew : key ∉ lru) :
    RecentlyUsed (lru ++ [key]) (used ++ [key]) := by
  have hpromoted := h.promote key
  rwa [List.erase_of_not_mem hnew] at hpromoted

theorem nodup (h : RecentlyUsed lru used) : lru.Nodup := List.Sublist.nodup h used.nodup_dedup

/-- The list is that of the last uses, less the keys that are no longer there. -/
theorem eq_filter (h : RecentlyUsed lru used) {p : κ → Bool}
    (hp : ∀ key, key ∈ lru ↔ p key = true) : lru = used.dedup.filter p := by
  have hself : lru.filter p = lru := by
    rw [List.filter_eq_self]
    intro key hkey
    exact (hp key).mp hkey
  have hsub : lru.Sublist (used.dedup.filter p) := by
    have hfiltered := List.Sublist.filter p h
    rwa [hself] at hfiltered
  have hperm : lru.Perm (used.dedup.filter p) := by
    rw [List.perm_ext_iff_of_nodup h.nodup (used.nodup_dedup.filter p)]
    intro key
    constructor
    · intro hkey
      exact hsub.subset hkey
    · intro hkey
      exact (hp key).mpr (List.mem_filter.mp hkey).2
  exact hsub.eq_of_length hperm.length_eq

end RecentlyUsed
