import Mathlib.Algebra.GroupWithZero.Nat
import Mathlib.Data.List.Nodup
import Mathlib.Data.List.Perm.Subperm

set_option autoImplicit true

/-- A finite map that keeps insertion order: updating a key leaves it in its place, a new
key goes to the end. -/
structure Dict (κ ν : Type) where
  entries : List (κ × ν)
  nodup : (entries.map Prod.fst).Nodup
  deriving DecidableEq

namespace Dict

def upsert [DecidableEq κ] (k : κ) (v : ν) : List (κ × ν) → List (κ × ν)
  | [] => [(k, v)]
  | (k', v') :: l => if k' = k then (k, v) :: l else (k', v') :: upsert k v l

theorem upsert_keys [DecidableEq κ] (k : κ) (v : ν) (l : List (κ × ν)) :
    (upsert k v l).map Prod.fst =
      if k ∈ l.map Prod.fst then l.map Prod.fst else l.map Prod.fst ++ [k] := by
  induction l with
  | nil => simp [upsert]
  | cons p l ih =>
    obtain ⟨k', v'⟩ := p
    by_cases hk : k' = k
    · subst hk
      simp [upsert]
    · have hk' : ¬k = k' := fun h => hk h.symm
      simp only [upsert, if_neg hk, List.map_cons, ih, List.mem_cons, hk', false_or]
      split <;> rfl

theorem upsert_nodup [DecidableEq κ] {l : List (κ × ν)} (h : (l.map Prod.fst).Nodup)
    (k : κ) (v : ν) : ((upsert k v l).map Prod.fst).Nodup := by
  rw [upsert_keys]
  split
  · exact h
  · next hk =>
    refine List.nodup_append.2 ⟨h, by simp, fun a ha b hb => ?_⟩
    rw [List.mem_singleton] at hb
    rintro rfl
    exact hk (hb ▸ ha)

def empty : Dict κ ν := ⟨[], List.nodup_nil⟩

def get? [DecidableEq κ] (d : Dict κ ν) (k : κ) : Option ν :=
  (d.entries.find? (fun p => p.1 = k)).map Prod.snd

def set [DecidableEq κ] (d : Dict κ ν) (k : κ) (v : ν) : Dict κ ν :=
  ⟨upsert k v d.entries, upsert_nodup d.nodup k v⟩

def erase [DecidableEq κ] (d : Dict κ ν) (k : κ) : Dict κ ν :=
  ⟨d.entries.filter (fun p => p.1 ≠ k),
    d.nodup.sublist (List.filter_sublist.map Prod.fst)⟩

def modify [DecidableEq κ] (d : Dict κ ν) (k : κ) (f : ν → ν) : Dict κ ν :=
  match d.get? k with
  | none => d
  | some v => d.set k (f v)

def contains [DecidableEq κ] (d : Dict κ ν) (k : κ) : Bool := (d.get? k).isSome

def size (d : Dict κ ν) : Nat := d.entries.length

def values (d : Dict κ ν) : List ν := d.entries.map Prod.snd

def keys (d : Dict κ ν) : List κ := d.entries.map Prod.fst

/-- The number of values that satisfy a test. -/
def count (d : Dict κ ν) (p : ν → Bool) : Nat := d.values.countP p

variable [DecidableEq κ] {d : Dict κ ν}

@[simp] theorem get?_empty (k : κ) : (empty : Dict κ ν).get? k = none := rfl

theorem get?_eq_some : d.get? k = some v ↔ (k, v) ∈ d.entries := by
  simp only [get?, Option.map_eq_some_iff]
  constructor
  · rintro ⟨⟨k', v'⟩, hf, rfl⟩
    have hk := List.find?_some hf
    simp only [decide_eq_true_eq] at hk
    subst hk
    exact List.mem_of_find?_eq_some hf
  · intro hm
    have hn := d.nodup
    generalize d.entries = l at hm hn
    induction l with
    | nil => cases hm
    | cons p l ih =>
      obtain ⟨k', v'⟩ := p
      simp only [List.map_cons, List.nodup_cons] at hn
      rcases List.mem_cons.1 hm with he | hl
      · cases he
        exact ⟨(k, v), by simp, rfl⟩
      · have hne : k' ≠ k := by
          rintro rfl
          exact hn.1 (List.mem_map.2 ⟨(k', v), hl, rfl⟩)
        obtain ⟨p, hp, hv⟩ := ih hl hn.2
        exact ⟨p, by simpa [List.find?_cons, hne] using hp, hv⟩

theorem get?_eq_none : d.get? k = none ↔ k ∉ d.keys := by
  simp only [get?, keys, Option.map_eq_none_iff, List.find?_eq_none, decide_eq_true_eq,
    List.mem_map, not_exists, not_and]

@[simp] theorem get?_set_self (k : κ) (v : ν) : (d.set k v).get? k = some v := by
  rw [get?_eq_some]
  simp only [set]
  generalize d.entries = l
  induction l with
  | nil => simp [upsert]
  | cons p l ih =>
    simp only [upsert]
    split
    · simp
    · exact List.mem_cons_of_mem _ ih

theorem get?_set_ne (h : k' ≠ k) (v : ν) : (d.set k v).get? k' = d.get? k' := by
  simp only [get?, set]
  congr 1
  generalize d.entries = l
  induction l with
  | nil => simp [upsert, Ne.symm h]
  | cons p l ih =>
    simp only [upsert]
    split
    · next hp => simp [hp, Ne.symm h]
    · simp only [List.find?_cons, ih]

theorem get?_set (k k' : κ) (v : ν) :
    (d.set k v).get? k' = if k' = k then some v else d.get? k' := by
  by_cases h : k' = k
  · subst h
    simp
  · rw [get?_set_ne h, if_neg h]

@[simp] theorem get?_erase_self (k : κ) : (d.erase k).get? k = none := by
  simp [get?, erase, List.find?_eq_none]

theorem get?_erase_ne (h : k' ≠ k) : (d.erase k).get? k' = d.get? k' := by
  simp only [get?, erase, List.find?_filter]
  congr 2
  funext p
  by_cases hp : p.1 = k'
  · simp [hp, h]
  · simp [hp]

theorem get?_erase (k k' : κ) :
    (d.erase k).get? k' = if k' = k then none else d.get? k' := by
  by_cases h : k' = k
  · subst h
    simp
  · rw [get?_erase_ne h, if_neg h]

theorem get?_modify (k k' : κ) (f : ν → ν) :
    (d.modify k f).get? k' = if k' = k then (d.get? k).map f else d.get? k' := by
  cases hk : d.get? k with
  | none =>
    simp only [modify, hk]
    split
    · next he => subst he; exact hk
    · rfl
  | some v => simp only [modify, hk, get?_set, Option.map_some]

theorem get?_foldl_set (p : κ × ν → Bool) (l : List (κ × ν)) (hl : (l.map Prod.fst).Nodup)
    (d : Dict κ ν) (k : κ) :
    (l.foldl (fun d e => if p e then d.set e.1 e.2 else d) d).get? k =
      (((l.find? fun e => e.1 = k).map Prod.snd).filter fun v => p (k, v)).or (d.get? k) := by
  induction l generalizing d with
  | nil => rfl
  | cons e l ih =>
    obtain ⟨k', v⟩ := e
    rw [List.map_cons, List.nodup_cons] at hl
    rw [List.foldl_cons, ih hl.2]
    by_cases hk : k' = k
    · subst hk
      have hnone : l.find? (fun e => e.1 = k') = none := by
        rw [List.find?_eq_none]
        intro e he heq
        exact hl.1 (List.mem_map.2 ⟨e, he, of_decide_eq_true heq⟩)
      rw [hnone, List.find?_cons_of_pos (by simp)]
      simp only [Option.map_none, Option.filter_none, Option.none_or, Option.map_some,
        Option.filter_some]
      split
      · rw [get?_set_self, Option.some_or]
      · rw [Option.none_or]
    · rw [List.find?_cons_of_neg (by simpa using hk)]
      congr 1
      split
      · exact get?_set_ne (Ne.symm hk) v
      · rfl

theorem get?_foldl_entries {l : List (κ × ν)} (hl : (l.map Prod.fst).Nodup) (k : κ) (v : ν) :
    (l.foldl (fun d e => d.set e.1 e.2) empty).get? k = some v ↔ (k, v) ∈ l := by
  have hfold := get?_foldl_set (fun _ => true) l hl empty k
  simp only [if_true, get?_empty, Option.or_none] at hfold
  have hall : ∀ o : Option ν, o.filter (fun _ => true) = o := fun o => by cases o <;> rfl
  rw [hfold, hall]
  exact get?_eq_some (d := ⟨l, hl⟩)

theorem modify_of_not_contains (h : d.contains k = false) (f : ν → ν) : d.modify k f = d := by
  have hn : d.get? k = none := by simpa [contains] using h
  simp only [modify, hn]

theorem mem_keys : k ∈ d.keys ↔ d.contains k = true := by
  rw [contains, Option.isSome_iff_ne_none, Ne, get?_eq_none, not_not]

theorem entries_set_new (h : d.get? k = none) (v : ν) :
    (d.set k v).entries = d.entries ++ [(k, v)] := by
  have hk : k ∉ d.entries.map Prod.fst := get?_eq_none.1 h
  change upsert k v d.entries = d.entries ++ [(k, v)]
  generalize d.entries = l at hk
  induction l with
  | nil => rfl
  | cons e l ih =>
    rw [List.map_cons, List.mem_cons, not_or] at hk
    rw [upsert, if_neg (Ne.symm hk.1), ih hk.2, List.cons_append]

theorem entries_foldl_set (d : Dict κ ν) (l : List (κ × ν))
    (h : (d.keys ++ l.map Prod.fst).Nodup) :
    (l.foldl (fun d e => d.set e.1 e.2) d).entries = d.entries ++ l := by
  induction l generalizing d with
  | nil => simp
  | cons e l ih =>
    have hnew : d.get? e.1 = none := by
      rw [get?_eq_none]
      intro hmem
      rw [List.map_cons, List.nodup_append] at h
      exact h.2.2 _ hmem _ List.mem_cons_self rfl
    have hentries := entries_set_new hnew e.2
    rw [List.foldl_cons, ih, hentries, List.append_assoc]
    · rfl
    · rw [keys, hentries, List.map_append, List.append_assoc]
      exact h

theorem keys_set (d : Dict κ ν) (k : κ) (v : ν) :
    (d.set k v).keys = if d.contains k then d.keys else d.keys ++ [k] := by
  simp only [keys, set, upsert_keys]
  congr 1
  exact propext mem_keys

@[simp] theorem keys_modify (d : Dict κ ν) (k : κ) (f : ν → ν) : (d.modify k f).keys = d.keys := by
  simp only [modify]
  split
  · rfl
  · next v hv => rw [keys_set, contains, hv, Option.isSome_some, if_pos rfl]

theorem set_same (h : d.get? k = some v) : d.set k v = d := by
  have hm := get?_eq_some.1 h
  cases d with
  | mk l hn =>
    simp only [set, mk.injEq] at hm ⊢
    induction l with
    | nil => cases hm
    | cons p l ih =>
      obtain ⟨k', v'⟩ := p
      simp only [List.map_cons, List.nodup_cons] at hn
      rcases List.mem_cons.1 hm with he | hl
      · cases he
        simp [upsert]
      · have hne : k' ≠ k := by
          rintro rfl
          exact hn.1 (List.mem_map.2 ⟨(k', v), hl, rfl⟩)
        simp only [upsert, if_neg hne]
        rw [ih hn.2 (get?_eq_some.2 hl) hl]

theorem set_set (d : Dict κ ν) (k : κ) (v w : ν) : (d.set k v).set k w = d.set k w := by
  cases d with
  | mk l hn =>
    simp only [set, mk.injEq]
    clear hn
    induction l with
    | nil => simp [upsert]
    | cons p l ih =>
      simp only [upsert]
      split
      · simp [upsert]
      · next hp => simp only [upsert, if_neg hp, ih]

theorem erase_of_get?_none (h : d.get? k = none) : d.erase k = d := by
  have hk := get?_eq_none.1 h
  cases d with
  | mk l hn =>
    simp only [erase, mk.injEq, List.filter_eq_self]
    intro p hp
    have hne : p.1 ≠ k := fun he => hk (List.mem_map.2 ⟨p, hp, he⟩)
    simpa using hne

theorem entries_perm (h : d.get? k = some v) :
    d.entries.Perm ((k, v) :: (d.erase k).entries) := by
  have hrest : (k, v) ∉ (d.erase k).entries := by
    rw [← get?_eq_some, get?_erase_self]
    exact nofun
  rw [List.perm_ext_iff_of_nodup d.nodup.of_map
    (List.nodup_cons.2 ⟨hrest, (d.erase k).nodup.of_map⟩)]
  rintro ⟨k', v'⟩
  rw [List.mem_cons, ← get?_eq_some, ← get?_eq_some, get?_erase]
  by_cases hk : k' = k
  · subst hk
    simp [h, eq_comm]
  · simp [hk]

theorem count_erase (h : d.get? k = some w) (p : ν → Bool) :
    (d.erase k).count p + (if p w then 1 else 0) = d.count p := by
  rw [count, count, values, values, ((entries_perm h).map Prod.snd).countP_eq, List.map_cons,
    List.countP_cons]

theorem keys_perm (h : d.get? k = some v) : d.keys.Perm (k :: (d.erase k).keys) :=
  (entries_perm h).map Prod.fst

theorem size_erase (h : d.get? k = some v) : (d.erase k).size + 1 = d.size :=
  (entries_perm h).length_eq.symm

/-- What one key contributes to a count. -/
def weight (p : ν → Bool) (v : Option ν) : Nat := if v.any p then 1 else 0

@[simp] theorem weight_none (p : ν → Bool) : weight p none = 0 := rfl

@[simp] theorem weight_some (p : ν → Bool) (v : ν) :
    weight p (some v) = if p v then 1 else 0 := rfl

theorem count_erase_add (d : Dict κ ν) (k : κ) (p : ν → Bool) :
    (d.erase k).count p + weight p (d.get? k) = d.count p := by
  cases h : d.get? k with
  | none => rw [erase_of_get?_none h, weight_none, Nat.add_zero]
  | some w => exact count_erase h p

theorem erase_perm {d d' : Dict κ ν} (h : ∀ k' ≠ k, d'.get? k' = d.get? k') :
    (d'.erase k).entries.Perm (d.erase k).entries := by
  apply (List.perm_ext_iff_of_nodup (d'.erase k).nodup.of_map (d.erase k).nodup.of_map).2
  rintro ⟨k', v⟩
  rw [← get?_eq_some, ← get?_eq_some]
  by_cases hk : k' = k
  · subst hk
    simp
  · rw [get?_erase_ne hk, get?_erase_ne hk, h k' hk]

/-- Two maps that differ at one key differ in count by what that key contributes. -/
theorem count_agree {d e : Dict κ ν} (h : ∀ k' ≠ k, e.get? k' = d.get? k') (p : ν → Bool) :
    e.count p + weight p (d.get? k) = d.count p + weight p (e.get? k) := by
  have he : (e.erase k).count p = (d.erase k).count p :=
    ((erase_perm h).map Prod.snd).countP_eq p
  have h₁ := count_erase_add d k p
  have h₂ := count_erase_add e k p
  omega

omit [DecidableEq κ] in
/-- The sum of a quantity over the values. -/
def sum (d : Dict κ ν) (f : ν → Nat) : Nat := (d.values.map f).sum

theorem sum_erase_add (d : Dict κ ν) (k : κ) (f : ν → Nat) :
    (d.erase k).sum f + (d.get? k).elim 0 f = d.sum f := by
  cases h : d.get? k with
  | none => rw [erase_of_get?_none h, Option.elim_none, Nat.add_zero]
  | some v =>
    rw [sum, sum, values, values, (((entries_perm h).map Prod.snd).map f).sum_nat, List.map_cons,
      List.map_cons, List.sum_cons, Option.elim_some, Nat.add_comm]

theorem sum_agree {d e : Dict κ ν} (h : ∀ k' ≠ k, e.get? k' = d.get? k') (f : ν → Nat) :
    e.sum f + (d.get? k).elim 0 f = d.sum f + (e.get? k).elim 0 f := by
  have he : (e.erase k).sum f = (d.erase k).sum f :=
    (((erase_perm h).map Prod.snd).map f).sum_nat
  have h₁ := sum_erase_add d k f
  have h₂ := sum_erase_add e k f
  omega

omit [DecidableEq κ] in
theorem size_eq_count : d.size = d.count (fun _ => true) := by
  simp [size, count, values]

omit [DecidableEq κ] in
theorem count_eq_length (d : Dict κ ν) (p : ν → Bool) :
    d.count p = ((d.entries.filter (fun e => p e.2)).map Prod.fst).length := by
  rw [count, values, List.countP_map, List.countP_eq_length_filter, List.length_map]
  rfl

theorem count_le_length {p : ν → Bool} {l : List κ}
    (h : ∀ k v, d.get? k = some v → p v → k ∈ l) : d.count p ≤ l.length := by
  rw [count_eq_length]
  have hnd : ((d.entries.filter (fun e => p e.2)).map Prod.fst).Nodup :=
    d.nodup.sublist (List.filter_sublist.map Prod.fst)
  apply (List.subperm_of_subset hnd _).length_le
  intro k hk
  obtain ⟨⟨k', v⟩, hm, rfl⟩ := List.mem_map.1 hk
  obtain ⟨hm, hp⟩ := List.mem_filter.1 hm
  exact h k' v (get?_eq_some.2 hm) hp

theorem length_le_count {p : ν → Bool} {l : List κ} (hl : l.Nodup)
    (h : ∀ k ∈ l, ∃ v, d.get? k = some v ∧ p v) : l.length ≤ d.count p := by
  rw [count_eq_length]
  apply (List.subperm_of_subset hl _).length_le
  intro k hk
  obtain ⟨v, hv, hp⟩ := h k hk
  exact List.mem_map.2 ⟨(k, v), List.mem_filter.2 ⟨get?_eq_some.1 hv, hp⟩, rfl⟩

theorem count_le_of_get? {d' : Dict κ μ} {p : ν → Bool} {q : μ → Bool}
    (h : ∀ k v, d.get? k = some v → p v → ∃ w, d'.get? k = some w ∧ q w) :
    d.count p ≤ d'.count q := by
  rw [d'.count_eq_length]
  apply count_le_length
  intro k v hv hp
  obtain ⟨w, hw, hq⟩ := h k v hv hp
  exact List.mem_map.2 ⟨(k, w), List.mem_filter.2 ⟨get?_eq_some.1 hw, hq⟩, rfl⟩

end Dict
