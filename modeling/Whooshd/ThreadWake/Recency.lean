import Whooshd.Library.Recency
import Whooshd.ThreadWake.Limits

namespace Whooshd.ThreadWake
set_option autoImplicit true

namespace ThreadWakeIndex

/-- The key that a call inserts or promotes. -/
def touchedKey (sha256Hex : String → String) (allowGlobal : Bool) (ix : ThreadWakeIndex) :
    IndexCall → Option String
  | .putObservation a => if a.scope = .global ∧ allowGlobal = false then none else some a.cacheKey
  | .get key ctx => (ix.visible sha256Hex allowGlobal key ctx).map fun _ => key
  | .markReady key | .markCandidateSelected key => (ix.entries.get? key).map fun _ => key
  | .markStale _ | .evict _ | .flush _ => none

/-- The list is without duplicates, its elements are the keys of the entries, and they stand in
the order in which they were last inserted or promoted. -/
structure Represents (ix : ThreadWakeIndex) (touched : List String) : Prop where
  nodup : ix.lru.Nodup
  keys : ∀ key, key ∈ ix.lru ↔ ix.entries.contains key = true
  order : ix.lru = touched.dedup.filter fun key => ix.entries.contains key

/-- One round of the eviction loop, which has none where it breaks off. -/
def evictRound (ix : ThreadWakeIndex) : Option (Except String ThreadWakeIndex) :=
  if ix.overLimits then
    match ix.lru with
    | [] => none
    | key :: keys =>
      match ix.entries.get? key with
      | none => some (.error key)
      | some _ => some (.ok { ix with
          entries := ix.entries.erase key, lru := keys, evictions := ix.evictions + 1 })
  else none

/-- The first keys of the list are gone, and their entries with them. -/
def dropOldest (ix : ThreadWakeIndex) (n : Nat) : ThreadWakeIndex :=
  { ix with
    entries := (ix.lru.take n).foldl Dict.erase ix.entries
    lru := ix.lru.drop n
    evictions := ix.evictions + n }

/-- The eviction loop ends after some rounds, none of which looks up a missing key. Each takes the
first key of the list, and none is made once both limits are met. -/
structure EvictsOldest (ix : ThreadWakeIndex) (n : Nat) : Prop where
  bounded : n ≤ ix.lru.length
  rounds : ∀ m < n, (ix.dropOldest m).evictRound = some (.ok (ix.dropOldest (m + 1)))
  ended : (ix.dropOldest n).evictRound = none
  result : ix.evictIfNeeded = (ix.dropOldest n, none)
  needed : ∀ m < n, ¬ (ix.dropOldest m).Within
  enough : (ix.dropOldest n).Within ∨ (ix.dropOldest n).lru = []

/-- The index at the time at which the eviction for a new entry begins. -/
def inserted (sha256Hex : String → String) (ix : ThreadWakeIndex) (a : PutArgs) :
    ThreadWakeIndex :=
  { ix with
    entries := ix.entries.set a.cacheKey (ix.putEntry sha256Hex a)
    lru := ix.lru ++ [a.cacheKey] }

variable {sha256Hex : String → String} {allowGlobal : Bool} {ix ix' : ThreadWakeIndex}

theorem evictLoop_lru (ix : ThreadWakeIndex) (lru keys : List String) :
    evictLoop { ix with lru } keys = evictLoop ix keys := by
  induction keys generalizing ix with
  | nil => rfl
  | cons key keys ih =>
    have hover : overLimits { ix with lru } = ix.overLimits := rfl
    rw [evictLoop, evictLoop, hover]
    cases ix.overLimits with
    | false => rfl
    | true =>
      cases hget : ix.entries.get? key with
      | none => rfl
      | some e =>
        exact ih { ix with entries := ix.entries.erase key, evictions := ix.evictions + 1 }

theorem evictRound_nil (hlru : ix.lru = []) : ix.evictRound = none := by
  rw [evictRound, hlru]
  exact ite_self none

theorem evictIfNeeded_round (ix : ThreadWakeIndex) :
    ix.evictIfNeeded =
      match ix.evictRound with
      | none => (ix, none)
      | some (.error key) => (ix, some key)
      | some (.ok ix') => ix'.evictIfNeeded := by
  cases hlru : ix.lru with
  | nil =>
    rw [evictRound_nil hlru, evictIfNeeded, hlru, evictLoop, ← hlru]
  | cons key keys =>
    have hsame : { ix with lru := key :: keys } = ix := by rw [← hlru]
    rw [evictIfNeeded, evictRound, hlru, evictLoop, hsame]
    cases ix.overLimits with
    | false => rfl
    | true =>
      cases hget : ix.entries.get? key with
      | none => simp only [if_true, hget]
      | some e =>
        simp only [if_true, hget]
        exact (evictLoop_lru _ keys keys).symm

theorem dropOldest_zero (ix : ThreadWakeIndex) : ix.dropOldest 0 = ix := rfl

theorem dropOldest_succ (hlru : ix.lru = key :: keys) (n : Nat) :
    ix.dropOldest (n + 1) =
      dropOldest { ix with
        entries := ix.entries.erase key, lru := keys, evictions := ix.evictions + 1 } n := by
  simp only [dropOldest, hlru, List.take_succ_cons, List.drop_succ_cons, List.foldl_cons,
    Nat.add_assoc, Nat.add_comm 1 n]

theorem listed_erase (h : ix.Listed) (hlru : ix.lru = key :: keys)
    (hget : ix.entries.get? key = some e) :
    Listed { ix with
      entries := ix.entries.erase key, lru := keys, evictions := ix.evictions + 1 } := by
  rw [Listed, hlru] at h
  exact (h.trans (Dict.keys_perm hget)).cons_inv

/-- A listed index is evicted from the front of its list, until it is within the limits. -/
theorem Listed.evictsOldest (h : ix.Listed) :
    ∃ n, EvictsOldest ix n ∧ (ix.dropOldest n).Listed := by
  generalize hlru : ix.lru = lru
  induction lru generalizing ix with
  | nil =>
    have hround := evictRound_nil hlru
    refine ⟨0, ⟨Nat.zero_le _, by simp, hround, ?_, by simp, .inr hlru⟩, h⟩
    rw [evictIfNeeded_round, hround]
    rfl
  | cons key keys ih =>
    cases hover : ix.overLimits with
    | false =>
      have hround : ix.evictRound = none := by
        rw [evictRound, hover]
        rfl
      refine ⟨0, ⟨Nat.zero_le _, by simp, hround, ?_, by simp, .inl ?_⟩, h⟩
      · rw [evictIfNeeded_round, hround]
        rfl
      · exact overLimits_eq_false.mp hover
    | true =>
      have hmem : key ∈ ix.entries.keys := h.mem_iff.mp (hlru ▸ List.mem_cons_self)
      obtain ⟨e, hget⟩ := Option.isSome_iff_exists.mp (Dict.mem_keys.mp hmem)
      have hround : ix.evictRound = some (.ok { ix with
          entries := ix.entries.erase key, lru := keys, evictions := ix.evictions + 1 }) := by
        rw [evictRound, hover, hlru]
        simp only [hget, if_true]
      have hnot : ¬ ix.Within := by
        rw [← overLimits_eq_false, hover]
        exact Bool.noConfusion
      obtain ⟨n, hn, hlisted⟩ := ih (listed_erase h hlru hget) rfl
      have hdrop := dropOldest_succ hlru
      refine ⟨n + 1, ⟨?_, ?_, ?_, ?_, ?_, ?_⟩, ?_⟩
      · rw [hlru]
        exact Nat.succ_le_succ hn.bounded
      · intro m hm
        cases m with
        | zero => rw [dropOldest_zero, hround, hdrop, dropOldest_zero]
        | succ m =>
          rw [hdrop, hdrop]
          exact hn.rounds m (by omega)
      · rw [hdrop]
        exact hn.ended
      · rw [evictIfNeeded_round, hround, hdrop]
        exact hn.result
      · intro m hm
        cases m with
        | zero => exact hnot
        | succ m =>
          rw [hdrop]
          exact hn.needed m (by omega)
      · rw [hdrop]
        exact hn.enough
      · rw [hdrop]
        exact hlisted

/-- What is kept of an index between two calls. -/
structure Kept (ix : ThreadWakeIndex) (touched : List String) : Prop where
  listed : ix.Listed
  recent : RecentlyUsed ix.lru touched

theorem Kept.represents (h : Kept ix touched) : ix.Represents touched := by
  have hkeys : ∀ key, key ∈ ix.lru ↔ ix.entries.contains key = true := by
    intro key
    rw [← Dict.mem_keys]
    exact h.listed.mem_iff
  exact ⟨h.recent.nodup, hkeys, h.recent.eq_filter hkeys⟩

theorem kept_init (limits : IndexLimits) : Kept (init limits) [] := ⟨List.Perm.nil, .nil⟩

theorem inserted_kept (sha256Hex : String → String) (h : Kept ix touched) (a : PutArgs)
    (hnew : ix.entries.get? a.cacheKey = none) :
    Kept (ix.inserted sha256Hex a) (touched ++ [a.cacheKey]) := by
  have hlru : a.cacheKey ∉ ix.lru := by
    rw [h.listed.mem_iff]
    exact Dict.get?_eq_none.mp hnew
  refine ⟨?_, h.recent.append_new hlru⟩
  rw [Listed, inserted, Dict.keys, Dict.entries_set_new hnew, List.map_append, List.map_singleton]
  exact h.listed.append_right _

/-- An observation of a new key is an insertion with the evictions that it calls for. -/
theorem putObservation_new (a : PutArgs) (hglobal : ¬ (a.scope = .global ∧ allowGlobal = false))
    (hnew : ix.entries.get? a.cacheKey = none) :
    ix.putObservation sha256Hex allowGlobal a =
      ((ix.inserted sha256Hex a).evictIfNeeded.1,
        (ix.inserted sha256Hex a).evictIfNeeded.2.map .missingKey) := by
  rw [putObservation, if_neg hglobal, hnew]
  rfl

theorem putObservation_kept (h : Kept ix touched) (a : PutArgs) :
    Kept (ix.putObservation sha256Hex allowGlobal a).1
      (touched ++ (ix.touchedKey sha256Hex allowGlobal (.putObservation a)).toList) := by
  by_cases hglobal : a.scope = .global ∧ allowGlobal = false
  · rw [putObservation, if_pos hglobal, touchedKey, if_pos hglobal, Option.toList_none,
      List.append_nil]
    exact h
  · rw [touchedKey, if_neg hglobal, Option.toList_some]
    cases hget : ix.entries.get? a.cacheKey with
    | some e =>
      rw [putObservation, if_neg hglobal, hget]
      exact ⟨promoted_listed h.listed hget _, h.recent.promote a.cacheKey⟩
    | none =>
      have hinserted := inserted_kept sha256Hex h a hget
      obtain ⟨n, hn, hlisted⟩ := hinserted.listed.evictsOldest
      rw [putObservation_new a hglobal hget, hn.result]
      exact ⟨hlisted, hinserted.recent.sublist (List.drop_sublist n _)⟩

theorem get_kept (h : Kept ix touched) (key : String) (ctx : ScopeContext) :
    Kept (ix.get sha256Hex allowGlobal key ctx).1
      (touched ++ (ix.touchedKey sha256Hex allowGlobal (.get key ctx)).toList) := by
  refine ⟨(get_shrinks h.listed key ctx).listed, ?_⟩
  rw [get, touchedKey]
  split
  · next hnone =>
    rw [hnone, Option.map_none, Option.toList_none, List.append_nil]
    exact h.recent
  · next e hsome =>
    rw [hsome]
    exact h.recent.promote key

theorem markReady_kept (h : Kept ix touched) (key : String) :
    Kept (ix.markReady key)
      (touched ++ (ix.touchedKey sha256Hex allowGlobal (.markReady key)).toList) := by
  refine ⟨(markReady_shrinks h.listed key).listed, ?_⟩
  rw [markReady, touchedKey]
  split
  · next hnone =>
    rw [hnone, Option.map_none, Option.toList_none, List.append_nil]
    exact h.recent
  · next e hsome =>
    rw [hsome]
    exact h.recent.promote key

theorem markCandidateSelected_kept (h : Kept ix touched) (key : String) :
    Kept (ix.markCandidateSelected key).1
      (touched ++ (ix.touchedKey sha256Hex allowGlobal (.markCandidateSelected key)).toList) := by
  refine ⟨(markCandidateSelected_shrinks h.listed key).listed, ?_⟩
  rw [markCandidateSelected, touchedKey]
  split
  · next hnone =>
    rw [hnone, Option.map_none, Option.toList_none, List.append_nil]
    exact h.recent
  · next e hsome =>
    rw [hsome]
    exact h.recent.promote key

theorem foldl_erase_sublist (keys lru : List String) : (keys.foldl List.erase lru).Sublist lru := by
  induction keys generalizing lru with
  | nil => exact .refl _
  | cons key keys ih => exact (ih (lru.erase key)).trans List.erase_sublist

theorem flush_sublist (ix : ThreadWakeIndex) (f : FlushFilter) :
    (ix.flush f).1.lru.Sublist ix.lru := by
  unfold flush
  split
  · exact List.nil_sublist _
  · exact foldl_erase_sublist _ _

theorem evict_sublist (ix : ThreadWakeIndex) (key : String) :
    (ix.evict key).lru.Sublist ix.lru := by
  unfold evict
  split
  · exact .refl _
  · exact List.erase_sublist

theorem call_kept (h : Kept ix touched) (c : IndexCall) :
    Kept (ix.call sha256Hex allowGlobal c)
      (touched ++ (ix.touchedKey sha256Hex allowGlobal c).toList) := by
  cases c with
  | putObservation a => exact putObservation_kept h a
  | get key ctx => exact get_kept h key ctx
  | markReady key => exact markReady_kept h key
  | markCandidateSelected key => exact markCandidateSelected_kept h key
  | markStale key =>
    rw [touchedKey, Option.toList_none, List.append_nil]
    exact ⟨(markStale_shrinks h.listed key).listed, h.recent⟩
  | evict key =>
    rw [touchedKey, Option.toList_none, List.append_nil]
    exact ⟨(evict_shrinks h.listed key).listed, h.recent.sublist (evict_sublist ix key)⟩
  | flush f =>
    rw [touchedKey, Option.toList_none, List.append_nil]
    exact ⟨(flush_shrinks h.listed f).listed, h.recent.sublist (flush_sublist ix f)⟩

end ThreadWakeIndex

/-- An index that tells which keys its calls insert or promote. -/
def touchingIndex (sha256Hex : String → String) (allowGlobal : Bool) :
    Machine ThreadWakeIndex IndexCall String where
  step ix c :=
    some (ix.call sha256Hex allowGlobal c, (ix.touchedKey sha256Hex allowGlobal c).toList)

theorem touchingIndex_kept (sha256Hex : String → String) (allowGlobal : Bool)
    (h : ThreadWakeIndex.Kept ix touched) (calls : List IndexCall) :
    ∃ ix' more, (touchingIndex sha256Hex allowGlobal).exec ix calls = some (ix', more) ∧
      ThreadWakeIndex.Kept ix' (touched ++ more) := by
  induction calls generalizing ix touched with
  | nil =>
    refine ⟨ix, [], rfl, ?_⟩
    rwa [List.append_nil]
  | cons c calls ih =>
    obtain ⟨ix', more, hexec, hkept⟩ := ih (ThreadWakeIndex.call_kept h c)
    rw [List.append_assoc] at hkept
    exact ⟨ix', _, Machine.exec_cons.mpr ⟨_, _, more, rfl, hexec, rfl⟩, hkept⟩

/-- After any calls the list represents the entries, and a new entry is made room for by evictions
of the keys that have been left alone for the longest time. -/
theorem lru_represents (sha256Hex : String → String) (allowGlobal : Bool) (limits : IndexLimits)
    (calls : List IndexCall) :
    ∃ ix touched,
      (touchingIndex sha256Hex allowGlobal).exec (.init limits) calls = some (ix, touched) ∧
      ix.Represents touched ∧
      ∀ a : PutArgs, ¬ (a.scope = .global ∧ allowGlobal = false) →
        ix.entries.get? a.cacheKey = none →
        (ix.inserted sha256Hex a).Represents (touched ++ [a.cacheKey]) ∧
        ∃ n, (ix.inserted sha256Hex a).EvictsOldest n ∧
          ix.putObservation sha256Hex allowGlobal a =
            ((ix.inserted sha256Hex a).dropOldest n, none) := by
  obtain ⟨ix, touched, hexec, hkept⟩ := touchingIndex_kept sha256Hex allowGlobal
    (ThreadWakeIndex.kept_init limits) calls
  rw [List.nil_append] at hkept
  refine ⟨ix, touched, hexec, hkept.represents, ?_⟩
  intro a hglobal hnew
  have hinserted := ThreadWakeIndex.inserted_kept sha256Hex hkept a hnew
  obtain ⟨n, hn, -⟩ := hinserted.listed.evictsOldest
  refine ⟨hinserted.represents, n, hn, ?_⟩
  rw [ThreadWakeIndex.putObservation_new a hglobal hnew, hn.result]
  rfl

end Whooshd.ThreadWake
