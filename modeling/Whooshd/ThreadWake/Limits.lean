import Whooshd.ThreadWake.Index
import Whooshd.Library.Machine

namespace Whooshd.ThreadWake
set_option autoImplicit true

/-- The calls that write to an index. -/
inductive IndexCall where
  | putObservation (a : PutArgs)
  | get (key : String) (ctx : ScopeContext)
  | markReady (key : String)
  | markStale (key : String)
  | markCandidateSelected (key : String)
  | evict (key : String)
  | flush (f : ThreadWakeIndex.FlushFilter)
  deriving DecidableEq, Repr

namespace ThreadWakeIndex

def call (sha256Hex : String → String) (allowGlobal : Bool) (ix : ThreadWakeIndex) :
    IndexCall → ThreadWakeIndex
  | .putObservation a => (ix.putObservation sha256Hex allowGlobal a).1
  | .get key ctx => (ix.get sha256Hex allowGlobal key ctx).1
  | .markReady key => ix.markReady key
  | .markStale key => ix.markStale key
  | .markCandidateSelected key => (ix.markCandidateSelected key).1
  | .evict key => ix.evict key
  | .flush f => (ix.flush f).1

/-- No limit is exceeded. -/
def Within (ix : ThreadWakeIndex) : Prop :=
  ix.entries.size ≤ ix.limits.maxEntries ∧
    (0 < ix.limits.maxMemoryBytes → ix.totalMemory ≤ ix.limits.maxMemoryBytes)

instance (ix : ThreadWakeIndex) : Decidable ix.Within := inferInstanceAs (Decidable (_ ∧ _))

/-- A new estimate for an entry that is there leaves the total within the memory limit. -/
def UpdateFits (allowGlobal : Bool) (ix : ThreadWakeIndex) : IndexCall → Prop
  | .putObservation a => a.scope = .global ∧ allowGlobal = false ∨
      ∀ e, ix.entries.get? a.cacheKey = some e → 0 < ix.limits.maxMemoryBytes →
        (ix.totalMemory : Int) - e.estimatedMemoryBytes + estimateMemory ix.limits a.tokenCount ≤
          ix.limits.maxMemoryBytes
  | _ => True

instance (allowGlobal : Bool) (ix : ThreadWakeIndex) : DecidablePred (ix.UpdateFits allowGlobal)
  | .putObservation a => inferInstanceAs (Decidable (_ ∨ ∀ e ∈ ix.entries.get? a.cacheKey,
      0 < ix.limits.maxMemoryBytes → _))
  | .get .. | .markReady _ | .markStale _ | .markCandidateSelected _ | .evict _ | .flush _ =>
    .isTrue trivial

/-- The LRU list names the entries, each once. -/
def Listed (ix : ThreadWakeIndex) : Prop := ix.lru.Perm ix.entries.keys

variable {sha256Hex : String → String} {allowGlobal : Bool} {ix ix' : ThreadWakeIndex}

theorem totalMemory_eq (ix : ThreadWakeIndex) :
    ix.totalMemory = ix.entries.sum (·.estimatedMemoryBytes) := by
  rw [totalMemory, Dict.sum, List.sum_eq_foldl, List.foldl_map]

theorem overLimits_eq_false : ix.overLimits = false ↔ ix.Within := by
  rw [overLimits, Within, Bool.or_eq_false_iff, Bool.and_eq_false_iff, decide_eq_false_iff_not,
    decide_eq_false_iff_not, decide_eq_false_iff_not, not_lt, not_lt, not_lt]
  constructor
  · rintro ⟨hsize, hmemory⟩
    refine ⟨hsize, fun hpos => ?_⟩
    rcases hmemory with hzero | hmemory
    · omega
    · exact hmemory
  · rintro ⟨hsize, hmemory⟩
    refine ⟨hsize, ?_⟩
    by_cases hpos : 0 < ix.limits.maxMemoryBytes
    · exact .inr (hmemory hpos)
    · exact .inl (by omega)

theorem Within.mono (h : ix.Within) (hlimits : ix'.limits = ix.limits)
    (hsize : ix'.entries.size ≤ ix.entries.size) (hmemory : ix'.totalMemory ≤ ix.totalMemory) :
    ix'.Within := by
  refine ⟨?_, fun hpos => ?_⟩
  · rw [hlimits]
    have hle := h.1
    omega
  · rw [hlimits] at hpos ⊢
    have hle := h.2 hpos
    omega

theorem within_empty (hmax : 0 ≤ ix.limits.maxEntries) (hempty : ix.entries.keys = []) :
    ix.Within := by
  have hentries : ix.entries.entries = [] := List.map_eq_nil_iff.mp hempty
  refine ⟨?_, fun hpos => ?_⟩
  · rw [Dict.size, hentries]
    exact hmax
  · rw [totalMemory, Dict.values, hentries]
    exact hpos.le

/-- The eviction loop stops within the limits, whatever it starts from. -/
theorem evictLoop_within (hmax : 0 ≤ ix.limits.maxEntries) (hlisted : keys.Perm ix.entries.keys) :
    (ix.evictLoop keys).1.Within ∧ (ix.evictLoop keys).1.Listed ∧
      (ix.evictLoop keys).1.limits = ix.limits ∧ (ix.evictLoop keys).2 = none := by
  induction keys generalizing ix with
  | nil =>
    have hempty : ix.entries.keys = [] := List.nil_perm.mp hlisted
    refine ⟨within_empty hmax hempty, ?_, rfl, rfl⟩
    rw [Listed, show (ix.evictLoop []).1.entries.keys = [] from hempty]
    exact List.Perm.nil
  | cons key keys ih =>
    rw [evictLoop]
    split
    · split
      · next hnone =>
        have hmem : key ∈ ix.entries.keys := hlisted.mem_iff.mp List.mem_cons_self
        exact absurd hmem (Dict.get?_eq_none.mp hnone)
      · next e hget =>
        have hrest : keys.Perm (ix.entries.erase key).keys :=
          (hlisted.trans (Dict.keys_perm hget)).cons_inv
        exact ih hmax hrest
    · next hover =>
      rw [Bool.not_eq_true] at hover
      exact ⟨overLimits_eq_false.mp hover, hlisted, rfl, rfl⟩

/-- Calls that add no entry and enlarge none. -/
structure Shrinks (ix ix' : ThreadWakeIndex) : Prop where
  limits : ix'.limits = ix.limits
  listed : ix'.Listed
  size : ix'.entries.size ≤ ix.entries.size
  memory : ix'.totalMemory ≤ ix.totalMemory

theorem Shrinks.refl (h : ix.Listed) : Shrinks ix ix := ⟨rfl, h, le_rfl, le_rfl⟩

theorem Shrinks.trans (h : Shrinks ix ix') (h' : Shrinks ix' ix'') : Shrinks ix ix'' :=
  ⟨h'.limits.trans h.limits, h'.listed, h'.size.trans h.size, h'.memory.trans h.memory⟩

theorem Shrinks.within (h : Shrinks ix ix') (hw : ix.Within) : ix'.Within :=
  hw.mono h.limits h.size h.memory

section Replace

variable {d : Dict String ThreadWakeIndexEntry}

theorem keys_replace (hget : d.get? key = some e) (e' : ThreadWakeIndexEntry) :
    (d.set key e').keys = d.keys := by
  have hmem : d.contains key = true := by rw [Dict.contains, hget, Option.isSome_some]
  rw [Dict.keys_set, if_pos hmem]

theorem sum_replace (hget : d.get? key = some e) (e' : ThreadWakeIndexEntry)
    (f : ThreadWakeIndexEntry → Nat) : (d.set key e').sum f + f e = d.sum f + f e' := by
  have hsum := Dict.sum_agree (fun k' hne => d.get?_set_ne hne e') f (k := key)
  rwa [hget, Dict.get?_set_self] at hsum

end Replace

theorem promoted_listed (h : ix.Listed) (hget : ix.entries.get? key = some e)
    (e' : ThreadWakeIndexEntry) :
    (ix.lru.erase key ++ [key]).Perm (ix.entries.set key e').keys := by
  have hmem : key ∈ ix.lru := by
    rw [h.mem_iff, Dict.mem_keys, Dict.contains, hget, Option.isSome_some]
  rw [keys_replace hget]
  exact (List.perm_append_singleton _ _).trans ((List.perm_cons_erase hmem).symm.trans h)

theorem replaced_shrinks (h : ix.Listed) (hget : ix.entries.get? key = some e)
    (hlimits : ix'.limits = ix.limits) (hentries : ix'.entries = ix.entries.set key e')
    (hlru : ix'.lru = ix.lru.erase key ++ [key] ∨ ix'.lru = ix.lru)
    (hmemory : e'.estimatedMemoryBytes = e.estimatedMemoryBytes) : Shrinks ix ix' := by
  refine ⟨hlimits, ?_, ?_, ?_⟩
  · rw [Listed, hentries]
    rcases hlru with hlru | hlru
    · rw [hlru]
      exact promoted_listed h hget e'
    · rw [hlru, keys_replace hget]
      exact h
  · have hkeys := congrArg List.length (keys_replace hget e')
    rw [Dict.keys, Dict.keys, List.length_map, List.length_map] at hkeys
    rw [hentries]
    exact hkeys.le
  · have hsum := sum_replace hget e' (·.estimatedMemoryBytes)
    rw [totalMemory_eq, totalMemory_eq, hentries]
    omega

theorem visible_get? (h : ix.visible sha256Hex allowGlobal key ctx = some e) :
    ix.entries.get? key = some e := by
  unfold visible at h
  split at h
  · cases h
  · next e' hget =>
    split_ifs at h
    cases h
    exact hget

theorem get_shrinks (h : ix.Listed) (key : String) (ctx : ScopeContext) :
    Shrinks ix (ix.get sha256Hex allowGlobal key ctx).1 := by
  unfold get
  split
  · exact ⟨rfl, h, le_rfl, le_rfl⟩
  · next e hvisible =>
    exact replaced_shrinks h (visible_get? hvisible) rfl rfl (.inl rfl) rfl

theorem markReady_shrinks (h : ix.Listed) (key : String) : Shrinks ix (ix.markReady key) := by
  unfold markReady
  split
  · exact .refl h
  · next e hget => exact replaced_shrinks h hget rfl rfl (.inl rfl) rfl

theorem markStale_shrinks (h : ix.Listed) (key : String) : Shrinks ix (ix.markStale key) := by
  unfold markStale Dict.modify
  split
  · exact .refl h
  · next e hget => exact replaced_shrinks h hget rfl rfl (.inr rfl) rfl

theorem markCandidateSelected_shrinks (h : ix.Listed) (key : String) :
    Shrinks ix (ix.markCandidateSelected key).1 := by
  unfold markCandidateSelected
  split
  · exact .refl h
  · next e hget => exact replaced_shrinks h hget rfl rfl (.inl rfl) rfl

theorem erased_shrinks (h : ix.Listed) (hget : ix.entries.get? key = some e)
    (hlimits : ix'.limits = ix.limits) (hentries : ix'.entries = ix.entries.erase key)
    (hlru : ix'.lru = ix.lru.erase key) : Shrinks ix ix' := by
  refine ⟨hlimits, ?_, ?_, ?_⟩
  · rw [Listed, hentries, hlru]
    have hperm := (h.trans (Dict.keys_perm hget)).erase key
    rwa [List.erase_cons_head] at hperm
  · have hsize := Dict.size_erase hget
    rw [hentries]
    omega
  · have hsum := Dict.sum_erase_add ix.entries key (·.estimatedMemoryBytes)
    rw [totalMemory_eq, totalMemory_eq, hentries]
    omega

theorem evict_shrinks (h : ix.Listed) (key : String) : Shrinks ix (ix.evict key) := by
  unfold evict
  split
  · exact .refl h
  · next e hget => exact erased_shrinks h hget rfl rfl rfl

theorem eraseAll_shrinks (h : ix.Listed) (keys : List String) :
    Shrinks ix { ix with
      entries := keys.foldl Dict.erase ix.entries, lru := keys.foldl List.erase ix.lru } := by
  induction keys generalizing ix with
  | nil => exact .refl h
  | cons key keys ih =>
    have hone : Shrinks ix { ix with
        entries := ix.entries.erase key, lru := ix.lru.erase key } := by
      cases hget : ix.entries.get? key with
      | none =>
        have hlru : key ∉ ix.lru := by
          rw [h.mem_iff]
          exact Dict.get?_eq_none.mp hget
        rw [Dict.erase_of_get?_none hget, List.erase_of_not_mem hlru]
        exact .refl h
      | some e => exact erased_shrinks h hget rfl rfl rfl
    exact hone.trans (ih hone.listed)

theorem flush_shrinks (h : ix.Listed) (f : FlushFilter) : Shrinks ix (ix.flush f).1 := by
  unfold flush
  split
  · refine ⟨rfl, List.Perm.nil, Nat.zero_le _, ?_⟩
    exact Nat.zero_le _
  · obtain ⟨hlimits, hlisted, hsize, hmemory⟩ := eraseAll_shrinks h
      ((ix.entries.entries.filter (fun p => f.matches p.2)).map Prod.fst)
    exact ⟨hlimits, hlisted, hsize, hmemory⟩

theorem putEntry_estimate (a : PutArgs) :
    (ix.putEntry sha256Hex a).estimatedMemoryBytes = estimateMemory ix.limits a.tokenCount := by
  unfold putEntry
  split <;> rfl

/-- An observation keeps the list, and the limits unless it enlarges an entry too far. -/
theorem putObservation_within (h : ix.Listed) (hmax : 0 ≤ ix.limits.maxEntries) (a : PutArgs) :
    (ix.putObservation sha256Hex allowGlobal a).1.Listed ∧
      (ix.putObservation sha256Hex allowGlobal a).1.limits = ix.limits ∧
      (ix.Within → ((ix.putObservation sha256Hex allowGlobal a).1.Within ↔
        ix.UpdateFits allowGlobal (.putObservation a))) := by
  unfold putObservation
  split
  · next hglobal => exact ⟨h, rfl, fun hw => ⟨fun _ => .inl hglobal, fun _ => hw⟩⟩
  · next hglobal =>
    dsimp only
    split
    · next e hget =>
      have hsum := sum_replace hget (ix.putEntry sha256Hex a) (·.estimatedMemoryBytes)
      rw [putEntry_estimate] at hsum
      have hsize : (ix.entries.set a.cacheKey (ix.putEntry sha256Hex a)).size =
          ix.entries.size := by
        have hkeys := congrArg List.length (keys_replace hget (ix.putEntry sha256Hex a))
        rwa [Dict.keys, Dict.keys, List.length_map, List.length_map] at hkeys
      refine ⟨promoted_listed h hget _, rfl, fun hw => ?_⟩
      rw [Within, totalMemory_eq]
      dsimp only [promoteLru]
      rw [hsize, UpdateFits, or_iff_right hglobal, hget, totalMemory_eq]
      constructor
      · rintro ⟨-, hmemory⟩ e' he' hpos
        cases he'
        have hle := hmemory hpos
        omega
      · intro hfits
        refine ⟨hw.1, fun hpos => ?_⟩
        have hle := hfits e rfl hpos
        omega
    · next hnone =>
      have hlisted : (ix.lru ++ [a.cacheKey]).Perm
          (ix.entries.set a.cacheKey (ix.putEntry sha256Hex a)).keys := by
        rw [Dict.keys, Dict.entries_set_new hnone, List.map_append, List.map_singleton]
        exact h.append_right _
      have hfits : ix.UpdateFits allowGlobal (.putObservation a) := by
        refine .inr fun e he => ?_
        rw [hnone] at he
        cases he
      let full : ThreadWakeIndex := { ix with
        entries := ix.entries.set a.cacheKey (ix.putEntry sha256Hex a)
        lru := ix.lru ++ [a.cacheKey] }
      have hfull : full.lru.Perm full.entries.keys := hlisted
      have hmax' : 0 ≤ full.limits.maxEntries := hmax
      obtain ⟨hwithin, hlisted', hlimits, -⟩ := evictLoop_within hmax' hfull
      exact ⟨hlisted', hlimits, fun _ => ⟨fun _ => hfits, fun _ => hwithin⟩⟩

theorem call_within (h : ix.Listed) (hmax : 0 ≤ ix.limits.maxEntries) (c : IndexCall) :
    (ix.call sha256Hex allowGlobal c).Listed ∧
      (ix.call sha256Hex allowGlobal c).limits = ix.limits ∧
      (ix.Within → ((ix.call sha256Hex allowGlobal c).Within ↔ ix.UpdateFits allowGlobal c)) := by
  have hshrinks : ∀ {ix'}, Shrinks ix ix' → ix'.Listed ∧ ix'.limits = ix.limits ∧
      (ix.Within → (ix'.Within ↔ True)) := fun h' =>
    ⟨h'.listed, h'.limits, fun hw => ⟨fun _ => trivial, fun _ => h'.within hw⟩⟩
  cases c with
  | putObservation a => exact putObservation_within h hmax a
  | get key ctx => exact hshrinks (get_shrinks h key ctx)
  | markReady key => exact hshrinks (markReady_shrinks h key)
  | markStale key => exact hshrinks (markStale_shrinks h key)
  | markCandidateSelected key => exact hshrinks (markCandidateSelected_shrinks h key)
  | evict key => exact hshrinks (evict_shrinks h key)
  | flush f => exact hshrinks (flush_shrinks h f)

end ThreadWakeIndex

/-- An index, which takes every call. -/
def threadWakeIndex (sha256Hex : String → String) (allowGlobal : Bool) :
    Machine ThreadWakeIndex IndexCall Unit where
  step ix c := some (ix.call sha256Hex allowGlobal c, [])

theorem threadWakeIndex_exec (sha256Hex : String → String) (allowGlobal : Bool)
    (calls : List IndexCall) (ix : ThreadWakeIndex) :
    ∃ r, (threadWakeIndex sha256Hex allowGlobal).exec ix calls = some r := by
  induction calls generalizing ix with
  | nil => exact ⟨_, rfl⟩
  | cons c calls ih =>
    obtain ⟨⟨t, out⟩, ht⟩ := ih (ix.call sha256Hex allowGlobal c)
    exact ⟨(t, out), Machine.exec_cons.mpr ⟨_, [], out, rfl, ht, rfl⟩⟩

/-- The limits hold throughout exactly if no observation of a key that is there takes the total
over the memory limit. -/
theorem index_limits_iff (sha256Hex : String → String) (allowGlobal : Bool) (limits : IndexLimits)
    (hmax : 0 ≤ limits.maxEntries) (calls : List IndexCall) :
    (threadWakeIndex sha256Hex allowGlobal).EachState ThreadWakeIndex.Within (.init limits) calls ↔
      (threadWakeIndex sha256Hex allowGlobal).EachStep
        (ThreadWakeIndex.UpdateFits allowGlobal) (.init limits) calls := by
  obtain ⟨r, hrun⟩ := threadWakeIndex_exec sha256Hex allowGlobal calls (.init limits)
  have hstart : (ThreadWakeIndex.init limits).Within := ThreadWakeIndex.within_empty hmax rfl
  refine Machine.eachState_iff_eachStep
    (I := fun ix => ix.Listed ∧ 0 ≤ ix.limits.maxEntries) ?_ ?_ ⟨List.Perm.nil, hmax⟩ hstart hrun
  · rintro ix c ix' out ⟨hlisted, hmax⟩ hs
    cases hs
    obtain ⟨hlisted', hlimits, -⟩ := ThreadWakeIndex.call_within hlisted hmax c
    rw [hlimits]
    exact ⟨hlisted', hmax⟩
  · rintro ix c ix' out ⟨hlisted, hmax⟩ hw hs
    cases hs
    exact (ThreadWakeIndex.call_within hlisted hmax c).2.2 hw

section Runs

/-- What a run on an index of at most a hundred bytes puts in. -/
def observation (key : String) (tokenCount : Nat) : IndexCall :=
  .putObservation
    { cacheKey := key, modelId := "m", backend := "b", promptPrefixHash := "h", tokenCount
      scope := .thread, scopeContext := .none, kvHandleId := none }

theorem index_limits_evicting : (threadWakeIndex id false).EachState ThreadWakeIndex.Within
    (.init ⟨2, 100, 10⟩) [observation "a" 5, observation "b" 4, observation "c" 3] :=
  (index_limits_iff id false ⟨2, 100, 10⟩ (by decide) _).mpr (by decide +kernel)

/-- The entry grows from one token to a thousand. -/
theorem updated_entry_over_limit : ¬ (threadWakeIndex id false).EachState ThreadWakeIndex.Within
    (.init ⟨2, 100, 10⟩) [observation "a" 1, observation "a" 1000] := by
  decide +kernel

end Runs

end Whooshd.ThreadWake
