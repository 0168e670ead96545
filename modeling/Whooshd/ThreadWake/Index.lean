import Whooshd.Library.Dict
import Whooshd.ThreadWake.Keys

namespace Whooshd.ThreadWake
set_option autoImplicit true

inductive EntryStatus where
  | observed | warming | ready | stale | evicted
  deriving DecidableEq, Repr

/-- KV handles are numbered in the order in which they are made. -/
abbrev HandleId := Nat

structure ScopeContext where
  threadId : Option String
  userId : Option String
  projectId : Option String
  deriving DecidableEq, Repr

def ScopeContext.none : ScopeContext := ⟨.none, .none, .none⟩

/-- The identity a context has for a scope. -/
def ScopeContext.identity (ctx : ScopeContext) : ThreadWakeScope → Option String
  | .thread => ctx.threadId
  | .project => ctx.projectId
  | .user => ctx.userId
  | .request | .global => .none

/-- An identity that is there and is not the empty text. -/
def present (id : Option String) : Option String := id.filter (· ≠ "")

structure ThreadWakeIndexEntry where
  cacheKey : String
  modelId : String
  backend : String
  promptPrefixHash : String
  tokenCount : Nat
  status : EntryStatus
  scope : ThreadWakeScope
  scopeId : Option String
  kvHandleId : Option HandleId
  hitCount : Nat
  estimatedMemoryBytes : Nat
  candidateSeenCount : Nat
  deriving DecidableEq, Repr

def ThreadWakeIndexEntry.touch (e : ThreadWakeIndexEntry) : ThreadWakeIndexEntry :=
  { e with hitCount := e.hitCount + 1 }

/-- A pointer to the KV handle a thread's next turn may continue from. -/
structure ThreadTip where
  threadIdHash : String
  modelId : String
  backend : String
  chainHash : String
  segmentCount : Nat
  orderedSegmentHashes : List String
  kvHandleId : Option HandleId
  deriving DecidableEq, Repr

structure IndexLimits where
  maxEntries : Int
  maxMemoryBytes : Int
  bytesPerToken : Int
  deriving DecidableEq, Repr

structure ThreadWakeIndex where
  limits : IndexLimits
  entries : Dict String ThreadWakeIndexEntry
  lru : List String
  hitCount : Nat
  missCount : Nat
  evictions : Nat
  threadTips : Dict String ThreadTip
  deriving DecidableEq

/-- What `put_observation` is called with. -/
structure PutArgs where
  cacheKey : String
  modelId : String
  backend : String
  promptPrefixHash : String
  tokenCount : Nat
  scope : ThreadWakeScope
  scopeContext : ScopeContext
  kvHandleId : Option HandleId
  deriving DecidableEq, Repr

inductive PutError where
  | globalNotAllowed
  | missingKey (key : String)
  deriving DecidableEq, Repr

def estimateMemory (limits : IndexLimits) (tokenCount : Nat) : Nat :=
  if limits.bytesPerToken ≤ 0 then 0 else tokenCount * limits.bytesPerToken.toNat

def idsMatch (lookupId entryScopeId : Option String) : Bool :=
  match lookupId, entryScopeId with
  | some a, some b => a = b
  | _, _ => false

section
variable (sha256Hex : String → String)

def scopeIdFor (scope : ThreadWakeScope) (ctx : ScopeContext) : Option String :=
  match scope with
  | .request => none
  | .global => some (sha256Hex "global")
  | scope => (ctx.identity scope).map sha256Hex

def scopeMatches (allowGlobal : Bool) (e : ThreadWakeIndexEntry) (ctx : ScopeContext) : Bool :=
  match e.scope with
  | .request => true
  | .global => allowGlobal
  | scope => idsMatch ((present (ctx.identity scope)).map sha256Hex) e.scopeId

def tipKey (threadId modelId backend : String) : String :=
  sha256Hex threadId ++ ":" ++ modelId ++ ":" ++ backend

end

def validateMonotonicAppend (previous new : List String) : Bool :=
  if previous.length = 0 then true
  else if new.length < previous.length then false
  else new.take previous.length = previous

theorem validateMonotonicAppend_iff (previous new : List String) :
    validateMonotonicAppend previous new = true ↔ previous <+: new := by
  simp only [validateMonotonicAppend]
  split
  · next h =>
    rw [List.length_eq_zero_iff.1 h]
    exact ⟨fun _ => List.nil_prefix, fun _ => rfl⟩
  · split
    · next h =>
      constructor
      · intro hf
        cases hf
      · intro hp
        have hle := hp.length_le
        omega
    · rw [decide_eq_true_eq, List.prefix_iff_eq_take]
      exact eq_comm

namespace ThreadWakeIndex

def init (limits : IndexLimits) : ThreadWakeIndex := ⟨limits, .empty, [], 0, 0, 0, .empty⟩

def promoteLru (ix : ThreadWakeIndex) (key : String) : ThreadWakeIndex :=
  { ix with lru := ix.lru.erase key ++ [key] }

def totalMemory (ix : ThreadWakeIndex) : Nat :=
  ix.entries.values.foldl (fun total e => total + e.estimatedMemoryBytes) 0

def overLimits (ix : ThreadWakeIndex) : Bool :=
  (ix.entries.size : Int) > ix.limits.maxEntries ||
    (ix.limits.maxMemoryBytes > 0 && (ix.totalMemory : Int) > ix.limits.maxMemoryBytes)

/-- Drop entries from the front of the LRU list while a limit is exceeded. A listed key
without an entry stops the loop with the error of the failed lookup. -/
def evictLoop (ix : ThreadWakeIndex) : List String → ThreadWakeIndex × Option String
  | [] => ({ ix with lru := [] }, none)
  | key :: keys =>
    if ix.overLimits then
      match ix.entries.get? key with
      | none => ({ ix with lru := key :: keys }, some key)
      | some _ => evictLoop
          { ix with entries := ix.entries.erase key, evictions := ix.evictions + 1 } keys
    else ({ ix with lru := key :: keys }, none)

def evictIfNeeded (ix : ThreadWakeIndex) : ThreadWakeIndex × Option String :=
  evictLoop ix ix.lru

/-- The entry that `put_observation` leaves under its key, before any eviction. -/
def putEntry (sha256Hex : String → String) (ix : ThreadWakeIndex) (a : PutArgs) :
    ThreadWakeIndexEntry :=
  match ix.entries.get? a.cacheKey with
  | some e =>
    { e.touch with
      tokenCount := a.tokenCount
      estimatedMemoryBytes := estimateMemory ix.limits a.tokenCount
      kvHandleId := a.kvHandleId.orElse (fun _ => e.kvHandleId)
      scope := a.scope
      scopeId := scopeIdFor sha256Hex a.scope a.scopeContext }
  | none =>
    { cacheKey := a.cacheKey
      modelId := a.modelId
      backend := a.backend
      promptPrefixHash := a.promptPrefixHash
      tokenCount := a.tokenCount
      status := .observed
      scope := a.scope
      scopeId := scopeIdFor sha256Hex a.scope a.scopeContext
      kvHandleId := a.kvHandleId
      hitCount := 0
      estimatedMemoryBytes := estimateMemory ix.limits a.tokenCount
      candidateSeenCount := 0 }

def putObservation (sha256Hex : String → String) (allowGlobal : Bool) (ix : ThreadWakeIndex)
    (a : PutArgs) : ThreadWakeIndex × Option PutError :=
  if a.scope = .global ∧ allowGlobal = false then (ix, some .globalNotAllowed)
  else
    let entries := ix.entries.set a.cacheKey (ix.putEntry sha256Hex a)
    match ix.entries.get? a.cacheKey with
    | some _ => (promoteLru { ix with entries } a.cacheKey, none)
    | none =>
      let (ix', missing) := evictIfNeeded { ix with entries, lru := ix.lru ++ [a.cacheKey] }
      (ix', missing.map .missingKey)

/-- The entry that a lookup may return: it has not been evicted or marked stale, and the
caller's context is inside its scope. -/
def visible (sha256Hex : String → String) (allowGlobal : Bool) (ix : ThreadWakeIndex)
    (key : String) (ctx : ScopeContext) : Option ThreadWakeIndexEntry :=
  match ix.entries.get? key with
  | none => none
  | some e =>
    if e.status = .evicted then none
    else if scopeMatches sha256Hex allowGlobal e ctx = false then none
    else if e.status = .stale then none
    else some e

def get (sha256Hex : String → String) (allowGlobal : Bool) (ix : ThreadWakeIndex)
    (key : String) (ctx : ScopeContext) : ThreadWakeIndex × Option ThreadWakeIndexEntry :=
  match ix.visible sha256Hex allowGlobal key ctx with
  | none => ({ ix with missCount := ix.missCount + 1 }, none)
  | some e =>
    (promoteLru { ix with
      entries := ix.entries.set key e.touch
      hitCount := ix.hitCount + 1 } key, some e.touch)

def markReady (ix : ThreadWakeIndex) (key : String) : ThreadWakeIndex :=
  match ix.entries.get? key with
  | none => ix
  | some e => promoteLru { ix with entries := ix.entries.set key { e with status := .ready } } key

def markStale (ix : ThreadWakeIndex) (key : String) : ThreadWakeIndex :=
  { ix with entries := ix.entries.modify key (fun e => { e with status := .stale }) }

def evict (ix : ThreadWakeIndex) (key : String) : ThreadWakeIndex :=
  match ix.entries.get? key with
  | none => ix
  | some _ =>
    { ix with
      entries := ix.entries.erase key
      lru := ix.lru.erase key
      evictions := ix.evictions + 1 }

/-- The filters of a flush that are given, all of which must agree. -/
structure FlushFilter where
  scope : Option ThreadWakeScope
  modelId : Option String
  scopeIdHashed : Option String
  deriving DecidableEq, Repr

def FlushFilter.matches (f : FlushFilter) (e : ThreadWakeIndexEntry) : Bool :=
  f.scope.all (· = e.scope) && f.modelId.all (· = e.modelId) &&
    f.scopeIdHashed.all (fun i => some i = e.scopeId)

def FlushFilter.any : FlushFilter := ⟨none, none, none⟩

def flush (ix : ThreadWakeIndex) (f : FlushFilter) : ThreadWakeIndex × Nat :=
  if f = .any then
    ({ ix with
      entries := .empty
      lru := []
      evictions := ix.evictions + ix.entries.size }, ix.entries.size)
  else
    let toRemove := (ix.entries.entries.filter (fun p => f.matches p.2)).map Prod.fst
    ({ ix with
      entries := toRemove.foldl Dict.erase ix.entries
      lru := toRemove.foldl List.erase ix.lru
      evictions := ix.evictions + toRemove.length }, toRemove.length)

def markCandidateSelected (ix : ThreadWakeIndex) (key : String) : ThreadWakeIndex × Bool :=
  match ix.entries.get? key with
  | none => (ix, false)
  | some e =>
    (promoteLru { ix with
      entries := ix.entries.set key
        { e with candidateSeenCount := e.candidateSeenCount + 1 } } key, true)

def getLatestForThread (sha256Hex : String → String) (ix : ThreadWakeIndex)
    (threadId modelId backend : String) : Option ThreadTip :=
  ix.threadTips.get? (tipKey sha256Hex threadId modelId backend)

def storeThreadTip (sha256Hex : String → String) (ix : ThreadWakeIndex)
    (threadId modelId backend chainHash : String) (orderedSegmentHashes : List String)
    (kvHandleId : Option HandleId) : ThreadWakeIndex :=
  let key := tipKey sha256Hex threadId modelId backend
  let tip :=
    match ix.threadTips.get? key with
    | some existing =>
      { existing with
        chainHash, orderedSegmentHashes, kvHandleId
        segmentCount := orderedSegmentHashes.length }
    | none =>
      { threadIdHash := sha256Hex threadId
        modelId, backend, chainHash, orderedSegmentHashes, kvHandleId
        segmentCount := orderedSegmentHashes.length }
  { ix with threadTips := ix.threadTips.set key tip }

def clearThreadTip (sha256Hex : String → String) (ix : ThreadWakeIndex)
    (threadId modelId backend : String) : ThreadWakeIndex :=
  { ix with threadTips := ix.threadTips.erase (tipKey sha256Hex threadId modelId backend) }

end ThreadWakeIndex

/-- What decides who may use an entry, and for what. -/
structure Seal where
  status : EntryStatus
  scope : ThreadWakeScope
  scopeId : Option String
  handle : Option HandleId
  deriving DecidableEq, Repr

def ThreadWakeIndexEntry.seal (e : ThreadWakeIndexEntry) : Seal :=
  ⟨e.status, e.scope, e.scopeId, e.kvHandleId⟩

/-- An entry may be found by a caller in its scope as long as it is not stale. -/
def Seal.Visible (sha256Hex : String → String) (allowGlobal : Bool) (s : Seal)
    (ctx : ScopeContext) : Prop :=
  s.status ≠ .stale ∧
    match s.scope with
    | .request => True
    | .global => allowGlobal = true
    | scope => idsMatch ((present (ctx.identity scope)).map sha256Hex) s.scopeId = true

namespace ThreadWakeIndex

variable {sha256Hex : String → String} {allowGlobal : Bool} {ix : ThreadWakeIndex}

def sealOf (ix : ThreadWakeIndex) (key : String) : Option Seal :=
  (ix.entries.get? key).map ThreadWakeIndexEntry.seal

theorem sealOf_eq_some {s : Seal} (h : ix.sealOf k = some s) :
    ∃ e, ix.entries.get? k = some e ∧ e.seal = s := by
  simpa only [sealOf, Option.map_eq_some_iff] using h

theorem sealOf_of_get? (h : ix.entries.get? k = some e) : ix.sealOf k = some e.seal := by
  simp only [sealOf, h, Option.map_some]

theorem visible_seal (h : ix.visible sha256Hex allowGlobal k ctx = some e) :
    ix.sealOf k = some e.seal ∧ e.seal.Visible sha256Hex allowGlobal ctx := by
  simp only [visible] at h
  split at h
  · cases h
  · next e' he =>
    split_ifs at h with h₁ h₂ h₃
    cases h
    refine ⟨sealOf_of_get? he, h₃, ?_⟩
    simp only [scopeMatches, Bool.not_eq_false] at h₂
    revert h₂
    cases he' : e.scope <;> simp_all [ThreadWakeIndexEntry.seal]

theorem get_sealOf (key : String) (ctx : ScopeContext) (k : String) :
    (ix.get sha256Hex allowGlobal key ctx).1.sealOf k = ix.sealOf k := by
  simp only [get]
  split
  · rfl
  · next e he =>
    obtain ⟨hs, -⟩ := visible_seal he
    by_cases hk : k = key
    · subst hk
      simp only [promoteLru, sealOf, Dict.get?_set_self, Option.map_some]
      exact hs.symm
    · simp only [promoteLru, sealOf, Dict.get?_set_ne hk]

theorem get_found (h : (ix.get sha256Hex allowGlobal k ctx).2 = some e) :
    ix.sealOf k = some e.seal ∧ e.seal.Visible sha256Hex allowGlobal ctx := by
  simp only [get] at h
  split at h
  · cases h
  · next e' he =>
    cases h
    obtain ⟨hs, hv⟩ := visible_seal he
    exact ⟨hs, hv⟩

@[simp] theorem get_threadTips (key : String) (ctx : ScopeContext) :
    (ix.get sha256Hex allowGlobal key ctx).1.threadTips = ix.threadTips := by
  simp only [get]
  split <;> rfl

theorem evictLoop_sealOf (h : (ix.evictLoop keys).1.sealOf k = some s) :
    ix.sealOf k = some s := by
  induction keys generalizing ix with
  | nil => exact h
  | cons key keys ih =>
    simp only [evictLoop] at h
    split at h
    · split at h
      · exact h
      · have h' := ih h
        simp only [sealOf, Dict.get?_erase] at h' ⊢
        split at h'
        · cases h'
        · exact h'
    · exact h

theorem evictLoop_threadTips (keys : List String) :
    (ix.evictLoop keys).1.threadTips = ix.threadTips := by
  induction keys generalizing ix with
  | nil => rfl
  | cons key keys ih =>
    simp only [evictLoop]
    split
    · split
      · rfl
      · exact ih
    · rfl

/-- What an observation makes of an entry: the scope and its identity are those of the
observer, while the status stays and so does the handle unless a new one is given. -/
def putSeal (sha256Hex : String → String) (old : Option Seal) (a : PutArgs) : Seal :=
  { status := (old.map (·.status)).getD .observed
    scope := a.scope
    scopeId := scopeIdFor sha256Hex a.scope a.scopeContext
    handle := a.kvHandleId.orElse (fun _ => old.bind (·.handle)) }

theorem putEntry_seal (a : PutArgs) :
    (ix.putEntry sha256Hex a).seal = putSeal sha256Hex (ix.sealOf a.cacheKey) a := by
  simp only [putEntry, putSeal, sealOf]
  cases h : ix.entries.get? a.cacheKey with
  | none => cases a.kvHandleId <;> simp [ThreadWakeIndexEntry.seal]
  | some e => simp [ThreadWakeIndexEntry.seal, ThreadWakeIndexEntry.touch]

theorem putObservation_sealOf {a : PutArgs}
    (h : (ix.putObservation sha256Hex allowGlobal a).1.sealOf k = some s) :
    ix.sealOf k = some s ∧ (k ≠ a.cacheKey ∨
        (ix.putObservation sha256Hex allowGlobal a).2 = some .globalNotAllowed) ∨
      k = a.cacheKey ∧ (a.scope = .global → allowGlobal = true) ∧
        s = putSeal sha256Hex (ix.sealOf a.cacheKey) a := by
  have hset : ∀ {lru}, sealOf { ix with
      entries := ix.entries.set a.cacheKey (ix.putEntry sha256Hex a), lru } k = some s →
      ix.sealOf k = some s ∧ k ≠ a.cacheKey ∨
        k = a.cacheKey ∧ s = putSeal sha256Hex (ix.sealOf a.cacheKey) a := by
    intro lru hs
    by_cases hk : k = a.cacheKey
    · subst hk
      simp only [sealOf, Dict.get?_set_self, Option.map_some, Option.some.injEq] at hs
      exact .inr ⟨rfl, hs ▸ putEntry_seal a⟩
    · simp only [sealOf, Dict.get?_set_ne hk] at hs
      exact .inl ⟨hs, hk⟩
  simp only [putObservation] at h ⊢
  split at h
  · next hg =>
    rw [if_pos hg]
    exact .inl ⟨h, .inr rfl⟩
  · next hg =>
    have hg' : a.scope = .global → allowGlobal = true := by
      intro hs
      cases allowGlobal with
      | false => exact absurd ⟨hs, rfl⟩ hg
      | true => rfl
    have hcase : ix.sealOf k = some s ∧ k ≠ a.cacheKey ∨
        k = a.cacheKey ∧ s = putSeal sha256Hex (ix.sealOf a.cacheKey) a := by
      split at h
      · exact hset h
      · exact hset (evictLoop_sealOf h)
    obtain ⟨hs, hk⟩ | ⟨hk, hs⟩ := hcase
    · exact .inl ⟨hs, .inl hk⟩
    · exact .inr ⟨hk, hg', hs⟩

theorem putObservation_storable {a : PutArgs}
    (h : ix.putObservation sha256Hex allowGlobal a = (ix', none)) (hs : a.scope = .global) :
    allowGlobal = true := by
  cases allowGlobal with
  | true => rfl
  | false => simp [putObservation, hs] at h

@[simp] theorem putObservation_threadTips (a : PutArgs) :
    (ix.putObservation sha256Hex allowGlobal a).1.threadTips = ix.threadTips := by
  unfold putObservation
  split
  · rfl
  · dsimp only
    split
    · rfl
    · exact evictLoop_threadTips _

theorem markReady_sealOf (key k : String) :
    (ix.markReady key).sealOf k =
      if k = key then (ix.sealOf k).map (fun s => { s with status := .ready })
      else ix.sealOf k := by
  simp only [markReady]
  split
  · next h =>
    split
    · next hk =>
      subst hk
      simp only [sealOf, h, Option.map_none]
    · rfl
  · next e h =>
    by_cases hk : k = key
    · subst hk
      simp only [promoteLru, sealOf, Dict.get?_set_self, h, Option.map_some, if_pos]
      rfl
    · simp only [promoteLru, sealOf, Dict.get?_set_ne hk, if_neg hk]

@[simp] theorem markReady_threadTips (key : String) :
    (ix.markReady key).threadTips = ix.threadTips := by
  simp only [markReady]
  split <;> rfl

theorem markStale_sealOf (key k : String) :
    (ix.markStale key).sealOf k =
      if k = key then (ix.sealOf k).map (fun s => { s with status := .stale })
      else ix.sealOf k := by
  simp only [markStale, sealOf, Dict.get?_modify]
  split
  · next hk =>
    subst hk
    cases ix.entries.get? k <;> rfl
  · rfl

theorem markCandidateSelected_sealOf (key k : String) :
    (ix.markCandidateSelected key).1.sealOf k = ix.sealOf k := by
  simp only [markCandidateSelected]
  split
  · rfl
  · next e h =>
    by_cases hk : k = key
    · subst hk
      simp only [promoteLru, sealOf, Dict.get?_set_self, h, Option.map_some]
      rfl
    · simp only [promoteLru, sealOf, Dict.get?_set_ne hk]

@[simp] theorem markCandidateSelected_threadTips (key : String) :
    (ix.markCandidateSelected key).1.threadTips = ix.threadTips := by
  simp only [markCandidateSelected]
  split <;> rfl

theorem foldl_erase_get? {d : Dict String ThreadWakeIndexEntry} {keys : List String}
    (h : (keys.foldl Dict.erase d).get? k = some e) : d.get? k = some e := by
  induction keys generalizing d with
  | nil => exact h
  | cons key keys ih =>
    have h' := ih h
    rw [Dict.get?_erase] at h'
    split at h'
    · cases h'
    · exact h'

theorem flush_sealOf {f : FlushFilter} (h : (ix.flush f).1.sealOf k = some s) :
    ix.sealOf k = some s := by
  simp only [flush] at h
  split at h
  · cases h
  · obtain ⟨e, he, rfl⟩ := sealOf_eq_some h
    exact sealOf_of_get? (foldl_erase_get? he)

@[simp] theorem flush_threadTips (f : FlushFilter) : (ix.flush f).1.threadTips = ix.threadTips := by
  simp only [flush]
  split <;> rfl

end ThreadWakeIndex

end Whooshd.ThreadWake
