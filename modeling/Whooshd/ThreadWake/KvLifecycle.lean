import Mathlib.Data.List.Sort
import Whooshd.Library.Dict
import Whooshd.Library.RingBuffer
import Whooshd.Runtime

namespace Whooshd.ThreadWake
set_option autoImplicit true

inductive KVEventType where
  | capabilityReported
  | kvCreated
  | kvReused
  | kvCloned
  | kvReleased
  | kvInvalidated
  | kvEvicted
  | kvError
  | generationStarted
  | generationCompleted
  | generationCancelled
  deriving DecidableEq, Repr

def KVEventType.value : KVEventType → String
  | .capabilityReported => "capability_reported"
  | .kvCreated => "kv_created"
  | .kvReused => "kv_reused"
  | .kvCloned => "kv_cloned"
  | .kvReleased => "kv_released"
  | .kvInvalidated => "kv_invalidated"
  | .kvEvicted => "kv_evicted"
  | .kvError => "kv_error"
  | .generationStarted => "generation_started"
  | .generationCompleted => "generation_completed"
  | .generationCancelled => "generation_cancelled"

structure KVEvent where
  eventId : String
  eventType : KVEventType
  backend : Option String
  modelId : Option String
  capability : Option String
  requestIdHash : Option String
  threadIdHash : Option String
  cacheKeyHash : Option String
  kvHandleIdHash : Option String
  tokenStart : Option Int
  tokenEnd : Option Int
  tokenCount : Option Int
  reason : Option String
  timestamp : Time
  deriving DecidableEq, Repr

structure KVLifecycleStats where
  eventsTotal : Nat
  eventsByType : Dict KVEventType Nat
  eventsByBackend : Dict String Nat
  activeHandlesEstimate : Nat
  createdTotal : Nat
  clonedTotal : Nat
  reusedTotal : Nat
  releasedTotal : Nat
  invalidatedTotal : Nat
  evictedTotal : Nat
  errorsTotal : Nat
  lastEventAt : Option Time

def KVLifecycleStats.empty : KVLifecycleStats :=
  ⟨0, .empty, .empty, 0, 0, 0, 0, 0, 0, 0, 0, none⟩

structure KVLifecycleObserver where
  enabled : Bool
  maxEvents : Nat
  events : List KVEvent
  cursor : Nat
  activeHandles : Nat
  stats : KVLifecycleStats

/-- `d[key] = d.get(key, 0) + 1`. -/
def increment [DecidableEq κ] (d : Dict κ Nat) (key : κ) : Dict κ Nat :=
  d.set key ((d.get? key).getD 0 + 1)

namespace KVLifecycleObserver

def new (enabled : Bool) (maxEvents : Int) : KVLifecycleObserver :=
  ⟨enabled, (max maxEvents 1).toNat, [], 0, 0, .empty⟩

/-- The counters of one type of event, with the estimate of the handles that are in use. -/
def updateByType (s : KVLifecycleStats) (activeHandles : Nat) :
    KVEventType → KVLifecycleStats × Nat
  | .kvCreated => ({ s with createdTotal := s.createdTotal + 1 }, activeHandles + 1)
  | .kvCloned => ({ s with clonedTotal := s.clonedTotal + 1 }, activeHandles + 1)
  | .kvReused => ({ s with reusedTotal := s.reusedTotal + 1 }, activeHandles)
  | .kvReleased => ({ s with releasedTotal := s.releasedTotal + 1 }, activeHandles - 1)
  | .kvInvalidated => ({ s with invalidatedTotal := s.invalidatedTotal + 1 }, activeHandles)
  | .kvEvicted => ({ s with evictedTotal := s.evictedTotal + 1 }, activeHandles - 1)
  | .kvError => ({ s with errorsTotal := s.errorsTotal + 1 }, activeHandles)
  | _ => (s, activeHandles)

def updateStats (o : KVLifecycleObserver) (event : KVEvent) : KVLifecycleObserver :=
  let s := { o.stats with
    eventsTotal := o.stats.eventsTotal + 1
    eventsByType := increment o.stats.eventsByType event.eventType
    eventsByBackend :=
      match event.backend with
      | some backend =>
        if backend = "" then o.stats.eventsByBackend
        else increment o.stats.eventsByBackend backend
      | none => o.stats.eventsByBackend
    lastEventAt := some event.timestamp }
  let (s, activeHandles) := updateByType s o.activeHandles event.eventType
  { o with
    activeHandles := activeHandles
    stats := { s with activeHandlesEstimate := activeHandles } }

def record (o : KVLifecycleObserver) (event : KVEvent) : KVLifecycleObserver :=
  if o.enabled then
    updateStats { o with
      events := RingBuffer.put o.maxEvents o.events o.cursor event
      cursor := o.cursor + 1 } event
  else o

def clear (o : KVLifecycleObserver) : KVLifecycleObserver × Nat :=
  ({ o with events := [], cursor := 0, activeHandles := 0, stats := .empty }, o.events.length)

/-- `l[:limit]`. -/
def upTo (limit : Int) (l : List α) : List α :=
  if 0 ≤ limit then l.take limit.toNat else l.take (l.length - (-limit).toNat)

/-- The filters of a listing. An empty text filters nothing. -/
def selects (eventType backend : Option String) (e : KVEvent) : Bool :=
  eventType.all (fun t => t = "" || e.eventType.value = t) &&
    backend.all (fun b => b = "" || e.backend = some b)

/-- The newest events first; the sort keeps those of one time as they stand in the buffer. -/
def listEvents (o : KVLifecycleObserver) (limit : Int) (eventType backend : Option String) :
    List KVEvent :=
  upTo limit ((o.events.filter (selects eventType backend)).insertionSort
    (fun a b => b.timestamp ≤ a.timestamp))

end KVLifecycleObserver

/-- What the callers of an observer do to it. -/
inductive KVOperation where
  | record (event : KVEvent)
  | clear

namespace KVLifecycleObserver

def after (o : KVLifecycleObserver) : KVOperation → KVLifecycleObserver
  | .record event => o.record event
  | .clear => o.clear.1

def run (o : KVLifecycleObserver) (ops : List KVOperation) : KVLifecycleObserver :=
  ops.foldl after o

end KVLifecycleObserver

/-- What has been recorded since the last clear. -/
def sinceClear : List KVOperation → List KVEvent :=
  List.foldl (fun events op => match op with
    | .record event => events ++ [event]
    | .clear => []) []

/-- The change of the estimate: up with a new handle, down with one that is given back. -/
def handleMove (e : KVEvent) : Option Bool :=
  match e.eventType with
  | .kvCreated | .kvCloned => some true
  | .kvReleased | .kvEvicted => some false
  | _ => none

/-- The counters agree with a list of events. -/
structure KVLifecycleStats.Counts (s : KVLifecycleStats) (events : List KVEvent) : Prop where
  total : s.eventsTotal = events.length
  byType : ∀ type, (s.eventsByType.get? type).getD 0 =
    events.countP (·.eventType = type)
  byBackend : ∀ backend, backend ≠ "" → (s.eventsByBackend.get? backend).getD 0 =
    events.countP (·.backend = some backend)
  created : s.createdTotal = events.countP (·.eventType = .kvCreated)
  cloned : s.clonedTotal = events.countP (·.eventType = .kvCloned)
  reused : s.reusedTotal = events.countP (·.eventType = .kvReused)
  released : s.releasedTotal = events.countP (·.eventType = .kvReleased)
  invalidated : s.invalidatedTotal = events.countP (·.eventType = .kvInvalidated)
  evicted : s.evictedTotal = events.countP (·.eventType = .kvEvicted)
  errors : s.errorsTotal = events.countP (·.eventType = .kvError)
  last : s.lastEventAt = events.getLast?.map (·.timestamp)
  active : s.activeHandlesEstimate = FlooredCounter.count 0 (events.filterMap handleMove)

/-- An observer that is enabled and has recorded the events. -/
structure KVLifecycleObserver.Recorded (maxEvents : Int) (o : KVLifecycleObserver)
    (events : List KVEvent) : Prop where
  enabled : o.enabled = true
  maxEvents_eq : o.maxEvents = (max maxEvents 1).toNat
  buffer : RingBuffer.Holds o.maxEvents o.events o.cursor events
  active : o.activeHandles = o.stats.activeHandlesEstimate
  counts : o.stats.Counts events

theorem getD_increment [DecidableEq κ] (d : Dict κ Nat) (key key' : κ) :
    ((increment d key).get? key').getD 0 = (d.get? key').getD 0 + if key = key' then 1 else 0 := by
  rw [increment, Dict.get?_set]
  by_cases h : key' = key
  · subst h
    simp
  · simp [h, Ne.symm h]

namespace KVLifecycleObserver

section UpdateByType

variable (s : KVLifecycleStats) (n : Nat) (type : KVEventType)

@[simp] theorem updateByType_total : (updateByType s n type).1.eventsTotal = s.eventsTotal := by
  cases type <;> rfl

@[simp] theorem updateByType_byType : (updateByType s n type).1.eventsByType = s.eventsByType := by
  cases type <;> rfl

@[simp] theorem updateByType_byBackend :
    (updateByType s n type).1.eventsByBackend = s.eventsByBackend := by
  cases type <;> rfl

@[simp] theorem updateByType_last : (updateByType s n type).1.lastEventAt = s.lastEventAt := by
  cases type <;> rfl

@[simp] theorem updateByType_created : (updateByType s n type).1.createdTotal =
    s.createdTotal + if type = .kvCreated then 1 else 0 := by
  cases type <;> rfl

@[simp] theorem updateByType_cloned : (updateByType s n type).1.clonedTotal =
    s.clonedTotal + if type = .kvCloned then 1 else 0 := by
  cases type <;> rfl

@[simp] theorem updateByType_reused : (updateByType s n type).1.reusedTotal =
    s.reusedTotal + if type = .kvReused then 1 else 0 := by
  cases type <;> rfl

@[simp] theorem updateByType_released : (updateByType s n type).1.releasedTotal =
    s.releasedTotal + if type = .kvReleased then 1 else 0 := by
  cases type <;> rfl

@[simp] theorem updateByType_invalidated : (updateByType s n type).1.invalidatedTotal =
    s.invalidatedTotal + if type = .kvInvalidated then 1 else 0 := by
  cases type <;> rfl

@[simp] theorem updateByType_evicted : (updateByType s n type).1.evictedTotal =
    s.evictedTotal + if type = .kvEvicted then 1 else 0 := by
  cases type <;> rfl

@[simp] theorem updateByType_errors : (updateByType s n type).1.errorsTotal =
    s.errorsTotal + if type = .kvError then 1 else 0 := by
  cases type <;> rfl

end UpdateByType

theorem updateByType_active (s : KVLifecycleStats) (moves : List Bool) (e : KVEvent) :
    (updateByType s (FlooredCounter.count 0 moves) e.eventType).2 =
      FlooredCounter.count 0 (moves ++ (handleMove e).toList) := by
  rw [handleMove]
  cases e.eventType <;> simp [updateByType, FlooredCounter.count_concat]

end KVLifecycleObserver

open KVLifecycleObserver in
theorem KVLifecycleStats.Counts.updateStats {o : KVLifecycleObserver} {events : List KVEvent}
    (h : o.stats.Counts events) (hactive : o.activeHandles = o.stats.activeHandlesEstimate)
    (e : KVEvent) : (updateStats o e).stats.Counts (events ++ [e]) where
  total := by simp [KVLifecycleObserver.updateStats, h.total]
  byType type := by
    simp [KVLifecycleObserver.updateStats, getD_increment, h.byType]
  byBackend backend hbackend := by
    rw [List.countP_append, List.countP_singleton, ← h.byBackend backend hbackend]
    simp only [KVLifecycleObserver.updateStats, updateByType_byBackend]
    cases he : e.backend with
    | none => simp
    | some b =>
      by_cases hb : b = ""
      · simp [hb, Ne.symm hbackend]
      · simp [hb, getD_increment]
  created := by simp [KVLifecycleObserver.updateStats, h.created]
  cloned := by simp [KVLifecycleObserver.updateStats, h.cloned]
  reused := by simp [KVLifecycleObserver.updateStats, h.reused]
  released := by simp [KVLifecycleObserver.updateStats, h.released]
  invalidated := by simp [KVLifecycleObserver.updateStats, h.invalidated]
  evicted := by simp [KVLifecycleObserver.updateStats, h.evicted]
  errors := by simp [KVLifecycleObserver.updateStats, h.errors]
  last := by simp [KVLifecycleObserver.updateStats]
  active := by
    simp only [KVLifecycleObserver.updateStats, hactive, h.active, updateByType_active,
      List.filterMap_append]
    rw [List.filterMap_cons, List.filterMap_nil]
    cases handleMove e <;> rfl

namespace KVLifecycleObserver

variable {maxEvents : Int} {o : KVLifecycleObserver} {events : List KVEvent}

theorem recorded_new (maxEvents : Int) : Recorded maxEvents (new true maxEvents) [] where
  enabled := rfl
  maxEvents_eq := rfl
  buffer := RingBuffer.holds_empty _
  active := rfl
  counts := by constructor <;> intros <;> rfl

theorem Recorded.record (h : Recorded maxEvents o events) (e : KVEvent) :
    Recorded maxEvents (o.record e) (events ++ [e]) := by
  have hpos : 0 < o.maxEvents := by
    rw [h.maxEvents_eq]
    omega
  rw [KVLifecycleObserver.record, if_pos h.enabled]
  exact
    { enabled := h.enabled
      maxEvents_eq := h.maxEvents_eq
      buffer := h.buffer.put hpos e
      active := rfl
      counts := KVLifecycleStats.Counts.updateStats (o := { o with
        events := RingBuffer.put o.maxEvents o.events o.cursor e
        cursor := o.cursor + 1 }) h.counts h.active e }

theorem Recorded.clear (h : Recorded maxEvents o events) : Recorded maxEvents o.clear.1 [] where
  enabled := h.enabled
  maxEvents_eq := h.maxEvents_eq
  buffer := RingBuffer.holds_empty _
  active := rfl
  counts := (recorded_new maxEvents).counts

theorem recorded_run (maxEvents : Int) (ops : List KVOperation) :
    Recorded maxEvents ((new true maxEvents).run ops) (sinceClear ops) := by
  induction ops using List.reverseRecOn with
  | nil => exact recorded_new maxEvents
  | append_singleton ops op ih =>
    rw [run, List.foldl_append, sinceClear, List.foldl_append]
    cases op with
    | record e => exact ih.record e
    | clear => exact ih.clear

/-- The listing of a buffer whose events were recorded one after the other: the newest that pass
the filters, from the newest on. -/
theorem Recorded.listEvents (h : Recorded maxEvents o events)
    (htimes : events.Pairwise fun a b => a.timestamp < b.timestamp) (limit : Int)
    (eventType backend : Option String) :
    o.listEvents limit eventType backend =
      upTo limit (((events.drop (events.length - (max maxEvents 1).toNat)).filter
        (selects eventType backend)).reverse) := by
  rw [KVLifecycleObserver.listEvents]
  congr 1
  have hkept := (htimes.sublist (List.drop_sublist (events.length - o.maxEvents) events)).filter
    (selects eventType backend)
  have hperm := h.buffer.perm.filter (selects eventType backend)
  rw [← h.maxEvents_eq]
  generalize (events.drop (events.length - o.maxEvents)).filter (selects eventType backend) = kept
    at hkept hperm ⊢
  have htotal : Std.Total fun a b : KVEvent => b.timestamp ≤ a.timestamp :=
    ⟨fun a b => le_total b.timestamp a.timestamp⟩
  have htrans : IsTrans KVEvent fun a b => b.timestamp ≤ a.timestamp :=
    ⟨fun _ _ _ hab hbc => le_trans hbc hab⟩
  apply List.Perm.eq_of_pairwise _ (List.pairwise_insertionSort _ _)
    (List.pairwise_reverse.mpr (hkept.imp fun hab => le_of_lt hab))
    ((List.perm_insertionSort _ _).trans (hperm.trans (List.reverse_perm kept).symm))
  intro a b ha hb hab hba
  rw [List.mem_insertionSort] at ha
  rw [List.mem_reverse] at hb
  have htime := le_antisymm hba hab
  have hdistinct : (kept.map (·.timestamp)).Nodup :=
    List.pairwise_map.mpr (hkept.imp fun hab => ne_of_lt hab)
  exact List.inj_on_of_nodup_map hdistinct (hperm.mem_iff.mp ha) hb htime

/-- The new handles of a list of events. -/
def newHandles (events : List KVEvent) : Nat :=
  events.countP fun e => e.eventType = .kvCreated ∨ e.eventType = .kvCloned

/-- The handles that are given back or taken away. -/
def returnedHandles (events : List KVEvent) : Nat :=
  events.countP fun e => e.eventType = .kvReleased ∨ e.eventType = .kvEvicted

theorem ups_filterMap (events : List KVEvent) :
    FlooredCounter.ups (events.filterMap handleMove) = newHandles events := by
  induction events with
  | nil => rfl
  | cons e events ih =>
    rw [newHandles, List.countP_cons, ← newHandles, ← ih, List.filterMap_cons, handleMove]
    cases e.eventType <;> simp [FlooredCounter.ups]

theorem downs_filterMap (events : List KVEvent) :
    FlooredCounter.downs (events.filterMap handleMove) = returnedHandles events := by
  induction events with
  | nil => rfl
  | cons e events ih =>
    rw [returnedHandles, List.countP_cons, ← returnedHandles, ← ih, List.filterMap_cons, handleMove]
    cases e.eventType <;> simp [FlooredCounter.downs]

/-- The estimate is the largest surplus of new handles over returned ones at the end of the
events, and exact as long as none is returned before it was new. -/
theorem Recorded.estimate (h : Recorded maxEvents o events) :
    (∀ last, last <:+ events →
      newHandles last ≤ o.stats.activeHandlesEstimate + returnedHandles last) ∧
    (∃ last, last <:+ events ∧
      newHandles last = o.stats.activeHandlesEstimate + returnedHandles last) ∧
    (newHandles events = o.stats.activeHandlesEstimate + returnedHandles events ↔
      ∀ first, first <+: events → returnedHandles first ≤ newHandles first) := by
  obtain ⟨hall, last, hlast, heq⟩ :=
    FlooredCounter.count_eq_surplus (events.filterMap handleMove)
  have hexact := FlooredCounter.count_exact_iff (events.filterMap handleMove)
  rw [← h.counts.active] at hall heq hexact
  refine ⟨?_, ?_, ?_⟩
  · intro last hlast
    rw [← ups_filterMap, ← downs_filterMap]
    exact hall _ (hlast.filterMap _)
  · obtain ⟨tail, htail, rfl⟩ := List.suffix_filterMap_iff.mp hlast
    rw [ups_filterMap, downs_filterMap] at heq
    exact ⟨tail, htail, heq⟩
  · rw [← ups_filterMap, ← downs_filterMap, hexact]
    constructor
    · intro hfirst first hbeginning
      rw [← ups_filterMap, ← downs_filterMap]
      exact hfirst _ (hbeginning.filterMap _)
    · intro hfirst first hbeginning
      obtain ⟨head, hhead, rfl⟩ := List.prefix_filterMap_iff.mp hbeginning
      rw [ups_filterMap, downs_filterMap]
      exact hfirst head hhead

/-- After any records and clears, the buffer holds the last events since the last clear, and a
listing shows the newest of them first. -/
theorem listEvents_run (maxEvents : Int) (ops : List KVOperation) :
    let o := (new true maxEvents).run ops
    let kept := (sinceClear ops).drop ((sinceClear ops).length - (max maxEvents 1).toNat)
    o.events.Perm kept ∧
    ((sinceClear ops).Pairwise (fun a b => a.timestamp < b.timestamp) →
      ∀ limit eventType backend, o.listEvents limit eventType backend =
        upTo limit ((kept.filter (selects eventType backend)).reverse)) := by
  have h := recorded_run maxEvents ops
  exact ⟨h.maxEvents_eq ▸ h.buffer.perm, h.listEvents⟩

/-- After any records and clears, the counters are those of all events since the last clear, and
the estimate of the handles in use is their largest surplus at the end of these events. -/
theorem stats_run (maxEvents : Int) (ops : List KVOperation) :
    let stats := ((new true maxEvents).run ops).stats
    let events := sinceClear ops
    stats.Counts events ∧
    (∀ last, last <:+ events →
      newHandles last ≤ stats.activeHandlesEstimate + returnedHandles last) ∧
    (∃ last, last <:+ events ∧
      newHandles last = stats.activeHandlesEstimate + returnedHandles last) ∧
    (newHandles events = stats.activeHandlesEstimate + returnedHandles events ↔
      ∀ first, first <+: events → returnedHandles first ≤ newHandles first) := by
  have h := recorded_run maxEvents ops
  exact ⟨h.counts, h.estimate⟩

end KVLifecycleObserver

end Whooshd.ThreadWake
