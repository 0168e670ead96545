import Whooshd.Scheduler

namespace Whooshd
set_option autoImplicit true

structure QueueEntry where
  requestId : RequestId
  model : String
  stream : Bool
  enqueuedAt : Time
  granted : Bool
  lane : Option Lane
  laneMaxConcurrent : Option Int
  deadlineAt : Option Time
  cacheReady : Bool
  deriving DecidableEq, Repr

namespace QueueEntry

def markGranted (e : QueueEntry) : QueueEntry := { e with granted := true }

@[simp] theorem markGranted_requestId (e : QueueEntry) :
    e.markGranted.requestId = e.requestId := rfl

def isExpired (e : QueueEntry) (now : Time) : Bool :=
  match e.deadlineAt with
  | none => false
  | some d => d ≤ now

def stampDeadline (e : QueueEntry) (now timeout : Time) : QueueEntry :=
  match e.deadlineAt with
  | none => { e with deadlineAt := some (now + timeout) }
  | some _ => e

end QueueEntry

def findEntry (l : List QueueEntry) (rid : RequestId) : Option QueueEntry :=
  l.find? (·.requestId = rid)

/-- Entries are identified by their request id. -/
def DistinctIds (l : List QueueEntry) : Prop := (l.map (·.requestId)).Nodup

theorem findEntry_some (h : findEntry l rid = some e) : e ∈ l ∧ e.requestId = rid :=
  ⟨List.mem_of_find?_eq_some h, by simpa using List.find?_some h⟩

theorem findEntry_none : findEntry l rid = none ↔ ∀ e ∈ l, e.requestId ≠ rid := by
  simp [findEntry, List.find?_eq_none]

theorem DistinctIds.find_mem (hl : DistinctIds l) (h : e ∈ l) :
    findEntry l e.requestId = some e := by
  cases hf : findEntry l e.requestId with
  | none => exact absurd rfl (findEntry_none.1 hf e h)
  | some e' =>
    obtain ⟨hm, hid⟩ := findEntry_some hf
    rw [List.inj_on_of_nodup_map hl hm h hid]

theorem DistinctIds.eraseP (hl : DistinctIds l) (rid : RequestId) :
    DistinctIds (l.eraseP (·.requestId = rid)) :=
  hl.sublist (List.eraseP_sublist.map _)

theorem DistinctIds.append (hl : DistinctIds l) (h : findEntry l e.requestId = none) :
    DistinctIds (l ++ [e]) := by
  have hn := findEntry_none.1 h
  rw [DistinctIds, List.map_append]
  refine List.nodup_append.2 ⟨hl, by simp, fun a ha b hb => ?_⟩
  obtain ⟨x, hx, rfl⟩ := List.mem_map.1 ha
  obtain rfl : b = e.requestId := by simpa using hb
  exact hn x hx

theorem findEntry_append (l : List QueueEntry) (e : QueueEntry) (rid : RequestId) :
    findEntry (l ++ [e]) rid =
      (findEntry l rid).or (if e.requestId = rid then some e else none) := by
  by_cases he : e.requestId = rid <;> simp [findEntry, List.find?_append, he]

theorem findEntry_eraseP_ne (l : List QueueEntry) (h : rid' ≠ rid) :
    findEntry (l.eraseP (·.requestId = rid)) rid' = findEntry l rid' := by
  induction l with
  | nil => rfl
  | cons a l ih =>
    by_cases ha : a.requestId = rid
    · rw [List.eraseP_cons_of_pos (by simpa using ha)]
      have hne : a.requestId ≠ rid' := fun he => h (he.symm.trans ha)
      simp [findEntry, hne]
    · rw [List.eraseP_cons_of_neg (by simpa using ha)]
      by_cases hr : a.requestId = rid'
      · simp [findEntry, hr]
      · simpa [findEntry, List.find?_cons, hr] using ih

theorem DistinctIds.findEntry_eraseP (hl : DistinctIds l) (rid : RequestId) :
    findEntry (l.eraseP (·.requestId = rid)) rid = none := by
  induction l with
  | nil => rfl
  | cons a l ih =>
    simp only [DistinctIds, List.map_cons, List.nodup_cons] at hl
    by_cases ha : a.requestId = rid
    · rw [List.eraseP_cons_of_pos (by simpa using ha)]
      refine findEntry_none.2 fun e he hid => hl.1 ?_
      exact List.mem_map.2 ⟨e, he, hid.trans ha.symm⟩
    · rw [List.eraseP_cons_of_neg (by simpa using ha)]
      simpa [findEntry, List.find?_cons, ha] using ih hl.2

theorem eraseP_of_findEntry_none (h : findEntry l rid = none) :
    l.eraseP (·.requestId = rid) = l := by
  have hn := findEntry_none.1 h
  rw [List.eraseP_of_forall_not]
  intro e he
  simpa using hn e he

structure RequestQueue where
  deque : List QueueEntry
  scheduler : Scheduler
  deriving DecidableEq

/-- One pass of the loop in `wait_for_execution`: the queue afterwards, the entry it granted,
and the value returned, or `none` when the waiter suspends again. -/
structure WaitResult where
  queue : RequestQueue
  granted : Option QueueEntry
  returned : Option Bool

namespace RequestQueue

def init : RequestQueue := ⟨[], .init⟩

def buildCandidates (q : RequestQueue) : List SchedulerCandidate :=
  q.deque.map fun e =>
    { requestId := e.requestId, queuedAt := e.enqueuedAt, model := e.model, stream := e.stream
      threadwakeCacheReady := e.cacheReady, bypassCount := q.scheduler.bypassCount e.requestId }

def find (q : RequestQueue) (rid : RequestId) : Option QueueEntry :=
  findEntry q.deque rid

/-- The dictionary built over the deque keeps the last entry of an id. -/
def byId (q : RequestQueue) (rid : RequestId) : Option QueueEntry :=
  findEntry q.deque.reverse rid

def peek (q : RequestQueue) : Option QueueEntry := q.deque.head?

def enqueue (q : RequestQueue) (e : QueueEntry) (now timeout : Time) :
    RequestQueue × QueueEntry :=
  let e := e.stampDeadline now timeout
  ({ q with deque := q.deque ++ [e] }, e)

def remove (q : RequestQueue) (rid : RequestId) : Option QueueEntry × RequestQueue :=
  match q.find rid with
  | none => (none, q)
  | some e =>
    (some e, ⟨q.deque.eraseP (·.requestId = rid), q.scheduler.removeRequest rid⟩)

def timeoutEntry (q : RequestQueue) (e : QueueEntry) : RequestQueue := (q.remove e.requestId).2

/-- Let the scheduler record a decision under which nothing can run. -/
def decline (q : RequestQueue) (cfg : Settings) (candidates : List SchedulerCandidate) :
    RequestQueue :=
  { q with scheduler :=
      (q.scheduler.chooseNext cfg.schedulerPolicy cfg.schedulerMaxBypass candidates false).2 }

def selectAndDequeue (q : RequestQueue) (cfg : Settings) (now : Time) (capacityAvailable : Bool)
    (entryEligible : QueueEntry → Bool) : Option QueueEntry × RequestQueue :=
  let candidates := q.buildCandidates
  if candidates = [] then (none, q)
  else if capacityAvailable = false then (none, q.decline cfg candidates)
  else
    let live := candidates.filter fun c =>
      !(q.byId c.requestId).any (·.isExpired now)
    if live = [] then (none, q.decline cfg candidates)
    else
      let eligible := live.filter fun c => (q.byId c.requestId).any entryEligible
      if eligible = [] then (none, q.decline cfg live)
      else
        let (decision, scheduler) :=
          q.scheduler.chooseNext cfg.schedulerPolicy cfg.schedulerMaxBypass eligible true
        let q' : RequestQueue := { q with scheduler }
        match decision.requestId with
        | none => (none, q')
        | some rid =>
          match q'.remove rid with
          | (none, q'') => (none, q'')
          | (some selected, q'') => (some selected.markGranted, q'')

def waitForExecution (q : RequestQueue) (cfg : Settings) (now : Time) (entry : QueueEntry)
    (cancelled capacityAvailable : Bool) (entryEligible : QueueEntry → Bool) : WaitResult :=
  if cancelled then ⟨(q.remove entry.requestId).2, none, some false⟩
  else if entry.granted then
    if entry.isExpired now then ⟨(q.remove entry.requestId).2, none, some false⟩
    else ⟨q, none, some true⟩
  else if q.peek.any (·.requestId = entry.requestId) && capacityAvailable then
    match q.selectAndDequeue cfg now capacityAvailable entryEligible with
    | (selected, q') =>
      if selected.any (·.requestId = entry.requestId) then ⟨q', selected, some true⟩
      else if entry.isExpired now then ⟨q'.timeoutEntry entry, selected, some false⟩
      else ⟨q', selected, none⟩
  else if entry.isExpired now then ⟨q.timeoutEntry entry, none, some false⟩
  else ⟨q, none, none⟩

theorem byId_mem (hq : DistinctIds q.deque) (h : e ∈ q.deque) :
    byId q e.requestId = some e := by
  have hr : DistinctIds q.deque.reverse := by
    simpa [DistinctIds, List.nodup_reverse] using hq
  exact hr.find_mem (List.mem_reverse.2 h)

theorem remove_deque (q : RequestQueue) (rid : RequestId) :
    (q.remove rid).2.deque = q.deque.eraseP (·.requestId = rid) := by
  simp only [remove]
  split
  · next h => exact (eraseP_of_findEntry_none h).symm
  · rfl

/-- What one selection can do: leave the deque alone, or take out one live, eligible entry
and hand it over marked as granted. -/
theorem selectAndDequeue_cases (hq : DistinctIds q.deque)
    (h : selectAndDequeue q cfg now avail elig = (selected, q')) :
    (selected = none ∧ q'.deque = q.deque) ∨
      ∃ e ∈ q.deque, avail = true ∧ e.isExpired now = false ∧ elig e = true ∧
        selected = some e.markGranted ∧
        q'.deque = q.deque.eraseP (·.requestId = e.requestId) := by
  simp only [selectAndDequeue] at h
  split at h
  · cases h; exact .inl ⟨rfl, rfl⟩
  · split at h
    · cases h; exact .inl ⟨rfl, rfl⟩
    · next ha =>
      split at h
      · cases h; exact .inl ⟨rfl, rfl⟩
      · split at h
        · cases h; exact .inl ⟨rfl, rfl⟩
        · split at h
          · cases h; exact .inl ⟨rfl, rfl⟩
          · next rid hd =>
            obtain ⟨c, hc, rfl⟩ := Scheduler.chooseNext_mem hd
            simp only [List.mem_filter, buildCandidates, List.mem_map] at hc
            obtain ⟨⟨⟨e, he, rfl⟩, hlive⟩, helig⟩ := hc
            simp only [byId_mem hq he, Option.any_some, Bool.not_eq_true'] at hlive helig
            simp only [remove, find, hq.find_mem he] at h
            cases h
            exact .inr ⟨e, he, by simpa using ha, hlive, helig, rfl, rfl⟩

/-- What one pass of the wait can do: grant a live, eligible entry if the waiter is at the
front, and then suspend, give up or go ahead. -/
theorem waitForExecution_cases (hq : DistinctIds q.deque)
    (hw : waitForExecution q cfg now entry cancelled avail elig = w) :
    ∃ mid,
      (w.granted = none ∧ mid = q.deque ∨
        ∃ e ∈ q.deque, cancelled = false ∧ entry.granted = false ∧
          q.peek.any (·.requestId = entry.requestId) = true ∧ e.isExpired now = false ∧
          elig e = true ∧ w.granted = some e.markGranted ∧
          mid = q.deque.eraseP (·.requestId = e.requestId)) ∧
      (w.returned = none ∧ cancelled = false ∧ entry.isExpired now = false ∧
          w.queue.deque = mid ∨
        w.returned = some false ∧ (cancelled = true ∨ entry.isExpired now = true) ∧
          w.queue.deque = mid.eraseP (·.requestId = entry.requestId) ∧
          w.granted.any (·.requestId = entry.requestId) = false ∨
        w.returned = some true ∧ cancelled = false ∧ w.queue.deque = mid ∧
          (entry.granted = true ∧ entry.isExpired now = false ∨
            w.granted.any (·.requestId = entry.requestId) = true)) := by
  simp only [waitForExecution] at hw
  split at hw
  · next hc =>
    subst hw
    exact ⟨_, .inl ⟨rfl, rfl⟩, .inr (.inl ⟨rfl, .inl hc, remove_deque q _, rfl⟩)⟩
  next hc =>
  have hc' : cancelled = false := by simpa using hc
  split at hw
  · next hg =>
    split at hw
    · next hx =>
      subst hw
      exact ⟨_, .inl ⟨rfl, rfl⟩, .inr (.inl ⟨rfl, .inr hx, remove_deque q _, rfl⟩)⟩
    · next hx =>
      subst hw
      exact ⟨_, .inl ⟨rfl, rfl⟩, .inr (.inr ⟨rfl, hc', rfl, .inl ⟨hg, by simpa using hx⟩⟩)⟩
  next hg =>
  split at hw
  · next hf =>
    rw [Bool.and_eq_true] at hf
    cases hsel : q.selectAndDequeue cfg now avail elig with
    | mk selected q' =>
      simp only [hsel] at hw
      have hcases := selectAndDequeue_cases hq hsel
      have hgrant : (selected = none ∧ q'.deque = q.deque) ∨
          ∃ e ∈ q.deque, cancelled = false ∧ entry.granted = false ∧
            q.peek.any (·.requestId = entry.requestId) = true ∧ e.isExpired now = false ∧
            elig e = true ∧ selected = some e.markGranted ∧
            q'.deque = q.deque.eraseP (·.requestId = e.requestId) := by
        obtain h | ⟨e, he, -, hx, hel, hs, hd⟩ := hcases
        · exact .inl h
        · exact .inr ⟨e, he, hc', by simpa using hg, hf.1, hx, hel, hs, hd⟩
      split at hw
      · next hs => subst hw; exact ⟨_, hgrant, .inr (.inr ⟨rfl, hc', rfl, .inr hs⟩)⟩
      · next hs =>
        split at hw
        · next hx =>
          subst hw
          exact ⟨_, hgrant, .inr (.inl ⟨rfl, .inr hx, remove_deque q' _, by simpa using hs⟩)⟩
        · next hx => subst hw; exact ⟨_, hgrant, .inl ⟨rfl, hc', by simpa using hx, rfl⟩⟩
  · split at hw
    · next hx =>
      subst hw
      exact ⟨_, .inl ⟨rfl, rfl⟩, .inr (.inl ⟨rfl, .inr hx, remove_deque q _, rfl⟩)⟩
    · next hx =>
      subst hw
      exact ⟨_, .inl ⟨rfl, rfl⟩, .inl ⟨rfl, hc', by simpa using hx, rfl⟩⟩

end RequestQueue

end Whooshd
