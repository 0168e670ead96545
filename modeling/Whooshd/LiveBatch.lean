import Mathlib.Data.List.Pairwise
import Whooshd.Batching
import Whooshd.Ownership

namespace Whooshd
set_option autoImplicit true

open Batching

/-- What `_try_execute_live_batch` reads of the settings and of the adapter. -/
structure LiveBatchSettings where
  executionEnabled : Bool
  analysisEnabled : Bool
  /-- `supports_chat_batching` answers "experimental". -/
  experimental : Bool
  executionMinSize : Int
  executionMaxSize : Int
  deriving DecidableEq, Repr

def LiveBatchSettings.minSize (b : LiveBatchSettings) : Int := max b.executionMinSize 2

def LiveBatchSettings.maxSize (b : LiveBatchSettings) : Int := max b.executionMaxSize 2

namespace RequestQueue

def buildBatchCandidates (q : RequestQueue) : List BatchCandidate :=
  q.deque.map fun e => { requestId := e.requestId, model := e.model, stream := e.stream }

/-- The first eligible group that holds the selected request and at least two entries. -/
def findBatchGroup (q : RequestQueue) (analyzer : BatchAnalyzer) (freshId : Nat → String)
    (selected : RequestId) (enabled : Bool) : Option (List QueueEntry) :=
  if enabled = false then none
  else
    (analyzer.analyze freshId q.buildBatchCandidates enabled).groups.findSome? fun g =>
      if g.eligible && g.requestIds.contains selected then
        let entries := q.deque.filter fun e => g.requestIds.contains e.requestId
        if 2 ≤ entries.length then some entries else none
      else none

end RequestQueue

/-- The `batch_result_future` of an entry; `done none` is the `None` of an unmatched entry. -/
inductive BatchFuture (ρ : Type) where
  | pending
  | done (result : Option ρ)
  deriving DecidableEq, Repr

/-- The entries that are claimed for a batch, by request id. -/
abbrev BatchClaims (ρ : Type) := Dict RequestId (BatchFuture ρ)

def claimEntry (claimed : BatchClaims ρ × List RequestId) (e : QueueEntry) :
    BatchClaims ρ × List RequestId :=
  if claimed.1.contains e.requestId then claimed
  else (claimed.1.set e.requestId .pending, claimed.2 ++ [e.requestId])

/-- `claim_batch_entries`, with the entries that it made futures for. -/
def claimBatchEntries (claims : BatchClaims ρ) (entries : List QueueEntry) :
    BatchClaims ρ × List RequestId :=
  entries.foldl claimEntry (claims, [])

/-- `resolve_batch_results`: of two results for one id the later one counts, and a future that is
done stays as it is. -/
def resolveBatchResults (claims : BatchClaims ρ) (entries : List QueueEntry)
    (results : List (RequestId × ρ)) : BatchClaims ρ :=
  entries.foldl (fun claims e =>
    match claims.get? e.requestId with
    | some .pending => claims.set e.requestId (.done (results.reverse.lookup e.requestId))
    | some (.done _) | none => claims) claims

/-- `_try_execute_live_batch` up to the call of the adapter: the claimed group, or `none` when
the request goes on alone. -/
def beginLiveBatch (b : LiveBatchSettings) (freshId : Nat → String) (q : RequestQueue)
    (rt : RuntimeState) (claims : BatchClaims ρ) (selected : RequestId) :
    Option (List QueueEntry × BatchClaims ρ) :=
  if b.executionEnabled = false then none
  else if b.experimental = false then none
  else
    match q.findBatchGroup { maxGroupSize := b.maxSize } freshId selected b.analysisEnabled with
    | none => none
    | some group =>
      let unclaimed := group.filter fun e => !claims.contains e.requestId
      let active := unclaimed.filter fun e => !rt.tokenCancelled e.requestId
      if (active.length : Int) < b.minSize then none
      else
        let (claims, futures) := claimBatchEntries claims active
        if futures = [] then none else some (active, claims)

inductive BatchReply (ρ : Type) where
  | response (r : ρ)
  | error (message : String)
  deriving DecidableEq, Repr

/-- How `chat_completion_batch` ends. -/
inductive BatchOutcome (ρ : Type) where
  | raised
  /-- The task of the handler is cancelled meanwhile, which is no `Exception`. -/
  | cancelled
  | responses (l : List ρ)
  deriving DecidableEq, Repr

structure BatchFinish (ρ : Type) where
  rt : RuntimeState
  claims : BatchClaims (BatchReply ρ)
  /-- `notify_capacity` was called. -/
  notified : Bool
  returned : Option (BatchReply ρ)

section Finish

variable (annotate : QueueEntry → ρ → Option ρ) (now : Time)

def failEntry (rt : RuntimeState) (e : QueueEntry) : RuntimeState :=
  (rt.markRunning e.requestId).failRequest e.requestId now (some "BATCH_ERROR")

def completeEntry (rt : RuntimeState) (e : QueueEntry) : RuntimeState :=
  (rt.markRunning e.requestId).completeRequest e.requestId now

/-- `_resolve_all_with_error` -/
def resolveAllWithError (rt : RuntimeState) (claims : BatchClaims (BatchReply ρ))
    (active : List QueueEntry) (selected : RequestId) (message : String) : BatchFinish ρ :=
  { rt := active.foldl (failEntry now) rt
    claims := resolveBatchResults claims active
      (active.map fun e => (e.requestId, .error message))
    notified := false
    returned := if active.any (·.requestId = selected) then some (.error message) else none }

/-- Completes the requests one by one, up to a response that takes no provenance. -/
def completeBatch (rt : RuntimeState) :
    List (QueueEntry × ρ) → RuntimeState × Option (List (RequestId × ρ))
  | [] => (rt, some [])
  | (e, r) :: rest =>
    match annotate e r with
    | none => (completeEntry now rt e, none)
    | some r =>
      let (rt, results) := completeBatch (completeEntry now rt e) rest
      (rt, results.map ((e.requestId, r) :: ·))

/-- `_try_execute_live_batch` from the end of the adapter's call on. -/
def finishLiveBatch (rt : RuntimeState) (claims : BatchClaims (BatchReply ρ))
    (active : List QueueEntry) (selected : RequestId) : BatchOutcome ρ → BatchFinish ρ
  | .raised => resolveAllWithError now rt claims active selected "backend error"
  -- the cancellation passes the handler of the exceptions, so that none of the rest is run
  | .cancelled => { rt, claims, notified := false, returned := none }
  | .responses l =>
    if l.length ≠ active.length then
      resolveAllWithError now rt claims active selected "response count mismatch"
    else
      match completeBatch annotate now rt (active.zip l) with
      | (rt, none) => resolveAllWithError now rt claims active selected "backend error"
      | (rt, some results) =>
        let results := results.map fun p => (p.1, BatchReply.response p.2)
        let returned := results.reverse.lookup selected
        { rt, claims := resolveBatchResults claims active results
          notified := returned.isSome, returned }

end Finish

theorem analyze_group {analyzer : BatchAnalyzer} (hsize : 1 ≤ analyzer.maxGroupSize)
    {freshId : Nat → String} {candidates : List BatchCandidate}
    (h : g ∈ (analyzer.analyze freshId candidates enabled).groups) :
    ∃ members, GroupOf analyzer candidates members g := by
  rw [BatchAnalyzer.analyze] at h
  split at h
  · cases h
  · exact (groupAll_partition analyzer hsize freshId 0 candidates).2 g h

/-- What `find_batch_group` finds. -/
structure BatchGroupOf (q : RequestQueue) (limit : Int) (selected : RequestId)
    (group : List QueueEntry) : Prop where
  order : group.Sublist q.deque
  selected : ∃ e ∈ group, e.requestId = selected
  size : (group.length : Int) ≤ limit
  alike : ∀ e ∈ group, ∀ e' ∈ group, e.model = e'.model
  whole : ∀ e ∈ group, e.stream = false

theorem Pairwise.forall_of_several {l : List BatchCandidate} (h : l.Pairwise Compatible)
    (hseveral : 2 ≤ l.length) :
    ∀ c ∈ l, c.stream = false ∧ ∀ c' ∈ l, c.model = c'.model := by
  have hsymm : Std.Symm Compatible := ⟨fun _ _ h => ⟨h.2, h.1⟩⟩
  have hmodel : ∀ c ∈ l, ∀ c' ∈ l, c.model = c'.model := by
    intro c hc c' hc'
    by_cases heq : c = c'
    · rw [heq]
    · exact (checkCompatibility_nil.mp (List.Pairwise.forall h hc hc' heq).1).1
  intro c hc
  refine ⟨?_, hmodel c hc⟩
  cases l with
  | nil => cases hc
  | cons a l =>
    cases l with
    | nil => simp at hseveral
    | cons b l =>
      rw [List.pairwise_cons] at h
      rcases List.mem_cons.mp hc with rfl | hc
      · exact (checkCompatibility_nil.mp (h.1 b (by simp)).1).2.2.1.1
      · exact (checkCompatibility_nil.mp (h.1 c hc).1).2.2.1.2

theorem findBatchGroup_of {q : RequestQueue} (hq : DistinctIds q.deque)
    {analyzer : BatchAnalyzer} (hsize : 1 ≤ analyzer.maxGroupSize)
    (h : q.findBatchGroup analyzer freshId selected enabled = some group) :
    BatchGroupOf q analyzer.maxGroupSize selected group := by
  rw [RequestQueue.findBatchGroup] at h
  split at h
  · cases h
  · obtain ⟨g, hg, hfound⟩ := List.exists_of_findSome?_eq_some h
    obtain ⟨members, hmembers⟩ := analyze_group hsize hg
    split at hfound
    · next hcond =>
      rw [Bool.and_eq_true, List.contains_iff_mem] at hcond
      obtain ⟨heligible, hselected⟩ := hcond
      simp only at hfound
      split at hfound
      · cases hfound
        have hmember : ∀ e ∈ q.deque, e.requestId ∈ g.requestIds →
            ∃ c ∈ members, c.model = e.model ∧ c.stream = e.stream := by
          intro e he hid
          rw [hmembers.ids, List.mem_map] at hid
          obtain ⟨c, hc, hid⟩ := hid
          obtain ⟨e', he', rfl⟩ := List.mem_map.mp (hmembers.order.subset hc)
          have heq : e' = e := List.inj_on_of_nodup_map hq he' he hid
          exact ⟨_, hc, by rw [heq], by rw [heq]⟩
        have hcandidates :=
          Pairwise.forall_of_several hmembers.compatible (hmembers.several heligible)
        refine ⟨List.filter_sublist, ?_, ?_, ?_, ?_⟩
        · obtain ⟨c, hc, hid⟩ := List.mem_map.mp (hmembers.ids ▸ hselected)
          obtain ⟨e, he, rfl⟩ := List.mem_map.mp (hmembers.order.subset hc)
          change e.requestId = selected at hid
          exact ⟨e, List.mem_filter.mpr ⟨he, by rwa [hid, List.contains_iff_mem]⟩, hid⟩
        · have hids : ((q.deque.filter fun e => g.requestIds.contains e.requestId).map
              (·.requestId)).length ≤ g.requestIds.length := by
            apply List.Subperm.length_le
            apply (hq.sublist (List.filter_sublist.map _)).subperm
            intro rid hrid
            obtain ⟨e, he, rfl⟩ := List.mem_map.mp hrid
            simpa using (List.mem_filter.mp he).2
          have hlength : g.requestIds.length = members.length := by
            rw [hmembers.ids, List.length_map]
          rw [List.length_map, hlength] at hids
          exact Int.le_trans (Int.ofNat_le.mpr hids) hmembers.size
        · intro e he e' he'
          rw [List.mem_filter, List.contains_iff_mem] at he he'
          obtain ⟨c, hc, hmodel, -⟩ := hmember e he.1 he.2
          obtain ⟨c', hc', hmodel', -⟩ := hmember e' he'.1 he'.2
          rw [← hmodel, ← hmodel']
          exact (hcandidates c hc).2 c' hc'
        · intro e he
          rw [List.mem_filter, List.contains_iff_mem] at he
          obtain ⟨c, hc, -, hstream⟩ := hmember e he.1 he.2
          rw [← hstream]
          exact (hcandidates c hc).1
      · cases hfound
    · cases hfound

theorem beginLiveBatch_find {q : RequestQueue} {claims : BatchClaims ρ}
    (h : beginLiveBatch b freshId q rt claims selected = some (active, claims')) :
    ∃ group, q.findBatchGroup { maxGroupSize := b.maxSize } freshId selected b.analysisEnabled =
        some group ∧ active = (group.filter fun e => !claims.contains e.requestId).filter
          (fun e => !rt.tokenCancelled e.requestId) ∧
      b.minSize ≤ active.length ∧ claims' = (claimBatchEntries claims active).1 := by
  rw [beginLiveBatch] at h
  split at h
  · cases h
  · split at h
    · cases h
    · split at h
      · cases h
      · next group hgroup =>
        simp only at h
        split at h
        · cases h
        · next hmin =>
          split at h
          · cases h
          · cases h
            exact ⟨group, hgroup, rfl, Int.not_lt.mp hmin, rfl⟩

theorem LiveBatchSettings.one_le_maxSize (b : LiveBatchSettings) : 1 ≤ b.maxSize := by
  rw [maxSize]
  omega

theorem beginLiveBatch_of_absent {q : RequestQueue} {claims : BatchClaims ρ}
    (hq : DistinctIds q.deque) (habsent : q.find selected = none) :
    beginLiveBatch b freshId q rt claims selected = none := by
  cases h : beginLiveBatch b freshId q rt claims selected with
  | none => rfl
  | some begun =>
    obtain ⟨group, hfind, -⟩ := beginLiveBatch_find h
    have hgroup := findBatchGroup_of hq b.one_le_maxSize hfind
    obtain ⟨e, he, hid⟩ := hgroup.selected
    exact absurd hid (findEntry_none.mp habsent e (hgroup.order.subset he))

theorem Owned.entry_of_win (ho : Owned t v) (hwin : 0 < t.wins) : v.entry = none := by
  cases ho with
  | fresh ht =>
    rw [ht] at hwin
    exact absurd hwin (Nat.lt_irrefl 0)
  | held ht =>
    rw [ht] at hwin
    exact absurd hwin (Nat.lt_irrefl 0)
  | gone _ _ _ _ he => exact he

/-- In every run of the broker: a request whose wait has succeeded is never in a batch, under no
settings and with no adapter. -/
theorem beginLiveBatch_returned (cfg : Settings) (mono wall : Time) (ls : List Label)
    (hrun : broker.exec (.init cfg mono wall) ls = some (s, out)) (hready : .returned e true ∈ out)
    (b : LiveBatchSettings) (freshId : Nat → String) (rt : RuntimeState)
    (claims : BatchClaims ρ) :
    beginLiveBatch b freshId s.queue rt claims e.requestId = none := by
  obtain ⟨hc, ho⟩ := exec_owned hrun
  have hwin : 0 < (tally e.requestId out).wins :=
    List.countP_pos_iff.mpr ⟨_, hready, by simp [Event.isReturn]⟩
  exact beginLiveBatch_of_absent hc.distinct ((ho e.requestId).entry_of_win hwin)

/-- The request that waited for the slot goes on alone, with every flag set. -/
theorem beginLiveBatch_returned_handover :
    ∃ s out e, broker.exec (.init oneSlot 0 0) handover = some (s, out) ∧
      Event.returned e true ∈ out ∧
      beginLiveBatch (ρ := Unit) ⟨true, true, true, 2, 4⟩ toString s.queue s.rt .empty
        e.requestId = none := by
  have hreturned : ∃ s out, broker.exec (.init oneSlot 0 0) handover = some (s, out) ∧
      (out.any (Event.isReturn "b" true)) = true := ⟨_, _, rfl, by decide⟩
  obtain ⟨s, out, hrun, hany⟩ := hreturned
  obtain ⟨ev, hev, hreturn⟩ := List.any_eq_true.mp hany
  cases ev with
  | returned e ready =>
    simp only [Event.isReturn, Bool.and_eq_true, decide_eq_true_eq] at hreturn
    obtain ⟨-, rfl⟩ := hreturn
    exact ⟨s, out, e, hrun, hev, beginLiveBatch_returned oneSlot 0 0 handover hrun hev _ _ _ _⟩
  | granted | adapterStarted | adapterEnded | answered | cancelAnswered => cases hreturn

theorem DistinctIds.cons_iff : DistinctIds (e :: l) ↔
    (∀ e' ∈ l, e'.requestId ≠ e.requestId) ∧ DistinctIds l := by
  simp only [DistinctIds, List.map_cons, List.nodup_cons, List.mem_map, not_exists, not_and]

theorem claimBatchEntries_fst (claims : BatchClaims ρ) (entries : List QueueEntry) :
    (claimBatchEntries claims entries).1 =
      entries.foldl (fun claims e =>
        if claims.contains e.requestId then claims else claims.set e.requestId .pending)
        claims := by
  apply (List.foldl_hom Prod.fst _).symm
  intro claimed e
  rw [claimEntry]
  split <;> rfl

/-- An update of what a state holds for one entry at a time, over entries with distinct ids. -/
theorem foldl_entry {f : σ → QueueEntry → σ} (p : σ → RequestId → Option ν)
    (g : RequestId → Option ν → Option ν)
    (hself : ∀ s e, p (f s e) e.requestId = g e.requestId (p s e.requestId))
    (hother : ∀ s e rid, rid ≠ e.requestId → p (f s e) rid = p s rid)
    {l : List QueueEntry} (hl : DistinctIds l) (s : σ) (rid : RequestId) :
    p (l.foldl f s) rid =
      if ∃ e ∈ l, e.requestId = rid then g rid (p s rid) else p s rid := by
  induction l generalizing s with
  | nil => simp
  | cons e l ih =>
    obtain ⟨hne, hl⟩ := DistinctIds.cons_iff.mp hl
    rw [List.foldl_cons, ih hl]
    by_cases hid : e.requestId = rid
    · subst hid
      rw [if_neg (by simpa using hne), if_pos ⟨e, by simp, rfl⟩, hself]
    · rw [hother s e rid (Ne.symm hid)]
      simp [hid]

theorem get?_claimBatchEntries {claims : BatchClaims ρ} {entries : List QueueEntry}
    (hids : DistinctIds entries) (rid : RequestId) :
    (claimBatchEntries claims entries).1.get? rid =
      if ∃ e ∈ entries, e.requestId = rid then some ((claims.get? rid).getD .pending)
      else claims.get? rid := by
  rw [claimBatchEntries_fst]
  apply foldl_entry (Dict.get? (ν := BatchFuture ρ)) (fun _ future => some (future.getD .pending))
    _ _ hids claims
  · intro d e
    cases h : d.get? e.requestId with
    | none => simp [Dict.contains, h]
    | some future => simp [Dict.contains, h]
  · intro d e rid hne
    split
    · rfl
    · rw [Dict.get?_set_ne hne]

/-- What `set_result` makes of a future. -/
def BatchFuture.resolve (result : Option ρ) : BatchFuture ρ → BatchFuture ρ
  | .pending => .done result
  | .done earlier => .done earlier

theorem get?_resolveBatchResults {claims : BatchClaims ρ} {entries : List QueueEntry}
    (hids : DistinctIds entries) (results : List (RequestId × ρ)) (rid : RequestId) :
    (resolveBatchResults claims entries results).get? rid =
      if ∃ e ∈ entries, e.requestId = rid then
        (claims.get? rid).map (.resolve (results.reverse.lookup rid))
      else claims.get? rid := by
  rw [resolveBatchResults]
  apply foldl_entry (Dict.get? (ν := BatchFuture ρ))
    (fun rid future => future.map (.resolve (results.reverse.lookup rid))) _ _ hids claims
  · intro d e
    split
    · next h => rw [Dict.get?_set_self, h, Option.map_some, BatchFuture.resolve]
    · next h => rw [h, Option.map_some, BatchFuture.resolve]
    · next h => rw [h, Option.map_none]
  · intro d e rid hne
    split
    · rw [Dict.get?_set_ne hne]
    · rfl
    · rfl

theorem lookup_reverse_of_mem {results : List (RequestId × ν)} (hids : (results.map Prod.fst).Nodup)
    (h : (rid, v) ∈ results) : results.reverse.lookup rid = some v := by
  cases hlookup : results.reverse.lookup rid with
  | none =>
    have hne := List.lookup_eq_none_iff.mp hlookup (rid, v) (List.mem_reverse.mpr h)
    simp at hne
  | some v' =>
    obtain ⟨l₁, l₂, hsplit, -⟩ := List.lookup_eq_some_iff.mp hlookup
    have h' : (rid, v') ∈ results := by
      rw [← List.mem_reverse, hsplit]
      simp
    have heq := List.inj_on_of_nodup_map hids h h' rfl
    rw [(Prod.mk.inj heq).2]

namespace BatchReply

def failed (now : Time) (r : RequestRecord) : RequestRecord :=
  { r with status := .failed, endedAt := some now, errorCode := some "BATCH_ERROR" }

/-- The record of a request after its reply. -/
def settle (now : Time) : BatchReply ρ → RequestRecord → RequestRecord
  | response _ => RuntimeState.completed now
  | error _ => failed now

/-- An error overrides every earlier end. -/
theorem failed_completed (now : Time) (r : RequestRecord) :
    failed now (RuntimeState.completed now r) = failed now r := by
  rw [RuntimeState.completed]
  split <;> rfl

end BatchReply

theorem markRunning_get?_ne (rt : RuntimeState) (h : rid' ≠ rid) :
    (rt.markRunning rid).requests.get? rid' = rt.requests.get? rid' ∧
      (rt.markRunning rid).reservations.get? rid' = rt.reservations.get? rid' := by
  rw [RuntimeState.markRunning, RuntimeState.markStarted]
  split
  · split
    · simp [RuntimeState.releaseCapacity, RuntimeState.updateRecord, Dict.get?_modify,
        Dict.get?_erase, h]
    · exact ⟨rfl, rfl⟩
  · exact ⟨rfl, rfl⟩

theorem markRunning_get?_self (rt : RuntimeState) (rid : RequestId) :
    (rt.markRunning rid).requests.get? rid = (rt.requests.get? rid).map fun r =>
      if r.status = .accepted ∨ r.status = .queued then { r with status := .running } else r := by
  rw [RuntimeState.markRunning, RuntimeState.markStarted]
  cases h : rt.requests.get? rid with
  | none => rw [h]; rfl
  | some r =>
    simp only [Option.map_some]
    split
    · simp [RuntimeState.releaseCapacity, RuntimeState.updateRecord, Dict.get?_modify, h]
    · rw [h]

section Records

variable (now : Time) (rt : RuntimeState) (e : QueueEntry)

theorem failEntry_requests_self : (failEntry now rt e).requests.get? e.requestId =
    (rt.requests.get? e.requestId).map (BatchReply.failed now) := by
  rw [failEntry, RuntimeState.failRequest_requests, Dict.get?_modify, if_pos rfl,
    markRunning_get?_self, Option.map_map]
  congr 1
  funext r
  simp only [Function.comp, BatchReply.failed]
  split <;> rfl

theorem failEntry_requests_ne (h : rid ≠ e.requestId) :
    (failEntry now rt e).requests.get? rid = rt.requests.get? rid := by
  rw [failEntry, RuntimeState.failRequest_requests, Dict.get?_modify, if_neg h,
    (markRunning_get?_ne rt h).1]

theorem failEntry_reservations_ne (h : rid ≠ e.requestId) :
    (failEntry now rt e).reservations.get? rid = rt.reservations.get? rid := by
  rw [failEntry, RuntimeState.failRequest_reservations, Dict.get?_erase_ne h,
    (markRunning_get?_ne rt h).2]

theorem completeRequest_get? (rid rid' : RequestId) :
    (rt.completeRequest rid now).requests.get? rid' =
      if rid' = rid then (rt.requests.get? rid).map (RuntimeState.completed now)
      else rt.requests.get? rid' := by
  cases h : rt.requests.get? rid with
  | none =>
    simp only [RuntimeState.completeRequest, h, RuntimeState.releaseCapacity, Option.map_none]
    split
    · next hid => rw [hid, h]
    · rfl
  | some r =>
    rw [(RuntimeState.completeRequest_of rt rid h now).1, Dict.get?_set, Option.map_some]

theorem completeRequest_reservations (rid : RequestId) :
    (rt.completeRequest rid now).reservations = rt.reservations.erase rid := by
  rw [RuntimeState.completeRequest]
  split
  · split <;> rfl
  · rfl

theorem completeEntry_requests_self : (completeEntry now rt e).requests.get? e.requestId =
    (rt.requests.get? e.requestId).map (RuntimeState.completed now) := by
  rw [completeEntry, completeRequest_get?, if_pos rfl, markRunning_get?_self, Option.map_map]
  congr 1
  funext r
  simp only [Function.comp, RuntimeState.completed]
  split
  · next h => rcases h with h | h <;> simp [h]
  · rfl

theorem completeEntry_requests_ne (h : rid ≠ e.requestId) :
    (completeEntry now rt e).requests.get? rid = rt.requests.get? rid := by
  rw [completeEntry, completeRequest_get?, if_neg h, (markRunning_get?_ne rt h).1]

theorem completeEntry_reservations_ne (h : rid ≠ e.requestId) :
    (completeEntry now rt e).reservations.get? rid = rt.reservations.get? rid := by
  rw [completeEntry, completeRequest_reservations, Dict.get?_erase_ne h,
    (markRunning_get?_ne rt h).2]

end Records

section Folds

variable {now : Time} {active : List QueueEntry}

variable (now) in
theorem foldl_failEntry (hids : DistinctIds active) (rt : RuntimeState) (rid : RequestId) :
    (active.foldl (failEntry now) rt).requests.get? rid =
        (if ∃ e ∈ active, e.requestId = rid then
          (rt.requests.get? rid).map (BatchReply.failed now) else rt.requests.get? rid) ∧
      (active.foldl (failEntry now) rt).reservations.get? rid =
        if ∃ e ∈ active, e.requestId = rid then none else rt.reservations.get? rid := by
  constructor
  · exact foldl_entry (fun rt => rt.requests.get?)
      (fun _ r => r.map (BatchReply.failed now)) (failEntry_requests_self now)
      (fun rt e _ => failEntry_requests_ne now rt e) hids rt rid
  · apply foldl_entry (fun rt => rt.reservations.get?) (fun _ _ => none) _
      (fun rt e _ => failEntry_reservations_ne now rt e) hids rt rid
    intro rt e
    rw [failEntry, RuntimeState.failRequest_reservations, Dict.get?_erase_self]

variable (now) in
theorem foldl_completeEntry (hids : DistinctIds active) (rt : RuntimeState) (rid : RequestId) :
    (active.foldl (completeEntry now) rt).requests.get? rid =
        (if ∃ e ∈ active, e.requestId = rid then
          (rt.requests.get? rid).map (RuntimeState.completed now) else rt.requests.get? rid) ∧
      (active.foldl (completeEntry now) rt).reservations.get? rid =
        if ∃ e ∈ active, e.requestId = rid then none else rt.reservations.get? rid := by
  constructor
  · exact foldl_entry (fun rt => rt.requests.get?)
      (fun _ r => r.map (RuntimeState.completed now)) (completeEntry_requests_self now)
      (fun rt e _ => completeEntry_requests_ne now rt e) hids rt rid
  · apply foldl_entry (fun rt => rt.reservations.get?) (fun _ _ => none) _
      (fun rt e _ => completeEntry_reservations_ne now rt e) hids rt rid
    intro rt e
    rw [completeEntry, completeRequest_reservations, Dict.get?_erase_self]

end Folds

/-- What a batch leaves of one claimed entry. -/
structure EntrySettled (rt : RuntimeState) (f : BatchFinish ρ) (now : Time) (e : QueueEntry)
    (reply : BatchReply ρ) : Prop where
  future : f.claims.get? e.requestId = some (.done (some reply))
  record : f.rt.requests.get? e.requestId =
    (rt.requests.get? e.requestId).map (reply.settle now)
  released : f.rt.reservations.get? e.requestId = none

/-- What a batch leaves behind: one reply for each claimed entry, and nothing else changed. -/
structure BatchSettled (rt : RuntimeState) (claims : BatchClaims (BatchReply ρ)) (now : Time)
    (active : List QueueEntry) (selected : RequestId) (f : BatchFinish ρ)
    (reply : QueueEntry → BatchReply ρ) : Prop where
  settled : ∀ e ∈ active, EntrySettled rt f now e (reply e)
  others : ∀ rid, (∀ e ∈ active, e.requestId ≠ rid) →
    f.claims.get? rid = claims.get? rid ∧ f.rt.requests.get? rid = rt.requests.get? rid ∧
      f.rt.reservations.get? rid = rt.reservations.get? rid
  returned : ∀ e ∈ active, e.requestId = selected → f.returned = some (reply e)
  alone : (∀ e ∈ active, e.requestId ≠ selected) → f.returned = none

theorem exists_of_mem {active : List QueueEntry} (he : e ∈ active) :
    ∃ e' ∈ active, e'.requestId = e.requestId := ⟨e, he, rfl⟩

theorem not_exists_of_ne {active : List QueueEntry} (h : ∀ e ∈ active, e.requestId ≠ rid) :
    ¬∃ e ∈ active, e.requestId = rid := fun ⟨e, he, hid⟩ => h e he hid

section Settle

variable {annotate : QueueEntry → ρ → Option ρ} {now : Time} {active : List QueueEntry}
  {claims : BatchClaims (BatchReply ρ)}

theorem get?_resolved (hids : DistinctIds active)
    (hpending : ∀ e ∈ active, claims.get? e.requestId = some .pending)
    {results : List (RequestId × BatchReply ρ)} (hkeys : (results.map Prod.fst).Nodup)
    (he : e ∈ active) (hreply : (e.requestId, reply) ∈ results) :
    (resolveBatchResults claims active results).get? e.requestId =
      some (.done (some reply)) := by
  rw [get?_resolveBatchResults hids, if_pos (exists_of_mem he), hpending e he, Option.map_some,
    BatchFuture.resolve, lookup_reverse_of_mem hkeys hreply]

/-- An error settles the whole batch, whatever a part of it had been completed with before. -/
theorem resolveAllWithError_settled (hids : DistinctIds active)
    (hpending : ∀ e ∈ active, claims.get? e.requestId = some .pending) (rt : RuntimeState)
    {done : List QueueEntry} (hdone : done.Sublist active) (selected : RequestId)
    (message : String) :
    BatchSettled rt claims now active selected
      (resolveAllWithError now (done.foldl (completeEntry now) rt) claims active selected message)
      fun _ => .error message := by
  have hrecords := foldl_failEntry now hids (done.foldl (completeEntry now) rt)
  have hcompleted := foldl_completeEntry now (hids.sublist (hdone.map _)) rt
  refine ⟨?_, ?_, ?_, ?_⟩
  · intro e he
    refine ⟨?_, ?_, ?_⟩
    · apply get?_resolved hids hpending _ he (List.mem_map.mpr ⟨e, he, rfl⟩)
      rwa [List.map_map]
    · rw [resolveAllWithError, (hrecords _).1, if_pos (exists_of_mem he), (hcompleted _).1]
      split
      · rw [Option.map_map]
        congr 1
        funext r
        exact BatchReply.failed_completed now r
      · rfl
    · rw [resolveAllWithError, (hrecords _).2, if_pos (exists_of_mem he)]
  · intro rid hne
    have hother := not_exists_of_ne hne
    have hnotdone : ¬∃ e ∈ done, e.requestId = rid :=
      not_exists_of_ne fun e he => hne e (hdone.subset he)
    rw [resolveAllWithError, (hrecords _).1, (hrecords _).2, (hcompleted _).1, (hcompleted _).2,
      get?_resolveBatchResults hids]
    simp only [if_neg hother, if_neg hnotdone, and_self]
  · intro e he hid
    rw [resolveAllWithError, if_pos (List.any_eq_true.mpr ⟨e, he, by simpa using hid⟩)]
  · intro hne
    rw [resolveAllWithError, if_neg]
    simpa using hne

variable (annotate now) in
/-- The loop completes a beginning of the batch, and all of it when every response takes its
provenance. -/
theorem completeBatch_done (rt : RuntimeState) (pairs : List (QueueEntry × ρ)) :
    ∃ done, done.Sublist (pairs.map Prod.fst) ∧
      (completeBatch annotate now rt pairs).1 = done.foldl (completeEntry now) rt ∧
      ∀ results, (completeBatch annotate now rt pairs).2 = some results →
        done = pairs.map Prod.fst ∧ results.map Prod.fst = done.map (·.requestId) ∧
          ∀ p ∈ pairs, ∃ r, annotate p.1 p.2 = some r ∧ (p.1.requestId, r) ∈ results := by
  induction pairs generalizing rt with
  | nil =>
    refine ⟨[], .slnil, rfl, ?_⟩
    intro results h
    cases h
    exact ⟨rfl, rfl, fun p hp => nomatch hp⟩
  | cons p pairs ih =>
    obtain ⟨e, r⟩ := p
    rw [completeBatch]
    cases hannotate : annotate e r with
    | none =>
      refine ⟨[e], ?_, rfl, ?_⟩
      · exact List.Sublist.cons_cons e (List.nil_sublist _)
      · intro results h
        cases h
    | some r' =>
      obtain ⟨done, hdone, hrt, hresults⟩ := ih (completeEntry now rt e)
      refine ⟨e :: done, hdone.cons_cons e, hrt, ?_⟩
      intro results h
      obtain ⟨rest, hrest, rfl⟩ := Option.map_eq_some_iff.mp h
      obtain ⟨rfl, hkeys, hmem⟩ := hresults rest hrest
      refine ⟨rfl, ?_, ?_⟩
      · rw [List.map_cons, hkeys]
        rfl
      · intro p hp
        rcases List.mem_cons.mp hp with rfl | hp
        · exact ⟨r', hannotate, by simp⟩
        · obtain ⟨r'', hr'', hin⟩ := hmem p hp
          exact ⟨r'', hr'', List.mem_cons_of_mem _ hin⟩

theorem responses_settled (hids : DistinctIds active)
    (hpending : ∀ e ∈ active, claims.get? e.requestId = some .pending) (rt : RuntimeState)
    (selected : RequestId) {results : List (RequestId × ρ)}
    (hkeys : results.map Prod.fst = active.map (·.requestId)) {reply : QueueEntry → BatchReply ρ}
    (hreply : ∀ e ∈ active, ∃ r, reply e = .response r ∧ (e.requestId, r) ∈ results)
    (notified : Bool) :
    BatchSettled rt claims now active selected
      { rt := active.foldl (completeEntry now) rt
        claims := resolveBatchResults claims active
          (results.map fun p => (p.1, BatchReply.response p.2))
        notified
        returned := (results.map fun p => (p.1, BatchReply.response p.2)).reverse.lookup selected }
      reply := by
  have hrecords := foldl_completeEntry now hids rt
  have hnodup : ((results.map fun p => (p.1, BatchReply.response p.2)).map Prod.fst).Nodup := by
    have hfst : (results.map fun p => (p.1, BatchReply.response p.2)).map Prod.fst =
        results.map Prod.fst := by
      rw [List.map_map]
      rfl
    rwa [hfst, hkeys]
  have hmem : ∀ e ∈ active, (e.requestId, reply e) ∈
      results.map fun p => (p.1, BatchReply.response p.2) := by
    intro e he
    obtain ⟨r, hr, hin⟩ := hreply e he
    exact List.mem_map.mpr ⟨_, hin, by rw [hr]⟩
  refine ⟨?_, ?_, ?_, ?_⟩
  · intro e he
    refine ⟨get?_resolved hids hpending hnodup he (hmem e he), ?_, ?_⟩
    · obtain ⟨r, hr, -⟩ := hreply e he
      rw [(hrecords _).1, if_pos (exists_of_mem he), hr]
      rfl
    · rw [(hrecords _).2, if_pos (exists_of_mem he)]
  · intro rid hne
    have hother := not_exists_of_ne hne
    simp only [get?_resolveBatchResults hids, (hrecords _).1, (hrecords _).2, if_neg hother,
      and_self]
  · intro e he hid
    rw [← hid]
    exact lookup_reverse_of_mem hnodup (hmem e he)
  · intro hne
    apply List.lookup_eq_none_iff.mpr
    intro p hp
    obtain ⟨result, hresult, rfl⟩ := List.mem_map.mp (List.mem_reverse.mp hp)
    have hkey : result.1 ∈ results.map Prod.fst := List.mem_map.mpr ⟨result, hresult, rfl⟩
    obtain ⟨e, he, hid⟩ := List.mem_map.mp (hkeys ▸ hkey)
    have hselected := hne e he
    rw [hid] at hselected
    simpa using Ne.symm hselected

/-- Where the replies of a batch come from: all are one error, or each is the response at its
entry's place. -/
def RepliesOf (annotate : QueueEntry → ρ → Option ρ) (active : List QueueEntry)
    (outcome : BatchOutcome ρ) (reply : QueueEntry → BatchReply ρ) : Prop :=
  (∃ message, ∀ e ∈ active, reply e = .error message) ∨
    ∃ l, outcome = .responses l ∧ l.length = active.length ∧
      ∀ p ∈ active.zip l, ∃ r, annotate p.1 p.2 = some r ∧ reply p.1 = .response r

theorem finishLiveBatch_settled (hids : DistinctIds active)
    (hpending : ∀ e ∈ active, claims.get? e.requestId = some .pending) (rt : RuntimeState)
    (selected : RequestId) {outcome : BatchOutcome ρ} (houtcome : outcome ≠ .cancelled) :
    ∃ reply, BatchSettled rt claims now active selected
        (finishLiveBatch annotate now rt claims active selected outcome) reply ∧
      RepliesOf annotate active outcome reply := by
  cases outcome with
  | cancelled => exact absurd rfl houtcome
  | raised =>
    exact ⟨_, resolveAllWithError_settled hids hpending rt (List.nil_sublist _) selected _,
      .inl ⟨_, fun _ _ => rfl⟩⟩
  | responses l =>
    rw [finishLiveBatch]
    by_cases hlength : l.length = active.length
    · rw [if_neg (by simpa using hlength)]
      have hzip : (active.zip l).map Prod.fst = active :=
        List.map_fst_zip (Nat.le_of_eq hlength.symm)
      obtain ⟨done, hdone, hrt, hresults⟩ :=
        completeBatch_done annotate now rt (active.zip l)
      rw [hzip] at hdone hresults
      cases hbatch : completeBatch annotate now rt (active.zip l) with
      | mk rt' found =>
        rw [hbatch] at hrt hresults
        simp only at hrt hresults
        subst hrt
        cases found with
        | none =>
          exact ⟨_, resolveAllWithError_settled hids hpending rt hdone selected _,
            .inl ⟨_, fun _ _ => rfl⟩⟩
        | some results =>
          obtain ⟨rfl, hkeys, hmem⟩ := hresults results rfl
          have hentry : ∀ e, ∃ reply : BatchReply ρ, e ∈ done →
              ∃ r, reply = .response r ∧ (e.requestId, r) ∈ results := by
            intro e
            by_cases he : e ∈ done
            · rw [← hzip] at he
              obtain ⟨p, hp, rfl⟩ := List.mem_map.mp he
              obtain ⟨r, -, hr⟩ := hmem p hp
              exact ⟨.response r, fun _ => ⟨r, rfl, hr⟩⟩
            · exact ⟨.error "", fun h => absurd h he⟩
          choose reply hreply using hentry
          refine ⟨reply, responses_settled hids hpending rt selected hkeys hreply _,
            .inr ⟨l, rfl, hlength, ?_⟩⟩
          intro p hp
          obtain ⟨r, hr, hin⟩ := hmem p hp
          have he : p.1 ∈ done := by
            rw [← hzip]
            exact List.mem_map.mpr ⟨p, hp, rfl⟩
          obtain ⟨r', hr', hin'⟩ := hreply p.1 he
          have hnodup : (results.map Prod.fst).Nodup := hkeys ▸ hids
          have heq := List.inj_on_of_nodup_map hnodup hin hin' rfl
          rw [(Prod.mk.inj heq).2] at hr
          exact ⟨r', hr, hr'⟩
    · rw [if_pos hlength]
      exact ⟨_, resolveAllWithError_settled hids hpending rt (List.nil_sublist _) selected _,
        .inl ⟨_, fun _ _ => rfl⟩⟩

end Settle

/-- What `_try_execute_live_batch` has claimed when it calls the adapter. -/
structure BatchClaimed (b : LiveBatchSettings) (q : RequestQueue) (rt : RuntimeState)
    (claims claims' : BatchClaims ρ) (active : List QueueEntry) : Prop where
  order : active.Sublist q.deque
  size : b.minSize ≤ active.length ∧ active.length ≤ b.maxSize
  alike : ∀ e ∈ active, e.stream = false ∧ ∀ e' ∈ active, e.model = e'.model
  uncancelled : ∀ e ∈ active, rt.tokenCancelled e.requestId = false
  claimed : ∀ e ∈ active, claims.get? e.requestId = none ∧
    claims'.get? e.requestId = some .pending
  others : ∀ rid, (∀ e ∈ active, e.requestId ≠ rid) → claims'.get? rid = claims.get? rid

theorem beginLiveBatch_claimed {q : RequestQueue} {claims : BatchClaims ρ}
    (hq : DistinctIds q.deque)
    (h : beginLiveBatch b freshId q rt claims selected = some (active, claims')) :
    BatchClaimed b q rt claims claims' active := by
  obtain ⟨group, hfind, hactive, hmin, rfl⟩ := beginLiveBatch_find h
  have hgroup := findBatchGroup_of hq b.one_le_maxSize hfind
  have hsublist : active.Sublist group := by
    rw [hactive]
    exact List.filter_sublist.trans List.filter_sublist
  have hids : DistinctIds active := hq.sublist ((hsublist.trans hgroup.order).map _)
  have hmember : ∀ e ∈ active, claims.get? e.requestId = none ∧
      rt.tokenCancelled e.requestId = false := by
    intro e he
    rw [hactive, List.mem_filter, List.mem_filter] at he
    simpa [Dict.contains] using And.intro he.1.2 he.2
  refine ⟨hsublist.trans hgroup.order, ⟨hmin, ?_⟩, ?_, ?_, ?_, ?_⟩
  · exact Int.le_trans (Int.ofNat_le.mpr hsublist.length_le) hgroup.size
  · intro e he
    have hin := hsublist.subset he
    exact ⟨hgroup.whole e hin, fun e' he' => hgroup.alike e hin e' (hsublist.subset he')⟩
  · exact fun e he => (hmember e he).2
  · intro e he
    rw [get?_claimBatchEntries hids, if_pos (exists_of_mem he), (hmember e he).1]
    exact ⟨rfl, rfl⟩
  · intro rid hne
    rw [get?_claimBatchEntries hids, if_neg (not_exists_of_ne hne)]

/-- A batch, from the claims to the replies: whatever changes while the adapter works and however
it ends, every claimed entry gets one reply, and nothing else is touched. Only a cancellation of
the handler leaves everything as it is, with the claimed futures pending. -/
theorem liveBatch_settles {q : RequestQueue} {claims : BatchClaims (BatchReply ρ)}
    (hq : DistinctIds q.deque)
    (hbegin : beginLiveBatch b freshId q rt claims selected = some (active, claims'))
    (now : Time) (rt' : RuntimeState) {later : BatchClaims (BatchReply ρ)}
    (hkept : ∀ e ∈ active, later.get? e.requestId = claims'.get? e.requestId)
    (annotate : QueueEntry → ρ → Option ρ) (outcome : BatchOutcome ρ) :
    BatchClaimed b q rt claims claims' active ∧
      (outcome ≠ .cancelled →
        ∃ reply, BatchSettled rt' later now active selected
            (finishLiveBatch annotate now rt' later active selected outcome) reply ∧
          RepliesOf annotate active outcome reply) ∧
      (outcome = .cancelled →
        finishLiveBatch annotate now rt' later active selected outcome = ⟨rt', later, false, none⟩ ∧
          ∀ e ∈ active, later.get? e.requestId = some .pending) := by
  have hclaimed := beginLiveBatch_claimed hq hbegin
  have hpending : ∀ e ∈ active, later.get? e.requestId = some .pending := by
    intro e he
    rw [hkept e he, (hclaimed.claimed e he).2]
  refine ⟨hclaimed, ?_, ?_⟩
  · apply finishLiveBatch_settled _ hpending
    exact hq.sublist (hclaimed.order.map _)
  · rintro rfl
    exact ⟨rfl, hpending⟩

/-- Two requests for one model wait. -/
def twoWaiting : RequestQueue :=
  { deque := ["a", "b"].map fun rid =>
      { requestId := rid, model := "m", stream := false, enqueuedAt := 0, granted := false
        lane := none, laneMaxConcurrent := none, deadlineAt := none, cacheReady := false }
    scheduler := .init }

theorem liveBatch_settles_two :
    ∃ active claims', beginLiveBatch ⟨true, true, true, 2, 4⟩ toString twoWaiting .init .empty "a" =
        some (active, claims') ∧
      BatchClaimed ⟨true, true, true, 2, 4⟩ twoWaiting .init .empty claims' active ∧
      ∃ reply, BatchSettled .init claims' 1 active "a"
          (finishLiveBatch (fun _ (r : String) => some r) 1 .init claims' active "a"
            (.responses ["x", "y"])) reply ∧
        RepliesOf (fun _ (r : String) => some r) active (.responses ["x", "y"]) reply := by
  have hbegin : (beginLiveBatch (ρ := BatchReply String) ⟨true, true, true, 2, 4⟩ toString
      twoWaiting .init .empty "a").isSome = true := by
    simp [beginLiveBatch, RequestQueue.findBatchGroup, BatchAnalyzer.analyze, groupAll,
      findCompatible, removeMatched, buildGroup, checkCompatibility, twoWaiting,
      RequestQueue.buildBatchCandidates, LiveBatchSettings.maxSize, LiveBatchSettings.minSize,
      totalTokens, Dict.contains, RuntimeState.tokenCancelled, RuntimeState.getCancellationToken,
      RuntimeState.init, claimBatchEntries, claimEntry, Dict.get?_set]
  have hids : DistinctIds twoWaiting.deque := by simp [DistinctIds, twoWaiting]
  obtain ⟨begun, hbegun⟩ := Option.isSome_iff_exists.mp hbegin
  have hsettled := liveBatch_settles hids hbegun 1 .init (fun _ _ => rfl)
    (fun _ (r : String) => some r) (.responses ["x", "y"])
  exact ⟨begun.1, begun.2, hbegun, hsettled.1, hsettled.2.1 (by simp)⟩

end Whooshd
