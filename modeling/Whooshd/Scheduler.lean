import Whooshd.Capacity

namespace Whooshd
set_option autoImplicit true

inductive SchedulerDecisionReason where
  | fifoOldest | cacheAffinity | fairnessFifo | noEligibleRequest | capacityUnavailable
  deriving DecidableEq, Repr

structure SchedulerCandidate where
  requestId : RequestId
  queuedAt : Time
  model : String
  stream : Bool
  threadwakeCacheReady : Bool
  bypassCount : Nat
  deriving DecidableEq, Repr

structure SchedulerDecision where
  requestId : Option RequestId
  policy : SchedulerPolicy
  reason : SchedulerDecisionReason
  eligibleCount : Nat
  deriving DecidableEq, Repr

structure Scheduler where
  lastDecision : Option SchedulerDecision
  bypassCounts : Dict RequestId Nat
  cacheAffinityCandidates : Nat
  fairnessBypasses : Nat
  deriving DecidableEq

namespace Scheduler

def init : Scheduler := ⟨none, .empty, 0, 0⟩

def bypassCount (sch : Scheduler) (rid : RequestId) : Nat := (sch.bypassCounts.get? rid).getD 0

def record (sch : Scheduler) (d : SchedulerDecision) : SchedulerDecision × Scheduler :=
  (d, { sch with lastDecision := some d })

/-- The candidate with the least queue time, the first one on ties. -/
def oldest (candidates : List SchedulerCandidate) : Option SchedulerCandidate :=
  candidates.minOn? (·.queuedAt)

def chooseFifo (sch : Scheduler) (candidates : List SchedulerCandidate) :
    SchedulerDecision × Scheduler :=
  sch.record
    { requestId := (oldest candidates).map (·.requestId), policy := .fifo, reason := .fifoOldest
      eligibleCount := candidates.length }

/-- Count one more bypass for every candidate queued before the chosen one. -/
def countBypasses (sch : Scheduler) (chosen : SchedulerCandidate) :
    List SchedulerCandidate → Scheduler
  | [] => sch
  | c :: cs =>
    if c.queuedAt < chosen.queuedAt then
      { sch with
        bypassCounts := sch.bypassCounts.set c.requestId (sch.bypassCount c.requestId + 1)
        fairnessBypasses := sch.fairnessBypasses + 1 }.countBypasses chosen cs
    else sch.countBypasses chosen cs

def chooseCacheAware (sch : Scheduler) (maxBypass : Nat) (candidates : List SchedulerCandidate) :
    SchedulerDecision × Scheduler :=
  match oldest candidates with
  | none =>
    sch.record { requestId := none, policy := .cacheAwareFifo, reason := .noEligibleRequest
                 eligibleCount := candidates.length }
  | some o =>
    let decision (rid : RequestId) (reason : SchedulerDecisionReason) : SchedulerDecision :=
      { requestId := some rid, policy := .cacheAwareFifo, reason
        eligibleCount := candidates.length }
    if maxBypass ≤ sch.bypassCount o.requestId then
      sch.record (decision o.requestId .fairnessFifo)
    else match candidates.find? (·.threadwakeCacheReady) with
      | none => sch.record (decision o.requestId .fifoOldest)
      | some ready =>
        if ready.requestId = o.requestId then sch.record (decision o.requestId .fifoOldest)
        else (sch.countBypasses ready candidates).record (decision ready.requestId .cacheAffinity)

def chooseNext (sch : Scheduler) (policy : SchedulerPolicy) (maxBypass : Nat)
    (candidates : List SchedulerCandidate) (capacityAvailable : Bool) :
    SchedulerDecision × Scheduler :=
  if capacityAvailable = false then
    sch.record { requestId := none, policy, reason := .capacityUnavailable
                 eligibleCount := candidates.length }
  else if candidates = [] then
    sch.record { requestId := none, policy, reason := .noEligibleRequest, eligibleCount := 0 }
  else
    let sch : Scheduler := { sch with
      cacheAffinityCandidates := candidates.countP (·.threadwakeCacheReady) }
    match policy with
    | .fifo => sch.chooseFifo candidates
    | .cacheAwareFifo => sch.chooseCacheAware maxBypass candidates

def removeRequest (sch : Scheduler) (rid : RequestId) : Scheduler :=
  { sch with bypassCounts := sch.bypassCounts.erase rid }

theorem oldest_mem (h : oldest candidates = some c) : c ∈ candidates :=
  List.minOn?_mem h

theorem chooseNext_mem
    (h : (chooseNext sch policy b candidates avail).1.requestId = some rid) :
    ∃ c ∈ candidates, c.requestId = rid := by
  simp only [chooseNext] at h
  split at h
  · cases h
  · split at h
    · cases h
    · split at h
      · simp only [chooseFifo, record, Option.map_eq_some_iff] at h
        obtain ⟨c, hc, he⟩ := h
        exact ⟨c, oldest_mem hc, he⟩
      · simp only [chooseCacheAware] at h
        split at h
        · cases h
        · next o ho =>
          split at h
          · cases h
            exact ⟨o, oldest_mem ho, rfl⟩
          · split at h
            · cases h
              exact ⟨o, oldest_mem ho, rfl⟩
            · next ready hr =>
              split at h
              · cases h
                exact ⟨o, oldest_mem ho, rfl⟩
              · cases h
                exact ⟨ready, List.mem_of_find?_eq_some hr, rfl⟩

end Scheduler

end Whooshd
