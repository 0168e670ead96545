import Whooshd.Library.Machine
import Whooshd.Queue

namespace Whooshd
set_option autoImplicit true

/-- The operations other code performs on the request queue. -/
inductive QueueOp where
  | enqueue (e : QueueEntry) (now timeout : Time)
  | remove (rid : RequestId)
  | select (now : Time) (capacityAvailable : Bool) (entryEligible : QueueEntry → Bool)

inductive QueueEvent where
  | granted (e : QueueEntry)
  /-- A live and eligible entry stayed behind while a later one was granted. -/
  | passedOver (rid : RequestId)
  deriving DecidableEq, Repr

namespace RequestQueue

/-- The live and eligible entries, in the order of the deque. -/
def selectable (q : RequestQueue) (now : Time) (entryEligible : QueueEntry → Bool) :
    List QueueEntry :=
  q.deque.filter fun e => !e.isExpired now && entryEligible e

def passedOver (q : RequestQueue) (now : Time) (entryEligible : QueueEntry → Bool)
    (g : QueueEntry) : List QueueEvent :=
  ((q.selectable now entryEligible).filter fun e => e.enqueuedAt < g.enqueuedAt).map
    fun e => .passedOver e.requestId

def candidate (q : RequestQueue) (e : QueueEntry) : SchedulerCandidate :=
  { requestId := e.requestId, queuedAt := e.enqueuedAt, model := e.model, stream := e.stream
    threadwakeCacheReady := e.cacheReady, bypassCount := q.scheduler.bypassCount e.requestId }

end RequestQueue

def queueRun (cfg : Settings) : Machine RequestQueue QueueOp QueueEvent where
  step q
    | .enqueue e now timeout => some ((q.enqueue e now timeout).1, [])
    | .remove rid => some ((q.remove rid).2, [])
    | .select now capacityAvailable entryEligible =>
      match q.selectAndDequeue cfg now capacityAvailable entryEligible with
      | (none, q') => some (q', [])
      | (some g, q') => some (q', .granted g :: q.passedOver now entryEligible g)

/-- The entries a list of operations enqueues, in order. -/
def arrivals : List QueueOp → List QueueEntry
  | [] => []
  | .enqueue e _ _ :: ops => e :: arrivals ops
  | .remove _ :: ops => arrivals ops
  | .select _ _ _ :: ops => arrivals ops

namespace Scheduler

theorem oldest_sorted (h : (c :: cs).Pairwise fun a b => a.queuedAt ≤ b.queuedAt) :
    oldest (c :: cs) = some c := by
  rw [oldest, List.minOn?_cons]
  cases hm : cs.minOn? (·.queuedAt) with
  | none => rfl
  | some m =>
    have hle := (List.pairwise_cons.mp h).1 m (List.minOn?_mem hm)
    simp [minOn, hle]

theorem chooseNext_fifo (sch : Scheduler)
    (h : (c :: cs).Pairwise fun a b => a.queuedAt ≤ b.queuedAt) :
    ∃ d sch', chooseNext sch .fifo b (c :: cs) true = (d, sch') ∧
      d.requestId = some c.requestId := by
  simp [chooseNext, chooseFifo, record, oldest_sorted h]

end Scheduler

namespace RequestQueue

theorem eligible_candidates (hq : DistinctIds q.deque) :
    ((buildCandidates q).filter fun c => !(q.byId c.requestId).any (·.isExpired now)).filter
      (fun c => (q.byId c.requestId).any elig) = (q.selectable now elig).map q.candidate := by
  simp only [buildCandidates, selectable, List.filter_filter, List.filter_map]
  congr 1
  apply List.filter_congr
  intro e he
  simp [byId_mem hq he, Bool.and_comm]

theorem selectAndDequeue_none (cfg : Settings) (hq : DistinctIds q.deque)
    (h : avail = false ∨ selectable q now elig = []) :
    ∃ sch, selectAndDequeue q cfg now avail elig = (none, { q with scheduler := sch }) ∧
      sch.bypassCounts = q.scheduler.bypassCounts := by
  simp only [selectAndDequeue, eligible_candidates hq]
  split
  · exact ⟨_, rfl, rfl⟩
  · split
    · exact ⟨_, rfl, rfl⟩
    · next ha =>
      split
      · exact ⟨_, rfl, rfl⟩
      · have hs : q.selectable now elig = [] := by
          rcases h with h | h
          · exact absurd h ha
          · exact h
        simp only [hs, List.map_nil, if_true]
        exact ⟨_, rfl, rfl⟩

/-- With capacity, the scheduler chooses among the live and eligible entries and the entry
it names leaves the queue. -/
theorem selectAndDequeue_chosen (hq : DistinctIds q.deque) (he : e ∈ selectable q now elig)
    (hc : q.scheduler.chooseNext cfg.schedulerPolicy cfg.schedulerMaxBypass
      ((q.selectable now elig).map q.candidate) true = (d, sch))
    (hd : d.requestId = some e.requestId) :
    selectAndDequeue q cfg now true elig = (some e.markGranted,
      ⟨q.deque.eraseP (·.requestId = e.requestId), sch.removeRequest e.requestId⟩) := by
  have hmem : e ∈ q.deque := List.mem_of_mem_filter he
  have hne : (q.selectable now elig).map q.candidate ≠ [] := by
    intro h
    rw [List.map_eq_nil_iff] at h
    rw [h] at he
    cases he
  simp only [selectAndDequeue, eligible_candidates hq, hne, hc, hd, if_false]
  have hlive : (buildCandidates q).filter
      (fun c => !(q.byId c.requestId).any (·.isExpired now)) ≠ [] := by
    intro h
    apply hne
    rw [← eligible_candidates hq, h]
    rfl
  have hcands : buildCandidates q ≠ [] := by
    intro h
    apply hlive
    rw [h]
    rfl
  simp only [hcands, hlive, if_false, remove, find, hq.find_mem hmem]
  simp

end RequestQueue

/-- Distinct ids, and enqueue times that are related from each entry to the later ones. -/
def InOrder (r : Time → Time → Prop) (l : List QueueEntry) : Prop :=
  l.Pairwise fun a b => a.requestId ≠ b.requestId ∧ r a.enqueuedAt b.enqueuedAt

theorem InOrder.sublist (h : InOrder r l) (hs : l'.Sublist l) : InOrder r l' :=
  List.Pairwise.sublist hs h

theorem InOrder.distinctIds (h : InOrder r l) : DistinctIds l := by
  rw [DistinctIds, List.Nodup, List.pairwise_map]
  exact h.imp fun hab => hab.1

theorem QueueEntry.stampDeadline_requestId (e : QueueEntry) (now timeout : Time) :
    (e.stampDeadline now timeout).requestId = e.requestId := by
  simp only [stampDeadline]
  split <;> rfl

theorem QueueEntry.stampDeadline_enqueuedAt (e : QueueEntry) (now timeout : Time) :
    (e.stampDeadline now timeout).enqueuedAt = e.enqueuedAt := by
  simp only [stampDeadline]
  split <;> rfl

theorem InOrder.stampDeadline (h : InOrder r (l ++ e :: l')) :
    InOrder r (l ++ e.stampDeadline now timeout :: l') := by
  rw [InOrder, List.pairwise_append, List.pairwise_cons] at h ⊢
  simpa only [List.forall_mem_cons, e.stampDeadline_requestId, e.stampDeadline_enqueuedAt] using h

/-- One operation appends the arriving entry with its deadline, or takes entries out. -/
theorem queueRun_cases (hq : DistinctIds q.deque)
    (hs : (queueRun cfg).step q op = some (q', out)) :
    (∃ e now timeout, op = .enqueue e now timeout ∧
      q'.deque = q.deque ++ [e.stampDeadline now timeout]) ∨
    (∀ ops, arrivals (op :: ops) = arrivals ops) ∧ q'.deque.Sublist q.deque := by
  cases op with
  | enqueue e now timeout =>
    cases hs
    exact .inl ⟨e, now, timeout, rfl, rfl⟩
  | remove rid =>
    cases hs
    right
    apply And.intro (fun _ => rfl)
    rw [RequestQueue.remove_deque]
    exact List.eraseP_sublist
  | select now avail elig =>
    right
    apply And.intro (fun _ => rfl)
    cases hsel : q.selectAndDequeue cfg now avail elig with
    | mk selected q₁ =>
      have hsub : q₁.deque.Sublist q.deque := by
        obtain ⟨-, hd⟩ | ⟨e, -, -, -, -, -, hd⟩ := RequestQueue.selectAndDequeue_cases hq hsel
        · rw [hd]
        · rw [hd]
          exact List.eraseP_sublist
      simp only [queueRun, hsel] at hs
      cases selected with
      | none =>
        cases hs
        exact hsub
      | some g =>
        cases hs
        exact hsub

theorem queueRun_inOrder (h : InOrder r (q.deque ++ arrivals (op :: ops)))
    (hs : (queueRun cfg).step q op = some (q', out)) : InOrder r (q'.deque ++ arrivals ops) := by
  have hq : DistinctIds q.deque := (h.sublist (List.sublist_append_left _ _)).distinctIds
  obtain ⟨e, now, timeout, rfl, hd⟩ | ⟨harr, hsub⟩ := queueRun_cases hq hs
  · rw [hd, List.append_assoc]
    exact h.stampDeadline
  · rw [harr] at h
    exact h.sublist (hsub.append_right _)

theorem queueRun_ids (h : InOrder r (q.deque ++ arrivals (op :: ops)))
    (hs : (queueRun cfg).step q op = some (q', out)) :
    ((q'.deque ++ arrivals ops).map (·.requestId)).Sublist
      ((q.deque ++ arrivals (op :: ops)).map (·.requestId)) := by
  have hq : DistinctIds q.deque := (h.sublist (List.sublist_append_left _ _)).distinctIds
  obtain ⟨e, now, timeout, rfl, hd⟩ | ⟨harr, hsub⟩ := queueRun_cases hq hs
  · simp [hd, arrivals, e.stampDeadline_requestId]
  · rw [harr]
    exact (hsub.append_right _).map _

end Whooshd
