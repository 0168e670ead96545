import Whooshd.FifoOrder

namespace Whooshd
set_option autoImplicit true

namespace Scheduler

theorem countBypasses_bypassCount (sch : Scheduler) (chosen : SchedulerCandidate)
    (candidates : List SchedulerCandidate) (rid : RequestId) :
    (sch.countBypasses chosen candidates).bypassCount rid = sch.bypassCount rid +
      candidates.countP fun c => c.requestId = rid && c.queuedAt < chosen.queuedAt := by
  induction candidates generalizing sch with
  | nil => rfl
  | cons c cs ih =>
    simp only [countBypasses, List.countP_cons]
    by_cases hlt : c.queuedAt < chosen.queuedAt
    · rw [if_pos hlt, ih]
      by_cases hrid : c.requestId = rid
      · subst hrid
        simp only [bypassCount, Dict.get?_set_self, Option.getD_some, hlt]
        simp
        omega
      · simp [bypassCount, Dict.get?_set_ne (Ne.symm hrid), hrid]
    · rw [if_neg hlt, ih]
      simp [hlt]

/-- The candidate the cache-aware policy runs: the oldest once its bypasses are used up,
else the first one with a warm cache. -/
def preferred (sch : Scheduler) (maxBypass : Nat) (oldest : SchedulerCandidate)
    (candidates : List SchedulerCandidate) : SchedulerCandidate :=
  if maxBypass ≤ sch.bypassCount oldest.requestId then oldest
  else (candidates.find? (·.threadwakeCacheReady)).getD oldest

theorem chooseNext_cacheAware (sch : Scheduler)
    (h : (c :: cs).Pairwise fun a b => a.requestId ≠ b.requestId ∧ a.queuedAt < b.queuedAt) :
    ∃ d sch', chooseNext sch .cacheAwareFifo b (c :: cs) true = (d, sch') ∧
      d.requestId = some (sch.preferred b c (c :: cs)).requestId ∧
      ∀ rid, sch'.bypassCount rid = sch.bypassCount rid + (c :: cs).countP fun x =>
        x.requestId = rid && x.queuedAt < (sch.preferred b c (c :: cs)).queuedAt := by
  have hold : oldest (c :: cs) = some c :=
    oldest_sorted (h.imp fun hab => Int.le_of_lt hab.2)
  have hfirst : ∀ rid, ((c :: cs).countP fun x =>
      x.requestId = rid && x.queuedAt < c.queuedAt) = 0 := by
    intro rid
    rw [List.countP_eq_zero]
    intro x hx
    rcases List.mem_cons.mp hx with rfl | hx
    · simp
    · have hlt := ((List.pairwise_cons.mp h).1 x hx).2
      simp [Int.not_lt.mpr (Int.le_of_lt hlt)]
  simp only [chooseNext, chooseCacheAware, hold, preferred]
  by_cases hspent : b ≤ sch.bypassCount c.requestId
  · simp only [bypassCount] at hspent
    simp [bypassCount, hspent, record, hfirst]
  · have hspent' : ¬ b ≤ Option.getD (sch.bypassCounts.get? c.requestId) 0 := hspent
    simp only [bypassCount, hspent']
    cases hr : (c :: cs).find? (·.threadwakeCacheReady) with
    | none => simp [record, hfirst]
    | some ready =>
      by_cases hid : ready.requestId = c.requestId
      · have hrc : ready = c := by
          rcases List.mem_cons.mp (List.mem_of_find?_eq_some hr) with hrc | hrc
          · exact hrc
          · exact absurd hid.symm ((List.pairwise_cons.mp h).1 ready hrc).1
        subst hrc
        simp [record, hfirst]
      · simp only [hid, record, if_false, Option.getD_some]
        refine ⟨_, _, rfl, rfl, fun rid => ?_⟩
        exact countBypasses_bypassCount _ _ _ _

end Scheduler

namespace RequestQueue

def bypassCount (q : RequestQueue) (rid : RequestId) : Nat := q.scheduler.bypassCount rid

/-- The entry that the cache-aware policy grants. -/
def preferred (q : RequestQueue) (maxBypass : Nat) (oldest : QueueEntry)
    (entries : List QueueEntry) : QueueEntry :=
  if maxBypass ≤ q.bypassCount oldest.requestId then oldest
  else (entries.find? (·.cacheReady)).getD oldest

theorem preferred_candidate (q : RequestQueue) (b : Nat) (o : QueueEntry)
    (l : List QueueEntry) : q.scheduler.preferred b (q.candidate o) (l.map q.candidate) =
      q.candidate (q.preferred b o l) := by
  have hfind : (l.map q.candidate).find? (·.threadwakeCacheReady) =
      (l.find? (·.cacheReady)).map q.candidate := List.find?_map
  simp only [Scheduler.preferred, preferred, hfind]
  by_cases h : b ≤ q.bypassCount o.requestId
  · rw [if_pos h]
    exact if_pos h
  · rw [if_neg h]
    apply (if_neg h).trans
    cases l.find? (·.cacheReady) <;> rfl

theorem preferred_mem (q : RequestQueue) (b : Nat) (o : QueueEntry) (l : List QueueEntry) :
    q.preferred b o (o :: l) ∈ o :: l := by
  simp only [preferred]
  split
  · exact List.mem_cons_self
  · cases h : (o :: l).find? (·.cacheReady) with
    | none => exact List.mem_cons_self
    | some r => exact List.mem_of_find?_eq_some h

/-- The passes over an entry in one selection. -/
theorem count_passedOver (q : RequestQueue) (now : Time) (elig : QueueEntry → Bool)
    (g : QueueEntry) (rid : RequestId) :
    (q.passedOver now elig g).count (.passedOver rid) =
      (q.selectable now elig).countP fun e => e.requestId = rid && e.enqueuedAt < g.enqueuedAt := by
  simp only [passedOver, List.count, List.countP_map, List.countP_filter]
  apply List.countP_congr
  intro e he
  simp

theorem selectAndDequeue_cacheAware (hp : Settings.schedulerPolicy cfg = .cacheAwareFifo)
    (hq : InOrder (· < ·) q.deque) (hl : selectable q now elig = o :: rest) :
    ∃ q', q.selectAndDequeue cfg now true elig =
        (some (q.preferred cfg.schedulerMaxBypass o (o :: rest)).markGranted, q') ∧
      q'.deque = q.deque.eraseP
        (·.requestId = (q.preferred cfg.schedulerMaxBypass o (o :: rest)).requestId) ∧
      ∀ rid ≠ (q.preferred cfg.schedulerMaxBypass o (o :: rest)).requestId,
        q'.bypassCount rid = q.bypassCount rid +
          (q.passedOver now elig (q.preferred cfg.schedulerMaxBypass o (o :: rest))).count
            (.passedOver rid) := by
  have hsorted : ((o :: rest).map q.candidate).Pairwise fun a b =>
      a.requestId ≠ b.requestId ∧ a.queuedAt < b.queuedAt := by
    rw [List.pairwise_map, ← hl]
    exact hq.sublist List.filter_sublist
  obtain ⟨d, sch, hc, hd, hcount⟩ := Scheduler.chooseNext_cacheAware q.scheduler hsorted
    (b := cfg.schedulerMaxBypass)
  rw [← List.map_cons] at hc hd hcount
  rw [preferred_candidate] at hd hcount
  have he : q.preferred cfg.schedulerMaxBypass o (o :: rest) ∈ q.selectable now elig := by
    rw [hl]
    exact q.preferred_mem _ _ _
  rw [← hl, ← hp] at hc
  refine ⟨_, selectAndDequeue_chosen hq.distinctIds he hc hd, rfl, ?_⟩
  intro rid hne
  rw [count_passedOver, hl]
  have hrid := hcount rid
  rw [List.countP_map] at hrid
  simp only [bypassCount, Scheduler.removeRequest, Scheduler.bypassCount,
    Dict.get?_erase_ne hne] at hrid ⊢
  exact hrid

end RequestQueue

/-- How often an entry was passed over so far. -/
def passes (hist : List QueueEvent) (rid : RequestId) : Nat := hist.count (.passedOver rid)

/-- Whenever a live and eligible entry queued before the first one with a warm cache has used
up its bypasses, so has the oldest live and eligible entry. -/
def OldestSpentFirst (maxBypass : Nat) (q : RequestQueue) : QueueOp → Prop
  | .enqueue _ _ _ => True
  | .remove _ => True
  | .select now capacityAvailable entryEligible =>
    capacityAvailable = true → ∀ o r, (q.selectable now entryEligible).head? = some o →
      (q.selectable now entryEligible).find? (·.cacheReady) = some r →
      ∀ e ∈ q.selectable now entryEligible, e.enqueuedAt < r.enqueuedAt →
        maxBypass ≤ q.bypassCount e.requestId → maxBypass ≤ q.bypassCount o.requestId

/-- The scheduler's counts are the passes that happened, and none is kept for an arrival. -/
structure Tracked (hist : List QueueEvent) (q : RequestQueue) (rest : List QueueEntry) :
    Prop where
  ordered : InOrder (· < ·) (q.deque ++ rest)
  counted : ∀ e ∈ q.deque, q.bypassCount e.requestId = passes hist e.requestId
  fresh : ∀ e ∈ rest, q.bypassCount e.requestId = 0 ∧ passes hist e.requestId = 0

theorem passes_append (hist out : List QueueEvent) (rid : RequestId) :
    passes (hist ++ out) rid = passes hist rid + passes out rid := List.count_append

theorem Tracked.deque (h : Tracked hist q rest) : InOrder (· < ·) q.deque :=
  h.ordered.sublist (List.sublist_append_left _ _)

/-- Taking entries out while no count of the others moves keeps the tracking. -/
theorem Tracked.take (h : Tracked hist q rest) (hsub : q'.deque.Sublist q.deque)
    (hcount : ∀ e ∈ q'.deque ++ rest,
      q'.bypassCount e.requestId = q.bypassCount e.requestId + passes out e.requestId)
    (hout : ∀ e ∈ rest, passes out e.requestId = 0) : Tracked (hist ++ out) q' rest where
  ordered := h.ordered.sublist (hsub.append_right _)
  counted e he := by
    rw [passes_append, hcount e (List.mem_append_left _ he), h.counted e (hsub.subset he)]
  fresh e he := by
    rw [passes_append, hcount e (List.mem_append_right _ he), hout e he, (h.fresh e he).1,
      (h.fresh e he).2]
    exact ⟨rfl, rfl⟩

theorem Tracked.ne_of_erased (h : Tracked hist q rest) (hx : x ∈ q.deque)
    (he : e ∈ q.deque.eraseP (·.requestId = x.requestId) ++ rest) :
    e.requestId ≠ x.requestId := by
  rcases List.mem_append.mp he with he | he
  · exact findEntry_none.mp (h.deque.distinctIds.findEntry_eraseP x.requestId) e he
  · exact ((List.pairwise_append.mp h.ordered).2.2 x hx e he).1.symm

theorem queueRun_select (hp : Settings.schedulerPolicy cfg = .cacheAwareFifo)
    (hq : InOrder (· < ·) q.deque)
    (hs : (queueRun cfg).step q (.select now avail elig) = some (q', out)) :
    (out = [] ∧ (avail = false ∨ q.selectable now elig = []) ∧ q'.deque = q.deque ∧
      ∀ rid, q'.bypassCount rid = q.bypassCount rid) ∨
    ∃ o l g, avail = true ∧ q.selectable now elig = o :: l ∧
      g = q.preferred cfg.schedulerMaxBypass o (o :: l) ∧
      q'.deque = q.deque.eraseP (·.requestId = g.requestId) ∧
      (∀ rid ≠ g.requestId, q'.bypassCount rid = q.bypassCount rid + passes out rid) ∧
      ∀ rid, passes out rid =
        (o :: l).countP fun e => e.requestId = rid && e.enqueuedAt < g.enqueuedAt := by
  simp only [queueRun] at hs
  by_cases hnone : avail = false ∨ q.selectable now elig = []
  · left
    obtain ⟨sch, hsel, hsch⟩ := RequestQueue.selectAndDequeue_none cfg hq.distinctIds hnone
    simp only [hsel] at hs
    cases hs
    apply And.intro rfl (And.intro hnone (And.intro rfl _))
    intro rid
    simp only [RequestQueue.bypassCount, Scheduler.bypassCount, hsch]
  · right
    simp only [not_or, Bool.not_eq_false] at hnone
    obtain ⟨rfl, hne⟩ := hnone
    obtain ⟨o, l, hl⟩ := List.exists_cons_of_ne_nil hne
    obtain ⟨q₁, hsel, hdeque, hcount⟩ := RequestQueue.selectAndDequeue_cacheAware hp hq hl
    simp only [hsel] at hs
    cases hs
    have hpass : ∀ g rid, passes (.granted g.markGranted ::
        q.passedOver now elig g.markGranted) rid =
          (q.passedOver now elig g).count (.passedOver rid) := by
      intro g rid
      simp only [passes, List.count_cons]
      rfl
    refine ⟨o, l, _, rfl, hl, rfl, hdeque, ?_, ?_⟩
    · intro rid hrid
      rw [hpass]
      exact hcount rid hrid
    · intro rid
      rw [hpass, RequestQueue.count_passedOver, hl]

theorem Tracked.remove (h : Tracked hist q l) (rid : RequestId) :
    Tracked hist (q.remove rid).2 l := by
  rw [← List.append_nil hist]
  apply h.take
  · rw [RequestQueue.remove_deque]
    exact List.eraseP_sublist
  · intro x hx
    rw [RequestQueue.remove_deque] at hx
    simp only [RequestQueue.remove]
    cases hf : q.find rid with
    | none => rfl
    | some y =>
      obtain ⟨hy, rfl⟩ := findEntry_some hf
      have hne := h.ne_of_erased hy hx
      simp only [RequestQueue.bypassCount, Scheduler.bypassCount, Scheduler.removeRequest,
        Dict.get?_erase_ne hne]
      rfl
  · intro x _
    rfl

theorem Tracked.select (hp : Settings.schedulerPolicy cfg = .cacheAwareFifo)
    (h : Tracked hist q arrived)
    (hs : (queueRun cfg).step q (.select now avail elig) = some (q', out)) :
    Tracked (hist ++ out) q' arrived := by
  obtain ⟨rfl, -, hd, hc⟩ | ⟨o, l, g, -, hl, hg, hd, hc, hpass⟩ := queueRun_select hp h.deque hs
  · apply h.take
    · rw [hd]
    · intro x _
      exact hc _
    · intro x _
      rfl
  · have hmem : ∀ x ∈ o :: l, x ∈ q.deque := by
      intro x hx
      rw [← hl] at hx
      exact List.mem_of_mem_filter hx
    have hgm : g ∈ q.deque := by
      rw [hg]
      exact hmem _ (q.preferred_mem _ _ _)
    apply h.take
    · rw [hd]
      exact List.eraseP_sublist
    · intro x hx
      rw [hd] at hx
      exact hc _ (h.ne_of_erased hgm hx)
    · intro x hx
      rw [hpass, List.countP_eq_zero]
      intro y hy
      have hne := ((List.pairwise_append.mp h.ordered).2.2 y (hmem y hy) x hx).1
      simp [hne]

theorem Tracked.step (hp : Settings.schedulerPolicy cfg = .cacheAwareFifo)
    (h : Tracked hist q (arrivals (op :: ops)))
    (hs : (queueRun cfg).step q op = some (q', out)) :
    Tracked (hist ++ out) q' (arrivals ops) := by
  cases op with
  | enqueue e now timeout =>
    have hord := queueRun_inOrder h.ordered hs
    cases hs
    rw [List.append_nil]
    constructor
    · exact hord
    · intro x hx
      rcases List.mem_append.mp hx with hx | hx
      · exact h.counted x hx
      · rw [List.mem_singleton.mp hx, e.stampDeadline_requestId, (h.fresh e List.mem_cons_self).2]
        exact (h.fresh e List.mem_cons_self).1
    · intro x hx
      exact h.fresh x (List.mem_cons_of_mem _ hx)
  | remove rid =>
    cases hs
    rw [List.append_nil]
    exact h.remove rid
  | select now avail elig => exact h.select hp hs

theorem countP_id_le_one (h : DistinctIds l) (rid : RequestId) (p : QueueEntry → Bool) :
    (l.countP fun e => e.requestId = rid && p e) ≤ 1 := by
  calc (l.countP fun e => e.requestId = rid && p e)
      ≤ l.countP fun e => e.requestId = rid := by
        apply List.countP_mono_left
        intro e _ he
        exact (Bool.and_eq_true_iff.mp he).1
    _ = (l.map (·.requestId)).count rid := by
        rw [List.count, List.countP_map]
        apply List.countP_congr
        intro e _
        simp
    _ ≤ 1 := List.nodup_iff_count_le_one.mp h rid

/-- An entry is passed over only for a warm cache, before the oldest has spent its bypasses. -/
theorem preferred_of_passed (hord : InOrder (· < ·) (o :: l)) (he : e ∈ o :: l)
    (hlt : e.enqueuedAt < (RequestQueue.preferred q b o (o :: l)).enqueuedAt) :
    ¬ b ≤ q.bypassCount o.requestId ∧
      (o :: l).find? (·.cacheReady) = some (q.preferred b o (o :: l)) := by
  have hle : o.enqueuedAt ≤ e.enqueuedAt := by
    rcases List.mem_cons.mp he with rfl | he
    · exact Int.le_refl _
    · exact Int.le_of_lt ((List.pairwise_cons.mp hord).1 e he).2
  have hne : q.preferred b o (o :: l) ≠ o := by
    intro h
    rw [h] at hlt
    exact Int.not_lt.mpr hle hlt
  by_cases hspent : b ≤ q.bypassCount o.requestId
  · exact absurd (if_pos hspent) hne
  · have hpref : q.preferred b o (o :: l) = ((o :: l).find? (·.cacheReady)).getD o :=
      if_neg hspent
    apply And.intro hspent
    cases hr : (o :: l).find? (·.cacheReady) with
    | none =>
      rw [hr] at hpref
      exact absurd hpref hne
    | some r =>
      rw [hpref, hr]
      rfl

/-- One selection keeps every entry within the bound exactly if the oldest is spent first. -/
theorem Tracked.bound_iff (hp : Settings.schedulerPolicy cfg = .cacheAwareFifo)
    (h : Tracked hist q (arrivals (op :: ops)))
    (hb : ∀ rid, passes hist rid ≤ cfg.schedulerMaxBypass)
    (hs : (queueRun cfg).step q op = some (q', out)) :
    (∀ rid, passes (hist ++ out) rid ≤ cfg.schedulerMaxBypass) ↔
      OldestSpentFirst cfg.schedulerMaxBypass q op := by
  cases op with
  | enqueue e now timeout =>
    cases hs
    simpa [OldestSpentFirst] using hb
  | remove rid =>
    cases hs
    simpa [OldestSpentFirst] using hb
  | select now avail elig =>
    obtain ⟨rfl, hnone, -, -⟩ | ⟨o, l, g, rfl, hl, hg, -, -, hpass⟩ :=
      queueRun_select hp h.deque hs
    · simp only [List.append_nil, hb, implies_true, OldestSpentFirst, true_iff]
      intro ha o r ho
      rcases hnone with hnone | hnone
      · rw [ha] at hnone
        cases hnone
      · rw [hnone] at ho
        cases ho
    · have hord : InOrder (· < ·) (o :: l) := hl ▸ h.deque.sublist List.filter_sublist
      have hcounted : ∀ e ∈ o :: l, q.bypassCount e.requestId = passes hist e.requestId := by
        intro e he
        rw [← hl] at he
        exact h.counted e (List.mem_of_mem_filter he)
      simp only [OldestSpentFirst, hl, List.head?_cons, Option.some.injEq]
      constructor
      · rintro hbound - o' r rfl hr e he hlt hspent
        by_contra hopen
        have hgr : g = r := by
          rw [hg, RequestQueue.preferred, if_neg hopen, hr]
          rfl
        have hpos : 0 < passes out e.requestId := by
          rw [hpass, List.countP_pos_iff]
          exact ⟨e, he, by simp [hgr, hlt]⟩
        have hle := hbound e.requestId
        rw [passes_append, ← hcounted e he] at hle
        omega
      · intro hcond rid
        rw [passes_append]
        by_cases hzero : passes out rid = 0
        · rw [hzero]
          exact hb rid
        · have hone : passes out rid ≤ 1 := by
            rw [hpass]
            exact countP_id_le_one hord.distinctIds rid _
          obtain ⟨e, he, hmatch⟩ : ∃ e ∈ o :: l,
              (decide (e.requestId = rid) && decide (e.enqueuedAt < g.enqueuedAt)) = true := by
            rw [← List.countP_pos_iff, ← hpass]
            omega
          simp only [Bool.and_eq_true, decide_eq_true_eq] at hmatch
          obtain ⟨rfl, hlt⟩ := hmatch
          rw [hg] at hlt
          obtain ⟨hopen, hready⟩ := preferred_of_passed hord he hlt
          have hroom : ¬ cfg.schedulerMaxBypass ≤ q.bypassCount e.requestId := by
            intro hspent
            exact hopen (hcond trivial o _ rfl hready e he hlt hspent)
          rw [hcounted e he] at hroom
          omega

/-- No entry is passed over more often than the configured bound, exactly in the runs in which
the oldest live and eligible entry always spends its bypasses first. -/
theorem bounded_bypass_iff (cfg : Settings) (hp : cfg.schedulerPolicy = .cacheAwareFifo)
    (ops : List QueueOp) (harr : InOrder (· < ·) (arrivals ops)) (q : RequestQueue)
    (out : List QueueEvent) (hrun : (queueRun cfg).exec .init ops = some (q, out)) :
    (∀ rid, passes out rid ≤ cfg.schedulerMaxBypass) ↔
      (queueRun cfg).EachStep (OldestSpentFirst cfg.schedulerMaxBypass) .init ops := by
  have hinit : Tracked [] .init (arrivals ops) := by
    constructor
    · exact harr
    · intro e he
      cases he
    · intro e _
      exact ⟨rfl, rfl⟩
  have hmono : ∀ {h out : List QueueEvent},
      (∀ rid, passes (h ++ out) rid ≤ cfg.schedulerMaxBypass) →
        ∀ rid, passes h rid ≤ cfg.schedulerMaxBypass := by
    intro h out hb rid
    have := hb rid
    rw [passes_append] at this
    omega
  exact Machine.exec_history_iff (I := fun hist q ops => Tracked hist q (arrivals ops))
    (P := fun hist => ∀ rid, passes hist rid ≤ cfg.schedulerMaxBypass) (h := []) hmono
    (fun hi hs => hi.step hp hs) (fun hi hb hs => hi.bound_iff hp hb hs) hinit
    (fun _ => Nat.zero_le _) hrun

def oneBypass : Settings :=
  { Settings.defaults with schedulerPolicy := .cacheAwareFifo, schedulerMaxBypass := 1 }

/-- The oldest entry's lane is saturated, so the next one is passed over for a warm cache. -/
def saturatedLane : List QueueOp :=
  [.enqueue (queuedEntry "a" "mlx" 0 false) 0 9, .enqueue (queuedEntry "b" "llama" 1 false) 1 9,
    .enqueue (queuedEntry "c" "llama" 2 true) 2 9, .enqueue (queuedEntry "d" "llama" 3 true) 3 9,
    .select 4 true (fun e => e.lane = some "llama")]

/-- Then the lane is free again and the oldest entry can still be bypassed. -/
def laneReturns : List QueueOp := saturatedLane ++ [.select 5 true (fun _ => true)]

theorem laneReturns_inOrder : InOrder (· < ·) (arrivals laneReturns) := by
  simp [InOrder, arrivals, laneReturns, saturatedLane, queuedEntry]

theorem bounded_bypass_saturatedLane :
    InOrder (· < ·) (arrivals saturatedLane) ∧
      ∃ q out, (queueRun oneBypass).exec .init saturatedLane = some (q, out) ∧
        passes out "b" = 1 ∧
        (queueRun oneBypass).EachStep (OldestSpentFirst 1) .init saturatedLane := by
  apply And.intro laneReturns_inOrder
  refine ⟨_, _, rfl, by decide, ?_⟩
  apply (bounded_bypass_iff oneBypass rfl saturatedLane laneReturns_inOrder _ _ rfl).mp
  intro rid
  exact List.nodup_iff_count_le_one.mp (by decide) (QueueEvent.passedOver rid)

theorem passed_over_twice_laneReturns :
    oneBypass.schedulerPolicy = .cacheAwareFifo ∧ oneBypass.schedulerMaxBypass = 1 ∧
      InOrder (· < ·) (arrivals laneReturns) ∧
      ∃ q out, (queueRun oneBypass).exec .init laneReturns = some (q, out) ∧
        ¬ passes out "b" ≤ oneBypass.schedulerMaxBypass := by
  apply And.intro rfl (And.intro rfl (And.intro laneReturns_inOrder _))
  exact ⟨_, _, rfl, by decide⟩

end Whooshd
