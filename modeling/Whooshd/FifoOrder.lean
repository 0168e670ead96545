import Whooshd.Selection

namespace Whooshd
set_option autoImplicit true

/-- Eligibility that looks at nothing but an entry's lane. -/
def LaneOnly (entryEligible : QueueEntry → Bool) : Prop :=
  ∀ a b : QueueEntry, a.lane = b.lane → entryEligible a = entryEligible b

/-- A selection grants the first live and eligible entry of the deque, which no other such
entry precedes in enqueue time, and grants one whenever there is one and capacity. -/
def GrantsEarliest (cfg : Settings) (q : RequestQueue) : QueueOp → Prop
  | .enqueue _ _ _ => True
  | .remove _ => True
  | .select now capacityAvailable entryEligible =>
    ((q.selectAndDequeue cfg now capacityAvailable entryEligible).1.isSome = true ↔
      capacityAvailable = true ∧
        ∃ e ∈ q.deque, e.isExpired now = false ∧ entryEligible e = true) ∧
    ∀ g, (q.selectAndDequeue cfg now capacityAvailable entryEligible).1 = some g →
      ∃ earlier e later, q.deque = earlier ++ e :: later ∧ g = e.markGranted ∧
        e.isExpired now = false ∧ entryEligible e = true ∧
        (∀ x ∈ earlier, x.isExpired now = false → entryEligible x = false) ∧
        (∀ x ∈ q.deque, x.isExpired now = false → entryEligible x = true →
          e.enqueuedAt ≤ x.enqueuedAt) ∧
        (LaneOnly entryEligible → ∀ x ∈ earlier, x.lane = e.lane → x.isExpired now = true)

theorem mem_selectable : e ∈ RequestQueue.selectable q now elig ↔
    e ∈ q.deque ∧ e.isExpired now = false ∧ elig e = true := by
  simp [RequestQueue.selectable]

theorem selectAndDequeue_fifo (hp : Settings.schedulerPolicy cfg = .fifo)
    (hq : InOrder (· ≤ ·) q.deque) (hl : RequestQueue.selectable q now elig = e :: rest) :
    ∃ q', q.selectAndDequeue cfg now true elig = (some e.markGranted, q') := by
  have hsorted : ((e :: rest).map q.candidate).Pairwise fun a b => a.queuedAt ≤ b.queuedAt := by
    rw [List.pairwise_map, ← hl]
    exact List.Pairwise.imp (fun hab => hab.2) (hq.sublist List.filter_sublist)
  obtain ⟨d, sch, hc, hd⟩ := Scheduler.chooseNext_fifo q.scheduler hsorted
    (b := cfg.schedulerMaxBypass)
  have he : e ∈ q.selectable now elig := by
    rw [hl]
    exact List.mem_cons_self
  rw [← List.map_cons, ← hl, ← hp] at hc
  exact ⟨_, RequestQueue.selectAndDequeue_chosen hq.distinctIds he hc hd⟩

theorem grantsEarliest_none (hq : InOrder (· ≤ ·) q.deque)
    (hnone : avail = false ∨ q.selectable now elig = []) :
    GrantsEarliest cfg q (.select now avail elig) := by
  obtain ⟨sch, hsel, -⟩ := RequestQueue.selectAndDequeue_none cfg hq.distinctIds hnone
  simp only [GrantsEarliest, hsel]
  constructor
  · simp only [Option.isSome_none, Bool.false_eq_true, false_iff]
    rintro ⟨ha, e, he, hx, hel⟩
    rcases hnone with h | h
    · rw [ha] at h
      cases h
    · have hm := mem_selectable.mpr ⟨he, hx, hel⟩
      rw [h] at hm
      cases hm
  · intro g hg
    cases hg

theorem enqueuedAt_le_of_selectable (hq : InOrder (· ≤ ·) q.deque)
    (hl : RequestQueue.selectable q now elig = e :: rest)
    (hx : x ∈ RequestQueue.selectable q now elig) :
    e.enqueuedAt ≤ x.enqueuedAt := by
  rw [hl] at hx
  rcases List.mem_cons.mp hx with rfl | hxr
  · exact Int.le_refl _
  · have hs : InOrder (· ≤ ·) (e :: rest) := hl ▸ hq.sublist List.filter_sublist
    exact ((List.pairwise_cons.mp hs).1 x hxr).2

theorem grantsEarliest_granted (hp : Settings.schedulerPolicy cfg = .fifo)
    (hq : InOrder (· ≤ ·) q.deque) (hl : q.selectable now elig = e :: rest) :
    GrantsEarliest cfg q (.select now true elig) := by
  obtain ⟨q', hsel⟩ := selectAndDequeue_fifo hp hq hl
  obtain ⟨earlier, later, hdeque, hbefore, he, -⟩ := List.filter_eq_cons_iff.mp hl
  have hmem : e ∈ q.selectable now elig := by
    rw [hl]
    exact List.mem_cons_self
  obtain ⟨hin, hx, hel⟩ := mem_selectable.mp hmem
  have hahead : ∀ x ∈ earlier, x.isExpired now = false → elig x = false := by
    intro x hxe hlive
    simpa [hlive] using hbefore x hxe
  simp only [GrantsEarliest, hsel]
  constructor
  · simp only [Option.isSome_some, true_and, true_iff]
    exact ⟨e, hin, hx, hel⟩
  · rintro g ⟨⟩
    apply Exists.intro earlier
    apply Exists.intro e
    apply Exists.intro later
    apply And.intro hdeque (And.intro rfl (And.intro hx (And.intro hel (And.intro hahead _))))
    constructor
    · intro x hxq hlive hxel
      exact enqueuedAt_le_of_selectable hq hl (mem_selectable.mpr ⟨hxq, hlive, hxel⟩)
    · intro hlane x hxe hsame
      cases hexp : x.isExpired now with
      | true => rfl
      | false =>
        have hno := hahead x hxe hexp
        rw [hlane x e hsame, hel] at hno
        cases hno

theorem grantsEarliest_select (hp : Settings.schedulerPolicy cfg = .fifo)
    (hq : InOrder (· ≤ ·) q.deque) : GrantsEarliest cfg q (.select now avail elig) := by
  cases avail with
  | false => exact grantsEarliest_none hq (.inl rfl)
  | true =>
    cases hl : q.selectable now elig with
    | nil => exact grantsEarliest_none hq (.inr hl)
    | cons e rest => exact grantsEarliest_granted hp hq hl

theorem grantsEarliest_of_inOrder (hp : Settings.schedulerPolicy cfg = .fifo)
    (hq : InOrder (· ≤ ·) q.deque) (op : QueueOp) : GrantsEarliest cfg q op := by
  cases op with
  | enqueue e now timeout => trivial
  | remove rid => trivial
  | select now avail elig => exact grantsEarliest_select hp hq

theorem eachStep_grantsEarliest (hp : Settings.schedulerPolicy cfg = .fifo)
    (h : InOrder (· ≤ ·) (q.deque ++ arrivals ops)) :
    (queueRun cfg).EachStep (GrantsEarliest cfg) q ops := by
  induction ops generalizing q with
  | nil => trivial
  | cons op ops ih =>
    constructor
    · exact grantsEarliest_of_inOrder hp (h.sublist (List.sublist_append_left _ _)) op
    · intro q' out hs
      exact ih (queueRun_inOrder h hs)

theorem deque_sublist_arrivals (h : InOrder r (q.deque ++ arrivals ops))
    (hrun : (queueRun cfg).exec q ops = some (q', out)) :
    (q'.deque.map (·.requestId)).Sublist ((q.deque ++ arrivals ops).map (·.requestId)) := by
  induction ops generalizing q out with
  | nil =>
    cases hrun
    simp [arrivals]
  | cons op ops ih =>
    obtain ⟨q₁, out₁, out₂, hs, hrest, -⟩ := Machine.exec_cons.1 hrun
    apply (ih (queueRun_inOrder h hs) hrest).trans
    exact queueRun_ids h hs

theorem fifo_order (cfg : Settings) (hp : cfg.schedulerPolicy = .fifo) (ops : List QueueOp)
    (harr : InOrder (· ≤ ·) (arrivals ops)) :
    (queueRun cfg).EachStep (GrantsEarliest cfg) .init ops ∧
      ∀ q out, (queueRun cfg).exec .init ops = some (q, out) →
        (q.deque.map (·.requestId)).Sublist ((arrivals ops).map (·.requestId)) :=
  ⟨eachStep_grantsEarliest hp harr, fun _ _ hrun => deque_sublist_arrivals harr hrun⟩

def queuedEntry (rid : RequestId) (lane : Lane) (enqueuedAt : Time) (cacheReady : Bool) :
    QueueEntry :=
  { requestId := rid, model := "m", stream := false, enqueuedAt, granted := false
    lane := some lane, laneMaxConcurrent := some 1, deadlineAt := none, cacheReady }

/-- The first entry's lane is saturated at the first selection, and free at the second. -/
def twoLanes : List QueueOp :=
  [.enqueue (queuedEntry "a" "mlx" 0 false) 0 9, .enqueue (queuedEntry "b" "llama" 0 true) 0 9,
    .enqueue (queuedEntry "c" "mlx" 1 true) 1 9, .select 2 true (fun e => e.lane = some "llama"),
    .select 3 true (fun _ => true)]

theorem fifo_order_twoLanes :
    InOrder (· ≤ ·) (arrivals twoLanes) ∧
      ((queueRun .defaults).exec .init twoLanes).map (fun r => r.1.deque.map (·.requestId)) =
        some ["c"] ∧
      (queueRun .defaults).EachStep (GrantsEarliest .defaults) .init twoLanes := by
  have harr : InOrder (· ≤ ·) (arrivals twoLanes) := by
    simp [InOrder, arrivals, twoLanes, queuedEntry]
  exact ⟨harr, by decide, (fifo_order .defaults rfl twoLanes harr).1⟩

end Whooshd
