import Whooshd.Ledger
import Whooshd.Slots

namespace Whooshd
set_option autoImplicit true

/-- The three ways out of the queue. -/
inductive QueueOutcome where
  | dequeued | timedOut | cancelled
  deriving DecidableEq, Repr

/-- The way out of the queue that an event shows, and whose it is. -/
def Event.queueOutcome : Event → Option (RequestId × QueueOutcome)
  | .returned e true => some (e.requestId, .dequeued)
  | .answered (some rid) (.error .timeout _) => some (rid, .timedOut)
  | .answered (some rid) (.error .cancelled _) => some (rid, .cancelled)
  | _ => none

/-- How often a request left the queue. -/
def departures (hist : List Event) (rid : RequestId) : Nat :=
  hist.countP fun ev => ev.queueOutcome.any (·.1 = rid)

/-- How many departures were of one kind. -/
def outcomeCount (hist : List Event) (o : QueueOutcome) : Nat :=
  hist.countP fun ev => ev.queueOutcome.any (·.2 = o)

/-- Whether a handler is inside `wait_for_execution`. -/
def Line.waits (v : Line) : Nat := Dict.weight (·.phase.isWaiting) v.handler

def Ledger.waiting (L : Ledger) : Nat := L.handlers.count (·.phase.isWaiting)

/-- The counters are the departures that happened, and with those still waiting they make up
everything that was queued. -/
structure Balanced (hist : List Event) (L : Ledger) : Prop where
  total : L.accounts.queued = L.accounts.dequeued + L.accounts.queueTimeout +
    L.accounts.queueCancelled + L.waiting
  dequeued : L.accounts.dequeued = outcomeCount hist .dequeued
  timedOut : L.accounts.queueTimeout = outcomeCount hist .timedOut
  cancelled : L.accounts.queueCancelled = outcomeCount hist .cancelled

theorem departures_append :
    departures (hist ++ evs) rid = departures hist rid + departures evs rid :=
  List.countP_append

theorem outcomeCount_append :
    outcomeCount (hist ++ evs) o = outcomeCount hist o + outcomeCount evs o :=
  List.countP_append

/-- Events of a turn that is no departure. -/
def Silent (evs : List Event) : Prop := ∀ ev ∈ evs, ev.queueOutcome = none

theorem Silent.nil : Silent [] := by simp [Silent]

theorem Silent.notReady (e : QueueEntry) : Silent [.returned e false] := by
  simp [Silent, Event.queueOutcome]

theorem Silent.departures (h : Silent evs) : departures evs rid = 0 := by
  rw [Whooshd.departures, List.countP_eq_zero]
  intro ev hev
  simp [h ev hev]

theorem Silent.outcomeCount (h : Silent evs) : outcomeCount evs o = 0 := by
  rw [Whooshd.outcomeCount, List.countP_eq_zero]
  intro ev hev
  simp [h ev hev]

theorem Launches.silent (h : Launches rid r hd evs) : Silent evs := by
  cases h <;> simp [Silent, Event.queueOutcome]

theorem Shifts.silent (h : Shifts rid l p evs p') : Silent evs := by
  cases h with
  | killed hp he => rcases he with rfl | rfl <;> simp [Silent, Event.queueOutcome]
  | _ => simp [Silent, Event.queueOutcome]

theorem Completes.silent (h : Completes rid l p evs) : Silent evs := by
  cases h <;> simp [Silent, Event.queueOutcome]

theorem Launches.waits (h : Launches rid r hd evs) : Line.waits ⟨some r, some hd⟩ = 0 := by
  cases h with
  | started hs hp => rcases hp with hp | hp | hp <;> simp [Line.waits, hp, Phase.isWaiting]
  | cached hs hp => simp [Line.waits, hp, Phase.isWaiting]
  | unsupported hs hp => simp [Line.waits, hp, Phase.isWaiting]
  | bridgeRaised hb hs hp => simp [Line.waits, hp, Phase.isWaiting]

/-- What a turn adds to the accounts of the queue: an arrival, one departure, or nothing. -/
structure Posts (l : Label) (rid : RequestId) (a : Accounts) (v : Line) (evs : List Event)
    (a' : Accounts) (v' : Line) : Prop where
  own : departures evs rid + v'.waits + a.queued = v.waits + a'.queued
  others : ∀ k ≠ rid, departures evs k = 0
  arrival : a'.queued = a.queued ∨ v.record = none ∧ ∃ x, l = .chat rid x
  known : v'.record.isSome = true
  dequeued : a'.dequeued = a.dequeued + outcomeCount evs .dequeued
  timedOut : a'.queueTimeout = a.queueTimeout + outcomeCount evs .timedOut
  cancelled : a'.queueCancelled = a.queueCancelled + outcomeCount evs .cancelled
  total : departures evs rid = outcomeCount evs .dequeued + outcomeCount evs .timedOut +
    outcomeCount evs .cancelled

theorem Posts.silent {a a' : Accounts} (h : Silent evs) (hw : v'.waits = v.waits)
    (hr : Line.record v' = some r) (hq : a'.queued = a.queued) (hd : a'.dequeued = a.dequeued)
    (ht : a'.queueTimeout = a.queueTimeout) (hc : a'.queueCancelled = a.queueCancelled) :
    Posts l rid a v evs a' v' where
  own := by rw [h.departures, hw, hq, Nat.zero_add]
  others k _ := h.departures
  arrival := .inl hq
  known := by rw [hr]; rfl
  dequeued := by rw [h.outcomeCount, hd, Nat.add_zero]
  timedOut := by rw [h.outcomeCount, ht, Nat.add_zero]
  cancelled := by rw [h.outcomeCount, hc, Nat.add_zero]
  total := by rw [h.departures, h.outcomeCount, h.outcomeCount, h.outcomeCount]

theorem departures_cons_silent (h : Silent evs) (ho : ev.queueOutcome = some (rid, o)) :
    departures (ev :: evs) k = if rid = k then 1 else 0 := by
  rw [departures, List.countP_cons, ← departures, h.departures]
  simp [ho]

theorem outcomeCount_cons_silent (h : Silent evs) (ho : ev.queueOutcome = some (rid, o)) :
    outcomeCount (ev :: evs) o' = if o = o' then 1 else 0 := by
  rw [outcomeCount, List.countP_cons, ← outcomeCount, h.outcomeCount]
  simp [ho]

theorem Posts.departure {a a' : Accounts} (hn : Silent evs₁) (h : Silent evs₂)
    (ho : ev.queueOutcome = some (rid, o)) (hw : v.waits = 1) (hw' : v'.waits = 0)
    (hr : Line.record v' = some r) (hq : a'.queued = a.queued)
    (hd : a'.dequeued = a.dequeued + if o = .dequeued then 1 else 0)
    (ht : a'.queueTimeout = a.queueTimeout + if o = .timedOut then 1 else 0)
    (hc : a'.queueCancelled = a.queueCancelled + if o = .cancelled then 1 else 0) :
    Posts l rid a v (evs₁ ++ ev :: evs₂) a' v' := by
  have hdep : ∀ k, departures (evs₁ ++ ev :: evs₂) k = if rid = k then 1 else 0 := by
    intro k
    rw [departures_append, hn.departures, departures_cons_silent h ho, Nat.zero_add]
  have hout : ∀ o', outcomeCount (evs₁ ++ ev :: evs₂) o' = if o = o' then 1 else 0 := by
    intro o'
    rw [outcomeCount_append, hn.outcomeCount, outcomeCount_cons_silent h ho, Nat.zero_add]
  constructor
  · rw [hdep, if_pos rfl, hw, hw', hq]
  · intro k hk
    rw [hdep, if_neg (Ne.symm hk)]
  · exact .inl hq
  · rw [hr]
    rfl
  · rw [hout, hd]
  · rw [hout, ht]
  · rw [hout, hc]
  · rw [hdep, if_pos rfl, hout, hout, hout]
    cases o <;> rfl

theorem Line.waits_eq (hp : h.phase.isWaiting = b) :
    Line.waits ⟨x, some h⟩ = if b then 1 else 0 := by
  subst hp
  rfl

theorem Shifts.waits (h : Shifts rid l p evs p') (hk : l ≠ .kill rid) :
    p'.isWaiting = false ∧ p.isWaiting = false := by
  cases h with
  | killed => exact absurd rfl hk
  | _ => exact ⟨rfl, rfl⟩

theorem Completes.not_waiting (h : Completes rid l p evs) : p.isWaiting = false := by
  cases h with
  | returned hp => rcases hp with rfl | rfl <;> rfl
  | emptyStream => rfl
  | emptyUnsent => rfl
  | bodyFinished => rfl

theorem Disconnects.not_waiting (h : Disconnects p b) : p.isWaiting = false := by
  cases h <;> rfl

theorem Turn.posts (h : Turn l rid a v evs a' v') (hk : l ≠ .kill rid) :
    Posts l rid a v evs a' v' := by
  have hended : ∀ {x : Option RequestRecord} {h : Handler},
      Line.waits ⟨x, some { h with phase := .ended }⟩ = 0 := rfl
  have hwaits : ∀ {x : Option RequestRecord} {h : Handler} {e}, h.phase = .waiting e →
      Line.waits ⟨x, some h⟩ = 1 := fun hp => Line.waits_eq (congrArg Phase.isWaiting hp)
  have hidle : ∀ {x : Option RequestRecord} {h : Handler}, h.phase.isWaiting = false →
      Line.waits ⟨x, some h⟩ = 0 := fun hp => Line.waits_eq hp
  cases h with
  | launch hc hb hs => exact .silent hs.silent hs.waits rfl rfl rfl rfl rfl
  | enqueue hl hs hc hp =>
    obtain ⟨x, rfl, -⟩ := hl
    have hsil : Silent [] := by simp [Silent]
    constructor
    · rw [hsil.departures, hwaits hp]
      simp only [Line.waits, Dict.weight_none]
      omega
    · intro k _
      exact hsil.departures
    · exact .inr ⟨rfl, x, rfl⟩
    · rfl
    · rfl
    · rfl
    · rfl
    · rfl
  | take hp he hs hc ht hb hs' =>
    subst he
    exact .departure (o := .dequeued) .nil hs'.silent rfl (hwaits hp) hs'.waits rfl rfl rfl rfl rfl
  | dropCancelled hl hp he hc hs =>
    exact .departure (o := .cancelled) (.notReady _) .nil rfl (hwaits hp) hended rfl rfl rfl
      rfl rfl
  | dropTimedOut hp he hc =>
    exact .departure (o := .timedOut) (.notReady _) .nil rfl (hwaits hp) hended rfl rfl rfl
      rfl rfl
  | shift hs =>
    obtain ⟨hp', hp⟩ := hs.waits hk
    exact .silent hs.silent ((hidle hp').trans (hidle hp).symm) rfl rfl rfl rfl rfl
  | complete hs =>
    exact .silent hs.silent (hended.trans (hidle hs.not_waiting).symm) rfl rfl rfl rfl rfl
  | fail hl hp ha =>
    apply Posts.silent _ (hended.trans (hidle (Phase.serving_not_waiting hp)).symm) rfl rfl rfl rfl
      rfl
    rcases ha with rfl | rfl | rfl <;> simp [Silent, Event.queueOutcome]
  | disconnect hl hp _ he =>
    have hsil : Silent evs := by
      rcases he with rfl | rfl <;> simp [Silent, Event.queueOutcome]
    exact .silent hsil (hended.trans (hidle hp.not_waiting).symm) rfl rfl rfl rfl rfl
  | cancel hl hs =>
    exact .silent (by simp [Silent, Event.queueOutcome]) rfl rfl rfl rfl rfl rfl

theorem noteGrant_isWaiting (h : Handler) :
    (System.noteGrant h).phase.isWaiting = h.phase.isWaiting := by
  simp only [System.noteGrant]
  split
  · next hp => rw [hp]; rfl
  · rfl

theorem waits_grant (L : Ledger) (rid k : RequestId) :
    (Ledger.line { L with handlers := L.handlers.modify rid System.noteGrant } k).waits =
      (L.line k).waits := by
  simp only [Line.waits, Ledger.line, Dict.get?_modify]
  split
  · next hk =>
    subst hk
    cases L.handlers.get? k with
    | none => rfl
    | some h => simp [noteGrant_isWaiting]
  · rfl

/-- A change either leaves the accounts of the queue alone or posts a turn of one request. -/
theorem Change.cases (h : Change l L evs L') (hk : ∀ rid, l ≠ .kill rid) :
    (Silent evs ∧ L'.accounts = L.accounts ∧ L'.waiting = L.waiting ∧
      ∀ k, (L'.line k).record = (L.line k).record ∧ (L'.line k).waits = (L.line k).waits) ∨
    ∃ rid, Posts l rid L.accounts (L.line rid) evs L'.accounts (L'.line rid) ∧
      L'.waiting + (L.line rid).waits = L.waiting + (L'.line rid).waits ∧
      ∀ k ≠ rid, L'.line k = L.line k := by
  cases h with
  | refuse =>
    left
    simp [Silent, Event.queueOutcome]
  | finalised =>
    left
    simp [Silent, Event.queueOutcome]
  | refuseCancel =>
    left
    simp [Silent, Event.queueOutcome]
  | @grant L rid =>
    left
    refine ⟨by simp [Silent, Event.queueOutcome], rfl, ?_, fun k => ⟨rfl, waits_grant L rid k⟩⟩
    have hoff : ∀ k ≠ rid, (L.handlers.modify rid System.noteGrant).get? k =
        L.handlers.get? k := by
      intro k hk
      simp only [Dict.get?_modify, if_neg hk]
    have hagree := Dict.count_agree hoff (·.phase.isWaiting)
    have hw := waits_grant L rid rid
    simp only [Line.waits, Ledger.line] at hw
    rw [hw] at hagree
    exact Nat.add_right_cancel hagree
  | @turn rid L' L evs hreq hh ht =>
    right
    refine ⟨rid, ht.posts (hk rid), Dict.count_agree hh _, ?_⟩
    intro k hk
    simp only [Ledger.line, hreq k hk, hh k hk]

theorem Change.balanced (h : Change l L evs L') (hk : ∀ rid, l ≠ .kill rid)
    (hi : Balanced hist L) : Balanced (hist ++ evs) L' := by
  obtain ⟨hs, ha, hw, -⟩ | ⟨rid, hp, hw, -⟩ := h.cases hk
  · constructor
    · rw [ha, hw]
      exact hi.total
    · rw [ha, outcomeCount_append, hs.outcomeCount]
      exact hi.dequeued
    · rw [ha, outcomeCount_append, hs.outcomeCount]
      exact hi.timedOut
    · rw [ha, outcomeCount_append, hs.outcomeCount]
      exact hi.cancelled
  · have htotal := hi.total
    have hown := hp.own
    have hsum := hp.total
    constructor
    · rw [hp.dequeued, hp.timedOut, hp.cancelled]
      omega
    · rw [hp.dequeued, outcomeCount_append, hi.dequeued]
    · rw [hp.timedOut, outcomeCount_append, hi.timedOut]
    · rw [hp.cancelled, outcomeCount_append, hi.cancelled]

/-- A request that is not known yet has left no queue. -/
def DeparturesKnown (hist : List Event) (L : Ledger) : Prop :=
  ∀ rid, (L.line rid).record = none → departures hist rid = 0

theorem Change.departuresKnown (h : Change l L evs L') (hk : ∀ rid, l ≠ .kill rid)
    (hi : DeparturesKnown hist L) : DeparturesKnown (hist ++ evs) L' := by
  intro k hn
  rw [departures_append]
  obtain ⟨hs, -, -, hline⟩ | ⟨rid, hp, -, hline⟩ := h.cases hk
  · rw [hs.departures, hi k ((hline k).1 ▸ hn)]
  · by_cases hid : k = rid
    · subst hid
      have := hp.known
      rw [hn] at this
      cases this
    · rw [hp.others k hid, hi k (hline k hid ▸ hn)]

/-- A request that is known departs exactly if it stops waiting. -/
theorem Changes.departs (h : Changes l L evs L') (hk : ∀ rid, l ≠ .kill rid)
    (hr : (L.line rid).record.isSome = true) :
    departures evs rid + (L'.line rid).waits = (L.line rid).waits ∧
      (L'.line rid).record.isSome = true := by
  induction h with
  | nil => exact ⟨Nat.zero_add _, hr⟩
  | @cons L evs L₁ evs' L' hc _ ih =>
    have hone : departures evs rid + (L₁.line rid).waits = (L.line rid).waits ∧
        (L₁.line rid).record.isSome = true := by
      obtain ⟨hs, -, -, hline⟩ | ⟨rid', hp, -, hline⟩ := hc.cases hk
      · rw [hs.departures, (hline rid).2, (hline rid).1, Nat.zero_add]
        exact ⟨rfl, hr⟩
      · by_cases hid : rid = rid'
        · subst hid
          have hown := hp.own
          obtain hq | ⟨hn, -⟩ := hp.arrival
          · exact ⟨by omega, hp.known⟩
          · rw [hn] at hr
            cases hr
        · rw [hp.others rid hid, hline rid hid, Nat.zero_add]
          exact ⟨rfl, hr⟩
    obtain ⟨hrest, hknown⟩ := ih hone.2
    rw [departures_append]
    exact ⟨by omega, hknown⟩

theorem Changes.arrives (h : Changes (.chat rid x) L evs L') :
    departures evs rid + (L'.line rid).waits + L.accounts.queued =
      (L.line rid).waits + L'.accounts.queued := by
  induction h with
  | nil => rw [Silent.departures (by simp [Silent]), Nat.zero_add]
  | @cons L evs L₁ evs' L' hc _ ih =>
    have hone : departures evs rid + (L₁.line rid).waits + L.accounts.queued =
        (L.line rid).waits + L₁.accounts.queued := by
      obtain ⟨hs, ha, -, hline⟩ | ⟨rid', hp, -, hline⟩ := hc.cases nofun
      · rw [hs.departures, (hline rid).2, ha, Nat.zero_add]
      · by_cases hid : rid = rid'
        · subst hid
          exact hp.own
        · rw [hp.others rid hid, hline rid hid, Nat.zero_add]
          obtain hq | ⟨-, x', hl⟩ := hp.arrival
          · rw [hq]
          · cases hl
            exact absurd rfl hid
    rw [departures_append]
    omega

/-- The accounts of a run without killed tasks. -/
structure Accounted (hist : List Event) (s : System) : Prop where
  coherent : Coherent s.core
  balanced : Balanced hist s.ledger
  known : DeparturesKnown hist s.ledger

theorem step_accounted (hi : Accounted hist s) (hk : ∀ rid, l ≠ .kill rid)
    (hs : broker.step s l = some (s', out)) : Accounted (hist ++ out) s' where
  coherent := step_coherent hi.coherent hs
  balanced := (step_changes hi.coherent hs).history (fun hb hc => hc.balanced hk hb) hi.balanced
  known := (step_changes hi.coherent hs).history (fun hb hc => hc.departuresKnown hk hb) hi.known

theorem init_accounted (cfg : Settings) (mono wall : Time) :
    Accounted [] (.init cfg mono wall) where
  coherent := init_coherent cfg mono wall
  balanced := ⟨rfl, rfl, rfl, rfl⟩
  known _ _ := rfl

theorem exec_accounted (hi : Accounted hist s) (hk : ∀ l ∈ ls, ∀ rid, l ≠ .kill rid)
    (hrun : broker.exec s ls = some (t, out)) : Accounted (hist ++ out) t :=
  Machine.exec_history (C := fun _ l => ∀ rid, l ≠ .kill rid)
    (fun hi hk hs => step_accounted hi hk hs) hi (Machine.eachStep_of_mem hk s) hrun

theorem exec_departs (hc : Coherent (System.core s)) (hk : ∀ l ∈ ls, ∀ rid, l ≠ .kill rid)
    (hr : (s.ledger.line rid).record.isSome = true)
    (hrun : broker.exec s ls = some (t, out)) :
    departures out rid + (t.ledger.line rid).waits = (s.ledger.line rid).waits := by
  have hall := Machine.exec_history (M := broker)
    (P := fun hist u => Coherent u.core ∧
      departures hist rid + (u.ledger.line rid).waits = (s.ledger.line rid).waits ∧
      (u.ledger.line rid).record.isSome = true) (C := fun _ l => ∀ rid, l ≠ .kill rid) (h := [])
    (fun {hist u l u' out} hi hk hs => by
      obtain ⟨hc, heq, hr⟩ := hi
      obtain ⟨hstep, hknown⟩ := (step_changes hc hs).departs hk hr
      refine ⟨step_coherent hc hs, ?_, hknown⟩
      rw [departures_append]
      omega)
    ⟨hc, Nat.zero_add _, hr⟩ (Machine.eachStep_of_mem hk s) hrun
  exact hall.2.1

/-- A request that was queued leaves the queue exactly once, unless it still waits. -/
theorem departs_once (hi : Accounted hist s₁) (hk : ∀ l ∈ ls, ∀ rid, l ≠ .kill rid)
    (hstep : broker.step s₁ (.chat rid a) = some (s₂, out₂))
    (hqueued : s₂.rt.counters.queued = s₁.rt.counters.queued + 1)
    (hrest : broker.exec s₂ ls = some (s, out₃)) :
    departures (hist ++ (out₂ ++ out₃)) rid =
      if (s.handlers.get? rid).any (·.phase.isWaiting) then 0 else 1 := by
  have hnew : s₁.rt.requests.get? rid = none := by
    simp only [broker, System.step] at hstep
    split at hstep
    · cases hstep
    · next hn => simpa [Dict.contains] using hn
  have hfresh : (s₁.ledger.line rid).waits = 0 := by
    rw [line_absent ((hi.coherent.placed rid).of_record_none hnew)]
    rfl
  have hbefore : departures hist rid = 0 := hi.known rid hnew
  have harrive := (step_changes hi.coherent hstep).arrives
  have hi₂ := step_accounted hi (fun _ h => by cases h) hstep
  have hq : s₂.ledger.accounts.queued = s₁.ledger.accounts.queued + 1 := hqueued
  have hrecord : (s₂.ledger.line rid).record.isSome = true := by
    by_contra hno
    have hn : s₂.rt.requests.get? rid = none := Option.not_isSome_iff_eq_none.mp hno
    have hdep := hi₂.known rid hn
    have hidle : (s₂.ledger.line rid).waits = 0 := by
      rw [line_absent ((hi₂.coherent.placed rid).of_record_none hn)]
      rfl
    rw [departures_append] at hdep
    omega
  have hafter := exec_departs hi₂.coherent hk hrecord hrest
  rw [departures_append, departures_append, hbefore]
  have hw : (s.ledger.line rid).waits =
      if (s.handlers.get? rid).any (·.phase.isWaiting) then 1 else 0 := rfl
  split
  · next hwait =>
    rw [if_pos hwait] at hw
    omega
  · next hwait =>
    rw [if_neg hwait] at hw
    omega

/-- What was queued is dequeued, timed out, cancelled or still waits, and each queued request
leaves the queue exactly once unless it still waits. -/
theorem queue_accounts_balance (cfg : Settings) (mono wall : Time) (ls : List Label)
    (hk : ∀ l ∈ ls, ∀ rid, l ≠ .kill rid)
    (hrun : broker.exec (.init cfg mono wall) ls = some (s, out)) :
    s.rt.counters.queued = s.rt.counters.dequeued + s.rt.counters.queueTimeout +
        s.rt.counters.queueCancelled + s.handlers.count (·.phase.isWaiting) ∧
      s.rt.counters.dequeued = outcomeCount out .dequeued ∧
      s.rt.counters.queueTimeout = outcomeCount out .timedOut ∧
      s.rt.counters.queueCancelled = outcomeCount out .cancelled ∧
      ∀ ls₁ rid a ls₂ s₁ out₁ s₂ out₂, ls = ls₁ ++ .chat rid a :: ls₂ →
        broker.exec (.init cfg mono wall) ls₁ = some (s₁, out₁) →
        broker.step s₁ (.chat rid a) = some (s₂, out₂) →
        s₂.rt.counters.queued = s₁.rt.counters.queued + 1 →
        departures out rid =
          if (s.handlers.get? rid).any (·.phase.isWaiting) then 0 else 1 := by
  have hend := exec_accounted (init_accounted cfg mono wall) hk hrun
  refine ⟨hend.balanced.total, hend.balanced.dequeued, hend.balanced.timedOut,
    hend.balanced.cancelled, ?_⟩
  rintro ls₁ rid a ls₂ s₁ out₁ s₂ out₂ rfl hrun₁ hstep hqueued
  obtain ⟨t, es₁, es₂, h₁, h₂, rfl⟩ := Machine.exec_append.1 hrun
  rw [hrun₁] at h₁
  cases h₁
  obtain ⟨u, out', es', hs, hrest, rfl⟩ := Machine.exec_cons.1 h₂
  rw [hstep] at hs
  cases hs
  have hi := exec_accounted (init_accounted cfg mono wall)
    (fun l hl => hk l (List.mem_append_left _ hl)) hrun₁
  exact departs_once hi (fun l hl => hk l (List.mem_append_right _ (List.mem_cons_of_mem _ hl)))
    hstep hqueued hrest

theorem queue_accounts_balance_handover :
    (∀ l ∈ handover, ∀ rid, l ≠ .kill rid) ∧
      ∃ s out, broker.exec (.init oneSlot 0 0) handover = some (s, out) ∧
        s.rt.counters.queued = 1 ∧ s.rt.counters.dequeued = 1 ∧
        s.rt.counters.queued = s.rt.counters.dequeued + s.rt.counters.queueTimeout +
          s.rt.counters.queueCancelled + s.handlers.count (·.phase.isWaiting) ∧
        departures out "b" = 1 := by
  have hk : ∀ l ∈ handover, ∀ rid, l ≠ .kill rid := by simp [handover]
  have hall := queue_accounts_balance oneSlot 0 0 handover hk rfl
  apply And.intro hk
  refine ⟨_, _, rfl, by decide, by decide, hall.1, ?_⟩
  exact hall.2.2.2.2 [.chat "a" (shortChat false)] "b" (shortChat true) _ _ _ _ _ rfl rfl rfl
    (by decide)

end Whooshd
