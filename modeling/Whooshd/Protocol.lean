import Whooshd.Broker

namespace Whooshd
set_option autoImplicit true

/-- The part of the broker's state that its safety depends on. -/
structure Core where
  requests : Dict RequestId RequestRecord
  reservations : Dict RequestId (Option Lane)
  handlers : Dict RequestId Handler
  deque : List QueueEntry

/-- Everything the broker holds about one request. -/
structure View where
  record : Option RequestRecord
  reservation : Option (Option Lane)
  handler : Option Handler
  entry : Option QueueEntry

def View.absent : View := ⟨none, none, none, none⟩

/-- The slots a request takes up under a test on lanes. -/
def View.slots (v : View) (p : Option Lane → Bool) : Nat :=
  Dict.weight (fun r => r.status.isActive && p r.lane) v.record + Dict.weight p v.reservation

namespace Core

def view (c : Core) (rid : RequestId) : View :=
  ⟨c.requests.get? rid, c.reservations.get? rid, c.handlers.get? rid, findEntry c.deque rid⟩

def occupancy (c : Core) (p : Option Lane → Bool) : Nat :=
  Whooshd.occupancy c.requests c.reservations p

def queueDepth (c : Core) : Nat := waitingCount c.requests c.reservations

def cancelled (c : Core) (rid : RequestId) : Bool :=
  (c.requests.get? rid).any (·.cancelToken.cancelled)

end Core

/-- The record, reservation, handler and entry of one request change, those of every other
request stay; in the deque an entry goes in at the end or out from where it is. -/
structure Touches (rid : RequestId) (c c' : Core) : Prop where
  others : ∀ rid' ≠ rid, c'.view rid' = c.view rid'
  deque : c'.deque = c.deque ∨ c'.deque = c.deque.eraseP (·.requestId = rid) ∨
    ∃ e, e.requestId = rid ∧ findEntry c.deque rid = none ∧ c'.deque = c.deque ++ [e]

/-- What a step of the broker depends on besides the core. -/
structure Env where
  limit : Int
  depth : Int
  /-- High memory pressure holds the arriving request back, whatever room the queue has. -/
  held : Prop
  label : Label
  /-- The core at the beginning of the step. -/
  start : Core
  mono : Time

def Label.resolution : Label → Option RuntimeResolution
  | .chat _ a => a.resolution
  | .generate _ a => a.resolution
  | _ => none

/-- The arriving request was resolved to a lane and its ceiling. -/
def Label.Declares (l : Label) (lane : Option Lane) (ceiling : Option Int) : Prop :=
  ∃ res, l.resolution = some res ∧ res.lane = lane ∧ res.laneMaxConcurrent = ceiling

/-- A slot is free in the global budget and in the lane's. -/
structure Room (env : Env) (c : Core) (lane : Option Lane) (ceiling : Option Int) : Prop where
  global : (c.occupancy (fun _ => true) : Int) < env.limit
  lane : ∀ l k, lane = some l → l ≠ "" → ceiling = some k →
    (c.occupancy (fun lane => lane = some l) : Int) < max k 1

/-- The handler holds a record that its adapter call may still end. -/
def Phase.serving : Phase → Bool
  | calling | generating | firstChunk | bodyPending | bodyOpen | bodyError | bodyDone => true
  | waiting _ | ended | killed => false

theorem Phase.serving_not_waiting {p : Phase} (h : p.serving = true) : p.isWaiting = false := by
  cases p <;> first | rfl | cases h

def Event.isQuiet : Event → Bool
  | answered (some _) _ | adapterEnded _ | cancelAnswered _ _ => true
  | answered none _ | granted _ | returned _ _ | adapterStarted _ => false

def Quiet (evs : List Event) : Prop := ∀ ev ∈ evs, ev.isQuiet = true

/-- A terminal record keeps its status and its end. -/
def Frozen (r r' : RequestRecord) : Prop :=
  r.status.isTerminal = true → r'.status = r.status ∧ r'.endedAt = r.endedAt

/-- The steps in which a handler writes an abnormal end over whatever its record holds. -/
def Rewrites (rid : RequestId) : Label → Phase → Prop
  | .adapter rid' o, _ => rid' = rid ∧ (o = .upstreamError ∨ o = .exception)
  | .body rid' b, .bodyOpen => rid' = rid ∧ (b = .exception ∨ b = .close)
  | .body rid' b, .bodyDone => rid' = rid ∧ b = .close
  | .body rid' b, .bodyError => rid' = rid ∧ (b = .finish ∨ b = .close)
  | _, _ => False

/-- A request that waits for a slot, or was cancelled while it did. -/
def Waits (rid : RequestId) (r : RequestRecord) : Prop :=
  r.requestId = rid ∧ (r.status = .queued ∧ r.cancelToken.cancelled = false ∨
    r.status = .cancelled ∧ r.cancelToken.cancelled = true)

/-- A request that was started, or was cancelled after that. -/
def Runs (rid : RequestId) (r : RequestRecord) : Prop :=
  r.requestId = rid ∧ (r.status.isActive = true ∧ r.cancelToken.cancelled = false ∨
    r.status = .cancelled ∧ r.cancelToken.cancelled = true)

def Matches (r : RequestRecord) (e : QueueEntry) : Prop :=
  e.requestId = r.requestId ∧ e.lane = r.lane ∧ e.deadlineAt.isSome = true

/-- A request gets past admission or the queue: its adapter call starts, or it has ended
without one. -/
def Starts (rid : RequestId) (r : RequestRecord) (h : Handler) (evs : List Event) : Prop :=
  r.requestId = rid ∧
    (r.status.isActive = true ∧ r.cancelToken.cancelled = false ∧ h.phase.inProgress = true ∧
        evs = [.adapterStarted rid] ∨
      r.status ≠ .queued ∧ h.phase = .ended ∧ Quiet evs)

/-- A handler goes on with its adapter call, or ends it together with the record. -/
def Settles (rid : RequestId) (l : Label) (r : RequestRecord) (h : Handler)
    (r' : RequestRecord) (h' : Handler) : Prop :=
  r' = r ∧ (h'.phase.serving = true ∨ h'.phase = .ended) ∧
      (h'.phase.inProgress = true → h.phase.inProgress = true) ∨
    r'.requestId = r.requestId ∧ r'.status.isTerminal = true ∧ h'.phase = .ended ∧
      (Frozen r r' ∨ Rewrites rid l h.phase)

/-- One transition of one request. -/
inductive Act (env : Env) (c : Core) (rid : RequestId) : View → List Event → View → Prop where
  | accept (hl : env.label.Declares r.lane ceiling) (hroom : Room env c r.lane ceiling)
      (hs : Starts rid r h evs) : Act env c rid .absent evs ⟨some r, none, some h, none⟩
  | enter (hchat : ∃ a, env.label = .chat rid a)
      (hl : env.label.Declares e.lane e.laneMaxConcurrent)
      (hst : c = env.start) (hroom : (c.queueDepth : Int) < env.depth ∨ env.held)
      (hr : r.requestId = rid)
      (hs : r.status = .queued) (hc : r.cancelToken.cancelled = false) (hm : Matches r e)
      (hg : e.granted = false) (hp : h.phase = .waiting e) :
      Act env c rid .absent [] ⟨some r, none, some h, some e⟩
  | grant (hx : e.isExpired env.mono = false) (hroom : Room env c e.lane e.laneMaxConcurrent)
      (hfront : ∃ f w, c.deque.head? = some f ∧ c.handlers.get? f.requestId = some w ∧
        w.phase.isWaiting = true) :
      Act env c rid ⟨some r, none, some h, some e⟩ [.granted rid]
        ⟨some r, some e.lane, some (System.noteGrant h), none⟩
  | take (hp : h.phase = .waiting e) (hg : e.granted = true) (hx : e.isExpired env.mono = false)
      (hs : r.status = .queued) (hc : r.cancelToken.cancelled = false)
      (hn : env.start.cancelled rid = false) (he : e₀.markGranted = e) (hlane : r'.lane = r.lane)
      (hst : Starts rid r' h' evs) :
      Act env c rid ⟨some r, v, some h, none⟩ (.returned e₀ true :: evs)
        ⟨some r', none, some h', none⟩
  | drop (hp : h.phase = .waiting e)
      (hx : r.cancelToken.cancelled = true ∨ e.isExpired env.mono = true)
      (hr : r'.requestId = r.requestId) (ht : r'.status.isTerminal = true)
      (hf : Frozen r r' ∨ env.label = .resume rid ∧ env.start.requests.get? rid = some r)
      (hp' : h'.phase = .ended) (hq : Quiet evs) :
      Act env c rid ⟨some r, v, some h, oe⟩ (.returned e false :: evs)
        ⟨some r', none, some h', none⟩
  | settle (hst : c = env.start) (hp : h.phase.serving = true)
      (hs : Settles rid env.label r h r' h') (hq : Quiet evs) :
      Act env c rid ⟨some r, none, some h, none⟩ evs ⟨some r', none, some h', none⟩
  | cancel (hl : env.label = .cancel rid) (hst : c = env.start)
      (hn : r.status.isTerminal = false) (hr : r'.requestId = r.requestId)
      (hlane : r'.lane = r.lane) (hs : r'.status = .cancelled)
      (hc : r'.cancelToken.cancelled = true) (hq : Quiet evs) :
      Act env c rid ⟨some r, v, some h, oe⟩ evs ⟨some r', none, some h, oe⟩
  | kill (hl : env.label = .kill rid) (hst : c = env.start)
      (hp : h.phase.isWaiting = true ∨ h.phase.inProgress = true) (hp' : h'.phase = .killed)
      (hq : Quiet evs) :
      Act env c rid ⟨some r, v, some h, oe⟩ evs ⟨some r, v, some h', oe⟩

inductive Move (env : Env) : Core → List Event → Core → Prop where
  | refuse (hst : c = env.start) (hf : ∀ res, a = .refused res →
      res.reason = .rejectedQueueFull → env.depth ≤ (c.queueDepth : Int)) :
      Move env c [.answered none a] c
  | note (hq : Quiet evs) : Move env c evs c
  | act (ht : Touches rid c c') (ha : Act env c rid (c.view rid) evs (c'.view rid)) :
      Move env c evs c'

/-- A sequence of transitions made in one step of the broker. -/
inductive Moves (env : Env) : Core → List Event → Core → Prop where
  | nil : Moves env c [] c
  | cons (h : Move env c evs c') (hs : Moves env c' evs' c'') : Moves env c (evs ++ evs') c''

/-- Where a request stands: its record, reservation, handler and entry agree. -/
inductive Placed (rid : RequestId) : View → Prop where
  | absent : Placed rid .absent
  | queued (hr : Waits rid r) (he : Matches r e) (hg : e.granted = false)
      (hp : h.phase = .waiting e ∨ h.phase = .killed) : Placed rid ⟨some r, none, some h, some e⟩
  | granted (hr : Waits rid r) (hv : ∀ l, v = some l → l = r.lane)
      (hc : r.cancelToken.cancelled = true ∨ v.isSome = true)
      (hp : (∃ e, h.phase = .waiting e ∧ Matches r e ∧ e.granted = true) ∨ h.phase = .killed) :
      Placed rid ⟨some r, v, some h, none⟩
  | serving (hr : Runs rid r) (hp : h.phase.serving = true) :
      Placed rid ⟨some r, none, some h, none⟩
  | done (hr : r.requestId = rid) (hs : r.status ≠ .queued)
      (hp : h.phase = .ended ∨ h.phase = .killed) : Placed rid ⟨some r, none, some h, none⟩

structure Coherent (c : Core) : Prop where
  distinct : DistinctIds c.deque
  placed : ∀ rid, Placed rid (c.view rid)

theorem Quiet.nil : Quiet [] := fun _ h => nomatch h

theorem Phase.inProgress_serving {p : Phase} (h : p.inProgress = true) : p.serving = true := by
  cases p <;> first | rfl | cases h

theorem Phase.inProgress_not_waiting {p : Phase} (h : p.inProgress = true) :
    p.isWaiting = false := by
  cases p <;> first | rfl | cases h

theorem terminal_ne_queued {st : RequestLifecycleState} (h : st.isTerminal = true) :
    st ≠ .queued := by
  rintro rfl
  cases h

theorem terminal_not_active {st : RequestLifecycleState} (h : st.isTerminal = true) :
    st.isActive = false := by
  cases st <;> first | rfl | cases h

theorem Starts.placed (h : Starts rid r hd evs) : Placed rid ⟨some r, none, some hd, none⟩ := by
  obtain ⟨hr, ⟨ha, hc, hp, -⟩ | ⟨hs, hp, -⟩⟩ := h
  · exact .serving ⟨hr, .inl ⟨ha, hc⟩⟩ (Phase.inProgress_serving hp)
  · exact .done hr hs (.inl hp)

theorem noteGrant_phase (hp : h.phase = .waiting e) :
    (System.noteGrant h).phase = .waiting e.markGranted := by
  simp only [System.noteGrant, hp]

theorem noteGrant_of_not_waiting (hp : h.phase.isWaiting = false) : System.noteGrant h = h := by
  simp only [System.noteGrant]
  split
  · next he => rw [he] at hp; cases hp
  · rfl

theorem Act.placed (ha : Act env c rid v evs v') (hv : Placed rid v) : Placed rid v' := by
  cases ha with
  | accept hl hroom hs => exact hs.placed
  | enter hchat hl hst hroom hr hs hc hm hg hp => exact .queued ⟨hr, .inl ⟨hs, hc⟩⟩ hm hg (.inl hp)
  | grant hx hroom hfront =>
    cases hv with
    | queued hr he hg hp =>
      refine .granted hr (fun l hl => ?_) (.inr rfl) ?_
      · cases hl
        exact he.2.1
      · rcases hp with hp | hp
        · exact .inl ⟨_, noteGrant_phase hp, he, rfl⟩
        · right
          rw [noteGrant_of_not_waiting (by rw [hp]; rfl), hp]
  | take hp hg hx hs hc hn he hlane hst => exact hst.placed
  | drop hp hx hr ht hf hp' hq =>
    cases hv with
    | queued hw => exact .done (hr.trans hw.1) (terminal_ne_queued ht) (.inl hp')
    | granted hw => exact .done (hr.trans hw.1) (terminal_ne_queued ht) (.inl hp')
    | serving hw => exact .done (hr.trans hw.1) (terminal_ne_queued ht) (.inl hp')
    | done hw => exact .done (hr.trans hw) (terminal_ne_queued ht) (.inl hp')
  | settle hst hp hs hq =>
    cases hv with
    | granted hw hv hc hw' =>
      rcases hw' with ⟨e, he, -⟩ | he <;> rw [he] at hp <;> cases hp
    | done hr hs he => rcases he with he | he <;> rw [he] at hp <;> cases hp
    | serving hw hp =>
      rcases hs with ⟨rfl, hp' | hp', -⟩ | ⟨hr, ht, hp', -⟩
      · exact .serving hw hp'
      · refine .done hw.1 ?_ (.inl hp')
        obtain ⟨-, ⟨ha, -⟩ | ⟨hs, -⟩⟩ := hw <;> rintro he
        · rw [he] at ha; cases ha
        · rw [he] at hs; cases hs
      · exact .done (hr.trans hw.1) (terminal_ne_queued ht) (.inl hp')
  | cancel hl hst hn hr hlane hs hc hq =>
    cases hv with
    | queued hw he hg hp =>
      exact .queued ⟨hr.trans hw.1, .inr ⟨hs, hc⟩⟩ ⟨he.1.trans hr.symm, he.2.1.trans hlane.symm,
        he.2.2⟩ hg hp
    | granted hw hv hc' hp =>
      refine .granted ⟨hr.trans hw.1, .inr ⟨hs, hc⟩⟩ (fun _ h => nomatch h) (.inl hc) ?_
      rcases hp with ⟨e, he, hm, hg⟩ | hp
      · exact .inl ⟨e, he, ⟨hm.1.trans hr.symm, hm.2.1.trans hlane.symm, hm.2.2⟩, hg⟩
      · exact .inr hp
    | serving hw hp => exact .serving ⟨hr.trans hw.1, .inr ⟨hs, hc⟩⟩ hp
    | done hr' hs' hp => exact .done (hr.trans hr') (by rw [hs]; exact nofun) hp
  | kill hl hst hp hp' hq =>
    cases hv with
    | queued hw he hg => exact .queued hw he hg (.inr hp')
    | granted hw hv hc => exact .granted hw hv hc (.inr hp')
    | serving hw =>
      refine .done hw.1 ?_ (.inr hp')
      obtain ⟨-, ⟨ha, -⟩ | ⟨hs, -⟩⟩ := hw <;> rintro he
      · rw [he] at ha; cases ha
      · rw [he] at hs; cases hs
    | done hr hs => exact .done hr hs (.inr hp')

theorem Placed.of_entry (hv : Placed rid v) (he : v.entry = some e) :
    ∃ r h, v = ⟨some r, none, some h, some e⟩ ∧ Waits rid r ∧ Matches r e ∧ e.granted = false ∧
      (h.phase = .waiting e ∨ h.phase = .killed) := by
  cases hv with
  | queued hr hm hg hp => cases he; exact ⟨_, _, rfl, hr, hm, hg, hp⟩
  | absent => cases he
  | granted => cases he
  | serving => cases he
  | done => cases he

theorem Placed.of_waiting (hv : Placed rid v) (hh : v.handler = some h)
    (hp : h.phase = .waiting e) :
    ∃ r, v.record = some r ∧ Waits rid r ∧ Matches r e ∧
      (e.granted = false ∧ v.entry = some e ∨ e.granted = true ∧ v.entry = none) := by
  cases hv with
  | absent => cases hh
  | queued hr hm hg hp' =>
    cases hh
    rcases hp' with hp' | hp' <;> rw [hp] at hp' <;> cases hp'
    exact ⟨_, rfl, hr, hm, .inl ⟨hg, rfl⟩⟩
  | granted hr hv hc hp' =>
    cases hh
    rcases hp' with ⟨e', hp', hm, hg⟩ | hp' <;> rw [hp] at hp' <;> cases hp'
    exact ⟨_, rfl, hr, hm, .inr ⟨hg, rfl⟩⟩
  | serving hr hp' => cases hh; rw [hp] at hp'; cases hp'
  | done hr hs hp' => cases hh; rcases hp' with hp' | hp' <;> rw [hp] at hp' <;> cases hp'

theorem Placed.of_record_none (hv : Placed rid v) (h : v.record = none) : v = .absent := by
  cases hv with
  | absent => rfl
  | queued => cases h
  | granted => cases h
  | serving => cases h
  | done => cases h

theorem Placed.of_serving (hv : Placed rid v) (hh : v.handler = some h)
    (hp : h.phase.serving = true) :
    ∃ r, v = ⟨some r, none, some h, none⟩ ∧ Runs rid r := by
  cases hv with
  | absent => cases hh
  | queued _ _ _ hp' => cases hh; rcases hp' with hp' | hp' <;> rw [hp'] at hp <;> cases hp
  | granted _ _ _ hp' =>
    cases hh
    rcases hp' with ⟨_, hp', -⟩ | hp' <;> rw [hp'] at hp <;> cases hp
  | serving hr => cases hh; exact ⟨_, rfl, hr⟩
  | done _ _ hp' => cases hh; rcases hp' with hp' | hp' <;> rw [hp'] at hp <;> cases hp

theorem Placed.of_record (hv : Placed rid v) (hr : v.record = some r) :
    ∃ h, v.handler = some h := by
  cases hv with
  | absent => cases hr
  | queued => exact ⟨_, rfl⟩
  | granted => exact ⟨_, rfl⟩
  | serving => exact ⟨_, rfl⟩
  | done => exact ⟨_, rfl⟩

/-- The wait on the entry may succeed at the time of the step. -/
def InTime (env : Env) (e : QueueEntry) : Prop :=
  (∃ d, e.deadlineAt = some d ∧ env.mono < d) ∧ env.start.cancelled e.requestId = false

theorem not_isExpired {e : QueueEntry} (hd : e.deadlineAt.isSome = true)
    (h : e.isExpired now = false) : ∃ d, e.deadlineAt = some d ∧ now < d := by
  obtain ⟨d, hd⟩ := Option.isSome_iff_exists.1 hd
  refine ⟨d, hd, ?_⟩
  simpa [QueueEntry.isExpired, hd] using h

theorem Starts.events (h : Starts rid r hd evs) (hev : ev ∈ evs) :
    ev.isQuiet = true ∨ ev = .adapterStarted rid := by
  obtain ⟨-, ⟨-, -, -, rfl⟩ | ⟨-, -, hq⟩⟩ := h
  · exact .inr (List.mem_singleton.1 hev)
  · exact .inl (hq ev hev)

/-- The events of a transition are about its own request: a grant is made by the waiter at the
front, a wait succeeds in time. -/
theorem Act.events (ha : Act env c rid v evs v') (hv : Placed rid v) (hev : ev ∈ evs) :
    ev.isQuiet = true ∨ ev = .adapterStarted rid ∨
      (ev = .granted rid ∧ ∃ f w, c.deque.head? = some f ∧
        c.handlers.get? f.requestId = some w ∧ w.phase.isWaiting = true) ∨
      ∃ e ready, ev = .returned e ready ∧ e.requestId = rid ∧ (ready = true → InTime env e) := by
  cases ha with
  | accept hl hroom hs => exact (hs.events hev).imp id .inl
  | enter => cases hev
  | grant hx hroom hfront => exact .inr (.inr (.inl ⟨List.mem_singleton.1 hev, hfront⟩))
  | take hp hg hx hs hc hn he hlane hs' =>
    obtain ⟨r, -, hw, hm, -⟩ := hv.of_waiting rfl hp
    rw [← he] at hm hx
    rcases List.mem_cons.1 hev with rfl | hev
    · obtain rfl := hm.1.trans hw.1
      exact .inr (.inr (.inr ⟨_, _, rfl, rfl, fun _ => ⟨not_isExpired hm.2.2 hx, hn⟩⟩))
    · exact (hs'.events hev).imp id .inl
  | drop hp hx hr ht hf hp' hq =>
    obtain ⟨r, -, hw, hm, -⟩ := hv.of_waiting rfl hp
    rcases List.mem_cons.1 hev with rfl | hev
    · exact .inr (.inr (.inr ⟨_, _, rfl, hm.1.trans hw.1, nofun⟩))
    · exact .inl (hq ev hev)
  | settle hst hp hs hq => exact .inl (hq ev hev)
  | cancel hl hst hn hr hlane hs hc hq => exact .inl (hq ev hev)
  | kill hl hst hp hp' hq => exact .inl (hq ev hev)

theorem Touches.distinct (ht : Touches rid c c') (h : DistinctIds c.deque) :
    DistinctIds c'.deque := by
  obtain hd | hd | ⟨e, rfl, hn, hd⟩ := ht.deque <;> rw [hd]
  · exact h
  · exact h.eraseP rid
  · exact h.append hn

theorem Move.views {P : RequestId → View → Prop} (hm : Move env c evs c')
    (hact : ∀ {rid v v'}, Act env c rid v evs v' → v = c.view rid → P rid v → P rid v')
    (h : ∀ rid, P rid (c.view rid)) (rid : RequestId) : P rid (c'.view rid) := by
  cases hm with
  | refuse => exact h rid
  | note => exact h rid
  | act ht ha =>
    next rid' =>
    by_cases hr : rid = rid'
    · subst hr
      exact hact ha rfl (h rid)
    · rw [ht.others rid hr]
      exact h rid

theorem Move.coherent (hm : Move env c evs c') (hc : Coherent c) : Coherent c' := by
  refine ⟨?_, hm.views (fun ha _ hv => ha.placed hv) hc.placed⟩
  cases hm with
  | refuse => exact hc.distinct
  | note => exact hc.distinct
  | act ht ha => exact ht.distinct hc.distinct

/-- The induction rule for a property of the core and of the events so far, over the
transitions of one step. -/
theorem Moves.history {P : List Event → Core → Prop}
    (hstep : ∀ {h c evs c'}, Coherent c → P h c → Move env c evs c' → P (h ++ evs) c')
    (hm : Moves env c evs c') (hc : Coherent c) (h₀ : P h c) : P (h ++ evs) c' := by
  induction hm generalizing h with
  | nil => simpa only [List.append_nil] using h₀
  | cons hm _ ih =>
    rw [← List.append_assoc]
    exact ih (hm.coherent hc) (hstep hc h₀ hm)

theorem Moves.invariant {P : Core → Prop}
    (hstep : ∀ {c evs c'}, Coherent c → P c → Move env c evs c' → P c')
    (hm : Moves env c evs c') (hc : Coherent c) (h₀ : P c) : P c' :=
  hm.history (P := fun _ => P) (h := []) hstep hc h₀

theorem Moves.coherent (hm : Moves env c evs c') (hc : Coherent c) : Coherent c' :=
  hm.invariant (fun _ hc hm => hm.coherent hc) hc hc

theorem Moves.single (h : Move env c evs c') : Moves env c evs c' := by
  simpa only [List.append_nil] using Moves.cons h .nil

theorem Moves.refuse_error (hst : c = env.start) :
    Moves env c [.answered none (.error code status)] c := by
  refine .single (.refuse hst fun res h => ?_)
  cases h

theorem Moves.raised (hst : c = env.start) : Moves env c [.answered none .raised] c := by
  refine .single (.refuse hst fun res h => ?_)
  cases h

theorem Moves.append (h : Moves env c evs c') (h' : Moves env c' evs' c'') :
    Moves env c (evs ++ evs') c'' := by
  induction h with
  | nil => exact h'
  | cons hm _ ih => rw [List.append_assoc]; exact .cons hm (ih h')

/-- The slots taken change by what the touched request takes. -/
theorem Touches.occupancy (ht : Touches rid c c') (p : Option Lane → Bool) :
    c'.occupancy p + (c.view rid).slots p = c.occupancy p + (c'.view rid).slots p := by
  have hr : ∀ k ≠ rid, c'.requests.get? k = c.requests.get? k :=
    fun k hk => congrArg View.record (ht.others k hk)
  have hv : ∀ k ≠ rid, c'.reservations.get? k = c.reservations.get? k :=
    fun k hk => congrArg View.reservation (ht.others k hk)
  have hreq := Dict.count_agree hr (fun r => r.status.isActive && p r.lane)
  have hres := Dict.count_agree hv p
  simp only [Core.occupancy, Whooshd.occupancy, View.slots, Core.view]
  omega

end Whooshd
