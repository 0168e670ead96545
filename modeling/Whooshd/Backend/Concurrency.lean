import Whooshd.Library.Dict
import Whooshd.Library.Machine

namespace Whooshd.Backend
set_option autoImplicit true

/-- The adapters that forward to an HTTP server under a ceiling of their own. -/
inductive HttpAdapterKind where
  | llamaCpp | mlxLmServer | mlxVlm
  deriving DecidableEq, Repr

inductive EntryPoint where
  | generate | chatCompletion | chatCompletionStream
  deriving DecidableEq, Repr

/-- Where a call of an entry point is suspended. -/
inductive CallPhase where
  /-- Inside `_acquire_slot`. -/
  | acquiring
  /-- Awaiting `check_health`. -/
  | checking
  /-- Awaiting the upstream server: its response, or the next item of its stream. -/
  | forwarding
  /-- At the `yield` of a stream. -/
  | yielded
  deriving DecidableEq, Repr

structure Call where
  entry : EntryPoint
  phase : CallPhase
  deriving DecidableEq, Repr

/-- What happens to a suspended call. -/
inductive CallEvent where
  | acquired | acquireTimedOut | healthy | unhealthy | chunk | resumed | returned | raised
  /-- The consumer closes the stream at its `yield`. -/
  | closed
  deriving DecidableEq, Repr

inductive LaneLabel where
  /-- A call begins; it goes on only if the adapter is configured for it. -/
  | call (cid : Nat) (entry : EntryPoint) (configured : Bool)
  | event (cid : Nat) (e : CallEvent)
  /-- The event loop finalises the `forward_streaming` generator of a closed stream. -/
  | finalise
  deriving DecidableEq, Repr

inductive LaneEvent where
  | sent (cid : Nat)
  | overloaded (cid : Nat)
  | ended (cid : Nat)
  deriving DecidableEq, Repr

structure HttpAdapter where
  kind : HttpAdapterKind
  maxConcurrent : Nat
  deriving DecidableEq, Repr

/-- Whether the entry point takes a slot: `_generate_bound` of the llama.cpp and the MLX-LM
server adapter goes straight to the health check. -/
def HttpAdapter.guards (a : HttpAdapter) : EntryPoint → Bool
  | .generate =>
    match a.kind with
    | .mlxVlm => true
    | .llamaCpp | .mlxLmServer => false
  | .chatCompletion | .chatCompletionStream => true

structure LaneState where
  /-- The value of `_concurrency_semaphore`. -/
  semaphore : Nat
  calls : Dict Nat Call
  /-- Upstream requests of streams that were closed at a `yield`: `async for` leaves its
  iterator to the finaliser of the event loop. -/
  abandoned : Nat
  deriving DecidableEq

namespace HttpAdapter

variable (a : HttpAdapter)

def init : LaneState := ⟨a.maxConcurrent, .empty, 0⟩

/-- The call is past `_acquire_slot`, in the `try` whose `finally` releases the semaphore. -/
def holdsSlot (c : Call) : Bool := a.guards c.entry && decide (c.phase ≠ .acquiring)

def setPhase (s : LaneState) (cid : Nat) (phase : CallPhase) : LaneState :=
  { s with calls := s.calls.modify cid (fun c => { c with phase }) }

/-- The call ends, through the `finally` block if it is in the `try`. -/
def leave (s : LaneState) (cid : Nat) (c : Call) : LaneState :=
  { s with calls := s.calls.erase cid
           semaphore := if a.holdsSlot c then s.semaphore + 1 else s.semaphore }

def advance (s : LaneState) (cid : Nat) (c : Call) (e : CallEvent) :
    Option (LaneState × List LaneEvent) :=
  match c.phase, e with
  | .acquiring, .acquired =>
    if s.semaphore = 0 then none
    else some (setPhase { s with semaphore := s.semaphore - 1 } cid .checking, [])
  | .acquiring, .acquireTimedOut => some (a.leave s cid c, [.overloaded cid])
  | .acquiring, .raised => some (a.leave s cid c, [.ended cid])
  | .checking, .healthy => some (setPhase s cid .forwarding, [.sent cid])
  | .checking, .unhealthy => some (a.leave s cid c, [.ended cid])
  | .checking, .raised => some (a.leave s cid c, [.ended cid])
  | .forwarding, .chunk =>
    if c.entry = .chatCompletionStream then some (setPhase s cid .yielded, []) else none
  | .forwarding, .returned => some (a.leave s cid c, [.ended cid])
  | .forwarding, .raised => some (a.leave s cid c, [.ended cid])
  | .yielded, .resumed => some (setPhase s cid .forwarding, [])
  | .yielded, .closed =>
    some (a.leave { s with abandoned := s.abandoned + 1 } cid c, [.ended cid])
  | _, _ => none

def step (s : LaneState) : LaneLabel → Option (LaneState × List LaneEvent)
  | .call cid entry configured =>
    if s.calls.contains cid then none
    else if configured = false then some (s, [.ended cid])
    else
      let phase := if a.guards entry then .acquiring else .checking
      some ({ s with calls := s.calls.set cid ⟨entry, phase⟩ }, [])
  | .event cid e =>
    match s.calls.get? cid with
    | some c => a.advance s cid c e
    | none => none
  | .finalise =>
    if s.abandoned = 0 then none else some ({ s with abandoned := s.abandoned - 1 }, [])

/-- Any number of calls on one adapter, interleaved at their awaits and yields. -/
def lane : Machine LaneState LaneLabel LaneEvent := ⟨a.step⟩

end HttpAdapter

/-- The upstream server is working on the call's request. -/
def Call.upstream (c : Call) : Bool :=
  match c.phase with
  | .forwarding | .yielded => true
  | .acquiring | .checking => false

def LaneState.inFlight (s : LaneState) : Nat := s.calls.count Call.upstream + s.abandoned

/-- What a step does to the calls and to the semaphore. -/
inductive LaneStep (a : HttpAdapter) (s : LaneState) : LaneLabel → LaneState → Prop where
  | refused : LaneStep a s (.call cid entry false) s
  | began (hn : s.calls.get? cid = none)
      (hp : phase = if a.guards entry then .acquiring else .checking) :
      LaneStep a s (.call cid entry true) { s with calls := s.calls.set cid ⟨entry, phase⟩ }
  | acquired (hc : s.calls.get? cid = some c) (hp : c.phase = .acquiring) (hs : s.semaphore ≠ 0) :
      LaneStep a s (.event cid .acquired)
        (HttpAdapter.setPhase { s with semaphore := s.semaphore - 1 } cid .checking)
  | sent (hc : s.calls.get? cid = some c) (hp : c.phase = .checking) :
      LaneStep a s (.event cid .healthy) (HttpAdapter.setPhase s cid .forwarding)
  | turned (hc : s.calls.get? cid = some c) (hu : c.upstream = true)
      (hp : phase = .forwarding ∨ phase = .yielded) :
      LaneStep a s (.event cid e) (HttpAdapter.setPhase s cid phase)
  | left (hc : s.calls.get? cid = some c) : LaneStep a s (.event cid e) (a.leave s cid c)
  | closed (hc : s.calls.get? cid = some c) (hu : c.upstream = true) :
      LaneStep a s (.event cid .closed) (a.leave { s with abandoned := s.abandoned + 1 } cid c)
  | finalised (ha : s.abandoned ≠ 0) :
      LaneStep a s .finalise { s with abandoned := s.abandoned - 1 }

theorem advance_step {a : HttpAdapter} (hc : s.calls.get? cid = some c)
    (hs : a.advance s cid c e = some (s', out)) : LaneStep a s (.event cid e) s' := by
  have hup : ∀ {p : CallPhase}, c.phase = p → (p = .forwarding ∨ p = .yielded) →
      c.upstream = true := by
    rintro p hp (rfl | rfl) <;> simp [Call.upstream, hp]
  simp only [HttpAdapter.advance] at hs
  split at hs
  · next hp =>
    split at hs
    · cases hs
    · next h0 =>
      cases hs
      exact .acquired hc hp h0
  · cases hs
    exact .left hc
  · cases hs
    exact .left hc
  · next hp =>
    cases hs
    exact .sent hc hp
  · cases hs
    exact .left hc
  · cases hs
    exact .left hc
  · next hp =>
    split at hs
    · cases hs
      exact .turned hc (hup hp (.inl rfl)) (.inr rfl)
    · cases hs
  · cases hs
    exact .left hc
  · cases hs
    exact .left hc
  · next hp =>
    cases hs
    exact .turned hc (hup hp (.inr rfl)) (.inl rfl)
  · next hp =>
    cases hs
    exact .closed hc (hup hp (.inr rfl))
  · cases hs

theorem laneStep_of_step {a : HttpAdapter} (hs : a.lane.step s l = some (s', out)) :
    LaneStep a s l s' := by
  simp only [HttpAdapter.lane, HttpAdapter.step] at hs
  cases l with
  | call cid entry configured =>
    simp only at hs
    split at hs
    · cases hs
    next hn =>
    cases configured with
    | false =>
      cases hs
      exact .refused
    | true =>
      cases hs
      exact .began (by simpa [Dict.contains] using hn) rfl
  | event cid e =>
    simp only at hs
    split at hs
    · next c hc => exact advance_step hc hs
    · cases hs
  | finalise =>
    simp only at hs
    split at hs
    · cases hs
    · next h0 =>
      cases hs
      exact .finalised h0

theorem count_setPhase (hc : (LaneState.calls s).get? cid = some c) (p : Call → Bool)
    (phase : CallPhase) :
    (HttpAdapter.setPhase s cid phase).calls.count p + (if p c then 1 else 0) =
      s.calls.count p + if p { c with phase } then 1 else 0 := by
  have h := Dict.count_agree (d := s.calls) (e := (HttpAdapter.setPhase s cid phase).calls)
    (k := cid) ?_ p
  · simpa only [hc, HttpAdapter.setPhase, Dict.get?_modify, if_true, Option.map_some,
      Dict.weight_some] using h
  · intro k hk
    simp only [HttpAdapter.setPhase, Dict.get?_modify, if_neg hk]

theorem count_leave {a : HttpAdapter} (hc : (LaneState.calls s).get? cid = some c)
    (p : Call → Bool) :
    (a.leave s cid c).calls.count p + (if p c then 1 else 0) = s.calls.count p := by
  have h := Dict.count_erase_add s.calls cid p
  rwa [hc, Dict.weight_some] at h

/-- Every permit is in the semaphore or held by a call inside its `try`, and only the entry
points that take a slot wait for one. -/
structure Permitted (a : HttpAdapter) (s : LaneState) : Prop where
  permits : s.semaphore + s.calls.count a.holdsSlot = a.maxConcurrent
  waiting : ∀ cid c, s.calls.get? cid = some c → c.phase = .acquiring → a.guards c.entry = true

theorem init_permitted (a : HttpAdapter) : Permitted a a.init := by
  constructor
  · rfl
  · intro cid c hc
    cases hc

theorem leave_permits {a : HttpAdapter} (hc : (LaneState.calls s).get? cid = some c) :
    (a.leave s cid c).semaphore + (a.leave s cid c).calls.count a.holdsSlot =
      s.semaphore + s.calls.count a.holdsSlot := by
  have hcount := count_leave (a := a) hc a.holdsSlot
  simp only [HttpAdapter.leave] at hcount ⊢
  split at hcount <;> split <;> first | omega | contradiction

theorem setPhase_permits {a : HttpAdapter} (hc : (LaneState.calls s).get? cid = some c)
    (hw : c.phase ≠ .acquiring) (hp : phase ≠ .acquiring) :
    (HttpAdapter.setPhase s cid phase).calls.count a.holdsSlot = s.calls.count a.holdsSlot := by
  have hcount := count_setPhase hc a.holdsSlot phase
  have hsame : a.holdsSlot { c with phase } = a.holdsSlot c := by
    simp only [HttpAdapter.holdsSlot, decide_eq_true hw, decide_eq_true hp]
  rw [hsame] at hcount
  omega

theorem LaneStep.permits (h : LaneStep a s l s') (hp : Permitted a s) :
    s'.semaphore + s'.calls.count a.holdsSlot = a.maxConcurrent := by
  obtain ⟨hp, hwait⟩ := hp
  cases h with
  | refused => exact hp
  | @began cid phase entry hn hphase =>
    have hcount := Dict.count_agree (d := s.calls) (e := s.calls.set cid ⟨entry, phase⟩)
      (k := cid) (fun k hk => Dict.get?_set_ne hk _) a.holdsSlot
    have hno : a.holdsSlot ⟨entry, phase⟩ = false := by
      cases hg : a.guards entry <;> simp [HttpAdapter.holdsSlot, hphase, hg]
    simp only [hn, Dict.get?_set_self, Dict.weight_none, Dict.weight_some, hno,
      Bool.false_eq_true, if_false] at hcount
    simp only
    omega
  | @acquired cid c hc hphase h0 =>
    have hcount := count_setPhase (s := { s with semaphore := s.semaphore - 1 }) hc a.holdsSlot
      .checking
    have hbefore : a.holdsSlot c = false := by simp [HttpAdapter.holdsSlot, hphase]
    have hafter : a.holdsSlot { c with phase := .checking } = true := by
      simp [HttpAdapter.holdsSlot, hwait cid c hc hphase]
    rw [hbefore, hafter] at hcount
    simp only [HttpAdapter.setPhase, Bool.false_eq_true, if_false, if_true] at hcount ⊢
    omega
  | @sent cid c hc hphase =>
    rw [setPhase_permits hc (by simp [hphase]) (by simp)]
    exact hp
  | @turned cid c phase e hc hu hphase =>
    have hw : c.phase ≠ .acquiring := by
      intro h
      simp [Call.upstream, h] at hu
    rw [setPhase_permits hc hw (by rcases hphase with rfl | rfl <;> simp)]
    exact hp
  | left hc =>
    rw [leave_permits hc]
    exact hp
  | @closed cid c hc hu =>
    rw [leave_permits (s := { s with abandoned := s.abandoned + 1 }) hc]
    exact hp
  | finalised ha => exact hp

/-- How the phase of a running call may change. -/
inductive PhaseStep (cid : Nat) (l : LaneLabel) (c : Call) : CallPhase → Prop where
  | acquired (hp : c.phase = .acquiring) : PhaseStep cid l c .checking
  | sent (hl : l = .event cid .healthy) (hp : c.phase = .checking) : PhaseStep cid l c .forwarding
  | turned (hu : c.upstream = true) (hp : phase = .forwarding ∨ phase = .yielded) :
      PhaseStep cid l c phase

/-- What holds of every call still does after a step if it holds of new calls and is kept
by the changes of phase. -/
theorem LaneStep.each {Q : Call → Prop} (h : LaneStep a s l s')
    (hQ : ∀ cid c, s.calls.get? cid = some c → Q c)
    (hnew : ∀ entry, Q ⟨entry, if a.guards entry then .acquiring else .checking⟩)
    (hmove : ∀ cid c phase, s.calls.get? cid = some c → PhaseStep cid l c phase →
      Q { c with phase }) :
    ∀ cid c, s'.calls.get? cid = some c → Q c := by
  have hset : ∀ (s₀ : LaneState) cid phase c₀, s₀.calls = s.calls →
      s.calls.get? cid = some c₀ → PhaseStep cid l c₀ phase →
      ∀ k c, (HttpAdapter.setPhase s₀ cid phase).calls.get? k = some c → Q c := by
    intro s₀ cid phase c₀ hs₀ hc₀ hph k c hc
    simp only [HttpAdapter.setPhase, Dict.get?_modify, hs₀] at hc
    split at hc
    · rw [hc₀] at hc
      cases hc
      exact hmove cid c₀ phase hc₀ hph
    · exact hQ k c hc
  have hleave : ∀ cid k c, (s.calls.erase cid).get? k = some c → Q c := by
    intro cid k c hc
    rw [Dict.get?_erase] at hc
    split at hc
    · cases hc
    · exact hQ k c hc
  cases h with
  | refused => exact hQ
  | @began cid phase entry hn hphase =>
    intro k c hc
    simp only [Dict.get?_set] at hc
    split at hc
    · cases hc
      rw [hphase]
      exact hnew entry
    · exact hQ k c hc
  | acquired hc hphase h0 => exact hset _ _ _ _ rfl hc (.acquired hphase)
  | sent hc hphase => exact hset _ _ _ _ rfl hc (.sent rfl hphase)
  | turned hc hu hphase => exact hset _ _ _ _ rfl hc (.turned hu hphase)
  | left hc => exact hleave _
  | closed hc hu => exact hleave _
  | finalised ha => exact hQ

theorem LaneStep.permitted (h : LaneStep a s l s') (hp : Permitted a s) : Permitted a s' := by
  refine ⟨h.permits hp, ?_⟩
  refine h.each (Q := fun c => c.phase = .acquiring → a.guards c.entry = true) hp.waiting ?_ ?_
  · intro entry hph
    cases hg : a.guards entry with
    | true => rfl
    | false => simp [hg] at hph
  · intro cid c phase hc hstep hph
    cases hstep with
    | acquired => cases hph
    | sent => cases hph
    | turned hu hp => rcases hp with rfl | rfl <;> cases hph

/-- A request is sent upstream only by a call that holds a slot, and only once the requests
of the streams that were closed at a `yield` are finalised. -/
def HttpAdapter.sendsWithinCeiling (a : HttpAdapter) (s : LaneState) : LaneLabel → Bool
  | .event cid .healthy =>
    (s.calls.get? cid).all fun c => a.guards c.entry && decide (s.abandoned = 0)
  | _ => true

theorem sends_of_ceiling (hC : HttpAdapter.sendsWithinCeiling a s (.event cid .healthy) = true)
    (hc : s.calls.get? cid = some c) : a.guards c.entry = true ∧ s.abandoned = 0 := by
  simpa [HttpAdapter.sendsWithinCeiling, hc] using hC

/-- Whoever waits for the upstream server holds a slot. -/
def Slotted (a : HttpAdapter) (s : LaneState) : Prop :=
  ∀ cid c, s.calls.get? cid = some c → c.upstream = true → a.guards c.entry = true

theorem LaneStep.slotted (h : LaneStep a s l s') (hC : a.sendsWithinCeiling s l = true)
    (hs : Slotted a s) : Slotted a s' := by
  refine h.each (Q := fun c => c.upstream = true → a.guards c.entry = true) hs ?_ ?_
  · intro entry hu
    cases hg : a.guards entry <;> simp [hg, Call.upstream] at hu
  · intro cid c phase hc hstep hu
    cases hstep with
    | acquired => cases hu
    | sent hl hp =>
      subst hl
      exact (sends_of_ceiling hC hc).1
    | turned hu => exact hs cid c hc hu

theorem LaneStep.inFlight_le (h : LaneStep a s l s') :
    s'.inFlight ≤ s.inFlight ∨ ∃ cid c, l = .event cid .healthy ∧ s.calls.get? cid = some c ∧
      c.phase = .checking ∧ s' = HttpAdapter.setPhase s cid .forwarding := by
  simp only [LaneState.inFlight]
  cases h with
  | refused => exact .inl (Nat.le_refl _)
  | @began cid phase entry hn hphase =>
    left
    have hcount := Dict.count_agree (d := s.calls) (e := s.calls.set cid ⟨entry, phase⟩)
      (k := cid) (fun k hk => Dict.get?_set_ne hk _) Call.upstream
    have hno : Call.upstream ⟨entry, phase⟩ = false := by
      cases hg : a.guards entry <;> simp [Call.upstream, hphase, hg]
    simp only [hn, Dict.get?_set_self, Dict.weight_none, Dict.weight_some, hno,
      Bool.false_eq_true, if_false] at hcount
    simp only
    omega
  | @acquired cid c hc hphase h0 =>
    left
    have hcount := count_setPhase (s := { s with semaphore := s.semaphore - 1 }) hc Call.upstream
      .checking
    have hafter : Call.upstream { c with phase := .checking } = false := rfl
    rw [hafter] at hcount
    simp only [HttpAdapter.setPhase, Bool.false_eq_true, if_false] at hcount ⊢
    omega
  | @sent cid c hc hphase => exact .inr ⟨cid, c, rfl, hc, hphase, rfl⟩
  | @turned cid c phase e hc hu hphase =>
    left
    have hcount := count_setPhase hc Call.upstream phase
    have hafter : Call.upstream { c with phase } = true := by
      rcases hphase with rfl | rfl <;> rfl
    rw [hu, hafter] at hcount
    simp only [HttpAdapter.setPhase] at hcount ⊢
    omega
  | @left cid c e hc =>
    left
    have hcount := count_leave (a := a) hc Call.upstream
    simp only [HttpAdapter.leave] at hcount ⊢
    omega
  | @closed cid c hc hu =>
    left
    have hcount := count_leave (a := a) (s := { s with abandoned := s.abandoned + 1 }) hc
      Call.upstream
    rw [hu] at hcount
    simp only [HttpAdapter.leave, if_true] at hcount ⊢
    omega
  | finalised ha =>
    left
    simp only
    omega

/-- The requests in flight of calls that hold their slots are covered by the permits. -/
theorem upstream_le (hs : Slotted a s) (hp : Permitted a s) :
    s.calls.count Call.upstream ≤ a.maxConcurrent := by
  have hle : s.calls.count Call.upstream ≤ s.calls.count a.holdsSlot := by
    apply Dict.count_le_of_get?
    intro cid c hc hu
    refine ⟨c, hc, ?_⟩
    have hne : c.phase ≠ .acquiring := by
      intro h
      simp [Call.upstream, h] at hu
    simp [HttpAdapter.holdsSlot, hs cid c hc hu, hne]
  have := hp.permits
  omega

theorem LaneStep.ceiling (h : LaneStep a s l s') (hC : a.sendsWithinCeiling s l = true)
    (hs : Slotted a s) (hp : Permitted a s) (hle : s.inFlight ≤ a.maxConcurrent) :
    s'.inFlight ≤ a.maxConcurrent := by
  rcases h.inFlight_le with hno | ⟨cid, c, hl, hc, hphase, rfl⟩
  · exact Nat.le_trans hno hle
  · subst hl
    obtain ⟨-, habandoned⟩ := sends_of_ceiling hC hc
    have hup := upstream_le (h.slotted hC hs) (h.permitted hp)
    simp only [LaneState.inFlight, HttpAdapter.setPhase, habandoned, Nat.add_zero] at hup ⊢
    exact hup

theorem idle_semaphore (hp : Permitted a s) (hidle : s.calls.size = 0) :
    s.semaphore = a.maxConcurrent := by
  have hnil : s.calls.entries = [] := List.eq_nil_of_length_eq_zero hidle
  have hcount : s.calls.count a.holdsSlot = 0 := by
    simp only [Dict.count, Dict.values, hnil, List.map_nil, List.countP_nil]
  rw [← hp.permits, hcount, Nat.add_zero]

/-- In every run in which each upstream request is sent by a call that holds a slot and
after the closed streams are finalised, the ceiling holds throughout, and whenever no call
is in progress the semaphore has its initial value. -/
theorem lane_ceiling_held (a : HttpAdapter) (ls : List LaneLabel)
    (hC : a.lane.EachStep (fun s l => a.sendsWithinCeiling s l = true) a.init ls) :
    a.lane.EachState (fun s => s.inFlight ≤ a.maxConcurrent ∧
      (s.calls.size = 0 → s.semaphore = a.maxConcurrent)) a.init ls := by
  have hinv : a.lane.EachState (fun s => Permitted a s ∧ Slotted a s ∧
      s.inFlight ≤ a.maxConcurrent) a.init ls := by
    apply Machine.eachState_of_step _ _ hC
    · rintro s l s' out ⟨hp, hs, hle⟩ hsends hstep
      have h := laneStep_of_step hstep
      exact ⟨h.permitted hp, h.slotted hsends hs, h.ceiling hsends hs hp hle⟩
    · refine ⟨init_permitted a, ?_, Nat.zero_le _⟩
      intro cid c hc
      cases hc
  exact hinv.imp fun s ⟨hp, _, hle⟩ => ⟨hle, idle_semaphore hp⟩

/-- With one slot: a stream is closed at its first chunk, and a waiting `generate` call of
the vision adapter takes the slot once the stream is finalised. -/
def closedStream : List LaneLabel :=
  [.call 0 .chatCompletionStream true, .event 0 .acquired, .event 0 .healthy, .event 0 .chunk,
    .call 1 .generate true, .event 0 .closed, .event 1 .acquired, .finalise, .event 1 .healthy,
    .event 1 .returned]

theorem lane_ceiling_closedStream :
    ((HttpAdapter.mk .mlxVlm 1).lane.exec (HttpAdapter.mk .mlxVlm 1).init closedStream).map
        (fun r => (r.1.semaphore, r.1.inFlight)) = some (1, 0) ∧
      (HttpAdapter.mk .mlxVlm 1).lane.EachState (fun s => s.inFlight ≤ 1 ∧
        (s.calls.size = 0 → s.semaphore = 1)) (HttpAdapter.mk .mlxVlm 1).init closedStream :=
  ⟨by decide, lane_ceiling_held (HttpAdapter.mk .mlxVlm 1) closedStream (by decide)⟩

/-- With one slot: a completion is with the server when `generate` sends its own request. -/
theorem generate_exceeds_ceiling :
    ∃ s evs, (HttpAdapter.mk .llamaCpp 1).lane.exec (HttpAdapter.mk .llamaCpp 1).init
        [.call 0 .chatCompletion true, .event 0 .acquired, .event 0 .healthy,
          .call 1 .generate true, .event 1 .healthy] = some (s, evs) ∧
      s.inFlight = 2 ∧ ¬s.inFlight ≤ 1 :=
  ⟨_, _, rfl, by decide, by decide⟩

end Whooshd.Backend
