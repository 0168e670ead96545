import Whooshd.Continuous.Streaming

namespace Whooshd.Continuous
set_option autoImplicit true

namespace FakeStreamingDemux

/-- The events of a stream that have not been drained. -/
def held (d : FakeStreamingDemux) (rid : String) : List FakeStreamEvent :=
  ((d.streams.get? rid).map (·.events)).getD []

/-- A chunk is appended to its stream exactly when no violation is reported for it. -/
def Reports (d : FakeStreamingDemux) : DemuxCall → Prop
  | .routeChunk chunk ids slots =>
    (d.routeChunk chunk ids slots).1.held chunk.requestId =
        d.held chunk.requestId ++ [chunk.event] ↔
      (d.routeChunk chunk ids slots).2 = []
  | _ => True

/-- A chunk that comes next in an open stream has its request and its slot among the active
ones. -/
def ChunkActive (d : FakeStreamingDemux) : DemuxCall → Prop
  | .routeChunk chunk ids slots =>
    ∀ stream, d.streams.get? chunk.requestId = some stream → stream.state = .open →
      chunk.sequenceIndex = stream.nextSequenceIndex → chunk.requestId ∈ ids ∧ chunk.slotId ∈ slots
  | _ => True

/-- A call leaves the streams of all other requests as they are. -/
def Isolates (d : FakeStreamingDemux) (c : DemuxCall) : Prop :=
  ∀ rid, rid ≠ c.requestId → (d.call c).1.streams.get? rid = d.streams.get? rid

end FakeStreamingDemux

/-- The events a reply hands out for a request. -/
def DemuxReply.delivers (rid : String) : DemuxReply → List FakeStreamEvent
  | .drained rid' events => if rid' = rid then events else []
  | _ => []

def delivered (replies : List DemuxReply) (rid : String) : List FakeStreamEvent :=
  replies.flatMap (·.delivers rid)

/-- Indices without gaps, and nothing behind a terminal event. -/
structure Ordered (events : List FakeStreamEvent) : Prop where
  index : ∀ (i : Nat) (ev : FakeStreamEvent), events[i]? = some ev → ev.sequenceIndex = i
  last : ∀ (i : Nat) (ev : FakeStreamEvent), events[i]? = some ev → ev.kind ≠ .chunk →
    i + 1 = events.length

/-- Every event is the request's own: a chunk that was routed with its id, or one without a
text. -/
def CarriesRouted (replies : List DemuxReply) (rid : String) (events : List FakeStreamEvent) :
    Prop :=
  ∀ ev ∈ events, ev.requestId = rid ∧
    if ev.kind = .chunk then
      ∃ chunk violations, DemuxReply.routed chunk violations ∈ replies ∧ ev = chunk.event
    else ev.text = none

/-- What a run of the demultiplexer keeps. -/
structure DemuxContract (calls : List DemuxCall) : Prop where
  streams : ∀ d replies, demux.exec .init calls = some (d, replies) → ∀ rid,
    Ordered (delivered replies rid ++ d.held rid) ∧
      CarriesRouted replies rid (delivered replies rid ++ d.held rid)
  isolated : demux.EachStep FakeStreamingDemux.Isolates .init calls
  reported : demux.EachStep FakeStreamingDemux.Reports .init calls

/-- What one call can make of the stream of its request. -/
inductive StreamStep (rid : String) :
    Option FakeRequestStream → DemuxReply → Option FakeRequestStream → Prop
  | kept (h : reply.delivers rid = []) : StreamStep rid stream reply stream
  | opened : StreamStep rid none .done (some { requestId := rid })
  | routed (hopen : stream.state = .open) (hid : chunk.requestId = rid)
      (hnext : chunk.sequenceIndex = stream.nextSequenceIndex) :
      StreamStep rid (some stream) (.routed chunk violations) (some (stream.append chunk.event))
  | ended (hopen : stream.state = .open) (hkind : kind ≠ .chunk) :
      StreamStep rid (some stream) (.ended [])
        (some (FakeRequestStream.append
          { stream with state := kind.state, terminalEmitted := true }
          (stream.terminalEvent rid kind reason)))
  | drained : StreamStep rid (some stream) (.drained rid stream.events)
      (some { stream with events := [] })

namespace FakeStreamingDemux

variable {d : FakeStreamingDemux}

theorem emitTerminal_step (rid : String) (kind : FakeStreamEventKind)
    (reason : ContinuousFinishReason) (hkind : kind ≠ .chunk) :
    StreamStep rid (d.streams.get? rid) (.ended (d.emitTerminal rid kind reason).2)
      ((d.emitTerminal rid kind reason).1.streams.get? rid) := by
  unfold emitTerminal
  cases hget : d.streams.get? rid with
  | none =>
    simp only [hget]
    exact .kept rfl
  | some stream =>
    by_cases hopen : stream.state = .open
    · simp only [hopen, ne_eq, not_true_eq_false, if_false, Dict.get?_set_self]
      exact .ended hopen hkind
    · simp only [ne_eq, hopen, not_false_eq_true, if_true, hget]
      exact .kept rfl

theorem call_step (d : FakeStreamingDemux) (c : DemuxCall) :
    StreamStep c.requestId (d.streams.get? c.requestId) (d.call c).2
      ((d.call c).1.streams.get? c.requestId) := by
  cases c with
  | openStream rid =>
    simp only [call, openStream, DemuxCall.requestId]
    split
    · exact .kept rfl
    · next hnew =>
      have hget : d.streams.get? rid = none := by
        simpa only [Dict.contains, Option.not_isSome_iff_eq_none] using hnew
      rw [hget, Dict.get?_set_self]
      exact .opened
  | routeChunk chunk ids slots =>
    simp only [call, routeChunk, DemuxCall.requestId]
    cases hget : d.streams.get? chunk.requestId with
    | none =>
      simp only [hget]
      exact .kept rfl
    | some stream =>
      by_cases hopen : stream.state = .open
      · by_cases hnext : chunk.sequenceIndex = stream.nextSequenceIndex
        · simp only [hopen, hnext, ne_eq, not_true_eq_false, if_false, Dict.get?_set_self]
          exact .routed hopen rfl hnext
        · simp only [hopen, hnext, ne_eq, not_true_eq_false, if_false, not_false_eq_true, if_true,
            hget]
          exact .kept rfl
      · simp only [ne_eq, hopen, not_false_eq_true, if_true, hget]
        exact .kept rfl
  | complete rid => exact emitTerminal_step rid .completed .stop (by decide)
  | cancel rid => exact emitTerminal_step rid .cancelled .cancelled (by decide)
  | timeout rid => exact emitTerminal_step rid .timedOut .timeout (by decide)
  | fail rid => exact emitTerminal_step rid .failed .error (by decide)
  | drainEvents rid =>
    simp only [call, drainEvents, DemuxCall.requestId]
    cases hget : d.streams.get? rid with
    | none =>
      simp only [hget]
      exact .kept (by simp [DemuxReply.delivers])
    | some stream =>
      simp only [Dict.get?_set_self]
      exact .drained

theorem emitTerminal_other (hne : rid' ≠ rid) (kind : FakeStreamEventKind)
    (reason : ContinuousFinishReason) :
    (d.emitTerminal rid kind reason).1.streams.get? rid' = d.streams.get? rid' := by
  unfold emitTerminal
  split
  · rfl
  · split
    · rfl
    · exact Dict.get?_set_ne hne _

theorem call_isolates (d : FakeStreamingDemux) (c : DemuxCall) : d.Isolates c := by
  intro rid hne
  cases c with
  | openStream rid' =>
    simp only [call, openStream]
    split
    · rfl
    · exact Dict.get?_set_ne hne _
  | routeChunk chunk ids slots =>
    simp only [call, routeChunk]
    split
    · rfl
    · split
      · rfl
      · split
        · rfl
        · exact Dict.get?_set_ne hne _
  | complete rid' => exact emitTerminal_other hne .completed .stop
  | cancel rid' => exact emitTerminal_other hne .cancelled .cancelled
  | timeout rid' => exact emitTerminal_other hne .timedOut .timeout
  | fail rid' => exact emitTerminal_other hne .failed .error
  | drainEvents rid' =>
    simp only [call, drainEvents]
    split
    · rfl
    · exact Dict.get?_set_ne hne _

theorem call_delivers_other (d : FakeStreamingDemux) (c : DemuxCall) (hne : rid ≠ c.requestId) :
    (d.call c).2.delivers rid = [] := by
  cases c with
  | drainEvents rid' => exact if_neg (Ne.symm hne)
  | _ => rfl

theorem activityViolations_eq_nil {chunk : ContinuousOutputChunk} {ids slots : List String} :
    activityViolations chunk ids slots = [] ↔ chunk.requestId ∈ ids ∧ chunk.slotId ∈ slots := by
  simp only [activityViolations, List.append_eq_nil_iff, ite_eq_right_iff, List.cons_ne_nil,
    imp_false, not_not]

theorem reports_iff (d : FakeStreamingDemux) (c : DemuxCall) : d.Reports c ↔ d.ChunkActive c := by
  cases c with
  | routeChunk chunk ids slots =>
    simp only [Reports, ChunkActive, routeChunk]
    cases hget : d.streams.get? chunk.requestId with
    | none => simp [held, hget]
    | some stream =>
      by_cases hopen : stream.state = .open
      · by_cases hnext : chunk.sequenceIndex = stream.nextSequenceIndex
        · simp [hopen, hnext, held, hget, FakeRequestStream.append, activityViolations_eq_nil]
        · simp [hopen, hnext, held, hget]
      · simp [hopen, held, hget]
  | _ => exact Iff.rfl

end FakeStreamingDemux

/-- The events of a stream so far, its counter and its state fit together. -/
structure StreamOk (replies : List DemuxReply) (rid : String) (events : List FakeStreamEvent)
    (stream : FakeRequestStream) : Prop where
  ordered : Ordered events
  next : stream.nextSequenceIndex = events.length
  chunks : stream.state = .open → ∀ ev ∈ events, ev.kind = .chunk
  carries : CarriesRouted replies rid events

/-- What has been drained and is held for a request belongs to one stream in order. -/
def Tracked (rid : String) (replies : List DemuxReply) : Option FakeRequestStream → Prop
  | none => delivered replies rid = []
  | some stream => StreamOk replies rid (delivered replies rid ++ stream.events) stream

theorem CarriesRouted.mono (hsub : replies ⊆ replies') (h : CarriesRouted replies rid events) :
    CarriesRouted replies' rid events := by
  intro ev hev
  obtain ⟨hid, hkind⟩ := h ev hev
  refine ⟨hid, ?_⟩
  split
  · next hchunk =>
    rw [if_pos hchunk] at hkind
    obtain ⟨chunk, violations, hmem, he⟩ := hkind
    exact ⟨chunk, violations, hsub hmem, he⟩
  · next hchunk => rwa [if_neg hchunk] at hkind

theorem Ordered.snoc {ev : FakeStreamEvent} (h : Ordered events)
    (hchunks : ∀ ev ∈ events, ev.kind = .chunk) (hindex : ev.sequenceIndex = events.length) :
    Ordered (events ++ [ev]) := by
  have hcases : ∀ i ev', (events ++ [ev])[i]? = some ev' →
      events[i]? = some ev' ∨ i = events.length ∧ ev' = ev := by
    intro i ev' hi
    rw [List.getElem?_append] at hi
    split at hi
    · exact .inl hi
    · next hlt =>
      have hzero : i - events.length = 0 := by
        by_contra hpos
        rw [List.getElem?_eq_none (by simp only [List.length_singleton]; omega)] at hi
        cases hi
      rw [hzero, List.getElem?_cons_zero, Option.some.injEq] at hi
      exact .inr ⟨by omega, hi.symm⟩
  constructor
  · intro i ev' hi
    obtain hi | ⟨rfl, rfl⟩ := hcases i ev' hi
    · exact h.index i ev' hi
    · exact hindex
  · intro i ev' hi hkind
    obtain hi | ⟨rfl, rfl⟩ := hcases i ev' hi
    · exact absurd (hchunks ev' (List.mem_of_getElem? hi)) hkind
    · simp

theorem StreamOk.append (h : StreamOk replies rid events stream) (hopen : stream.state = .open)
    (state : FakeStreamState) (terminalEmitted : Bool) {ev : FakeStreamEvent}
    (hindex : ev.sequenceIndex = stream.nextSequenceIndex) (hsub : replies ⊆ replies')
    (hev : CarriesRouted replies' rid [ev]) (hkind : state = .open → ev.kind = .chunk) :
    StreamOk replies' rid (events ++ [ev])
      (FakeRequestStream.append { stream with state, terminalEmitted } ev) := by
  have hchunks := h.chunks hopen
  constructor
  · exact h.ordered.snoc hchunks (hindex.trans h.next)
  · simp [FakeRequestStream.append, h.next]
  · intro hstate ev' hev'
    rcases List.mem_append.mp hev' with hev' | hev'
    · exact hchunks ev' hev'
    · rw [List.mem_singleton.mp hev']
      exact hkind hstate
  · intro ev' hev'
    rcases List.mem_append.mp hev' with hev' | hev'
    · exact h.carries.mono hsub ev' hev'
    · exact hev ev' hev'

theorem StreamOk.mono (hsub : replies ⊆ replies') (h : StreamOk replies rid events stream) :
    StreamOk replies' rid events stream :=
  ⟨h.ordered, h.next, h.chunks, h.carries.mono hsub⟩

theorem delivered_snoc (replies : List DemuxReply) (reply : DemuxReply) (rid : String) :
    delivered (replies ++ [reply]) rid = delivered replies rid ++ reply.delivers rid := by
  simp [delivered]

theorem delivered_quiet (hreply : DemuxReply.delivers rid reply = []) :
    delivered (replies ++ [reply]) rid = delivered replies rid := by
  rw [delivered_snoc, hreply, List.append_nil]

theorem Tracked.kept (h : Tracked rid replies stream) (hreply : reply.delivers rid = []) :
    Tracked rid (replies ++ [reply]) stream := by
  cases stream with
  | none => exact (delivered_quiet hreply).trans h
  | some stream =>
    rw [Tracked, delivered_quiet hreply]
    exact StreamOk.mono (List.subset_append_left _ _) h

theorem Tracked.step (h : Tracked rid replies stream)
    (hstep : StreamStep rid stream reply stream') :
    Tracked rid (replies ++ [reply]) stream' := by
  cases hstep with
  | kept hreply => exact h.kept hreply
  | opened =>
    have hnil : delivered (replies ++ [DemuxReply.done]) rid = [] := (delivered_quiet rfl).trans h
    rw [Tracked, hnil]
    exact ⟨⟨nofun, nofun⟩, rfl, nofun, nofun⟩
  | @routed stream chunk violations hopen hid hnext =>
    have hev : CarriesRouted (replies ++ [.routed chunk violations]) rid [chunk.event] := by
      intro ev hev
      rw [List.mem_singleton.mp hev]
      exact ⟨hid, chunk, violations, by simp, rfl⟩
    have happ := StreamOk.append h hopen stream.state stream.terminalEmitted hnext
      (List.subset_append_left _ _) hev fun _ => rfl
    rw [Tracked, delivered_quiet rfl]
    simpa only [FakeRequestStream.append, List.append_assoc] using happ
  | @ended kind stream reason hopen hkind =>
    have hev : CarriesRouted (replies ++ [.ended []]) rid
        [stream.terminalEvent rid kind reason] := by
      intro ev hev
      rw [List.mem_singleton.mp hev]
      exact ⟨rfl, (if_neg hkind).mpr rfl⟩
    have hclosed : kind.state = .open → kind = .chunk := by
      cases kind <;> simp [FakeStreamEventKind.state]
    have happ := StreamOk.append h hopen kind.state true rfl (List.subset_append_left _ _) hev
      hclosed
    rw [Tracked, delivered_quiet rfl]
    simpa only [FakeRequestStream.append, List.append_assoc] using happ
  | @drained stream =>
    have hall : delivered (replies ++ [.drained rid stream.events]) rid =
        delivered replies rid ++ stream.events := by
      rw [delivered_snoc, DemuxReply.delivers, if_pos rfl]
    have hok : StreamOk replies rid (delivered replies rid ++ stream.events) stream := h
    rw [Tracked, hall, List.append_nil]
    exact ⟨hok.ordered, hok.next, hok.chunks, hok.carries.mono (List.subset_append_left _ _)⟩

theorem tracked_step {d : FakeStreamingDemux} (h : ∀ rid, Tracked rid replies (d.streams.get? rid))
    (c : DemuxCall) (rid : String) :
    Tracked rid (replies ++ [(d.call c).2]) ((d.call c).1.streams.get? rid) := by
  by_cases hrid : rid = c.requestId
  · rw [hrid]
    exact (h c.requestId).step (d.call_step c)
  · rw [d.call_isolates c rid hrid]
    exact (h rid).kept (d.call_delivers_other c hrid)

theorem tracked_run (hrun : demux.exec .init calls = some (d, replies)) (rid : String) :
    Tracked rid replies (d.streams.get? rid) := by
  have hstep : ∀ {replies d c d' out}, (∀ rid, Tracked rid replies (d.streams.get? rid)) → True →
      demux.step d c = some (d', out) →
      ∀ rid, Tracked rid (replies ++ out) (d'.streams.get? rid) := by
    intro replies d c d' out h _ hs
    cases hs
    exact tracked_step h c
  have hinit : ∀ rid, Tracked rid [] (FakeStreamingDemux.init.streams.get? rid) := fun _ => rfl
  have hall := demux.exec_history
    (P := fun replies d => ∀ rid, Tracked rid replies (d.streams.get? rid)) hstep hinit
    (Machine.eachStep_true _ _) hrun
  exact hall rid

theorem ordered_nil : Ordered [] := ⟨nofun, nofun⟩

theorem Tracked.streams {d : FakeStreamingDemux} (h : Tracked rid replies (d.streams.get? rid)) :
    Ordered (delivered replies rid ++ d.held rid) ∧
      CarriesRouted replies rid (delivered replies rid ++ d.held rid) := by
  cases hget : d.streams.get? rid with
  | none =>
    rw [hget, Tracked] at h
    simp only [h, FakeStreamingDemux.held, hget, Option.map_none, Option.getD_none,
      List.append_nil]
    exact ⟨ordered_nil, fun _ hev => absurd hev List.not_mem_nil⟩
  | some stream =>
    rw [hget, Tracked] at h
    simp only [FakeStreamingDemux.held, hget, Option.map_some, Option.getD_some]
    exact ⟨h.ordered, h.carries⟩

theorem demux_exec (calls : List DemuxCall) (d : FakeStreamingDemux) :
    ∃ r, demux.exec d calls = some r := by
  induction calls generalizing d with
  | nil => exact ⟨_, rfl⟩
  | cons c calls ih =>
    obtain ⟨⟨d', replies⟩, hrun⟩ := ih (d.call c).1
    exact ⟨_, Machine.exec_cons.mpr ⟨_, _, _, rfl, hrun, rfl⟩⟩

/-- A run keeps the contract exactly when every chunk that comes next in an open stream is
routed as an active one: the tests against the active sets report, and deliver all the same. -/
theorem demux_contract_iff (calls : List DemuxCall) :
    DemuxContract calls ↔ demux.EachStep FakeStreamingDemux.ChunkActive .init calls := by
  obtain ⟨r, hrun⟩ := demux_exec calls .init
  have hreports : demux.EachStep FakeStreamingDemux.Reports .init calls ↔
      demux.EachStep FakeStreamingDemux.ChunkActive .init calls :=
    Machine.eachStep_congr (I := fun _ => True) (fun _ _ => trivial)
      (fun _ _ => FakeStreamingDemux.reports_iff _ _) trivial hrun
  constructor
  · intro h
    exact hreports.mp h.reported
  · intro h
    constructor
    · intro d replies hrun' rid
      exact (tracked_run hrun' rid).streams
    · exact (Machine.eachStep_true _ _).imp fun d c _ => d.call_isolates c
    · exact hreports.mpr h

/-- A chunk with a slot that is not active is reported, and delivered. -/
theorem inactive_slot_delivered :
    ¬ DemuxContract [.openStream "r1", .routeChunk ⟨"r1", "bad", 0, some "x"⟩ ["r1"] ["s1"]] := by
  intro h
  have hreports := (h.reported.2 _ _ rfl).1
  exact absurd (hreports.mp (by decide)) (by decide)

end Whooshd.Continuous
