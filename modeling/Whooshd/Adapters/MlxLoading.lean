import Whooshd.Library.History
import Whooshd.Library.Machine
import Whooshd.ThreadWake.Tokenizer

namespace Whooshd.Mlx
set_option autoImplicit true

open ThreadWake (MlxTokenizer extractChatMessages renderMlxChatPrompt mlxTokenizePrompt)

inductive RunnerStatus where
  | starting | warming | ready | generating | degraded | offline
  deriving DecidableEq, Repr

inductive ModelLifecycleState where
  | unloaded | warming | ready | generating | degraded | failed
  deriving DecidableEq, Repr

/-- What `mlx_lm.load` does. -/
inductive Attempt (μ : Type) where
  | returned (model : μ) (tokenizer : MlxTokenizer)
  | raised

/-- A stream that has been handed out, up to the end of its generator. -/
structure MlxStream where
  path : String
  prompt : String
  opened : Bool
  deriving DecidableEq, Repr

/-- What a completion is asked for: messages that the tokenizer renders, or a prompt. -/
inductive Ask where
  | chat (request : ThreadWake.ChatRequest)
  | raw (prompt : String)

inductive Event (μ : Type) where
  | loading (path : String)
  | loaded (path : String) (model : μ) (tokenizer : MlxTokenizer) (registered : Bool)
  | loadFailed (path : String)
  | unloaded
  /-- `mlx_lm.generate` is called. -/
  | generated (path : String) (model : Option μ) (tokenizer : Option MlxTokenizer) (ask : Ask)
      (prompt : String)
  /-- The first chunk of a stream is on its way. -/
  | announced (id : Nat) (path : String) (request : ThreadWake.ChatRequest) (prompt : String)
  /-- `mlx_lm.stream_generate` is called. -/
  | streamed (id : Nat) (path : String) (model : Option μ) (tokenizer : Option MlxTokenizer)
      (prompt : String)

structure State (μ : Type) where
  model : Option μ
  tokenizer : Option MlxTokenizer
  modelPath : Option String
  loaded : Bool
  /-- The tokenizer of the adapter that ThreadWake has for "mlx". -/
  tokenizerAdapter : Option MlxTokenizer
  /-- The model and the tokenizer of the KV adapter that ThreadWake has for "mlx". -/
  kvAdapter : Option (Option μ × Option MlxTokenizer)
  runnerStatus : RunnerStatus
  modelLifecycle : ModelLifecycleState
  streams : Dict Nat MlxStream

namespace State

def init : State μ :=
  { model := none, tokenizer := none, modelPath := none, loaded := false, tokenizerAdapter := none
    kvAdapter := none, runnerStatus := .starting, modelLifecycle := .unloaded, streams := .empty }

/-- `_ensure_loaded`, and whether it returned. Nothing in it suspends, so no other task runs
between its check and its end; `enabled` is the setting that `_register_tokenizer_adapter`
reads. -/
def ensureLoaded (s : State μ) (path : String) (attempt : Attempt μ) (enabled : Bool) :
    State μ × List (Event μ) × Bool :=
  if s.loaded = true ∧ s.modelPath = some path then (s, [], true)
  else
    match attempt with
    | .raised =>
      ({ s with runnerStatus := .degraded, modelLifecycle := .failed },
        [.loading path, .loadFailed path], false)
    | .returned model tokenizer =>
      ({ s with
          model := some model
          tokenizer := some tokenizer
          modelPath := some path
          loaded := true
          tokenizerAdapter := if enabled then some tokenizer else s.tokenizerAdapter
          kvAdapter := some (some model, some tokenizer)
          runnerStatus := .ready
          modelLifecycle := .ready },
        [.loading path, .loaded path model tokenizer enabled], true)

/-- The prompt of a completion; `none` when the template raises. -/
def format (s : State μ) : Ask → Option String
  | .chat request =>
    s.tokenizer.bind fun tok => renderMlxChatPrompt tok (extractChatMessages tok request.messages)
  | .raw prompt => some prompt

/-- `chat_completion` and `generate`, which do not suspend either: the status is READY again
after the call of `mlx_lm.generate`, whether that returns or raises. -/
def complete (s : State μ) (path : String) (attempt : Attempt μ) (enabled : Bool) (ask : Ask) :
    State μ × List (Event μ) :=
  match s.ensureLoaded path attempt enabled with
  | (s, events, false) => (s, events)
  | (s, events, true) =>
    match s.format ask with
    | none => (s, events)
    | some prompt =>
      ({ s with runnerStatus := .ready },
        events ++ [.generated path s.model s.tokenizer ask prompt])

/-- `chat_completion_stream` up to its first suspension. -/
def announce (s : State μ) (id : Nat) (path : String) (attempt : Attempt μ) (enabled : Bool)
    (request : ThreadWake.ChatRequest) (cancelled : Bool) : State μ × List (Event μ) :=
  match s.ensureLoaded path attempt enabled with
  | (s, events, false) => (s, events)
  | (s, events, true) =>
    match s.format (.chat request) with
    | none => (s, events)
    | some prompt =>
      if cancelled then (s, events)
      else
        ({ s with streams := s.streams.set id ⟨path, prompt, false⟩ },
          events ++ [.announced id path request prompt])

/-- The generator after its first chunk: it takes the model that is loaded by then. -/
def openStream (s : State μ) (id : Nat) (stream : MlxStream) (raises : Bool) :
    State μ × List (Event μ) :=
  let call : Event μ := .streamed id stream.path s.model s.tokenizer stream.prompt
  if raises then
    ({ s with runnerStatus := .degraded, streams := s.streams.erase id }, [call])
  else
    ({ s with runnerStatus := .generating
              streams := s.streams.set id { stream with opened := true } }, [call])

/-- The end of an open generator: exhausted, cancelled or closed, or by an exception. -/
def endStream (s : State μ) (id : Nat) (raised : Bool) : State μ :=
  { s with runnerStatus := if raised then .degraded else .ready, streams := s.streams.erase id }

/-- `unload`. The registry of the KV adapters has no `unregister`, and the handler swallows the
error of calling it: what is registered there stays. -/
def unload (s : State μ) : State μ × List (Event μ) :=
  ({ s with model := none, tokenizer := none, loaded := false, modelPath := none
            tokenizerAdapter := none }, [.unloaded])

end State

/-- One atomic section of the event loop. The model path and the setting are read anew by each of
them. -/
inductive Label (μ : Type) where
  | warmup (path : String) (attempt : Attempt μ) (enabled : Bool)
  | complete (path : String) (attempt : Attempt μ) (enabled : Bool) (ask : Ask)
  | announce (id : Nat) (path : String) (attempt : Attempt μ) (enabled : Bool)
      (request : ThreadWake.ChatRequest) (cancelled : Bool)
  | openStream (id : Nat) (raises : Bool)
  | endStream (id : Nat) (raised : Bool)
  /-- The consumer closes a stream before it has asked for more than the first chunk. -/
  | dropStream (id : Nat)
  | unload

def step (s : State μ) : Label μ → Option (State μ × List (Event μ))
  | .warmup path attempt enabled =>
    let (s, events, _) := s.ensureLoaded path attempt enabled
    some (s, events)
  | .complete path attempt enabled ask => some (s.complete path attempt enabled ask)
  | .announce id path attempt enabled request cancelled =>
    if s.streams.contains id then none
    else some (s.announce id path attempt enabled request cancelled)
  | .openStream id raises =>
    match s.streams.get? id with
    | some stream => if stream.opened then none else some (s.openStream id stream raises)
    | none => none
  | .endStream id raised =>
    match s.streams.get? id with
    | some stream => if stream.opened then some (s.endStream id raised, []) else none
    | none => none
  | .dropStream id =>
    match s.streams.get? id with
    | some stream =>
      if stream.opened then none else some ({ s with streams := s.streams.erase id }, [])
    | none => none
  | .unload => some s.unload

/-- The in-process adapter: any number of requests, warmups and unloads, interleaved at their
awaits. -/
def adapter (μ : Type) : Machine (State μ) (Label μ) (Event μ) := ⟨step⟩

/-- A load that returned. -/
structure Loaded (μ : Type) where
  path : String
  model : μ
  tokenizer : MlxTokenizer

def noteLoad (last : Option (Loaded μ)) : Event μ → Option (Loaded μ)
  | .loaded path model tokenizer _ => some ⟨path, model, tokenizer⟩
  | .unloaded => none
  | .loading _ | .loadFailed _ | .generated .. | .announced .. | .streamed .. => last

/-- The last load that returned since the last unload. -/
def lastLoad (events : List (Event μ)) : Option (Loaded μ) := leftBy noteLoad none events

def noteTokenizer (last : Option MlxTokenizer) : Event μ → Option MlxTokenizer
  | .loaded _ _ tokenizer registered => if registered then some tokenizer else last
  | .unloaded => none
  | .loading _ | .loadFailed _ | .generated .. | .announced .. | .streamed .. => last

/-- The tokenizer of the last load since the last unload that ThreadWake was told of. -/
def lastTokenizer (events : List (Event μ)) : Option MlxTokenizer :=
  leftBy noteTokenizer none events

def noteReturned (last : Option (Loaded μ)) : Event μ → Option (Loaded μ)
  | .loaded path model tokenizer _ => some ⟨path, model, tokenizer⟩
  | .unloaded | .loading _ | .loadFailed _ | .generated .. | .announced .. | .streamed .. => last

/-- The last load that returned, unloaded since or not. -/
def lastReturned (events : List (Event μ)) : Option (Loaded μ) := leftBy noteReturned none events

/-- The prompt that a tokenizer makes of what a completion is asked for. -/
def Ask.prompt (tok : MlxTokenizer) : Ask → Option String
  | .chat request => renderMlxChatPrompt tok (extractChatMessages tok request.messages)
  | .raw prompt => some prompt

/-- What an event of a run stands on: a load was needed, a completion runs on the model of its path
and on the prompt of that model's tokenizer, and a stream runs on what is loaded when it opens. -/
def Sound (before : List (Event μ)) : Event μ → Prop
  | .loading path => ∀ l, lastLoad before = some l → l.path ≠ path
  | .generated path model tokenizer ask prompt => ∃ l, lastLoad before = some l ∧ l.path = path ∧
      model = some l.model ∧ tokenizer = some l.tokenizer ∧ ask.prompt l.tokenizer = some prompt
  | .announced _ path request prompt => ∃ l, lastLoad before = some l ∧ l.path = path ∧
      (Ask.chat request).prompt l.tokenizer = some prompt
  | .streamed id path model tokenizer prompt =>
      model = (lastLoad before).map (·.model) ∧ tokenizer = (lastLoad before).map (·.tokenizer) ∧
        ∃ request, Event.announced id path request prompt ∈ before
  | .loaded .. | .loadFailed _ | .unloaded => True

/-- The state is what the events before it have left. -/
structure Holds (before : List (Event μ)) (s : State μ) : Prop where
  model : s.model = (lastLoad before).map (·.model)
  tokenizer : s.tokenizer = (lastLoad before).map (·.tokenizer)
  modelPath : s.modelPath = (lastLoad before).map (·.path)
  loaded : s.loaded = (lastLoad before).isSome
  tokenizerAdapter : s.tokenizerAdapter = lastTokenizer before
  kvAdapter : s.kvAdapter = (lastReturned before).map fun l => (some l.model, some l.tokenizer)
  streams : ∀ id stream, s.streams.get? id = some stream →
    ∃ request, Event.announced id stream.path request stream.prompt ∈ before

section Runs

variable {before : List (Event μ)} {s s' : State μ}

theorem lastLoad_append (before out : List (Event μ)) :
    lastLoad (before ++ out) = leftBy noteLoad (lastLoad before) out := leftBy_append ..

theorem lastTokenizer_append (before out : List (Event μ)) :
    lastTokenizer (before ++ out) = leftBy noteTokenizer (lastTokenizer before) out :=
  leftBy_append ..

theorem lastReturned_append (before out : List (Event μ)) :
    lastReturned (before ++ out) = leftBy noteReturned (lastReturned before) out :=
  leftBy_append ..

/-- An event that changes nothing of what is loaded. -/
def Event.Keeps : Event μ → Prop
  | .loading _ | .loadFailed _ | .generated .. | .announced .. | .streamed .. => True
  | .loaded .. | .unloaded => False

theorem Event.Keeps.last {ev : Event μ} (h : ev.Keeps) (before : List (Event μ)) :
    lastLoad (before ++ [ev]) = lastLoad before ∧
      lastTokenizer (before ++ [ev]) = lastTokenizer before ∧
      lastReturned (before ++ [ev]) = lastReturned before := by
  rw [lastLoad_append, lastTokenizer_append, lastReturned_append]
  cases ev with
  | loaded | unloaded => exact h.elim
  | loading | loadFailed | generated | announced | streamed => exact ⟨rfl, rfl, rfl⟩

namespace Holds

theorem init : Holds [] (State.init : State μ) where
  model := rfl
  tokenizer := rfl
  modelPath := rfl
  loaded := rfl
  tokenizerAdapter := rfl
  kvAdapter := rfl
  streams id stream h := by cases h

theorem keep (h : Holds before s) (ev : Event μ) (hev : ev.Keeps) : Holds (before ++ [ev]) s := by
  obtain ⟨hload, htokenizer, hreturned⟩ := hev.last before
  exact {
    model := by rw [hload, h.model]
    tokenizer := by rw [hload, h.tokenizer]
    modelPath := by rw [hload, h.modelPath]
    loaded := by rw [hload, h.loaded]
    tokenizerAdapter := by rw [htokenizer, h.tokenizerAdapter]
    kvAdapter := by rw [hreturned, h.kvAdapter]
    streams := fun id stream hstream => by
      obtain ⟨request, hin⟩ := h.streams id stream hstream
      exact ⟨request, List.mem_append_left _ hin⟩ }

theorem statuses (h : Holds before s) (runnerStatus : RunnerStatus)
    (modelLifecycle : ModelLifecycleState) :
    Holds before { s with runnerStatus := runnerStatus, modelLifecycle := modelLifecycle } :=
  ⟨h.model, h.tokenizer, h.modelPath, h.loaded, h.tokenizerAdapter, h.kvAdapter, h.streams⟩

theorem withStreams (h : Holds before s) {streams : Dict Nat MlxStream}
    (hstreams : ∀ id stream, streams.get? id = some stream →
      ∃ request, Event.announced id stream.path request stream.prompt ∈ before) :
    Holds before { s with streams := streams } :=
  ⟨h.model, h.tokenizer, h.modelPath, h.loaded, h.tokenizerAdapter, h.kvAdapter, hstreams⟩

theorem eraseStream (h : Holds before s) (id : Nat) :
    Holds before { s with streams := s.streams.erase id } := by
  apply h.withStreams
  intro id' stream hstream
  rw [Dict.get?_erase] at hstream
  split at hstream
  · cases hstream
  · exact h.streams id' stream hstream

theorem load (h : Holds before s) (path : String) (model : μ) (tokenizer : MlxTokenizer)
    (enabled : Bool) (runnerStatus : RunnerStatus) (modelLifecycle : ModelLifecycleState) :
    Holds (before ++ [.loaded path model tokenizer enabled])
      { s with
        model := some model
        tokenizer := some tokenizer
        modelPath := some path
        loaded := true
        tokenizerAdapter := if enabled then some tokenizer else s.tokenizerAdapter
        kvAdapter := some (some model, some tokenizer)
        runnerStatus := runnerStatus
        modelLifecycle := modelLifecycle } := by
  have hload : lastLoad (before ++ [.loaded path model tokenizer enabled]) =
      some ⟨path, model, tokenizer⟩ := by
    rw [lastLoad_append]
    rfl
  exact {
    model := by rw [hload]; rfl
    tokenizer := by rw [hload]; rfl
    modelPath := by rw [hload]; rfl
    loaded := by rw [hload]; rfl
    tokenizerAdapter := by
      rw [lastTokenizer_append, h.tokenizerAdapter]
      rfl
    kvAdapter := by rw [lastReturned_append]; rfl
    streams := fun id stream hstream => by
      obtain ⟨request, hin⟩ := h.streams id stream hstream
      exact ⟨request, List.mem_append_left _ hin⟩ }

theorem unload (h : Holds before s) : Holds (before ++ s.unload.2) s.unload.1 := by
  have hload : lastLoad (before ++ [.unloaded]) = none := by
    rw [lastLoad_append]
    rfl
  exact {
    model := by rw [State.unload, hload]; rfl
    tokenizer := by rw [State.unload, hload]; rfl
    modelPath := by rw [State.unload, hload]; rfl
    loaded := by rw [State.unload, hload]; rfl
    tokenizerAdapter := by
      rw [State.unload, lastTokenizer_append]
      rfl
    kvAdapter := by
      rw [State.unload, lastReturned_append]
      exact h.kvAdapter
    streams := fun id stream hstream => by
      obtain ⟨request, hin⟩ := h.streams id stream hstream
      exact ⟨request, List.mem_append_left _ hin⟩ }

/-- What `_ensure_loaded` leaves: when it returns, the model of its path is loaded. -/
theorem ensureLoaded (h : Holds before s) (path : String) (attempt : Attempt μ) (enabled : Bool) :
    Holds (before ++ (s.ensureLoaded path attempt enabled).2.1)
        (s.ensureLoaded path attempt enabled).1 ∧
      EachEvent Sound before (s.ensureLoaded path attempt enabled).2.1 ∧
      ((s.ensureLoaded path attempt enabled).2.2 = true →
        ∃ l, lastLoad (before ++ (s.ensureLoaded path attempt enabled).2.1) = some l ∧
          l.path = path) := by
  unfold State.ensureLoaded
  split
  · next hloaded =>
    rw [List.append_nil]
    refine ⟨h, trivial, fun _ => ?_⟩
    rw [h.loaded, h.modelPath] at hloaded
    obtain ⟨l, hl⟩ := Option.isSome_iff_exists.mp hloaded.1
    rw [hl, Option.map_some, Option.some.injEq] at hloaded
    exact ⟨l, hl, hloaded.2⟩
  · next hneeded =>
    have hloading : Sound before (.loading path) := by
      intro l hl hpath
      apply hneeded
      rw [h.loaded, h.modelPath, hl]
      exact ⟨rfl, congrArg some hpath⟩
    have hwaiting := h.keep (.loading path) trivial
    cases attempt with
    | raised =>
      refine ⟨?_, ⟨hloading, trivial, trivial⟩, fun hreturned => nomatch hreturned⟩
      have hfailed := (hwaiting.keep (.loadFailed path) trivial).statuses .degraded .failed
      rwa [List.append_assoc] at hfailed
    | returned model tokenizer =>
      have hloaded := hwaiting.load path model tokenizer enabled .ready .ready
      rw [List.append_assoc] at hloaded
      refine ⟨hloaded, ⟨hloading, trivial, trivial⟩, fun _ => ⟨⟨path, model, tokenizer⟩, ?_, rfl⟩⟩
      rw [lastLoad_append]
      rfl

theorem format (h : Holds before s) (hl : lastLoad before = some l) (ask : Ask) :
    s.format ask = ask.prompt l.tokenizer := by
  cases ask with
  | chat request =>
    rw [State.format, h.tokenizer, hl]
    rfl
  | raw prompt => rfl

end Holds

/-- What every step keeps. -/
def Kept (before : List (Event μ)) (r : State μ × List (Event μ)) : Prop :=
  Holds (before ++ r.2) r.1 ∧ EachEvent Sound before r.2

namespace Kept

theorem complete (h : Holds before s) (path : String) (attempt : Attempt μ) (enabled : Bool)
    (ask : Ask) : Kept before (s.complete path attempt enabled ask) := by
  have hensured := h.ensureLoaded path attempt enabled
  unfold State.complete
  generalize s.ensureLoaded path attempt enabled = r at hensured ⊢
  obtain ⟨t, events, returned⟩ := r
  obtain ⟨hholds, hsound, hloaded⟩ := hensured
  cases returned with
  | false => exact ⟨hholds, hsound⟩
  | true =>
    obtain ⟨l, hl, hpath⟩ := hloaded rfl
    cases hprompt : t.format ask with
    | none =>
      simp only [hprompt]
      exact ⟨hholds, hsound⟩
    | some prompt =>
      simp only [hprompt]
      rw [hholds.format hl] at hprompt
      have hgenerated : Sound (before ++ events) (.generated path t.model t.tokenizer ask prompt) :=
        ⟨l, hl, hpath, by rw [hholds.model, hl]; rfl, by rw [hholds.tokenizer, hl]; rfl, hprompt⟩
      refine ⟨?_, EachEvent.append.mpr ⟨hsound, hgenerated, trivial⟩⟩
      have hkept := hholds.keep (.generated path t.model t.tokenizer ask prompt) trivial
      rw [List.append_assoc] at hkept
      exact hkept.statuses .ready t.modelLifecycle

theorem announce (h : Holds before s) (id : Nat) (path : String) (attempt : Attempt μ)
    (enabled : Bool) (request : ThreadWake.ChatRequest) (cancelled : Bool) :
    Kept before (s.announce id path attempt enabled request cancelled) := by
  have hensured := h.ensureLoaded path attempt enabled
  unfold State.announce
  generalize s.ensureLoaded path attempt enabled = r at hensured ⊢
  obtain ⟨t, events, returned⟩ := r
  obtain ⟨hholds, hsound, hloaded⟩ := hensured
  cases returned with
  | false => exact ⟨hholds, hsound⟩
  | true =>
    obtain ⟨l, hl, hpath⟩ := hloaded rfl
    cases hprompt : t.format (.chat request) with
    | none =>
      simp only [hprompt]
      exact ⟨hholds, hsound⟩
    | some prompt =>
      simp only [hprompt]
      rw [hholds.format hl] at hprompt
      split
      · exact ⟨hholds, hsound⟩
      have hannounced : Sound (before ++ events) (.announced id path request prompt) :=
        ⟨l, hl, hpath, hprompt⟩
      refine ⟨?_, EachEvent.append.mpr ⟨hsound, hannounced, trivial⟩⟩
      rw [← List.append_assoc]
      have hkept := hholds.keep (.announced id path request prompt) trivial
      apply hkept.withStreams
      intro id' stream hstream
      rw [Dict.get?_set] at hstream
      split at hstream
      · next hid =>
        cases hstream
        subst hid
        exact ⟨request, List.mem_append_right _ (List.mem_singleton_self _)⟩
      · exact hkept.streams id' stream hstream

theorem openStream (h : Holds before s) {id : Nat} (hstream : s.streams.get? id = some stream)
    (raises : Bool) : Kept before (s.openStream id stream raises) := by
  obtain ⟨request, hannounced⟩ := h.streams id stream hstream
  have hsound : Sound before (.streamed id stream.path s.model s.tokenizer stream.prompt) :=
    ⟨h.model, h.tokenizer, request, hannounced⟩
  have hkept := h.keep (.streamed id stream.path s.model s.tokenizer stream.prompt) trivial
  unfold State.openStream
  cases raises with
  | true =>
    exact ⟨(hkept.eraseStream id).statuses .degraded s.modelLifecycle, hsound, trivial⟩
  | false =>
    refine ⟨?_, hsound, trivial⟩
    have hopened := hkept.statuses .generating s.modelLifecycle
    apply hopened.withStreams
    intro id' stream' hstream'
    rw [Dict.get?_set] at hstream'
    split at hstream'
    · next hid =>
      cases hstream'
      subst hid
      exact hkept.streams id' stream hstream
    · exact hkept.streams id' stream' hstream'

theorem silent (h : Holds before s) : Kept before (s, []) := by
  refine ⟨?_, trivial⟩
  rwa [List.append_nil]

theorem step (h : Holds before s) (hstep : (adapter μ).step s label = some r) : Kept before r := by
  cases label with
  | warmup path attempt enabled =>
    cases hstep
    obtain ⟨hholds, hsound, -⟩ := h.ensureLoaded path attempt enabled
    exact ⟨hholds, hsound⟩
  | complete path attempt enabled ask =>
    cases hstep
    exact complete h path attempt enabled ask
  | announce id path attempt enabled request cancelled =>
    simp only [adapter, Mlx.step] at hstep
    split at hstep
    · cases hstep
    · cases hstep
      exact announce h id path attempt enabled request cancelled
  | openStream id raises =>
    simp only [adapter, Mlx.step] at hstep
    split at hstep
    · next stream hstream =>
      split at hstep
      · cases hstep
      · cases hstep
        exact openStream h hstream raises
    · cases hstep
  | endStream id raised =>
    simp only [adapter, Mlx.step] at hstep
    split at hstep
    · next stream hstream =>
      split at hstep
      · cases hstep
        exact silent ((h.eraseStream id).statuses _ s.modelLifecycle)
      · cases hstep
    · cases hstep
  | dropStream id =>
    simp only [adapter, Mlx.step] at hstep
    split at hstep
    · next stream hstream =>
      split at hstep
      · cases hstep
      · cases hstep
        exact silent (h.eraseStream id)
    · cases hstep
  | unload =>
    cases hstep
    exact ⟨h.unload, trivial, trivial⟩

theorem run (hrun : (adapter μ).exec .init labels = some (s, out)) : Kept [] (s, out) := by
  have h := Machine.exec_history (P := fun before s => Holds before s ∧ EachEvent Sound [] before)
    (C := fun _ _ => True) (h := []) ?_ ⟨Holds.init, trivial⟩ (Machine.eachStep_true _ _) hrun
  · exact h
  · rintro before s label s' out ⟨hholds, hsound⟩ - hstep
    obtain ⟨hholds', hsound'⟩ := step hholds hstep
    exact ⟨hholds', EachEvent.append.mpr ⟨hsound, hsound'⟩⟩

end Kept

/-- Whatever is interleaved, nothing is loaded that is loaded already, every completion runs on the
model of its path with a prompt of that model's tokenizer, and what ThreadWake has for "mlx" is
what the last load has told it. -/
theorem run_sound (labels : List (Label μ)) (hrun : (adapter μ).exec .init labels = some (s, out)) :
    EachEvent Sound [] out ∧ Holds out s :=
  ⟨(Kept.run hrun).2, (Kept.run hrun).1⟩

/-- A tokenizer with a template of its own. -/
def exampleTokenizer : MlxTokenizer :=
  { applyChatTemplate := some fun messages => some s!"<{messages.length}>"
    encode := fun _ => some [1, 2]
    str := fun
      | .str text => text
      | _ => "None" }

def exampleRequest : ThreadWake.ChatRequest :=
  ⟨none, [⟨"user", .null, none, none, none⟩], none, none, none, none, none, none, none⟩

/-- A stream that opens after an unload. -/
def exampleRun : List (Label Nat) :=
  [.warmup "a" (.returned 5 exampleTokenizer) true,
    .announce 0 "a" .raised false exampleRequest false, .unload, .openStream 0 false,
    .complete "b" (.returned 6 exampleTokenizer) true (.raw "hi"), .endStream 0 false]

theorem run_sound_unloaded : ∃ s out, (adapter Nat).exec .init exampleRun = some (s, out) ∧
    (EachEvent Sound [] out ∧ Holds out s) :=
  ⟨_, _, rfl, run_sound exampleRun rfl⟩

/-- A load is reported to ThreadWake, as it is while the setting is on. -/
def Event.reported : Event μ → Bool
  | .loaded _ _ _ registered => registered
  | .loading _ | .loadFailed _ | .unloaded | .generated .. | .announced .. | .streamed .. => true

theorem lastTokenizer_eq (last : Option (Loaded μ)) (h : ∀ ev ∈ events, ev.reported = true) :
    leftBy noteTokenizer (last.map (·.tokenizer)) events =
      (leftBy noteLoad last events).map (·.tokenizer) := by
  induction events generalizing last with
  | nil => rfl
  | cons ev events ih =>
    have hrest : ∀ ev ∈ events, ev.reported = true :=
      fun ev hin => h ev (List.mem_cons_of_mem _ hin)
    have hnoted : noteTokenizer (last.map (·.tokenizer)) ev =
        (noteLoad last ev).map (·.tokenizer) := by
      cases ev with
      | loaded path model tokenizer registered =>
        obtain rfl : registered = true := h _ (List.mem_cons_self ..)
        rfl
      | unloaded | loading | loadFailed | generated | announced | streamed => rfl
    change leftBy noteTokenizer (noteTokenizer (last.map (·.tokenizer)) ev) events = _
    rw [hnoted]
    exact ih _ hrest

/-- While the setting is on at every load, the tokens that ThreadWake counts for a request are
those of the prompt that a completion of this request would run on. -/
theorem tokenized_prompt_generated (labels : List (Label μ))
    (hrun : (adapter μ).exec .init labels = some (s, out))
    (hreported : ∀ ev ∈ out, ev.reported = true)
    (hreal : (mlxTokenizePrompt s.tokenizerAdapter graph request).realTokenization = true) :
    ∃ path model tok prompt,
      tok.encode prompt = some (mlxTokenizePrompt s.tokenizerAdapter graph request).tokenIds ∧
      ∀ attempt enabled, s.complete path attempt enabled (.chat request) =
        ({ s with runnerStatus := .ready },
          [.generated path (some model) (some tok) (.chat request) prompt]) := by
  obtain ⟨tok, prompt, htok, hprompt, hencode⟩ := ThreadWake.mlxTokenizePrompt_real hreal
  have hholds : Holds out s := (Kept.run hrun).1
  have hagree : s.tokenizerAdapter = s.tokenizer := by
    rw [hholds.tokenizerAdapter, hholds.tokenizer]
    exact lastTokenizer_eq none hreported
  have htokenizer : s.tokenizer = some tok := hagree.symm.trans htok
  have hlast := hholds.tokenizer.symm.trans htokenizer
  obtain ⟨l, hl, rfl⟩ := Option.map_eq_some_iff.mp hlast
  have hmodel : s.model = some l.model := by rw [hholds.model, hl]; rfl
  have hpath : s.modelPath = some l.path := by rw [hholds.modelPath, hl]; rfl
  have hloaded : s.loaded = true := by rw [hholds.loaded, hl]; rfl
  have hformat : s.format (.chat request) = some prompt := (hholds.format hl _).trans hprompt
  refine ⟨l.path, l.model, l.tokenizer, prompt, hencode, fun attempt enabled => ?_⟩
  have hensured : s.ensureLoaded l.path attempt enabled = (s, [], true) :=
    if_pos ⟨hloaded, hpath⟩
  simp only [State.complete, hensured, hformat, hmodel, htokenizer, List.nil_append]

def exampleGraph : ThreadWake.PromptGraph :=
  ⟨none, none, "", none, [], "", "", 0, 0, [], "", false⟩

theorem tokenized_prompt_generated_reloaded :
    ∃ s out, (adapter Nat).exec .init exampleRun = some (s, out) ∧
      ∃ path model tok prompt,
        tok.encode prompt =
          some (mlxTokenizePrompt s.tokenizerAdapter exampleGraph exampleRequest).tokenIds ∧
        ∀ attempt enabled, s.complete path attempt enabled (.chat exampleRequest) =
          ({ s with runnerStatus := .ready },
            [.generated path (some model) (some tok) (.chat exampleRequest) prompt]) :=
  ⟨_, _, rfl, tokenized_prompt_generated exampleRun rfl (by decide) rfl⟩

end Runs

end Whooshd.Mlx
