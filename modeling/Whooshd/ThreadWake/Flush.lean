import Whooshd.ThreadWake.Continuation

namespace Whooshd.ThreadWake
set_option autoImplicit true

/-- A call that names no filter. -/
def Call.unfiltered : Call := .flushCache none none none

/-- The call returns a cache hit whose output was generated from a KV handle. -/
def Manager.Serves (env : Env) (m : Manager) (call : Call) (handle : HandleId) : Prop :=
  ∃ before path tail prompt result after, (m.step env call).2 =
    before ++ .resumed path (some handle) tail prompt :: .returned result :: after ∧
      result.cacheHit = true

/-- Nothing is served from the first KV states. -/
def ServesAfter (env : Env) (old : Nat) (m : Manager) (call : Call) : Prop :=
  ∀ handle, m.Serves env call handle → old ≤ handle

/-- At every flush of everything: whatever is called next, nothing is served from a KV state
that was prefilled before the flush. -/
def FlushesComplete (env : Env) (limits : IndexLimits) (calls : List Call) : Prop :=
  (manager env).EachStep (fun m call => call = .unfiltered → ∀ after : List Call,
    (manager env).EachStep (ServesAfter env m.kv.length) (m.step env call).1 after)
    (.init limits) calls

/-- A flush of everything is made only while no thread tip is stored. -/
def FlushesNoTip (m : Manager) (call : Call) : Prop :=
  match call with
  | .flushCache none none none => m.index.threadTips.entries = []
  | _ => True

instance (m : Manager) (call : Call) : Decidable (FlushesNoTip m call) := by
  unfold FlushesNoTip
  split <;> infer_instance

/-- Every handle that can be found was made after the first KV states. -/
structure Fresh (old : Nat) (v : View) : Prop where
  kv : old ≤ v.kv.length
  entry : ∀ {k s handle}, v.entry k = some s → s.handle = some handle → old ≤ handle
  tip : ∀ {k hs handle}, v.tip k = some (hs, some handle) → old ≤ handle

theorem Fresh.move {v v' : View} (h : Fresh old v) (hm : Move env call v es v') : Fresh old v' := by
  cases hm with
  | fade hf =>
    constructor
    · rw [hf.kv]
      exact h.kv
    · intro k s handle hs hhandle
      obtain ⟨s₀, hs₀, rfl | rfl⟩ := hf.entry hs
      · exact h.entry hs₀ hhandle
      · exact h.entry hs₀ hhandle
    · exact fun ht => h.tip (hf.tip ht)
  | look => exact h
  | reuse => exact h
  | resume hc hk ht ha hkv hentry htip =>
    constructor
    · rw [hkv]
      exact h.kv
    · rw [hentry]
      exact h.entry
    · intro k' hs' handle' ht'
      obtain hold | ⟨-, heq⟩ := htip ht'
      · exact h.tip hold
      · cases heq
        exact h.tip ht
  | observe _ hw =>
    constructor
    · rw [hw.kv]
      exact h.kv
    · intro k s handle hs hhandle
      obtain hold | ⟨-, rfl⟩ := hw.entry hs
      · exact h.entry hold hhandle
      · cases hold : v.entry k with
        | none => simp [hold, ThreadWakeIndex.putSeal, PromptCall.putArgs] at hhandle
        | some s₀ =>
          have hhandle₀ : s₀.handle = some handle := by
            simpa [hold, ThreadWakeIndex.putSeal, PromptCall.putArgs] using hhandle
          exact h.entry hold hhandle₀
    · exact fun ht => h.tip (hw.tip ht)
  | store _ _ hw =>
    constructor
    · exact h.kv.trans hw.kv_grows.length_le
    · intro k s handle hs hhandle
      obtain hold | ⟨-, -, -, -, hnew⟩ := hw.entry hs
      · exact h.entry hold hhandle
      · rw [hnew] at hhandle
        cases hhandle
        exact h.kv
    · intro k hs handle ht
      obtain hold | ⟨-, -, heq⟩ := hw.tip ht
      · exact h.tip hold
      · cases heq
        exact h.kv

theorem resumed_handle {path path' : Path} {found : Option HandleId} {resumption : Resumption}
    (hev : .resumed path (some handle) tail prompt ∈
      Manager.resumptionEvents path' found ctx prompt' resumption) : found = some handle := by
  cases resumption with
  | cloneRaised => simp [Manager.resumptionEvents] at hev
  | generateRaised | generated =>
    simp only [Manager.resumptionEvents, List.mem_pair, reduceCtorEq, false_or,
      Event.resumed.injEq] at hev
    exact hev.2.1.symm

theorem Fresh.resumed {v v' : View} (h : Fresh old v) (hm : Move env call v es v')
    (hev : .resumed path (some handle) tail prompt ∈ es) : old ≤ handle := by
  cases hm with
  | fade _ hes => exact (hes _ hev).elim
  | look => cases List.mem_singleton.mp hev
  | reuse _ hs => exact h.entry hs (resumed_handle hev)
  | resume _ _ ht =>
    rw [resumed_handle hev] at ht
    exact h.tip ht
  | observe _ _ hes => exact (hes _ hev).elim
  | store _ _ _ hes => exact (hes _ hev).elim

theorem Fresh.moves {v v' : View} (h : Fresh old v) (hm : Moves env call v es v') :
    Fresh old v' ∧ ∀ path handle tail prompt, .resumed path (some handle) tail prompt ∈ es →
      old ≤ handle := by
  induction hm with
  | nil => exact ⟨h, fun _ _ _ _ hev => absurd hev List.not_mem_nil⟩
  | cons hm _ ih =>
    obtain ⟨hlast, hrest⟩ := ih (h.move hm)
    refine ⟨hlast, fun path handle tail prompt hev => ?_⟩
    rcases List.mem_append.mp hev with hev | hev
    · exact h.resumed hm hev
    · exact hrest _ _ _ _ hev

theorem Fresh.servesAfter {m : Manager} (h : Fresh old m.view) (call : Call) :
    ServesAfter env old m call := by
  rintro handle ⟨before, path, tail, prompt, result, after, hevents, -⟩
  apply (h.moves (Manager.step_moves m call)).2 path handle tail prompt
  rw [hevents]
  simp

/-- From a state whose handles are all fresh, a whole run is served from fresh KV states. -/
theorem Fresh.run {m : Manager} (h : Fresh old m.view) (calls : List Call) :
    (manager env).EachStep (ServesAfter env old) m calls := by
  induction calls generalizing m with
  | nil => trivial
  | cons call calls ih =>
    refine ⟨h.servesAfter call, ?_⟩
    intro s' out hstep
    have hs : m.step env call = (s', out) := Option.some.inj hstep
    have hmoves : Moves env call m.view (m.step env call).2 (m.step env call).1.view :=
      m.step_moves call
    have hfresh := (h.moves hmoves).1
    rw [hs] at hfresh
    exact ih hfresh

theorem unfiltered_tip (m : Manager) (k : String) :
    (m.step env .unfiltered).1.view.tip k = m.view.tip k := rfl

theorem flushed_fresh (m : Manager) (htips : m.index.threadTips.entries = []) :
    Fresh m.kv.length (m.step env .unfiltered).1.view where
  kv := le_rfl
  entry := by
    intro k s handle hs
    cases hs
  tip := by
    intro k hs handle ht
    have hnone : (m.step env .unfiltered).1.view.tip k = none := by
      change (m.index.threadTips.get? k).map ThreadTip.link = none
      rw [Dict.get?, htips]
      rfl
    rw [hnone] at ht
    cases ht

/-- Every thread tip was left by a call that may resume, and stands for a KV state. -/
def TipsOwned (env : Env) (v : View) : Prop :=
  ∀ k hs found, v.tip k = some (hs, found) →
    ∃ (c : PromptCall) (handle : HandleId), c.Reuses env ∧ c.tip env = some k ∧ c.hashes env = hs ∧
      found = some handle ∧ handle < v.kv.length

theorem TipsOwned.move {v v' : View} (h : TipsOwned env v) (hm : Move env call v es v') :
    TipsOwned env v' := by
  intro k hs found ht
  have hold : v.tip k = some (hs, found) → ∃ (c : PromptCall) (handle : HandleId),
      c.Reuses env ∧ c.tip env = some k ∧ c.hashes env = hs ∧ found = some handle ∧
        handle < v'.kv.length := by
    intro ht
    obtain ⟨c, handle, hc, hk, hhashes, hfound, hlt⟩ := h k hs found ht
    exact ⟨c, handle, hc, hk, hhashes, hfound, hlt.trans_le hm.kv_grows.length_le⟩
  cases hm with
  | fade hf => exact hold (hf.tip ht)
  | look => exact hold ht
  | reuse => exact hold ht
  | resume hc hk ht' ha hkv _ htip =>
    obtain ht | ⟨rfl, heq⟩ := htip ht
    · exact hold ht
    · cases heq
      obtain ⟨-, handle, -, -, -, hfound, hlt⟩ := h _ _ _ ht'
      exact ⟨_, handle, hc, hk, rfl, hfound, hkv ▸ hlt⟩
  | observe _ hw => exact hold (hw.tip ht)
  | store hc _ hw =>
    obtain ht | ⟨hk, -, heq⟩ := hw.tip ht
    · exact hold ht
    · cases heq
      refine ⟨_, _, hc, hk, rfl, rfl, ?_⟩
      rw [hw.kv, List.length_append]
      exact Nat.lt_succ_self _

theorem TipsOwned.moves {v v' : View} (h : TipsOwned env v) (hm : Moves env call v es v') :
    TipsOwned env v' := by
  induction hm with
  | nil => exact h
  | cons hm _ ih => exact ih (h.move hm)

theorem init_tipsOwned (env : Env) (limits : IndexLimits) :
    TipsOwned env (Manager.init limits).view := by
  intro k hs found ht
  cases ht

theorem trySessionContinuation_hit {m : Manager} {c : PromptCall} {thread : String}
    (hlatest : m.index.getLatestForThread env.sha256Hex thread c.modelId c.backend = some tip)
    (happ : validateMonotonicAppend tip.orderedSegmentHashes (c.hashes env) = true)
    (o : ThreadWakeObservation) (output : List String) :
    ∃ m' result, result.cacheHit = true ∧
      m.trySessionContinuation env c thread o (.generated output) =
        .finished m' [.cloned .session tip.kvHandleId c.context,
          .resumed .session tip.kvHandleId (c.tokenized env).dynamicTailTokenIds
            (c.tokenized env), .returned result] := by
  have happ' : validateMonotonicAppend tip.orderedSegmentHashes
      (c.graph env).orderedSegmentHashes = true := happ
  simp only [Manager.trySessionContinuation, hlatest, happ', Bool.true_eq_false, if_false]
  exact ⟨_, _, rfl, rfl⟩

/-- A turn that repeats the one that left the tip is served from the handle of the tip. -/
theorem serves_tip {m : Manager} {c : PromptCall} (hc : c.Reuses env) (hk : c.tip env = some k)
    (ht : m.view.tip k = some (c.hashes env, some handle)) :
    m.Serves env (.execute c .succeeding) handle := by
  obtain ⟨thread, hthread, rfl⟩ := Option.map_eq_some_iff.mp hk
  obtain ⟨tip, hlatest, hlink⟩ := Option.map_eq_some_iff.mp ht
  obtain ⟨hhashes, hhandle⟩ := Prod.mk.inj hlink
  have happ : validateMonotonicAppend tip.orderedSegmentHashes (c.hashes env) = true := by
    apply (validateMonotonicAppend_iff _ _).mpr
    exact hhashes ▸ List.prefix_rfl
  obtain ⟨m', result, hhit, htry⟩ := trySessionContinuation_hit hlatest happ (c.observation env)
    ["ok"]
  refine ⟨[.cloned .session (some handle) c.context], .session,
    (c.tokenized env).dynamicTailTokenIds, c.tokenized env, result, [], ?_, hhit⟩
  simp only [Manager.step, Manager.executeEphemeral, hc.1, hc.2, Bool.true_eq_false, if_false,
    hthread, AdapterOutcome.succeeding, htry, hhandle, List.cons_append, List.nil_append]

/-- A flush of everything is complete exactly if it meets no thread tip. -/
theorem flush_complete_iff {m : Manager} (h : TipsOwned env m.view) (call : Call) :
    (call = .unfiltered → ∀ after : List Call,
      (manager env).EachStep (ServesAfter env m.kv.length) (m.step env call).1 after) ↔
        FlushesNoTip m call := by
  constructor
  · intro hcomplete
    unfold FlushesNoTip
    split
    · rw [List.eq_nil_iff_forall_not_mem]
      rintro ⟨k, tip⟩ hmem
      have ht : (m.step env .unfiltered).1.view.tip k = some tip.link :=
        congrArg (Option.map ThreadTip.link) (Dict.get?_eq_some.mpr hmem)
      obtain ⟨c, handle, hc, hk, hhashes, hfound, hlt⟩ := h k _ _ ht
      have hserved : (m.step env .unfiltered).1.Serves env (.execute c .succeeding) handle := by
        apply serves_tip hc hk
        rw [ht, hhashes, ← hfound]
        rfl
      have hle := (hcomplete rfl [.execute c .succeeding]).1 handle hserved
      exact absurd hlt hle.not_gt
    · trivial
  · rintro hnone rfl after
    exact (flushed_fresh m hnone).run after

/-- In every run, the flushes are complete exactly if none of them meets a thread tip. -/
theorem flushesComplete_iff (env : Env) (limits : IndexLimits) (calls : List Call) :
    FlushesComplete env limits calls ↔
      (manager env).EachStep FlushesNoTip (.init limits) calls := by
  refine Machine.eachStep_congr (I := fun m => TipsOwned env m.view) ?_ ?_
    (init_tipsOwned env limits) (exec_eq_run env _ calls)
  · intro m call m' out h hstep
    have hs : m.step env call = (m', out) := Option.some.inj hstep
    have hmoves : Moves env call m.view (m.step env call).2 (m.step env call).1.view :=
      m.step_moves call
    have howned := h.moves hmoves
    rwa [hs] at howned
  · intro m call m' out h _
    exact flush_complete_iff h call

/-- The turn that is made again after the flush resumes the KV state from before it. -/
theorem flush_keeps_thread_tip : ¬FlushesComplete charEnv .one
    [.execute (threadTurn []) .succeeding, .unfiltered] := by
  intro h
  have hreuses : (threadTurn []).Reuses charEnv := ⟨by decide +kernel, by decide +kernel⟩
  have hshares := threadTurn_shares hreuses (by decide +kernel)
  obtain ⟨hkv, -, htip⟩ := Manager.executeEphemeral_first .succeeding (Manager.init_blank .one)
    hreuses hshares.storable hshares.nonempty rfl rfl
  have hkey : (threadTurn []).tip charEnv = some "t:qwen:mlx" := by decide +kernel
  have hserved : ((((Manager.init .one).step charEnv
      (.execute (threadTurn []) .succeeding)).1.step charEnv .unfiltered).1).Serves charEnv
        (.execute (threadTurn []) .succeeding) 0 := by
    apply serves_tip hreuses hkey
    rw [unfiltered_tip]
    exact htip _ hkey
  have hlength : ((Manager.init .one).step charEnv
      (.execute (threadTurn []) .succeeding)).1.kv.length = 1 := congrArg List.length hkv
  generalize hr : (Manager.init .one).step charEnv (.execute (threadTurn []) .succeeding) = r
    at hserved hlength
  have hflush := (h.2 r.1 r.2 (congrArg some hr)).1 rfl [.execute (threadTurn []) .succeeding]
  have hle := hflush.1 0 hserved
  rw [hlength] at hle
  cases hle

end Whooshd.ThreadWake
