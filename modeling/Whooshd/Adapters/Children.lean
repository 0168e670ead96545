import Whooshd.Adapters.Supervision

namespace Whooshd.Supervision
set_option autoImplicit true

/-- What holds of an adapter after the notes of its run: only its own wrapper holds a child, and a
child that lives is the one it holds, or one that no signal could end. -/
structure Held (notes : List Note) (s : State) : Prop where
  own : ∀ server pid, s.process server = some pid → s.managedProcess = some server
  made : ∀ server, s.managedProcess = some server → server < s.nextServer
  launched : ∀ server pid, s.process server = some pid → pid < s.nextPid
  live : ∀ pid, s.Live pid → s.tracked = some pid ∨ Note.survived pid ∈ notes

variable {sup : Supervisor} {s s' : State} {notes out : List Note}

namespace State

theorem isRunning_iff {server : Nat} :
    s.isRunning server = true ↔ ∃ pid, s.process server = some pid ∧ s.returnCode pid = none := by
  rw [isRunning]
  cases s.process server with
  | none => simp
  | some pid => simp

theorem clear_process (server server' : Nat) :
    (s.clear server).process server' = if server' = server then none else s.process server' :=
  Function.update_apply ..

theorem exit_returnCode (pid pid' : Pid) (code : Int) :
    (s.exit pid code).returnCode pid' = if pid' = pid then some code else s.returnCode pid' :=
  Function.update_apply ..

theorem launch_process (server server' : Nat) :
    (s.launch server).process server' =
      if server' = server then some s.nextPid else s.process server' :=
  Function.update_apply ..

end State

namespace Held

theorem mono (h : Held notes s) (hnotes : notes ⊆ out) : Held out s where
  own := h.own
  made := h.made
  launched := h.launched
  live pid hpid := (h.live pid hpid).imp_right fun hmem => hnotes hmem

theorem waits (h : Held notes s) (waits : List Wait) : Held notes { s with waits := waits } where
  own := h.own
  made := h.made
  launched := h.launched
  live := h.live

theorem clear (h : Held notes s) {server : Nat}
    (hgone : ∀ pid, s.process server = some pid → s.Live pid → Note.survived pid ∈ notes) :
    Held notes (s.clear server) where
  own server' pid hpid := by
    rw [State.clear_process] at hpid
    split at hpid
    · cases hpid
    · exact h.own server' pid hpid
  made := h.made
  launched server' pid hpid := by
    rw [State.clear_process] at hpid
    split at hpid
    · cases hpid
    · exact h.launched server' pid hpid
  live pid hpid := by
    rcases h.live pid hpid with htracked | hnoted
    · obtain ⟨managed, hmanaged, hprocess⟩ := Option.bind_eq_some_iff.mp htracked
      by_cases hserver : managed = server
      · exact .inr (hgone pid (hserver ▸ hprocess) hpid)
      · left
        refine Option.bind_eq_some_iff.mpr ⟨managed, hmanaged, ?_⟩
        rw [State.clear_process, if_neg hserver, hprocess]
    · exact .inr hnoted

theorem exit (h : Held notes s) (pid : Pid) (code : Int) : Held notes (s.exit pid code) where
  own := h.own
  made := h.made
  launched := h.launched
  live pid' hpid' := by
    apply h.live
    refine ⟨hpid'.1, ?_⟩
    have hcode := hpid'.2
    rw [State.exit_returnCode] at hcode
    split at hcode
    · cases hcode
    · exact hcode

theorem checkExited (h : Held notes s) (server : Nat) : Held notes (s.checkExited server) := by
  rw [State.checkExited]
  cases hprocess : s.process server with
  | none => exact h
  | some pid =>
    simp only []
    split
    · next hcode =>
      apply h.clear
      intro pid' hpid' hlive
      rw [hprocess, Option.some.injEq] at hpid'
      rw [hpid', hlive.2] at hcode
      cases hcode
    · exact h

/-- `stop` ends the child of the wrapper, or notes that it could not. -/
theorem stop (h : Held notes s) (server : Nat) (ending : Ending) :
    Held (notes ++ (s.stop server ending).2) (s.stop server ending).1 ∧
      (s.stop server ending).1.process server = none := by
  rw [State.stop]
  cases hprocess : s.process server with
  | none =>
    rw [List.append_nil]
    exact ⟨h, hprocess⟩
  | some pid =>
    have hsame : ∀ pid', s.process server = some pid' → pid' = pid := by
      intro pid' hpid'
      rw [hprocess, Option.some.injEq] at hpid'
      exact hpid'.symm
    have hnone (s' : State) : (s'.clear server).process server = none := by
      rw [State.clear_process, if_pos rfl]
    simp only []
    split
    · next hcode =>
      refine ⟨?_, hnone s⟩
      rw [List.append_nil]
      apply h.clear
      intro pid' hpid' hlive
      rw [hsame pid' hpid'] at hlive
      rw [hlive.2] at hcode
      cases hcode
    · have hended (code : Int) : Held notes ((s.exit pid code).clear server) := by
        apply (h.exit pid code).clear
        intro pid' hpid' hlive
        have hcode := hlive.2
        rw [hsame pid' hpid', State.exit_returnCode, if_pos rfl] at hcode
        cases hcode
      cases ending with
      | terminated code =>
        rw [List.append_nil]
        exact ⟨hended code, hnone _⟩
      | killed code =>
        rw [List.append_nil]
        exact ⟨hended code, hnone _⟩
      | survives =>
        refine ⟨?_, hnone s⟩
        apply (h.mono (List.subset_append_left notes _)).clear
        intro pid' hpid' _
        rw [hsame pid' hpid']
        simp

theorem launch (h : Held notes s) {server : Nat} (hmanaged : s.managedProcess = some server)
    (hstopped : s.isRunning server = false) : Held notes (s.launch server) where
  own server' pid hpid := by
    rw [State.launch_process] at hpid
    split at hpid
    · next hsame =>
      rw [hsame]
      exact hmanaged
    · exact h.own server' pid hpid
  made := h.made
  launched server' pid hpid := by
    rw [State.launch_process] at hpid
    split at hpid
    · cases hpid
      exact Nat.lt_succ_self _
    · exact Nat.lt_succ_of_lt (h.launched server' pid hpid)
  live pid hpid := by
    by_cases hnew : pid = s.nextPid
    · left
      refine Option.bind_eq_some_iff.mpr ⟨server, hmanaged, ?_⟩
      rw [State.launch_process, if_pos rfl, hnew]
    · have hold : s.Live pid := ⟨Nat.lt_of_le_of_ne (Nat.le_of_lt_succ hpid.1) hnew, hpid.2⟩
      rcases h.live pid hold with htracked | hnoted
      · -- the child that was held does not live, since the wrapper is not running
        obtain ⟨managed, hmanaged', hprocess⟩ := Option.bind_eq_some_iff.mp htracked
        rw [hmanaged, Option.some.injEq] at hmanaged'
        subst hmanaged'
        have hrunning := State.isRunning_iff.mpr ⟨pid, hprocess, hold.2⟩
        rw [hstopped] at hrunning
        cases hrunning
      · exact .inr hnoted

theorem start (h : Held notes s) {server : Nat} (hmanaged : s.managedProcess = some server)
    {isFile : String → Bool} {launch : Launch} {argv : List String}
    (hstart : s.start sup server isFile launch = .ok (s', argv)) : Held notes s' := by
  rw [State.start] at hstart
  split at hstart
  · cases hstart
  · next hstopped =>
    rw [Bool.not_eq_true] at hstopped
    split at hstart
    · cases hstart
    · cases launch with
      | osError exc => cases hstart
      | running =>
        cases hstart
        exact h.launch hmanaged hstopped
      | gone code =>
        cases hstart
        exact (h.launch hmanaged hstopped).exit _ code

theorem checkHealth (h : Held notes s) : Held notes (s.checkHealth sup).1 := by
  rw [State.checkHealth]
  split
  · exact h
  · exact h.checkExited _

variable (sup) in
theorem waitTurn (h : Held notes s) (server : Nat) (deadline now : Time) (ending : Ending) :
    Held (notes ++ (s.waitTurn sup server deadline now ending).2)
      (s.waitTurn sup server deadline now ending).1 := by
  rw [State.waitTurn]
  split
  · split
    · exact h.mono (List.subset_append_left ..)
    · rw [List.append_nil]
      exact h.checkHealth.waits _
  · rw [← List.append_assoc]
    exact (h.stop server ending).1.mono (List.subset_append_left ..)

theorem warmupManaged (h : Held notes s) {server : Nat} (hmanaged : s.managedProcess = some server)
    (now : Time) (isFile : String → Bool) (launch : Launch) :
    Held (notes ++ (s.warmupManaged sup server now isFile launch).2)
      (s.warmupManaged sup server now isFile launch).1 := by
  have hchecked := h.checkExited server
  have hmanaged' : (s.checkExited server).managedProcess = some server := by
    rw [State.checkExited]
    split
    · exact hmanaged
    · split <;> exact hmanaged
  rw [State.warmupManaged]
  split
  · rw [List.append_nil]
    exact hchecked.checkHealth
  · split
    · exact hchecked.mono (List.subset_append_left ..)
    · next hstart =>
      have hturn := (hchecked.start hmanaged' hstart).waitTurn sup server
        (now + sup.startupTimeout) now .survives
      apply hturn.mono
      intro note hnote
      rw [List.mem_append] at hnote ⊢
      exact hnote.imp_right (List.mem_cons_of_mem _)

variable (sup) in
theorem warmup (h : Held notes s) (now : Time) (isFile : String → Bool) (launch : Launch)
    (probe : Probe) :
    Held (notes ++ (s.warmup sup now isFile launch probe).2)
      (s.warmup sup now isFile launch probe).1 := by
  unfold State.warmup
  split
  · next server hmanaged => exact h.warmupManaged hmanaged now isFile launch
  · next hmanaged =>
    split
    · apply Held.warmupManaged _ rfl
      exact
        { own := by
            intro server pid hpid
            have := h.own server pid hpid
            rw [hmanaged] at this
            cases this
          made := by
            intro server hserver
            cases hserver
            exact Nat.lt_succ_self _
          launched := h.launched
          live := by
            intro pid hpid
            rcases h.live pid hpid with htracked | hnoted
            · rw [State.tracked, hmanaged] at htracked
              cases htracked
            · exact .inr hnoted }
    · split
      · exact h.mono (List.subset_append_left ..)
      · split
        · exact h.mono (List.subset_append_left ..)
        · exact h.mono (List.subset_append_left ..)

theorem unload (h : Held notes s) (ending : Ending) :
    Held (notes ++ (s.unload ending).2) (s.unload ending).1 := by
  rw [State.unload]
  split
  · exact h.mono (List.subset_append_left ..)
  · next server hmanaged =>
    obtain ⟨hstop, hnone⟩ := h.stop server ending
    have hkept : (s.stop server ending).1.managedProcess = some server := by
      rw [State.stop]
      split
      · exact hmanaged
      · split
        · exact hmanaged
        · split <;> exact hmanaged
    exact
      { own := by
          intro server' pid hpid
          have hserver := hstop.own server' pid hpid
          rw [hkept, Option.some.injEq] at hserver
          subst hserver
          exact absurd (hpid.symm.trans hnone) (by simp)
        made := by
          intro server' hserver
          cases hserver
        launched := hstop.launched
        live := by
          intro pid hpid
          rcases hstop.live pid hpid with htracked | hnoted
          · rw [State.tracked, hkept, Option.bind_some, hnone] at htracked
            cases htracked
          · exact .inr hnoted }

theorem step {event : Event} (h : Held notes s)
    (hstep : (machine sup).step s event = some (s', out)) : Held (notes ++ out) s' := by
  have hquiet {u : State} (hu : Held notes u) : Held (notes ++ []) u :=
    hu.mono (List.subset_append_left ..)
  cases event with
  | exits pid code =>
    simp only [machine, State.after] at hstep
    split at hstep
    · cases hstep
      exact hquiet (h.exit pid code)
    · cases hstep
  | warmup now isFile launch probe =>
    have hwarm := h.warmup sup now isFile launch probe
    rwa [Option.some.inj hstep] at hwarm
  | answered i probe =>
    obtain ⟨w, -, hw⟩ := Option.map_eq_some_iff.mp hstep
    cases probe with
    | reachable =>
      cases hw
      exact (h.waits _).mono (List.subset_append_left ..)
    | unreachable detail =>
      cases hw
      exact hquiet (h.waits _)
  | woken i now ending =>
    obtain ⟨w, -, hw⟩ := Option.map_eq_some_iff.mp hstep
    have hturn := (h.waits (s.waits.eraseIdx i)).waitTurn sup w.server w.deadline now ending
    rwa [hw] at hturn
  | cancelled i =>
    simp only [machine, State.after] at hstep
    split at hstep
    · cases hstep
      exact hquiet (h.waits _)
    · cases hstep
  | checkHealth =>
    cases hstep
    exact hquiet h.checkHealth
  | isLoaded =>
    cases hstep
    apply hquiet
    split
    · exact h
    · exact h.checkExited _
  | unload ending =>
    have hunload := h.unload ending
    rwa [Option.some.inj hstep] at hunload

end Held

theorem held_initial : Held [] .initial where
  own server pid hpid := by cases hpid
  made server hserver := by cases hserver
  launched server pid hpid := by cases hpid
  live pid hpid := absurd hpid.1 (Nat.not_lt_zero pid)

theorem held_of_run {events : List Event}
    (hrun : (machine sup).exec .initial events = some (s, notes)) : Held notes s := by
  have h := Machine.exec_history (P := Held) (C := fun _ _ => True) (h := [])
    (fun hs _ hstep => hs.step hstep) held_initial (Machine.eachStep_true _ _) hrun
  rwa [List.nil_append] at h

theorem State.unload_none (s : State) (ending : Ending) :
    (s.unload ending).1.tracked = none := by
  rw [State.unload]
  split
  · next hmanaged =>
    rw [State.tracked, hmanaged]
    rfl
  · rfl

theorem State.loaded_iff :
    s.loaded = true ↔ ∃ pid, s.tracked = some pid ∧ s.returnCode pid = none := by
  rw [State.loaded, State.tracked]
  cases s.managedProcess with
  | none => simp
  | some server => exact State.isRunning_iff

/-- In every run, a child that lives is the one that the adapter holds, or one that `kill` did not
end: there are no two others, the adapter counts as loaded exactly if it holds one, and unloading
leaves none. -/
theorem children_of_run {events : List Event}
    (hrun : (machine sup).exec .initial events = some (s, notes)) :
    (∀ pid pid', s.Live pid → s.Live pid' → Note.survived pid ∉ notes →
      Note.survived pid' ∉ notes → pid = pid') ∧
    (∀ pid, s.Live pid → Note.survived pid ∉ notes → s.loaded = true) ∧
    (s.loaded = true → ∃ pid, s.Live pid ∧ s.tracked = some pid) ∧
    ∀ ending pid, (s.unload ending).1.Live pid →
      Note.survived pid ∈ notes ++ (s.unload ending).2 := by
  have h := held_of_run hrun
  have hheld : ∀ pid, s.Live pid → Note.survived pid ∉ notes → s.tracked = some pid := by
    intro pid hpid hnoted
    exact (h.live pid hpid).resolve_right hnoted
  refine ⟨?_, ?_, ?_, ?_⟩
  · intro pid pid' hpid hpid' hnoted hnoted'
    exact Option.some.inj ((hheld pid hpid hnoted).symm.trans (hheld pid' hpid' hnoted'))
  · intro pid hpid hnoted
    exact State.loaded_iff.mpr ⟨pid, hheld pid hpid hnoted, hpid.2⟩
  · intro hloaded
    obtain ⟨pid, htracked, hcode⟩ := State.loaded_iff.mp hloaded
    obtain ⟨server, -, hprocess⟩ := Option.bind_eq_some_iff.mp htracked
    exact ⟨pid, ⟨h.launched server pid hprocess, hcode⟩, htracked⟩
  · intro ending pid hpid
    apply ((h.unload ending).live pid hpid).resolve_left
    rw [s.unload_none ending]
    simp

def localConfig : LlamaCppAdapterConfig where
  serverUrl := none
  binaryPath := some "llama-server"
  modelPath := some "m.gguf"
  host := "127.0.0.1"
  port := 8080
  contextWindow := none
  parallelSlots := none
  extraArgs := []
  startupTimeout := 30
  startupTimeout_pos := by decide
  autoStart := true

/-- A child that crashes while it is being waited for, and its successor. -/
def crashRun : List Event :=
  [.warmup 0 (fun _ => true) .running .reachable, .exits 0 1,
    .warmup 2 (fun _ => true) .running .reachable, .answered 0 (.unreachable "refused"),
    .answered 0 .reachable]

theorem children_of_crash :
    ∃ s notes, (machine (llamaCppSupervisor localConfig "30.0")).exec .initial crashRun =
        some (s, notes) ∧
      (∀ pid pid', s.Live pid → s.Live pid' → Note.survived pid ∉ notes →
        Note.survived pid' ∉ notes → pid = pid') ∧
      (∀ pid, s.Live pid → Note.survived pid ∉ notes → s.loaded = true) ∧
      (s.loaded = true → ∃ pid, s.Live pid ∧ s.tracked = some pid) ∧
      ∀ ending pid, (s.unload ending).1.Live pid →
        Note.survived pid ∈ notes ++ (s.unload ending).2 := by
  have hsome : ((machine (llamaCppSupervisor localConfig "30.0")).exec .initial
      crashRun).isSome = true := by decide +kernel
  obtain ⟨⟨s, notes⟩, hrun⟩ := Option.isSome_iff_exists.mp hsome
  exact ⟨s, notes, hrun, children_of_run hrun⟩

end Whooshd.Supervision
