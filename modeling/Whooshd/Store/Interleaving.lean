import Mathlib.Logic.Relation
import Whooshd.Store.Managed

namespace Whooshd.Store
set_option autoImplicit true

/-- What a call returns. -/
inductive Report where
  | registration (r : ModelRegistrationResult)
  | bootstrap (s : ModelRegistryState)

/-- A manifest that is to be written, with the file that the call had found in its place. -/
structure Write where
  manifest : ModelRegistryManifest
  seen : JsonFile
  report : Report
  faults : Faults

/-- File operations that are under way. -/
structure Pending where
  ops : List FileOp
  abandoned : List (List String) := []
  ok : Bool := true

/-- A call between two of its file-system operations. -/
inductive Task where
  /-- `registry_dir.exists()` comes next. -/
  | begin (call : Call)
  /-- `manifest_path.exists()`. -/
  | look (call : Call)
  /-- The manifest is read. -/
  | read (call : Call)
  /-- The candidate record is read, and what depends on both is decided. -/
  | check (call : Call) (file : JsonFile)
  /-- `source.exists()`. -/
  | seek (call : Call) (file : JsonFile) (plan : Plan)
  /-- `dest_path.exists()`. -/
  | probe (call : Call) (file : JsonFile) (plan : Plan) (source : StoredArtifact)
  | copy (call : Call) (file : JsonFile) (plan : Plan) (pending : Pending)
  | makeTmp (w : Write) (pending : Pending)
  | createTemp (w : Write)
  | writeTemp (w : Write)
  | replace (w : Write)
  | bootstrap (raw now : String) (faults : Faults)
  /-- The next directory of the layout is looked for. -/
  | findDir (now : String) (faults : Faults) (made dirs : List (List String))
  | makeDir (now : String) (faults : Faults) (made : List (List String)) (dir : List String)
      (dirs : List (List String)) (pending : Pending)
  | bootLook (now : String) (faults : Faults) (made : List (List String))
  | bootRead (now : String) (faults : Faults) (made : List (List String))
  | done (out : Except PyError Report)

/-- One operation: the tree after it, and what is then still pending. -/
def Pending.advance (f : Faults) (t : FileTree) (op : FileOp) (rest : List FileOp) (p : Pending) :
    FileTree × Pending :=
  if p.abandoned.any fun d => d.isPrefixOf op.path then (t, { p with ops := rest })
  else
    match op.exec f t with
    | (t', true) => (t', { p with ops := rest })
    | (t', false) => (t', { ops := rest, abandoned := op.path :: p.abandoned, ok := false })

theorem missing_of_not_exists {file : JsonFile} (h : ¬ file.exists = true) : file = .missing := by
  cases file with
  | missing => rfl
  | _ => exact absurd rfl h

section
variable [Interpreter]

/-- One step of a call on the store. -/
def Task.step (st : ModelStore) : Task → ModelStore × Task
  | begin call =>
    if st.tree.node ["registry"] = none then
      (st, done (.ok (.registration (fail call.asked .storeNotBootstrapped))))
    else (st, look call)
  | look call =>
    if st.manifest.exists = false then
      (st, done (.ok (.registration (fail "" .storeNotBootstrapped))))
    else (st, read call)
  | read call => (st, check call st.manifest)
  | check call file =>
    match checkManifest st.candidates call file with
    | .error e => (st, done (.error e))
    | .ok (.error refused) => (st, done (.ok (.registration refused)))
    | .ok (.ok plan) => (st, seek call file plan)
  | seek call file plan =>
    match call.source plan.candidate.sourcePath with
    | none => (st, done (.ok (.registration (fail plan.modelId .candidateMissing))))
    | some source => (st, probe call file plan source)
  | probe call file plan source =>
    if (st.tree.node plan.managedRel).isSome then
      (st, done (.ok (.registration (fail plan.modelId .managedDestinationExists))))
    else (st, copy call file plan { ops := plan.copyOps source })
  | copy call file plan pending =>
    match pending.ops with
    | op :: rest =>
      let (tree, pending) := pending.advance call.faults st.tree op rest
      ({ st with tree }, copy call file plan pending)
    | [] =>
      if pending.ok then
        (st, makeTmp
          { manifest := plan.updated call.now, seen := file
            report := .registration (plan.result call.now), faults := call.faults }
          { ops := ensureDirs ["tmp"] })
      else (st, done (.ok (.registration (fail plan.modelId .copyFailed))))
  | makeTmp w pending =>
    match pending.ops with
    | op :: rest =>
      let (tree, pending) := pending.advance w.faults st.tree op rest
      ({ st with tree }, makeTmp w pending)
    | [] => if pending.ok then (st, createTemp w) else (st, done (.error .osError))
  | createTemp w =>
    if w.faults.fails .createTemp then (st, done (.error .osError)) else (st, writeTemp w)
  | writeTemp w =>
    if w.faults.fails .writeTemp then (st, done (.error .osError)) else (st, replace w)
  | replace w =>
    if w.faults.fails .replace then (st, done (.error .osError))
    else ({ st with manifest := .document w.manifest.toDict }, done (.ok w.report))
  | bootstrap raw now faults =>
    if Text.strip raw = "" ∨ st.root.parts = [] then (st, done (.error .valueError))
    else (st, findDir now faults [] allDirectories)
  | findDir now faults made dirs =>
    match dirs with
    | [] => (st, bootLook now faults made)
    | dir :: dirs =>
      if (st.tree.node dir).isSome then (st, findDir now faults made dirs)
      else (st, makeDir now faults made dir dirs { ops := ensureDirs dir })
  | makeDir now faults made dir dirs pending =>
    match pending.ops with
    | op :: rest =>
      let (tree, pending) := pending.advance faults st.tree op rest
      ({ st with tree }, makeDir now faults made dir dirs pending)
    | [] =>
      if pending.ok then (st, findDir now faults (made ++ [dir]) dirs)
      else (st, done (.error .osError))
  | bootLook now faults made =>
    if st.manifest.exists then (st, bootRead now faults made)
    else
      (st, makeTmp
        { manifest := .create st.root now, seen := .missing
          report := .bootstrap { manifestCreated := true, directoriesCreated := made }, faults }
        { ops := ensureDirs ["tmp"] })
  | bootRead now faults made =>
    match st.manifest.loads with
    | .error e => (st, done (.error e))
    | .ok none =>
      (st, done (.ok (.bootstrap { directoriesCreated := made, error := some .unreadable })))
    | .ok (some data) =>
      match ModelRegistryManifest.fromDict data with
      | .error e => (st, done (.error e))
      | .ok m =>
        if m.schemaVersion ≠ 1 then
          (st, done (.ok (.bootstrap
            { directoriesCreated := made, error := some (.unsupportedSchema m.schemaVersion) })))
        else
          (st, makeTmp
            { manifest := m.touch now, seen := st.manifest, faults
              report := .bootstrap { manifestReused := true, directoriesCreated := made
                                     schemaVersion := m.schemaVersion } }
            { ops := ensureDirs ["tmp"] })
  | done out => (st, done out)

/-- Calls under way on one store. -/
structure System where
  store : ModelStore
  tasks : List Task

/-- Any interleaving of the calls, one operation at a time. -/
def interleaving : Machine System Nat Empty where
  step s i :=
    match s.tasks[i]? with
    | none => none
    | some (.done _) => none
    | some task =>
      let (store, task) := task.step s.store
      some (⟨store, s.tasks.set i task⟩, [])

/-- The file is a manifest that lists the entry. -/
def Lists (file : JsonFile) (entry : Json) : Prop :=
  ∃ data m, file = .document data ∧ ModelRegistryManifest.fromDict data = .ok m ∧
    entry ∈ m.models

/-- The manifest has kept every entry of the file. -/
def Keeps (file : JsonFile) (m : ModelRegistryManifest) : Prop :=
  ∀ entry, Lists file entry → entry ∈ m.models

structure Write.Sound (w : Write) : Prop where
  keeps : Keeps w.seen w.manifest
  adds : ∀ r, w.report = .registration r → r.manifestUpdated = true →
    r.registeredModel.toDict ∈ w.manifest.models

/-- What a call that is under way knows of the manifest that it has read. -/
def Task.Sound : Task → Prop
  | seek _ file plan => Keeps file plan.manifest
  | probe _ file plan _ => Keeps file plan.manifest
  | copy _ file plan _ => Keeps file plan.manifest
  | makeTmp w _ => w.Sound
  | createTemp w => w.Sound
  | writeTemp w => w.Sound
  | replace w => w.Sound
  | _ => True

/-- If the call has reported an update, the manifest lists its entry. -/
def Task.Listed (file : JsonFile) : Task → Prop
  | done (.ok (.registration r)) =>
    r.manifestUpdated = true → Lists file r.registeredModel.toDict
  | _ => True

/-- The call replaces the manifest only while it is what the call has found in its place. -/
def Task.ReplacesSeen (file : JsonFile) : Task → Prop
  | replace w => w.faults.fails .replace = false → file = w.seen
  | _ => True

theorem lists_document (m : ModelRegistryManifest) (entry : Json) :
    Lists (.document m.toDict) entry ↔ entry ∈ m.models := by
  constructor
  · rintro ⟨data, m', hdata, hm, hmem⟩
    cases hdata
    rw [ModelRegistryManifest.fromDict_toDict] at hm
    cases hm
    exact hmem
  · intro hmem
    exact ⟨_, m, rfl, ModelRegistryManifest.fromDict_toDict m, hmem⟩

theorem keeps_of_fromDict (h : ModelRegistryManifest.fromDict data = .ok m) :
    Keeps (.document data) m := by
  rintro entry ⟨data', m', hdata, hm, hmem⟩
  cases hdata
  rw [h] at hm
  cases hm
  exact hmem

theorem keeps_of_loadManifest (h : loadManifest file = .ok (.ok m)) : Keeps file m := by
  unfold loadManifest at h
  split at h
  · cases h
  · obtain ⟨loaded, hloaded, h⟩ := Except.bind_eq_ok_iff.mp h
    cases loaded with
    | none => cases h
    | some data =>
      obtain ⟨m', hm', h⟩ := Except.bind_eq_ok_iff.mp h
      split at h
      · cases h
      · cases h
        rw [loads_eq_some hloaded]
        exact keeps_of_fromDict hm'

theorem Plan.write_sound {plan : Plan} (h : Keeps file plan.manifest) (now : String)
    (faults : Faults) :
    Write.Sound { manifest := plan.updated now, seen := file, faults
                  report := .registration (plan.result now) } where
  keeps := fun entry hentry => List.mem_append_left _ (h entry hentry)
  adds := by
    intro r hr _
    cases hr
    exact List.mem_append_right _ List.mem_cons_self

/-- A step of a call keeps what it knows, and loses no entry from the manifest. -/
theorem Task.step_sound (t : Task) (h : t.Sound) (hlisted : t.Listed st.manifest)
    (hseen : t.ReplacesSeen st.manifest) :
    (t.step st).2.Sound ∧ (t.step st).2.Listed (t.step st).1.manifest ∧
      ∀ entry, Lists st.manifest entry → Lists (t.step st).1.manifest entry := by
  cases t with
  | begin call =>
    simp only [step]
    split
    · exact ⟨trivial, by simp [Listed, fail], fun _ => id⟩
    · exact ⟨trivial, trivial, fun _ => id⟩
  | look call =>
    simp only [step]
    split
    · exact ⟨trivial, by simp [Listed, fail], fun _ => id⟩
    · exact ⟨trivial, trivial, fun _ => id⟩
  | read call => exact ⟨trivial, trivial, fun _ => id⟩
  | check call file =>
    simp only [step]
    split
    · exact ⟨trivial, trivial, fun _ => id⟩
    · rename_i refused hcheck
      have hno := checkManifest_ok hcheck
      exact ⟨trivial, by simp [Listed, hno], fun _ => id⟩
    · rename_i plan hcheck
      exact ⟨keeps_of_loadManifest (checkManifest_ok hcheck).manifest, trivial, fun _ => id⟩
  | seek call file plan =>
    simp only [step]
    split
    · exact ⟨trivial, by simp [Listed, fail], fun _ => id⟩
    · exact ⟨h, trivial, fun _ => id⟩
  | probe call file plan source =>
    simp only [step]
    split
    · exact ⟨trivial, by simp [Listed, fail], fun _ => id⟩
    · exact ⟨h, trivial, fun _ => id⟩
  | copy call file plan pending =>
    simp only [step]
    split
    · exact ⟨h, trivial, fun _ => id⟩
    · split
      · exact ⟨Plan.write_sound h _ _, trivial, fun _ => id⟩
      · exact ⟨trivial, by simp [Listed, fail], fun _ => id⟩
  | makeTmp w pending =>
    simp only [step]
    split
    · exact ⟨h, trivial, fun _ => id⟩
    · split
      · exact ⟨h, trivial, fun _ => id⟩
      · exact ⟨trivial, trivial, fun _ => id⟩
  | createTemp w =>
    simp only [step]
    split
    · exact ⟨trivial, trivial, fun _ => id⟩
    · exact ⟨h, trivial, fun _ => id⟩
  | writeTemp w =>
    simp only [step]
    split
    · exact ⟨trivial, trivial, fun _ => id⟩
    · exact ⟨h, trivial, fun _ => id⟩
  | replace w =>
    simp only [step]
    split
    · exact ⟨trivial, trivial, fun _ => id⟩
    · rename_i hok
      refine ⟨trivial, ?_, ?_⟩
      · cases hreport : w.report with
        | bootstrap s => trivial
        | registration r =>
          intro hupdated
          exact (lists_document _ _).mpr (h.adds r hreport hupdated)
      · intro entry hentry
        rw [hseen (by simpa using hok)] at hentry
        exact (lists_document _ _).mpr (h.keeps entry hentry)
  | bootstrap raw now faults =>
    simp only [step]
    split
    · exact ⟨trivial, trivial, fun _ => id⟩
    · exact ⟨trivial, trivial, fun _ => id⟩
  | findDir now faults made dirs =>
    simp only [step]
    split
    · exact ⟨trivial, trivial, fun _ => id⟩
    · split
      · exact ⟨trivial, trivial, fun _ => id⟩
      · exact ⟨trivial, trivial, fun _ => id⟩
  | makeDir now faults made dir dirs pending =>
    simp only [step]
    split
    · exact ⟨trivial, trivial, fun _ => id⟩
    · split
      · exact ⟨trivial, trivial, fun _ => id⟩
      · exact ⟨trivial, trivial, fun _ => id⟩
  | bootLook now faults made =>
    simp only [step]
    split
    · exact ⟨trivial, trivial, fun _ => id⟩
    · refine ⟨⟨?_, ?_⟩, trivial, fun _ => id⟩
      · rintro entry ⟨data, m, hdata, -⟩
        cases hdata
      · intro r hr
        cases hr
  | bootRead now faults made =>
    simp only [step]
    split
    · exact ⟨trivial, trivial, fun _ => id⟩
    · exact ⟨trivial, trivial, fun _ => id⟩
    · rename_i data hloads
      split
      · exact ⟨trivial, trivial, fun _ => id⟩
      · rename_i m hm
        split
        · exact ⟨trivial, trivial, fun _ => id⟩
        · refine ⟨⟨?_, ?_⟩, trivial, fun _ => id⟩
          · simp only
            rw [loads_eq_some hloads]
            exact fun entry hentry => keeps_of_fromDict hm entry hentry
          · intro r hr
            cases hr
  | done out => exact ⟨trivial, hlisted, fun _ => id⟩

/-- Calls that have not begun. -/
def Task.Initial : Task → Prop
  | begin _ => True
  | bootstrap _ _ _ => True
  | _ => False

/-- Every entry that was reported as registered is in the manifest. -/
def NoneLost (s : System) : Prop :=
  ∀ r, .done (.ok (.registration r)) ∈ s.tasks → r.manifestUpdated = true →
    Lists s.store.manifest r.registeredModel.toDict

/-- No other call has replaced the manifest since the one that now replaces it has read it. -/
def ReplacesSeen (s : System) (i : Nat) : Prop :=
  ∀ task, s.tasks[i]? = some task → task.ReplacesSeen s.store.manifest

/-- What holds of every call under way. -/
def AllSound (s : System) : Prop :=
  ∀ task ∈ s.tasks, task.Sound ∧ task.Listed s.store.manifest

theorem interleaving_step (h : interleaving.step s i = some (s', out)) :
    ∃ task, s.tasks[i]? = some task ∧
      s' = ⟨(task.step s.store).1, s.tasks.set i (task.step s.store).2⟩ := by
  simp only [interleaving] at h
  split at h
  · cases h
  · cases h
  · rename_i task _ htask
    cases h
    exact ⟨task, htask, rfl⟩

theorem Task.Listed.mono {t : Task} (h : t.Listed file)
    (hmono : ∀ entry, Lists file entry → Lists file' entry) : t.Listed file' := by
  unfold Task.Listed at h ⊢
  split
  · exact fun hupdated => hmono _ (h hupdated)
  · trivial

theorem AllSound.step (h : AllSound s) (hseen : ReplacesSeen s i)
    (hstep : interleaving.step s i = some (s', out)) : AllSound s' := by
  obtain ⟨task, htask, rfl⟩ := interleaving_step hstep
  obtain ⟨hsound, hlisted⟩ := h task (List.mem_of_getElem? htask)
  obtain ⟨hsound', hlisted', hmono⟩ := task.step_sound hsound hlisted (hseen task htask)
  intro task' hmem
  rcases List.mem_or_eq_of_mem_set hmem with hmem | rfl
  · obtain ⟨hs, hl⟩ := h task' hmem
    exact ⟨hs, hl.mono hmono⟩
  · exact ⟨hsound', hlisted'⟩

theorem AllSound.noneLost (h : AllSound s) : NoneLost s :=
  fun _ hmem hupdated => (h _ hmem).2 hupdated

theorem allSound_initial (h : ∀ task ∈ s.tasks, task.Initial) : AllSound s := by
  intro task hmem
  have hinit := h task hmem
  cases task with
  | begin call => exact ⟨trivial, trivial⟩
  | bootstrap raw now faults => exact ⟨trivial, trivial⟩
  | _ => cases hinit

/-- The call has read the manifest that is there. -/
def Task.SeenIs (file : JsonFile) : Task → Prop
  | check _ seen => file = seen
  | seek _ seen _ => file = seen
  | probe _ seen _ _ => file = seen
  | copy _ seen _ _ => file = seen
  | makeTmp w _ => file = w.seen
  | createTemp w => file = w.seen
  | writeTemp w => file = w.seen
  | replace w => file = w.seen
  | _ => True

/-- The call is not under way. -/
def Task.idle : Task → Bool
  | begin _ => true
  | bootstrap _ _ _ => true
  | done _ => true
  | _ => false

omit [Interpreter] in
theorem Task.seenIs_of_idle {t : Task} (h : t.idle = true) (file : JsonFile) : t.SeenIs file := by
  cases t with
  | begin call => trivial
  | bootstrap raw now faults => trivial
  | done out => trivial
  | _ => cases h

omit [Interpreter] in
theorem Task.SeenIs.replacesSeen {t : Task} (h : t.SeenIs file) : t.ReplacesSeen file := by
  cases t with
  | replace w => exact fun _ => h
  | _ => trivial

theorem Task.step_seenIs (t : Task) (h : t.SeenIs st.manifest) :
    (t.step st).2.SeenIs (t.step st).1.manifest := by
  cases t with
  | begin call =>
    simp only [step]
    split <;> trivial
  | look call =>
    simp only [step]
    split <;> trivial
  | read call => exact rfl
  | check call file =>
    simp only [step]
    split
    · trivial
    · trivial
    · exact h
  | seek call file plan =>
    simp only [step]
    split
    · trivial
    · exact h
  | probe call file plan source =>
    simp only [step]
    split
    · trivial
    · exact h
  | copy call file plan pending =>
    simp only [step]
    split
    · exact h
    · split
      · exact h
      · trivial
  | makeTmp w pending =>
    simp only [step]
    split
    · exact h
    · split
      · exact h
      · trivial
  | createTemp w =>
    simp only [step]
    split
    · trivial
    · exact h
  | writeTemp w =>
    simp only [step]
    split
    · trivial
    · exact h
  | replace w =>
    simp only [step]
    split <;> trivial
  | bootstrap raw now faults =>
    simp only [step]
    split <;> trivial
  | findDir now faults made dirs =>
    simp only [step]
    split
    · trivial
    · split <;> trivial
  | makeDir now faults made dir dirs pending =>
    simp only [step]
    split
    · trivial
    · split <;> trivial
  | bootLook now faults made =>
    simp only [step]
    split
    · trivial
    · rename_i hmissing
      exact missing_of_not_exists hmissing
  | bootRead now faults made =>
    simp only [step]
    split
    · trivial
    · trivial
    · split
      · trivial
      · split
        · trivial
        · exact rfl
  | done out => trivial

/-- Only one call is under way at a time. -/
def Alone (s : System) (i : Nat) : Prop :=
  ∀ j, j < s.tasks.length → j ≠ i → (s.tasks[j]?.getD (.done (.error .osError))).idle = true

instance (s : System) (i : Nat) : Decidable (Alone s i) :=
  inferInstanceAs (Decidable (∀ j, j < s.tasks.length → _))

theorem replacesSeen_of_alone (hinit : ∀ task ∈ s.tasks, task.Initial)
    (halone : interleaving.EachStep Alone s is) : interleaving.EachStep ReplacesSeen s is := by
  have hidle : ∀ task ∈ s.tasks, task.SeenIs s.store.manifest := by
    intro task hmem
    apply Task.seenIs_of_idle
    have h := hinit task hmem
    cases task with
    | begin call => rfl
    | bootstrap raw now faults => rfl
    | _ => cases h
  clear hinit
  induction is generalizing s with
  | nil => trivial
  | cons i is ih =>
    refine ⟨fun task htask => (hidle task (List.mem_of_getElem? htask)).replacesSeen, ?_⟩
    intro s' out hstep
    apply ih (halone.2 s' out hstep)
    obtain ⟨task, htask, rfl⟩ := interleaving_step hstep
    intro task' hmem
    obtain ⟨j, hj, rfl⟩ := List.getElem_of_mem hmem
    rw [List.length_set] at hj
    by_cases hji : j = i
    · subst hji
      rw [List.getElem_set_self]
      exact task.step_seenIs (hidle task (List.mem_of_getElem? htask))
    · rw [List.getElem_set_ne (Ne.symm hji)]
      apply Task.seenIs_of_idle
      have h := halone.1 j hj hji
      rwa [List.getElem?_eq_getElem hj, Option.getD_some] at h

/-- In every interleaving in which each call replaces the manifest that it has read, no
registration is lost. -/
theorem no_registration_lost (hinit : ∀ task ∈ s.tasks, task.Initial)
    (hseen : interleaving.EachStep ReplacesSeen s is) :
    interleaving.EachState NoneLost s is := by
  have hsound : interleaving.EachState AllSound s is :=
    Machine.eachState_of_step (fun h hc hs => AllSound.step h hc hs) (allSound_initial hinit) hseen
  exact hsound.imp fun _ => AllSound.noneLost

/-- The id under which a call has reported an update. -/
def Task.updatedId : Task → Option String
  | done (.ok (.registration r)) =>
    if r.manifestUpdated then some r.registeredModel.modelId else none
  | _ => none

/-- The ids of the models that a manifest file lists. -/
def listedIds : JsonFile → List String
  | .document data =>
    match ModelRegistryManifest.fromDict data with
    | .ok m => m.models.filterMap fun e => (RegisteredModel.fromDict e).toOption.map (·.modelId)
    | .error _ => []
  | _ => []

theorem mem_listedIds {m : RegisteredModel} (h : Lists file m.toDict) :
    m.modelId ∈ listedIds file := by
  obtain ⟨data, manifest, rfl, hdata, hmem⟩ := h
  simp only [listedIds, hdata, List.mem_filterMap]
  exact ⟨m.toDict, hmem, rfl⟩

theorem NoneLost.updatedId_mem (h : NoneLost s) (hmem : task ∈ s.tasks)
    (hid : task.updatedId = some modelId) : modelId ∈ listedIds s.store.manifest := by
  unfold Task.updatedId at hid
  split at hid
  · rename_i r
    split at hid
    · rename_i hupdated
      cases hid
      exact mem_listedIds (h r hmem hupdated)
    · cases hid
  · cases hid

/-- Two registrations on a store that has just been bootstrapped. -/
def twoCalls : System where
  store := (bootstrapModelStore .none "/store" "t0" blankStore).1
  tasks := [.begin (ggufCall "a"), .begin (ggufCall "b")]

/-- The ids that were reported as registered, and those that the manifest lists. -/
def System.ids (s : System) : List (Option String) × List String :=
  (s.tasks.map Task.updatedId, listedIds s.store.manifest)

end

section
attribute [local instance] latin1Interpreter

theorem no_registration_lost_in_turn :
    interleaving.EachState NoneLost twoCalls (List.replicate 18 0 ++ List.replicate 18 1) ∧
    (interleaving.exec twoCalls (List.replicate 18 0 ++ List.replicate 18 1)).map (·.1.ids) =
      some ([some "a", some "b"], ["a", "b"]) := by
  have hinit : ∀ task ∈ twoCalls.tasks, task.Initial := by simp [twoCalls, Task.Initial]
  have halone : interleaving.EachStep Alone twoCalls
      (List.replicate 18 0 ++ List.replicate 18 1) := by decide +kernel
  exact ⟨no_registration_lost hinit (replacesSeen_of_alone hinit halone), by decide +kernel⟩

/-- The second call runs between the last read and the replacement of the first, which then
puts back a manifest without the second's entry. -/
theorem overlapping_registration_lost :
    ∃ s log, interleaving.exec twoCalls
        (List.replicate 17 0 ++ List.replicate 18 1 ++ [0]) = some (s, log) ∧
      (∀ task ∈ s.tasks, ∃ out, task = .done out) ∧ ¬ NoneLost s := by
  have hids : (interleaving.exec twoCalls
      (List.replicate 17 0 ++ List.replicate 18 1 ++ [0])).map (·.1.ids) =
      some ([some "a", some "b"], ["a"]) := by decide +kernel
  obtain ⟨⟨s, log⟩, hrun, hids⟩ := Option.map_eq_some_iff.mp hids
  have htasks : s.tasks.map Task.updatedId = [some "a", some "b"] := congrArg Prod.fst hids
  have hlisted : listedIds s.store.manifest = ["a"] := congrArg Prod.snd hids
  refine ⟨s, log, hrun, ?_, ?_⟩
  · intro task hmem
    have hid : task.updatedId ∈ [some "a", some "b"] :=
      htasks ▸ List.mem_map_of_mem hmem
    cases task with
    | done out => exact ⟨out, rfl⟩
    | _ => simp [Task.updatedId] at hid
  · intro hnone
    have hb : some "b" ∈ s.tasks.map Task.updatedId := by rw [htasks]; decide
    obtain ⟨task, hmem, hid⟩ := List.mem_map.mp hb
    have hlost := hnone.updatedId_mem hmem hid
    rw [hlisted] at hlost
    exact absurd hlost (by decide)

end

section
variable [Interpreter]

/-- Steps of one call with nothing in between. -/
def Steps : ModelStore × Task → ModelStore × Task → Prop :=
  Relation.ReflTransGen fun a b => a.2.step a.1 = b

theorem Steps.head {t : Task} (hstep : t.step st = b) (h : Steps b c) : Steps (st, t) c :=
  Relation.ReflTransGen.head hstep h

theorem Steps.trans (h : Steps a b) (h' : Steps b c) : Steps a c :=
  Relation.ReflTransGen.trans h h'

theorem steps_ops (f : Faults) (k : Pending → Task)
    (hk : ∀ st p op rest, p.ops = op :: rest → (k p).step st =
      ({ st with tree := (p.advance f st.tree op rest).1 }, k (p.advance f st.tree op rest).2))
    (ops : List FileOp) (abandoned : List (List String)) (ok : Bool) (st : ModelStore) :
    ∃ abandoned', Steps (st, k ⟨ops, abandoned, ok⟩)
      ({ st with tree := (runOps f abandoned ops st.tree).1 },
        k ⟨[], abandoned', ok && (runOps f abandoned ops st.tree).2⟩) := by
  induction ops generalizing abandoned ok st with
  | nil =>
    refine ⟨abandoned, ?_⟩
    simp only [runOps, Bool.and_true]
    exact Relation.ReflTransGen.refl
  | cons op ops ih =>
    have hstep := hk st ⟨op :: ops, abandoned, ok⟩ op ops rfl
    rw [runOps]
    unfold Pending.advance at hstep
    by_cases hskip : (abandoned.any fun p => p.isPrefixOf op.path) = true
    · simp only [hskip, if_true] at hstep ⊢
      obtain ⟨abandoned', h⟩ := ih abandoned ok st
      exact ⟨abandoned', .head hstep h⟩
    · simp only [hskip, if_false, Bool.false_eq_true] at hstep ⊢
      cases hop : op.exec f st.tree with
      | mk t b =>
        rw [hop] at hstep
        cases b with
        | true =>
          obtain ⟨abandoned', h⟩ := ih abandoned ok { st with tree := t }
          exact ⟨abandoned', .head hstep h⟩
        | false =>
          obtain ⟨abandoned', h⟩ := ih (op.path :: abandoned) false { st with tree := t }
          refine ⟨abandoned', .head hstep ?_⟩
          simpa using h

theorem steps_write (w : Write) (st : ModelStore) :
    Steps (st, .makeTmp w { ops := ensureDirs ["tmp"] })
      ((writeManifestAtomic w.faults w.manifest st).1,
        .done ((writeManifestAtomic w.faults w.manifest st).2.map fun _ => w.report)) := by
  obtain ⟨abandoned', h⟩ := steps_ops w.faults (.makeTmp w)
    (fun st p op rest hp => by simp only [Task.step, hp]) (ensureDirs ["tmp"]) [] true st
  apply h.trans
  unfold writeManifestAtomic
  cases runOps w.faults [] (ensureDirs ["tmp"]) st.tree with
  | mk tree ok =>
    cases ok with
    | false => exact .head rfl .refl
    | true =>
      apply Steps.head rfl
      cases hc : w.faults.fails .createTemp with
      | true => exact .head (by simp [Task.step, hc]) .refl
      | false =>
        apply Steps.head (b := ({ st with tree }, .writeTemp w)) (by simp [Task.step, hc])
        cases hw : w.faults.fails .writeTemp with
        | true => exact .head (by simp [Task.step, hw]) .refl
        | false =>
          apply Steps.head (b := ({ st with tree }, .replace w)) (by simp [Task.step, hw])
          cases hr : w.faults.fails .replace with
          | true => exact .head (by simp [Task.step, hr]) .refl
          | false => exact .head (by simp [Task.step, hr]) .refl

/-- A registration that runs alone is the registration of the sequential model. -/
theorem steps_register (st : ModelStore) (call : Call) :
    Steps (st, .begin call) ((registerModelCandidate st call).1,
      .done ((registerModelCandidate st call).2.map .registration)) := by
  unfold registerModelCandidate checkCall
  by_cases hreg : st.tree.node ["registry"] = none
  · simp only [hreg, if_true]
    exact .head (by simp [Task.step, hreg]; exact ⟨rfl, rfl⟩) .refl
  · simp only [hreg, if_false]
    apply Steps.head (b := (st, .look call)) (by simp [Task.step, hreg])
    cases hexists : st.manifest.exists with
    | false =>
      have hcheck : checkManifest st.candidates call st.manifest =
          .ok (.error (fail "" .storeNotBootstrapped)) := by
        simp [checkManifest, loadManifest, hexists, bind, Except.bind, pure, Except.pure]
      simp only [hcheck]
      exact .head (by simp [Task.step, hexists]) .refl
    | true =>
      apply Steps.head (b := (st, .read call)) (by simp [Task.step, hexists])
      apply Steps.head rfl
      cases hcheck : checkManifest st.candidates call st.manifest with
      | error e => exact .head (by simp [Task.step, hcheck]) .refl
      | ok checked =>
        cases checked with
        | error refused => exact .head (by simp [Task.step, hcheck]) .refl
        | ok plan =>
          apply Steps.head (b := (st, .seek call st.manifest plan)) (by simp [Task.step, hcheck])
          simp only
          cases hsource : call.source plan.candidate.sourcePath with
          | none => exact .head (by simp [Task.step, hsource]) .refl
          | some source =>
            apply Steps.head (b := (st, .probe call st.manifest plan source))
              (by simp [Task.step, hsource])
            cases hdest : (st.tree.node plan.managedRel).isSome with
            | true => exact .head (by simp [Task.step, hdest]) .refl
            | false =>
              apply Steps.head (b := (st, .copy call st.manifest plan
                { ops := plan.copyOps source })) (by simp [Task.step, hdest])
              obtain ⟨abandoned', h⟩ := steps_ops call.faults (.copy call st.manifest plan)
                (fun st p op rest hp => by simp only [Task.step, hp]) (plan.copyOps source) []
                true st
              apply h.trans
              simp only [Bool.false_eq_true, if_false, Plan.carryOut]
              cases runOps call.faults [] (plan.copyOps source) st.tree with
              | mk tree ok =>
                cases ok with
                | false => exact .head rfl .refl
                | true =>
                  apply Steps.head rfl
                  have hwrite := steps_write
                    { manifest := plan.updated call.now, seen := st.manifest
                      report := .registration (plan.result call.now)
                      faults := call.faults } { st with tree }
                  simp only [Except.map_after_map]
                  exact hwrite

theorem steps_makeDirectories (now : String) (f : Faults) (made dirs : List (List String))
    (st : ModelStore) :
    match makeDirectories f st.tree dirs with
    | (tree, made', true) => Steps (st, .findDir now f made dirs)
        ({ st with tree }, .findDir now f (made ++ made') [])
    | (tree, _, false) => Steps (st, .findDir now f made dirs)
        ({ st with tree }, .done (.error .osError)) := by
  induction dirs generalizing made st with
  | nil =>
    simp only [makeDirectories, List.append_nil]
    exact Relation.ReflTransGen.refl
  | cons dir dirs ih =>
    rw [makeDirectories]
    by_cases hsome : (st.tree.node dir).isSome = true
    · rw [if_pos hsome]
      have hstep : (Task.findDir now f made (dir :: dirs)).step st =
          (st, .findDir now f made dirs) := by simp [Task.step, hsome]
      have h := ih made st
      split at h
      · exact .head hstep h
      · exact .head hstep h
    · rw [if_neg hsome]
      have hstep : (Task.findDir now f made (dir :: dirs)).step st =
          (st, .makeDir now f made dir dirs { ops := ensureDirs dir }) := by
        simp [Task.step, hsome]
      obtain ⟨abandoned', hops⟩ := steps_ops f (.makeDir now f made dir dirs)
        (fun st p op rest hp => by simp only [Task.step, hp]) (ensureDirs dir) [] true st
      have hbegin := Steps.head hstep hops
      cases hrun : runOps f [] (ensureDirs dir) st.tree with
      | mk tree ok =>
        rw [hrun] at hbegin
        cases ok with
        | false => exact hbegin.trans (.head rfl .refl)
        | true =>
          have h := ih (made ++ [dir]) { st with tree }
          have hnext : Steps (st, .findDir now f made (dir :: dirs))
              ({ st with tree }, .findDir now f (made ++ [dir]) dirs) :=
            hbegin.trans (.head rfl .refl)
          simp only
          cases hrest : makeDirectories f tree dirs with
          | mk tree' rest =>
            obtain ⟨made', ok'⟩ := rest
            simp only [hrest] at h
            cases ok' with
            | false => exact hnext.trans h
            | true =>
              simp only [List.append_assoc, List.singleton_append] at h
              exact hnext.trans h

theorem steps_bootstrap (f : Faults) (raw now : String) (st : ModelStore) :
    Steps (st, .bootstrap raw now f) ((bootstrapModelStore f raw now st).1,
      .done ((bootstrapModelStore f raw now st).2.map .bootstrap)) := by
  unfold bootstrapModelStore
  by_cases hroot : Text.strip raw = "" ∨ st.root.parts = []
  · rw [if_pos hroot]
    exact .head (by simp [Task.step, hroot]) .refl
  · rw [if_neg hroot]
    apply Steps.head (b := (st, .findDir now f [] allDirectories)) (by simp [Task.step, hroot])
    have hdirs := steps_makeDirectories now f [] allDirectories st
    cases hmake : makeDirectories f st.tree allDirectories with
    | mk tree rest =>
      obtain ⟨made, ok⟩ := rest
      simp only [hmake] at hdirs
      cases ok with
      | false => exact hdirs
      | true =>
        simp only [List.nil_append] at hdirs
        apply hdirs.trans
        apply Steps.head (b := ({ st with tree }, .bootLook now f made)) rfl
        unfold settleManifest
        by_cases hexists : st.manifest.exists = true
        · simp only [hexists, if_true]
          apply Steps.head (b := ({ st with tree }, .bootRead now f made))
            (by simp [Task.step, hexists])
          cases hloads : st.manifest.loads with
          | error e => exact .head (by simp [Task.step, hloads]) .refl
          | ok loaded =>
            cases loaded with
            | none => exact .head (by simp [Task.step, hloads]) .refl
            | some data =>
              simp only
              cases hm : ModelRegistryManifest.fromDict data with
              | error e => exact .head (by simp [Task.step, hloads, hm]) .refl
              | ok m =>
                by_cases hversion : m.schemaVersion = 1
                · simp only [hversion, ne_eq, not_true_eq_false, if_false, Except.map_after_map]
                  refine .head ?_ (steps_write
                    { manifest := m.touch now, seen := st.manifest, faults := f
                      report := .bootstrap { manifestReused := true, directoriesCreated := made
                                             schemaVersion := 1 } } _)
                  simp [Task.step, hloads, hm, hversion]
                · simp only [hversion, ne_eq, not_false_eq_true, if_true]
                  exact .head (by simp [Task.step, hloads, hm, hversion]) .refl
        · simp only [hexists, if_false, Except.map_after_map, Bool.false_eq_true]
          refine .head ?_ (steps_write
            { manifest := .create st.root now, seen := .missing, faults := f
              report := .bootstrap { manifestCreated := true, directoriesCreated := made } } _)
          simp [Task.step, hexists]

end

end Whooshd.Store
