import Whooshd.Library.Machine
import Whooshd.Store.Registration

namespace Whooshd.Store
set_option autoImplicit true

/-- The layouts of a managed path: a directory of its own, or a file below one. -/
def ManagedShape (rel : List String) : Prop :=
  (∃ kind safeId, kind ≠ "gguf" ∧ rel = ["models", kind, safeId]) ∨
    ∃ safeId name, rel = ["models", "gguf", safeId, name]

theorem ManagedShape.eq_of_below (ha : ManagedShape a) (hb : ManagedShape b) (h : a <+: b) :
    a = b := by
  rcases ha with ⟨kind, safeId, hkind, rfl⟩ | ⟨safeId, name, rfl⟩
  · rcases hb with ⟨kind', safeId', -, rfl⟩ | ⟨safeId', name', rfl⟩
    · exact h.eq_of_length rfl
    · simp [List.cons_prefix_cons, hkind] at h
  · rcases hb with ⟨kind', safeId', hkind, rfl⟩ | ⟨safeId', name', rfl⟩
    · simp [List.cons_prefix_cons] at h
    · exact h.eq_of_length rfl

theorem ManagedShape.inside (h : ManagedShape rel) : ["models"] <+: rel ∧ rel ≠ ["models"] := by
  rcases h with ⟨kind, safeId, -, rfl⟩ | ⟨safeId, name, rfl⟩
  · simp [List.cons_prefix_cons]
  · simp [List.cons_prefix_cons]

/-- Two managed paths of which neither is the other have no place below them in common. -/
theorem ManagedShape.apart (ha : ManagedShape a) (hb : ManagedShape b) (hne : a ≠ b)
    (rel : List String) : ¬ b <+: a ++ rel ∧ ¬ a ++ rel <+: b := by
  refine ⟨?_, ?_⟩
  · intro h
    rcases List.prefix_or_prefix_of_prefix h (List.prefix_append a rel) with hba | hab
    · exact hne (hb.eq_of_below ha hba).symm
    · exact hne (ha.eq_of_below hb hab)
  · intro h
    exact hne (ha.eq_of_below hb ((List.prefix_append a rel).trans h))

theorem validateModelId_head {modelId : String} (h : validateModelId modelId = true) :
    ∃ c cs, modelId.toList = c :: cs ∧ c.isAlphanum = true := by
  have hhead : ∀ l, matchesIdPattern l = true → ∃ c cs, l = c :: cs ∧ c.isAlphanum = true := by
    intro l hl
    cases l with
    | nil => cases hl
    | cons c cs =>
      simp only [matchesIdPattern, Bool.and_eq_true] at hl
      exact ⟨c, cs, rfl, hl.1.1⟩
  simp only [validateModelId, Bool.and_eq_true, Bool.or_eq_true] at h
  rcases h.1.2 with hm | ⟨-, hm⟩
  · exact hhead _ hm
  · obtain ⟨c, cs, hl, hc⟩ := hhead _ hm
    cases hid : modelId.toList with
    | nil =>
      rw [hid] at hl
      cases hl
    | cons d ds =>
      rw [hid] at hl
      cases ds with
      | nil => cases hl
      | cons e es =>
        obtain ⟨rfl, -⟩ := List.cons.inj hl
        exact ⟨d, e :: es, rfl, hc⟩

theorem safeFilename_isPathName (wide : Char → Bool) (h : validateModelId modelId = true) :
    IsPathName (safeFilename wide modelId) := by
  obtain ⟨c, cs, hid, hc⟩ := validateModelId_head h
  have hkeep : isSafeChar wide c = true := by
    simp [isSafeChar, isAlnum, Text.isAlphanum_lt hc, hc]
  have hname : ∃ rest, (safeFilename wide modelId).toList = c :: rest ∧ '/' ∉ c :: rest := by
    refine ⟨(cs.filter (isSafeChar wide)).take 63, ?_⟩
    have htake : (safeFilename wide modelId).toList =
        c :: (cs.filter (isSafeChar wide)).take 63 := by
      rw [safeFilename, String.toList_ofList, hid, List.filter_cons_of_pos hkeep,
        List.take_succ_cons]
    refine ⟨htake, ?_⟩
    rw [← htake, safeFilename, String.toList_ofList]
    intro hslash
    have hsafe := List.of_mem_filter (List.mem_of_mem_take hslash)
    rw [show isSafeChar wide '/' = false from rfl] at hsafe
    cases hsafe
  obtain ⟨rest, hlist, hslash⟩ := hname
  have hne : ∀ s : String, s.toList.head? ≠ some c → safeFilename wide modelId ≠ s := by
    rintro s hs rfl
    rw [hlist] at hs
    exact hs rfl
  have hdot : c ≠ '.' := by
    rintro rfl
    revert hc
    decide
  refine ⟨hne "" (by simp), by rwa [hlist], hne "." ?_, hne ".." ?_⟩
  · simpa using hdot.symm
  · simpa using hdot.symm

theorem resolveModelId_valid (h : resolveModelId call candidate = .ok modelId) :
    validateModelId modelId = true := by
  have hpick : ∀ s asked : String, (if validateModelId s then Except.ok s else .error asked) =
      .ok modelId → validateModelId modelId = true := by
    intro s asked hs
    split at hs
    · rename_i hvalid
      rw [← Except.ok.inj hs]
      exact hvalid
    · cases hs
  unfold resolveModelId at h
  cases hasked : call.modelId with
  | none =>
    rw [hasked] at h
    exact hpick _ _ h
  | some asked =>
    rw [hasked] at h
    by_cases hblank : Text.strip asked = ""
    · simp only [hblank, if_true] at h
      cases h
    · simp only [hblank, if_false] at h
      exact hpick _ _ h

theorem suffix_nonempty (h : suffix s ≠ "") : s ≠ "" := by
  rintro rfl
  exact h rfl

theorem Artifact.node_nil_ne_none (a : Artifact) : a.node [] ≠ none := by
  cases a with
  | file data => simp [Artifact.node]
  | dir entries => simp [Artifact.node]

theorem ManagedShape.not_tmp (h : ManagedShape rel) (r : List String) : ¬ rel ++ r <+: ["tmp"] := by
  rcases h with ⟨kind, safeId, -, rfl⟩ | ⟨safeId, name, rfl⟩
  · simp [List.cons_prefix_cons]
  · simp [List.cons_prefix_cons]

theorem sourceName_isPathName {path : ResolvedPath} (hsource : candidate.sourcePath = path.str)
    (hsuffix : suffix (path.parts.getLast?.getD "") = ".gguf") :
    IsPathName (sourceName candidate) := by
  have hne : path.parts.getLast?.getD "" ≠ "" := suffix_nonempty (by rw [hsuffix]; decide)
  rw [sourceName, ResolvedPath.name, hsource, ResolvedPath.split_str]
  cases hlast : path.parts.getLast? with
  | none => simp [hlast] at hne
  | some name => exact path.names name (List.mem_of_getLast? hlast)

section
variable [Interpreter]

theorem loadCandidate_ok (h : loadCandidate candidates call = .ok (.ok candidate)) :
    ∃ path : ResolvedPath, candidate.sourcePath = path.str ∧
      (candidate.detectedFormat = "gguf" → suffix (path.parts.getLast?.getD "") = ".gguf") := by
  unfold loadCandidate at h
  obtain ⟨loaded, hloaded, h⟩ := Except.bind_eq_ok_iff.mp h
  cases loaded with
  | none => cases h
  | some data =>
    obtain ⟨c, hc, h⟩ := Except.bind_eq_ok_iff.mp h
    have hfile := loads_eq_some hloaded
    split at h
    · cases h
    · rename_i hstatus
      split at h
      · cases h
      · cases h
        rcases candidates.inspected (safeFilename call.wide call.candidateId) with
          hmissing | ⟨view, sourcePath, c', hinspect, hdoc⟩
        · rw [hmissing] at hfile
          cases hfile
        · rw [hfile] at hdoc
          cases hdoc
          rw [ModelCandidate.fromDict_toDict] at hc
          cases hc
          exact (inspectModelCandidate_ok hinspect).2 (by simpa using hstatus)

theorem Checked.shape (h : Checked st call plan) :
    ManagedShape plan.managedRel ∧ plan.destDir = plan.managedRel.dropLast ∧
      ∀ p ∈ plan.managedRel, IsPathName p := by
  have hsafe := safeFilename_isPathName call.wide (resolveModelId_valid h.modelId)
  have hmodels : IsPathName "models" ∧ IsPathName "gguf" ∧ IsPathName "vlm" ∧ IsPathName "mlx" := by
    decide
  have hdest := h.destination
  unfold managedDestination at hdest
  rw [ResolvedPath.split_name hsafe] at hdest
  split at hdest
  · rename_i hgguf
    obtain ⟨path, hsource, hsuffix⟩ := loadCandidate_ok h.candidate
    have hname := sourceName_isPathName hsource (hsuffix hgguf)
    rw [ResolvedPath.split_name hname] at hdest
    obtain ⟨hdir, hrel⟩ := Prod.mk.inj hdest
    rw [← hdir, ← hrel]
    refine ⟨.inr ⟨_, _, rfl⟩, rfl, ?_⟩
    simp [hmodels, hsafe, hname]
  · split at hdest
    · obtain ⟨hdir, hrel⟩ := Prod.mk.inj hdest
      rw [← hdir, ← hrel]
      refine ⟨.inl ⟨_, _, by decide, rfl⟩, rfl, ?_⟩
      simp [hmodels, hsafe]
    · obtain ⟨hdir, hrel⟩ := Prod.mk.inj hdest
      rw [← hdir, ← hrel]
      refine ⟨.inl ⟨_, _, by decide, rfl⟩, rfl, ?_⟩
      simp [hmodels, hsafe]

theorem Checked.copy_frame {abandoned : List (List String)} (h : Checked st call plan)
    (hbelow : ¬ plan.managedRel <+: q) (habove : ¬ q <+: plan.managedRel) :
    (runOps f abandoned (plan.copyOps source) t).1.node q = t.node q := by
  apply runOps_frame
  intro op hop htouch
  rcases List.mem_append.mp hop with hop | hop
  · obtain ⟨r, hr, rfl⟩ := List.mem_map.mp hop
    rw [show q = r from htouch] at habove
    apply habove
    rw [List.mem_inits, h.shape.2.1] at hr
    exact hr.trans (List.dropLast_prefix _)
  · exact hbelow ((Artifact.copyOps_path _ hop).trans htouch.below)

theorem Ready.dest_free (h : Ready st call plan source) (f : Faults) :
    (runOps f [] (ensureDirs plan.destDir) st.tree).1.node plan.managedRel = none := by
  rw [ensureDirs_frame, h.free]
  obtain ⟨hshape, hdir, -⟩ := h.plan_checked.shape
  rw [hdir]
  intro hpre
  have hlen := hpre.length_le
  rcases hshape with ⟨kind, safeId, -, hrel⟩ | ⟨safeId, name, hrel⟩
  · simp [hrel] at hlen
  · simp [hrel] at hlen

theorem Ready.copy_node (h : Ready st call plan source)
    (hrun : runOps f [] (plan.copyOps source) st.tree = (tree, true)) (r : List String) :
    tree.node (plan.managedRel ++ r) = source.val.node r := by
  obtain ⟨t₁, hdirs, hcopy⟩ := (runOps_append_true _ _ _ _ _).mp hrun
  have hfree := h.dest_free f
  rw [hdirs] at hfree
  exact Artifact.copyOps_node source.val source.property hfree hcopy r

/-- A call with what it returned. -/
abbrev CallEvent := Call × Except PyError ModelRegistrationResult

/-- The store under any sequence of registrations, one call after the other. -/
def registrations : Machine ModelStore Call CallEvent where
  step st call :=
    some ((registerModelCandidate st call).1, [(call, (registerModelCandidate st call).2)])

/-- The entry that the call reported as added. -/
def CallEvent.update? (e : CallEvent) : Option (Call × RegisteredModel) :=
  match e.2 with
  | .ok r => if r.manifestUpdated then some (e.1, r.registeredModel) else none
  | .error _ => none

def updates (log : List CallEvent) : List (Call × RegisteredModel) :=
  log.filterMap CallEvent.update?

/-- The components of an entry's managed path. -/
def RegisteredModel.path (m : RegisteredModel) : List String := ResolvedPath.split m.managedPath

/-- What holds of a store after the calls of the log: its manifest lists the entries that were
reported, and each has its own copy in its own place. -/
structure Maintained (log : List CallEvent) (st : ModelStore) : Prop where
  listed : ∃ m : ModelRegistryManifest, st.manifest = .document m.toDict ∧
    m.models = ((updates log).map Prod.snd).map RegisteredModel.toDict
  valid : ∀ u ∈ updates log, validateModelId u.2.modelId = true
  shaped : ∀ u ∈ updates log, ManagedShape u.2.path
  distinct : (updates log).Pairwise fun u v => u.2.modelId ≠ v.2.modelId ∧ u.2.path ≠ v.2.path
  copied : ∀ u ∈ updates log, ∃ source, u.1.source u.2.sourcePath = some source ∧
    ∀ rel, st.tree.node (u.2.path ++ rel) = source.val.node rel

theorem Maintained.copied_of_frame {tree : FileTree} (h : Maintained log st)
    (hframe : ∀ u ∈ updates log, ∀ rel, tree.node (u.2.path ++ rel) =
      st.tree.node (u.2.path ++ rel)) :
    ∀ u ∈ updates log, ∃ source, u.1.source u.2.sourcePath = some source ∧
      ∀ rel, tree.node (u.2.path ++ rel) = source.val.node rel := by
  intro u hu
  obtain ⟨source, hsource, hnode⟩ := h.copied u hu
  exact ⟨source, hsource, fun rel => (hframe u hu rel).trans (hnode rel)⟩

theorem Maintained.of_frame (st' : ModelStore) (h : Maintained log st)
    (hsame : updates log' = updates log) (hmanifest : st'.manifest = st.manifest)
    (hframe : ∀ u ∈ updates log, ∀ rel, st'.tree.node (u.2.path ++ rel) =
      st.tree.node (u.2.path ++ rel)) : Maintained log' st' where
  listed := by rw [hmanifest, hsame]; exact h.listed
  valid := by rw [hsame]; exact h.valid
  shaped := by rw [hsame]; exact h.shaped
  distinct := by rw [hsame]; exact h.distinct
  copied := by rw [hsame]; exact h.copied_of_frame hframe

theorem Maintained.path_ne (h : Maintained log st) (hready : Ready st call plan source) :
    ∀ u ∈ updates log, u.2.path ≠ plan.managedRel := by
  intro u hu heq
  obtain ⟨source', -, hnode⟩ := h.copied u hu
  have hroot := hnode []
  rw [List.append_nil, heq, hready.free] at hroot
  exact Artifact.node_nil_ne_none _ hroot.symm

theorem Maintained.copy_frame {abandoned : List (List String)} (h : Maintained log st)
    (hready : Ready st call plan source) :
    ∀ u ∈ updates log, ∀ rel,
      (runOps f abandoned (plan.copyOps source) st.tree).1.node (u.2.path ++ rel) =
        st.tree.node (u.2.path ++ rel) := by
  intro u hu rel
  obtain ⟨hbelow, habove⟩ := (h.shaped u hu).apart hready.plan_checked.shape.1
    (h.path_ne hready u hu) rel
  exact hready.plan_checked.copy_frame hbelow habove

theorem Plan.entry_path (h : Checked st call plan) : (plan.entry now).path = plan.managedRel := by
  obtain ⟨hshape, -, hnames⟩ := h.shape
  apply ResolvedPath.split_relative hnames
  rcases hshape with ⟨kind, safeId, -, hrel⟩ | ⟨safeId, name, hrel⟩
  · simp [hrel]
  · simp [hrel]

/-- The manifest that the checks read is the one that the log accounts for. -/
theorem Maintained.manifest_eq (h : Maintained log st) (hchecked : Checked st call plan) :
    plan.manifest.models = ((updates log).map Prod.snd).map RegisteredModel.toDict := by
  obtain ⟨m, hdoc, hmodels⟩ := h.listed
  have hload := hchecked.manifest
  unfold loadManifest at hload
  split at hload
  · cases hload
  · obtain ⟨loaded, hloaded, hload⟩ := Except.bind_eq_ok_iff.mp hload
    cases loaded with
    | none => cases hload
    | some data =>
      obtain ⟨m', hm', hload⟩ := Except.bind_eq_ok_iff.mp hload
      have hdata := loads_eq_some hloaded
      rw [hdoc] at hdata
      cases hdata
      rw [ModelRegistryManifest.fromDict_toDict] at hm'
      cases hm'
      split at hload
      · cases hload
      · cases hload
        exact hmodels

/-- A registration that is carried out adds one entry with its copy. -/
theorem Maintained.add {tree' : FileTree} (h : Maintained log st)
    (hready : Ready st call plan source)
    (hrun : runOps call.faults [] (plan.copyOps source) st.tree = (tree, true))
    (hframe : ∀ q, ¬ q <+: ["tmp"] → tree'.node q = tree.node q)
    (hlog : updates log' = updates log ++ [(call, plan.entry call.now)]) :
    Maintained log'
      { st with tree := tree', manifest := .document (plan.updated call.now).toDict } := by
  have hchecked := hready.plan_checked
  have hpath : (plan.entry call.now).path = plan.managedRel := Plan.entry_path hchecked
  have hmodels := h.manifest_eq hchecked
  have hkeep : ∀ u ∈ updates log, ∀ rel, tree'.node (u.2.path ++ rel) =
      st.tree.node (u.2.path ++ rel) := by
    intro u hu rel
    rw [hframe _ ((h.shaped u hu).not_tmp rel)]
    have hcopy : (runOps call.faults [] (plan.copyOps source) st.tree).1.node (u.2.path ++ rel) =
        st.tree.node (u.2.path ++ rel) := h.copy_frame hready u hu rel
    rwa [hrun] at hcopy
  refine ⟨⟨plan.updated call.now, rfl, ?_⟩, ?_, ?_, ?_, ?_⟩
  · rw [hlog, List.map_append, List.map_append, ← hmodels]
    rfl
  · rw [hlog]
    intro u hu
    rcases List.mem_append.mp hu with hu | hu
    · exact h.valid u hu
    · rw [List.mem_singleton] at hu
      rw [hu]
      exact resolveModelId_valid hchecked.modelId
  · rw [hlog]
    intro u hu
    rcases List.mem_append.mp hu with hu | hu
    · exact h.shaped u hu
    · rw [List.mem_singleton] at hu
      rw [hu, hpath]
      exact hchecked.shape.1
  · rw [hlog, List.pairwise_append]
    refine ⟨h.distinct, List.pairwise_singleton _ _, ?_⟩
    intro u hu v hv
    rw [List.mem_singleton] at hv
    rw [hv, hpath]
    refine ⟨?_, h.path_ne hready u hu⟩
    have hfresh := hchecked.fresh
    rw [hmodels] at hfresh
    exact findEntry_none hfresh u.2 (List.mem_map.mpr ⟨u, hu, rfl⟩)
  · rw [hlog]
    intro u hu
    rcases List.mem_append.mp hu with hu | hu
    · exact h.copied_of_frame hkeep u hu
    · rw [List.mem_singleton] at hu
      rw [hu, hpath]
      refine ⟨source, hready.found, ?_⟩
      intro rel
      rw [hframe _ (hchecked.shape.1.not_tmp rel)]
      exact hready.copy_node hrun rel

omit [Interpreter] in
theorem updates_append (log : List CallEvent) (e : CallEvent) :
    updates (log ++ [e]) = updates log ++ e.update?.toList := by
  rw [updates, List.filterMap_append]
  cases h : e.update? with
  | none => simp [h, updates]
  | some u => simp [h, updates]

theorem Maintained.step (h : Maintained log st) (call : Call) :
    Maintained (log ++ [(call, (registerModelCandidate st call).2)])
      (registerModelCandidate st call).1 := by
  rcases ready_or_not st call with ⟨plan, source, hready⟩ | hnot
  · have hcopy : ∀ u ∈ updates log, ∀ rel,
        (runOps call.faults [] (plan.copyOps source) st.tree).1.node (u.2.path ++ rel) =
          st.tree.node (u.2.path ++ rel) := h.copy_frame hready
    obtain ⟨tree, ok, hrun, hcase⟩ := carryOut_cases plan source st call
    rw [hrun] at hcopy
    rw [register_of_ready hready]
    rcases hcase with ⟨rfl, hout⟩ | ⟨rfl, tree', hframe, -, hout | hout⟩
    · rw [hout]
      apply h.of_frame { st with tree } _ rfl hcopy
      simp [updates_append, CallEvent.update?, fail]
    · rw [hout]
      apply h.of_frame { st with tree := tree' } _ rfl
      · intro u hu rel
        rw [hframe _ ((h.shaped u hu).not_tmp rel)]
        exact hcopy u hu rel
      · simp [updates_append, CallEvent.update?]
    · rw [hout]
      apply h.add hready hrun hframe
      simp [updates_append, CallEvent.update?, Plan.result]
  · obtain ⟨hsame, hout⟩ := register_of_not_ready hnot
    rw [hsame]
    apply h.of_frame st _ rfl fun _ _ _ => rfl
    rw [updates_append]
    cases hr : (registerModelCandidate st call).2 with
    | error e => simp [CallEvent.update?]
    | ok r => simp [CallEvent.update?, hout r hr]

theorem settleManifest_created
    (h : (settleManifest f now directoriesCreated st).2 = .ok state)
    (hcreated : state.manifestCreated = true) :
    (settleManifest f now directoriesCreated st).1.manifest =
      .document (ModelRegistryManifest.create st.root now).toDict := by
  unfold settleManifest at h ⊢
  split at h
  · -- a manifest that was there is not created
    exfalso
    split at h
    · cases h
    · cases h
      cases hcreated
    · split at h
      · cases h
      · split at h
        · cases h
          cases hcreated
        · rename_i m _ _
          obtain ⟨tree, -, -, hw | hw⟩ := writeManifestAtomic_cases f (m.touch now) st
          · simp only [hw] at h
            cases h
          · simp only [hw] at h
            cases h
            cases hcreated
  · rename_i hmissing
    rw [if_neg hmissing]
    obtain ⟨tree, -, -, hw | hw⟩ := writeManifestAtomic_cases f (.create st.root now) st
    · simp only [hw] at h
      cases h
    · simp only [hw]

theorem bootstrap_maintained (h : (bootstrapModelStore f raw now st).2 = .ok state)
    (hcreated : state.manifestCreated = true) :
    Maintained [] (bootstrapModelStore f raw now st).1 := by
  suffices hdoc : (bootstrapModelStore f raw now st).1.manifest =
      .document (ModelRegistryManifest.create st.root now).toDict from
    ⟨⟨_, hdoc, rfl⟩, by simp [updates], by simp [updates], by simp [updates], by simp [updates]⟩
  unfold bootstrapModelStore at h ⊢
  split at h
  · cases h
  · rename_i hroot
    rw [if_neg hroot]
    cases hdirs : makeDirectories f st.tree allDirectories with
    | mk tree rest =>
      obtain ⟨made, ok⟩ := rest
      rw [hdirs] at h
      cases ok with
      | false => cases h
      | true => exact settleManifest_created h hcreated

/-- What is registered, from the manifest: ids that pass validation and no two of which are
equal, paths strictly inside `models/` none of which leads to another, and at each of them what
its own registration has copied. -/
structure ManagedStore (log : List CallEvent) (st : ModelStore) : Prop where
  listed : ∃ m : ModelRegistryManifest, st.manifest = .document m.toDict ∧
    m.models = ((updates log).map Prod.snd).map RegisteredModel.toDict
  ids : ((updates log).map fun u => u.2.modelId).Nodup ∧
    ∀ u ∈ updates log, validateModelId u.2.modelId = true
  paths : (updates log).Pairwise fun u v => u.2.path ≠ v.2.path ∧
    ¬ u.2.path <+: v.2.path ∧ ¬ v.2.path <+: u.2.path
  inside : ∀ u ∈ updates log, ["models"] <+: u.2.path ∧ u.2.path ≠ ["models"]
  copied : ∀ u ∈ updates log, ∃ source, u.1.source u.2.sourcePath = some source ∧
    ∀ rel, st.tree.node (u.2.path ++ rel) = source.val.node rel

theorem Maintained.managed (h : Maintained log st) : ManagedStore log st where
  listed := h.listed
  ids := by
    refine ⟨?_, h.valid⟩
    rw [List.Nodup, List.pairwise_map]
    exact h.distinct.imp fun hne => hne.1
  paths := by
    apply h.distinct.imp_of_mem
    intro u v hu hv hne
    refine ⟨hne.2, ?_, ?_⟩
    · intro hpre
      exact hne.2 ((h.shaped u hu).eq_of_below (h.shaped v hv) hpre)
    · intro hpre
      exact hne.2 ((h.shaped v hv).eq_of_below (h.shaped u hu) hpre).symm
  inside := fun u hu => (h.shaped u hu).inside
  copied := h.copied

theorem registrations_managed (hboot : (bootstrapModelStore f raw now st₀).2 = .ok state)
    (hcreated : state.manifestCreated = true)
    (hrun : registrations.exec (bootstrapModelStore f raw now st₀).1 calls = some (st, log)) :
    ManagedStore log st := by
  have h : Maintained ([] ++ log) st := by
    refine Machine.exec_history (C := fun _ _ => True) ?_ (bootstrap_maintained hboot hcreated)
      (Machine.eachStep_true _ _) hrun
    intro log st call st' out hinv _ hstep
    cases hstep
    exact hinv.step call
  exact h.managed

/-- A place where one GGUF file is all there is to inspect. -/
def ggufView : InspectionView where
  files :=
    { resolve := fun path => .ok (.ofParts path), stat := fun _ => .ok (some .file)
      iterdir := fun _ => .ok [] }
  locate := fun _ => .ok (.ofParts ["src", "tiny.gguf"])
  config := fun _ => .missing
  encodes := fun _ => true
  digest := fun _ _ => "0f"
  lower := fun s => s
  artifactNames := ⟨["vision_tower", "mm_projector", "image_newline"], .swap _ _ _⟩
  now := "t0"

def ggufCandidate : ModelCandidate :=
  { candidateId := "0f", status := "candidate", sourcePath := "/src/tiny.gguf"
    detectedFormat := "gguf", detectedFamily := "unknown", modalities := [.str "text"]
    evidence := [.str "found_gguf_file"], problems := [], createdAt := "t0" }

/-- A store that is still to be bootstrapped, with one candidate recorded. -/
def blankStore : ModelStore where
  root := .ofParts ["store"]
  tree := .empty
  manifest := .missing
  candidates :=
    { record := fun name => if name = "0f" then .document ggufCandidate.toDict else .missing
      inspected := by
        intro name
        by_cases h : name = "0f"
        · exact .inr ⟨ggufView, "/src/tiny.gguf", ggufCandidate, rfl, by rw [if_pos h]⟩
        · exact .inl (if_neg h) }

/-- Registers the candidate under an id. -/
def ggufCall (modelId : String) : Call :=
  { candidateId := "0f", modelId := some modelId, now := "t1"
    source := fun _ => some ⟨.file [1, 2, 3], trivial⟩ }

end

section
attribute [local instance] latin1Interpreter

theorem registrations_managed_two : ∃ st log,
    registrations.exec (bootstrapModelStore .none "/store" "t0" blankStore).1
      [ggufCall "a", ggufCall "b"] = some (st, log) ∧
    (updates log).length = 2 ∧ ManagedStore log st := by
  have hboot : (bootstrapModelStore .none "/store" "t0" blankStore).2 =
      .ok { manifestCreated := true, directoriesCreated := allDirectories } := rfl
  have hrun : registrations.exec (bootstrapModelStore .none "/store" "t0" blankStore).1
      [ggufCall "a", ggufCall "b"] = some (_, _) := rfl
  exact ⟨_, _, hrun, by decide +kernel, registrations_managed hboot rfl hrun⟩

end

end Whooshd.Store
