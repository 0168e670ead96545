import Whooshd.Store.Managed

namespace Whooshd.Store
set_option autoImplicit true

/-- The call returned and reports that the manifest was updated. -/
def Updated (out : Except PyError ModelRegistrationResult) : Prop :=
  ∃ r, out = .ok r ∧ r.manifestUpdated = true

theorem pairwise_prefix_inits (l : List String) : l.inits.Pairwise (· <+: ·) := by
  induction l with
  | nil => simp
  | cons a l ih =>
    rw [List.inits_cons, List.pairwise_cons]
    refine ⟨fun _ _ => List.nil_prefix, ?_⟩
    rw [List.pairwise_map]
    exact ih.imp fun h => by simpa [List.cons_prefix_cons] using h

section
variable [Interpreter]

instance decidableUpdated : (out : Except PyError ModelRegistrationResult) →
    Decidable (Updated out)
  | .ok r => decidable_of_iff (r.manifestUpdated = true) (by simp [Updated])
  | .error _ => .isFalse (by simp [Updated])

/-- The same call after whatever made its steps fail is gone. -/
def Call.repeated (call : Call) : Call := { call with faults := .none }

/-- A call that does not report an update has changed neither the managed tree nor the
manifest, and repeating it succeeds if it would have succeeded at once. -/
def Atomic (st : ModelStore) (call : Call) : Prop :=
  ¬ Updated (registerModelCandidate st call).2 →
    (∀ rel, (registerModelCandidate st call).1.tree.node ("models" :: rel) =
      st.tree.node ("models" :: rel)) ∧
    (registerModelCandidate st call).1.manifest = st.manifest ∧
    (Updated (registerModelCandidate st call.repeated).2 →
      Updated (registerModelCandidate (registerModelCandidate st call).1 call.repeated).2)

/-- The directories on the way to the destination that are still to be made, outermost first;
what stands there instead, if anything, is a file. -/
def pendingDirs (st : ModelStore) (plan : Plan) : List (List String) :=
  plan.destDir.inits.filter fun d => st.tree.node d ≠ some .dir

/-- The first thing that the call would create is refused and nothing is left of it. -/
def RefusedAtOnce (st : ModelStore) (f : Faults) (plan : Plan) (source : StoredArtifact) : Prop :=
  match pendingDirs st plan, source.val with
  | d :: _, _ => st.tree.node d ≠ none ∨ f.fails (.makeDir d) = true
  | [], .dir _ => f.fails (.makeDir plan.managedRel) = true
  | [], .file _ =>
    f.fails (.copyFile plan.managedRel) = true ∧ f.written plan.managedRel = none

/-- No step of the call fails, and no file stands where it needs a directory. -/
structure GoesThrough (st : ModelStore) (f : Faults) (plan : Plan) (source : StoredArtifact) :
    Prop where
  dirs : ∀ d ∈ pendingDirs st plan, st.tree.node d = none ∧ f.fails (.makeDir d) = false
  copy : ∀ op ∈ source.val.copyOps plan.managedRel (sourceName plan.candidate),
    f.fails op.step = false
  tmp : st.tree.node ["tmp"] ≠ some .dir →
    st.tree.node ["tmp"] = none ∧ f.fails (.makeDir ["tmp"]) = false
  write : f.fails .createTemp = false ∧ f.fails .writeTemp = false ∧ f.fails .replace = false

theorem Ready.repeated (h : Ready st call plan source) : Ready st call.repeated plan source :=
  ⟨h.checked, h.found, h.free⟩

theorem Ready.unique (h : Ready st call plan source) (h' : Ready st call plan' source') :
    plan' = plan ∧ source' = source := by
  have hplan : plan' = plan := by
    have := h'.checked.symm.trans h.checked
    cases this
    rfl
  subst hplan
  have hsource := h'.found.symm.trans h.found
  cases hsource
  exact ⟨rfl, rfl⟩

theorem mem_pendingDirs (st : ModelStore) (plan : Plan) (d : List String) :
    d ∈ pendingDirs st plan ↔ d <+: plan.destDir ∧ st.tree.node d ≠ some .dir := by
  simp [pendingDirs]

theorem copyOps_pending (st : ModelStore) (f : Faults) (plan : Plan) (source : StoredArtifact) :
    runOps f [] (plan.copyOps source) st.tree =
      runOps f [] ((pendingDirs st plan).map .ensureDir ++
        source.val.copyOps plan.managedRel (sourceName plan.candidate)) st.tree := by
  apply runOps_skipDirs
  intro d _ hkeep
  simpa using hkeep

theorem Ready.root_dir (h : Ready st call plan source) : st.tree.node [] = some .dir :=
  FileTree.dir_of_prefix h.plan_checked.registry (List.nil_prefix) (by simp)

/-- A directory on the way to the destination, other than the root, is below `models/`. -/
theorem Ready.under_models (h : Ready st call plan source) (hd : d <+: plan.managedRel)
    (hne : d ≠ []) : ∃ rel, d = "models" :: rel := by
  obtain ⟨hmodels, -⟩ := h.plan_checked.shape.1.inside
  obtain ⟨tail, htail⟩ := hmodels
  rw [← htail] at hd
  cases d with
  | nil => exact absurd rfl hne
  | cons a rel =>
    obtain ⟨rfl, -⟩ := List.cons_prefix_cons.mp hd
    exact ⟨rel, rfl⟩

theorem Ready.destDir_prefix (h : Ready st call plan source) :
    plan.destDir <+: plan.managedRel := by
  rw [h.plan_checked.shape.2.1]
  exact List.dropLast_prefix _

/-- The outermost directory to be made stands in one that is there, and all else that the call
creates lies below it. -/
theorem Ready.first_pending (h : Ready st call plan source)
    (hd : pendingDirs st plan = d :: ds) :
    (d = [] ∨ st.tree.node d.dropLast = some .dir) ∧ (∃ rel, d = "models" :: rel) ∧
      ∀ op ∈ ds.map FileOp.ensureDir ++
        source.val.copyOps plan.managedRel (sourceName plan.candidate), d <+: op.path := by
  have hmem : d ∈ pendingDirs st plan := by rw [hd]; exact List.mem_cons_self
  obtain ⟨hpre, hnode⟩ := (mem_pendingDirs st plan d).mp hmem
  have hne : d ≠ [] := by
    rintro rfl
    exact hnode h.root_dir
  have hbelow : ∀ d' ∈ ds, d <+: d' := by
    have hpair : (pendingDirs st plan).Pairwise (· <+: ·) :=
      (pairwise_prefix_inits plan.destDir).filter _
    rw [hd, List.pairwise_cons] at hpair
    exact hpair.1
  refine ⟨.inr ?_, h.under_models (hpre.trans h.destDir_prefix) hne, ?_⟩
  · by_contra hparent
    have hmem' : d.dropLast ∈ pendingDirs st plan :=
      (mem_pendingDirs st plan _).mpr ⟨(List.dropLast_prefix d).trans hpre, hparent⟩
    have hlt : d.dropLast.length < d.length := by
      rw [List.length_dropLast]
      have := List.length_pos_of_ne_nil hne
      omega
    rw [hd] at hmem'
    have hle : d.length ≤ d.dropLast.length := by
      rcases List.mem_cons.mp hmem' with heq | hds
      · exact (congrArg List.length heq).ge
      · exact (hbelow _ hds).length_le
    omega
  · intro op hop
    rcases List.mem_append.mp hop with hop | hop
    · obtain ⟨d', hd', rfl⟩ := List.mem_map.mp hop
      exact hbelow d' hd'
    · exact (hpre.trans h.destDir_prefix).trans (Artifact.copyOps_path _ hop)

/-- Either the copy leaves no trace, or something is there afterwards that was not. -/
theorem Ready.copy_trace (h : Ready st call plan source) (f : Faults) :
    (RefusedAtOnce st f plan source ∧
      runOps f [] (plan.copyOps source) st.tree = (st.tree, false)) ∨
    (¬ RefusedAtOnce st f plan source ∧ ∃ rel, st.tree.node ("models" :: rel) = none ∧
      (runOps f [] (plan.copyOps source) st.tree).1.node ("models" :: rel) ≠ none) := by
  rw [copyOps_pending]
  unfold RefusedAtOnce
  cases hpend : pendingDirs st plan with
  | cons d ds =>
    obtain ⟨hparent, ⟨rel, rfl⟩, hbelow⟩ := h.first_pending hpend
    have hdir : st.tree.node ("models" :: rel) ≠ some .dir :=
      ((mem_pendingDirs st plan _).mp (by rw [hpend]; exact List.mem_cons_self)).2
    rw [List.map_cons, List.cons_append]
    cases hnode : st.tree.node ("models" :: rel) with
    | some n =>
      cases n with
      | dir => exact absurd hnode hdir
      | file data =>
        refine .inl ⟨.inl (by simp [hnode]), runOps_refused f ?_ hbelow⟩
        simp [FileOp.exec, hnode]
    | none =>
      cases hf : f.fails (.makeDir ("models" :: rel)) with
      | true =>
        refine .inl ⟨.inr hf, runOps_refused f ?_ hbelow⟩
        simp [FileOp.exec, hnode, hf]
      | false =>
        refine .inr ⟨by simp [hnode, hf], rel, hnode, runOps_created f ?_⟩
        obtain ⟨t', hplace, ht'⟩ := FileOp.place_of_dir (n := .dir) hparent hnode true
        simp [FileOp.exec, hnode, hf, hplace, ht']
  | nil =>
    have hdest : st.tree.node plan.destDir = some .dir := by
      by_contra hne
      have := (mem_pendingDirs st plan _).mpr ⟨List.prefix_refl _, hne⟩
      rw [hpend] at this
      cases this
    rw [h.plan_checked.shape.2.1] at hdest
    obtain ⟨rel, hrel⟩ := h.under_models (List.prefix_refl _) (by
      intro hnil
      have := h.plan_checked.shape.1.inside.1
      rw [hnil] at this
      simp at this)
    have hfree := h.free
    rw [hrel] at hdest hfree ⊢
    rw [List.map_nil, List.nil_append]
    cases hsource : source.val with
    | file data =>
      simp only [Artifact.copyOps]
      cases hf : f.fails (.copyFile ("models" :: rel)) with
      | false =>
        refine .inr ⟨by simp, rel, hfree, runOps_created f ?_⟩
        obtain ⟨t', hplace, ht'⟩ := FileOp.place_of_dir (n := .file data) (.inr hdest) hfree true
        simp [FileOp.exec, hfree, hf, hplace, ht']
      | true =>
        cases hw : f.written ("models" :: rel) with
        | none =>
          refine .inl ⟨by simp, runOps_refused f ?_ (by simp)⟩
          simp [FileOp.exec, hf, hw]
        | some k =>
          refine .inr ⟨by simp, rel, hfree, runOps_created f ?_⟩
          obtain ⟨t', hplace, ht'⟩ :=
            FileOp.place_of_dir (n := .file (data.take k)) (.inr hdest) hfree false
          simp [FileOp.exec, hfree, hf, hw, hplace, ht']
    | dir entries =>
      have hbelow : ∀ op ∈ Artifact.copyEntries ("models" :: rel) entries ++
          [FileOp.copyStat ("models" :: rel)], "models" :: rel <+: op.path := by
        intro op hop
        have hmem : op ∈ Artifact.copyOps ("models" :: rel) (sourceName plan.candidate)
            (.dir entries) := by
          rw [Artifact.copyOps]
          exact .tail _ hop
        exact Artifact.copyOps_path _ hmem
      simp only [Artifact.copyOps]
      cases hf : f.fails (.makeDir ("models" :: rel)) with
      | true =>
        refine .inl ⟨rfl, runOps_refused f ?_ hbelow⟩
        simp [FileOp.exec, hf]
      | false =>
        refine .inr ⟨by simp, rel, hfree, runOps_created f ?_⟩
        obtain ⟨t', hplace, ht'⟩ := FileOp.place_of_dir (n := .dir) (.inr hdest) hfree true
        simp [FileOp.exec, hfree, hf, hplace, ht']

theorem Ready.copy_true_iff (h : Ready st call plan source) (f : Faults) :
    (∃ tree, runOps f [] (plan.copyOps source) st.tree = (tree, true)) ↔
      (∀ d ∈ pendingDirs st plan, st.tree.node d = none ∧ f.fails (.makeDir d) = false) ∧
      ∀ op ∈ source.val.copyOps plan.managedRel (sourceName plan.candidate),
        f.fails op.step = false := by
  obtain ⟨hiff, hdir⟩ := ensureDirs_true_iff f st.tree plan.destDir
  have hpend : (∃ t', runOps f [] (ensureDirs plan.destDir) st.tree = (t', true)) ↔
      ∀ d ∈ pendingDirs st plan, st.tree.node d = none ∧ f.fails (.makeDir d) = false := by
    rw [hiff]
    simp only [mem_pendingDirs, and_imp]
  rw [← hpend]
  simp only [Plan.copyOps, runOps_append_true]
  constructor
  · rintro ⟨tree, t₁, hdirs, hcopy⟩
    exact ⟨⟨t₁, hdirs⟩, runOps_true_steps (fun op hop => Artifact.copyOps_isCopy _ hop) hcopy⟩
  · rintro ⟨⟨t₁, hdirs⟩, hf⟩
    have hnew := h.dest_free f
    rw [hdirs] at hnew
    have hparent : t₁.node plan.managedRel.dropLast = some .dir := by
      rw [← h.plan_checked.shape.2.1]
      exact hdir t₁ hdirs
    obtain ⟨tree, hcopy⟩ :=
      Artifact.copyOps_succeeds source.val source.property hnew hparent hf
    exact ⟨tree, t₁, hdirs, hcopy⟩

theorem Ready.updated_iff (h : Ready st call plan source) :
    Updated (registerModelCandidate st call).2 ↔
      GoesThrough st call.faults plan source := by
  have hcopy := h.copy_true_iff call.faults
  rw [register_of_ready h, Plan.carryOut]
  cases hrun : runOps call.faults [] (plan.copyOps source) st.tree with
  | mk tree ok =>
    rw [hrun] at hcopy
    cases ok with
    | false =>
      refine iff_of_false ?_ ?_
      · rintro ⟨r, hr, hupdated⟩
        cases hr
        cases hupdated
      · intro hgo
        obtain ⟨tree', hbad⟩ := hcopy.mpr ⟨hgo.dirs, hgo.copy⟩
        cases hbad
    | true =>
      obtain ⟨hdirs, hsteps⟩ := hcopy.mp ⟨tree, rfl⟩
      have hroot : tree.node [] = some .dir := by
        have hkeep : (runOps call.faults [] (plan.copyOps source) st.tree).1.node [] = some .dir :=
          runOps_keepsDir _ h.root_dir
        rwa [hrun] at hkeep
      have htmp : tree.node ["tmp"] = st.tree.node ["tmp"] := by
        have hframe : (runOps call.faults [] (plan.copyOps source) st.tree).1.node ["tmp"] =
            st.tree.node ["tmp"] := by
          obtain ⟨⟨tail, htail⟩, -⟩ := h.plan_checked.shape.1.inside
          apply h.plan_checked.copy_frame
          · rw [← htail]
            simp [List.cons_prefix_cons]
          · rw [← htail]
            simp [List.cons_prefix_cons]
        rwa [hrun] at hframe
      have hwrite := writeManifestAtomic_ok_iff call.faults (plan.updated call.now)
        { st with tree } hroot
      rw [show ({ st with tree } : ModelStore).tree = tree from rfl, htmp] at hwrite
      simp only
      cases hout : (writeManifestAtomic call.faults (plan.updated call.now)
          { st with tree }).2 with
      | error e =>
        rw [hout] at hwrite
        refine iff_of_false ?_ ?_
        · rintro ⟨r, hr, -⟩
          cases hr
        · intro hgo
          cases hwrite.mpr ⟨hgo.tmp, hgo.write⟩
      | ok u =>
        rw [hout] at hwrite
        obtain ⟨htmp', hflags⟩ := hwrite.mp rfl
        exact iff_of_true ⟨_, rfl, rfl⟩ ⟨hdirs, hsteps, htmp', hflags⟩

/-- A registration whose last step fails, the replacement of the manifest. -/
def unreplacedCall : Call :=
  { ggufCall "a" with faults := { fails := (· = .replace), written := fun _ => none } }

end

section
attribute [local instance] latin1Interpreter

end

end Whooshd.Store
