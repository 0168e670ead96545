import Whooshd.Library.FileTree
import Whooshd.Store.Candidates

namespace Whooshd.Store
set_option autoImplicit true

variable [Interpreter]

/-- A file of `registry/candidates/`: absent, or the record of an inspection. -/
def WrittenByInspection (file : JsonFile) : Prop :=
  file = .missing ∨ ∃ view sourcePath c, inspectModelCandidate view sourcePath = .ok c ∧
    file = .document c.toDict

/-- The candidate records of a store, by the name of the file. -/
structure CandidateRecords where
  record : String → JsonFile
  inspected : ∀ name, WrittenByInspection (record name)

/-- A model-store on disk. The manifest is held apart from the tree, as what reading it gives. -/
structure ModelStore where
  root : ResolvedPath
  tree : FileTree
  manifest : JsonFile
  candidates : CandidateRecords

/-- `all_directories`, in creation order. -/
def allDirectories : List (List String) :=
  [["incoming"], ["models", "mlx"], ["models", "gguf"], ["models", "vlm"], ["registry"],
    ["quarantine"], ["tmp"]]

/-- The loop over the directories: the tree, those that were made, and whether none failed. -/
def makeDirectories (f : Faults) (tree : FileTree) :
    List (List String) → FileTree × List (List String) × Bool
  | [] => (tree, [], true)
  | directory :: rest =>
    if (tree.node directory).isSome then makeDirectories f tree rest
    else
      match runOps f [] (ensureDirs directory) tree with
      | (tree, false) => (tree, [], false)
      | (tree, true) =>
        let (tree, made, ok) := makeDirectories f tree rest
        (tree, directory :: made, ok)

/-- `_write_manifest_atomic`: a temporary file under `tmp/` that replaces the manifest. -/
def writeManifestAtomic (f : Faults) (manifest : ModelRegistryManifest) (st : ModelStore) :
    ModelStore × Except PyError Unit :=
  match runOps f [] (ensureDirs ["tmp"]) st.tree with
  | (tree, false) => ({ st with tree }, .error .osError)
  | (tree, true) =>
    if f.fails .createTemp || f.fails .writeTemp || f.fails .replace then
      ({ st with tree }, .error .osError)
    else ({ st with tree, manifest := .document manifest.toDict }, .ok ())

inductive BootstrapError where
  | unreadable
  | unsupportedSchema (version : Int)
  deriving DecidableEq

structure ModelRegistryState where
  manifestCreated : Bool := false
  manifestReused : Bool := false
  directoriesCreated : List (List String)
  schemaVersion : Int := 1
  error : Option BootstrapError := none

/-- The handling of the manifest, once the directories are there: an existing one is read and
written back with a new date, else one is created. -/
def settleManifest (f : Faults) (now : String) (directoriesCreated : List (List String))
    (st : ModelStore) : ModelStore × Except PyError ModelRegistryState :=
  if st.manifest.exists then
    match st.manifest.loads with
    | .error e => (st, .error e)
    | .ok none => (st, .ok { directoriesCreated, error := some .unreadable })
    | .ok (some data) =>
      match ModelRegistryManifest.fromDict data with
      | .error e => (st, .error e)
      | .ok manifest =>
        if manifest.schemaVersion ≠ 1 then
          (st, .ok { directoriesCreated
                     error := some (.unsupportedSchema manifest.schemaVersion) })
        else
          let (st, written) := writeManifestAtomic f (manifest.touch now) st
          (st, written.map fun _ =>
            { manifestReused := true, directoriesCreated
              schemaVersion := manifest.schemaVersion })
  else
    let (st, written) := writeManifestAtomic f (.create st.root now) st
    (st, written.map fun _ => { manifestCreated := true, directoriesCreated })

/-- `bootstrap_model_store` on the store that the given path resolves to. -/
def bootstrapModelStore (f : Faults) (raw now : String) (st : ModelStore) :
    ModelStore × Except PyError ModelRegistryState :=
  if Text.strip raw = "" ∨ st.root.parts = [] then (st, .error .valueError)
  else
    match makeDirectories f st.tree allDirectories with
    | (tree, _, false) => ({ st with tree }, .error .osError)
    | (tree, directoriesCreated, true) =>
      settleManifest f now directoriesCreated { st with tree }

theorem writeManifestAtomic_ok_iff (f : Faults) (m : ModelRegistryManifest) (st : ModelStore)
    (hroot : st.tree.node [] = some .dir) :
    (writeManifestAtomic f m st).2 = .ok () ↔
      (st.tree.node ["tmp"] ≠ some .dir →
        st.tree.node ["tmp"] = none ∧ f.fails (.makeDir ["tmp"]) = false) ∧
      f.fails .createTemp = false ∧ f.fails .writeTemp = false ∧ f.fails .replace = false := by
  have hdirs := (ensureDirs_true_iff f st.tree ["tmp"]).1
  have hbelow : ∀ d, d <+: ["tmp"] ↔ d = ["tmp"] ∨ d = [] := by
    intro d
    rw [show ["tmp"] = [] ++ ["tmp"] from rfl, List.prefix_concat_iff, List.prefix_nil]
  simp only [hbelow, forall_eq_or_imp, forall_eq, hroot, ne_eq, not_true_eq_false,
    false_implies, and_true] at hdirs
  rw [ne_eq, ← hdirs, writeManifestAtomic]
  cases hrun : runOps f [] (ensureDirs ["tmp"]) st.tree with
  | mk tree ok =>
    cases ok with
    | false => simp
    | true =>
      cases f.fails .createTemp with
      | true => simp
      | false =>
        cases f.fails .writeTemp with
        | true => simp
        | false =>
          cases f.fails .replace with
          | true => simp
          | false => simp

/-- The replacement happens as a whole or not at all, and beside it only `tmp/` is made. -/
theorem writeManifestAtomic_cases (f : Faults) (m : ModelRegistryManifest) (st : ModelStore) :
    ∃ tree, (∀ q, ¬ q <+: ["tmp"] → tree.node q = st.tree.node q) ∧
      (∀ q, st.tree.node q ≠ none → tree.node q ≠ none) ∧
      (writeManifestAtomic f m st = ({ st with tree }, .error .osError) ∨
        writeManifestAtomic f m st =
          ({ st with tree, manifest := .document m.toDict }, .ok ())) := by
  have hframe : ∀ q, ¬ q <+: ["tmp"] →
      (runOps f [] (ensureDirs ["tmp"]) st.tree).1.node q = st.tree.node q :=
    fun q hq => ensureDirs_frame f hq
  have hkeeps : ∀ q, st.tree.node q ≠ none →
      (runOps f [] (ensureDirs ["tmp"]) st.tree).1.node q ≠ none :=
    fun q hq => runOps_keeps f hq
  unfold writeManifestAtomic
  cases hrun : runOps f [] (ensureDirs ["tmp"]) st.tree with
  | mk tree ok =>
    rw [hrun] at hframe hkeeps
    refine ⟨tree, hframe, hkeeps, ?_⟩
    cases ok with
    | false => exact .inl rfl
    | true =>
      simp only
      split
      · exact .inl rfl
      · exact .inr rfl

end Whooshd.Store
