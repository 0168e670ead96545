import Mathlib.Data.List.Infix
import Mathlib.Logic.Function.Basic

set_option autoImplicit true

inductive FileNode where
  | dir
  | file (data : List UInt8)
  deriving DecidableEq

/-- The files and directories below a root, by the names that lead to them. Whatever is there
stands in a directory. -/
@[ext] structure FileTree where
  node : List String → Option FileNode
  closed : ∀ p, p ≠ [] → node p ≠ none → node p.dropLast = some .dir

namespace FileTree

def empty : FileTree := ⟨fun _ => none, by simp⟩

theorem closed_update (t : FileTree) (hdir : p = [] ∨ t.node p.dropLast = some .dir)
    (hkeep : t.node p = some .dir → n = .dir) (q : List String) (hq : q ≠ [])
    (hnode : Function.update t.node p (some n) q ≠ none) :
    Function.update t.node p (some n) q.dropLast = some .dir := by
  have hne : q.dropLast ≠ q := by
    intro h
    have hlen := congrArg List.length h
    have hpos := List.length_pos_of_ne_nil hq
    simp only [List.length_dropLast] at hlen
    omega
  by_cases hp : q.dropLast = p
  · -- the node stands in the one that was put in place, so a directory was there before
    rw [hp, Function.update_self]
    rw [Function.update_of_ne (by rw [← hp]; exact hne.symm)] at hnode
    have hdir := t.closed q hq hnode
    rw [hp] at hdir
    rw [hkeep hdir]
  · rw [Function.update_of_ne hp]
    by_cases hself : q = p
    · rw [hself] at hq ⊢
      exact hdir.resolve_left hq
    · rw [Function.update_of_ne hself] at hnode
      exact t.closed q hq hnode

/-- Puts a node in place; nothing is put where no directory is, or over a directory. -/
def put (t : FileTree) (p : List String) (n : FileNode) : Option FileTree :=
  if h : (p = [] ∨ t.node p.dropLast = some .dir) ∧ (t.node p = some .dir → n = .dir) then
    some ⟨Function.update t.node p (some n), t.closed_update h.1 h.2⟩
  else none

theorem put_eq_some (h : put t p n = some t') :
    t'.node = Function.update t.node p (some n) ∧ (t.node p = some .dir → n = .dir) := by
  unfold put at h
  split at h
  · rename_i hput
    cases h
    exact ⟨rfl, hput.2⟩
  · cases h

theorem put_of_dir {t : FileTree} (hdir : p = [] ∨ t.node p.dropLast = some .dir)
    (hnew : t.node p = none) :
    ∃ t', put t p n = some t' ∧ t'.node = Function.update t.node p (some n) := by
  have hput : (p = [] ∨ t.node p.dropLast = some .dir) ∧ (t.node p = some .dir → n = .dir) :=
    ⟨hdir, by simp [hnew]⟩
  exact ⟨_, dif_pos hput, rfl⟩

theorem node_append_none {t : FileTree} (h : t.node p = none) (r : List String) :
    t.node (p ++ r) = none := by
  induction r using List.reverseRecOn with
  | nil => rw [List.append_nil, h]
  | append_singleton r c ih =>
    by_contra hne
    have hdir := t.closed (p ++ (r ++ [c])) (by simp) hne
    rw [← List.append_assoc, List.dropLast_concat, ih] at hdir
    cases hdir

theorem dir_of_prefix {t : FileTree} (hq : t.node q ≠ none) (hpq : p <+: q) (hne : p ≠ q) :
    t.node p = some .dir := by
  obtain ⟨r, rfl⟩ := hpq
  cases r with
  | nil => simp at hne
  | cons c r =>
    have hchild : t.node (p ++ [c]) ≠ none := by
      intro h
      apply hq
      rw [List.append_cons]
      exact node_append_none h r
    have hdir := t.closed (p ++ [c]) (by simp) hchild
    rwa [List.dropLast_concat] at hdir

end FileTree

/-- The single steps of a copy and of an atomic replacement, as they may fail. -/
inductive FileStep where
  | makeDir (p : List String)
  | copyFile (p : List String)
  | copyStat (p : List String)
  | createTemp
  | writeTemp
  | replace
  deriving DecidableEq

/-- Which steps fail. A file copy that fails may have written a part of the file. -/
structure Faults where
  fails : FileStep → Bool
  written : List String → Option Nat

def Faults.none : Faults := ⟨fun _ => false, fun _ => .none⟩

inductive FileOp where
  /-- Makes a directory unless it is there, one level of `mkdir(parents, exist_ok)`. -/
  | ensureDir (p : List String)
  /-- Makes a directory that must be new. -/
  | makeDir (p : List String)
  /-- Copies a file; into a directory it goes under its own name. -/
  | copyFile (p : List String) (base : String) (data : List UInt8)
  | copyStat (p : List String)

namespace FileOp

def path : FileOp → List String
  | ensureDir p => p
  | makeDir p => p
  | copyFile p _ _ => p
  | copyStat p => p

/-- Where the operation may put something. -/
def Touches : FileOp → List String → Prop
  | ensureDir p, q => q = p
  | makeDir p, q => q = p
  | copyFile p _ _, q => p <+: q
  | copyStat _, _ => False

def step : FileOp → FileStep
  | ensureDir p => .makeDir p
  | makeDir p => .makeDir p
  | copyFile p _ _ => .copyFile p
  | copyStat p => .copyStat p

/-- Puts a node if the place for it exists, with the answer whether it did. -/
def place (t : FileTree) (p : List String) (n : FileNode) (answer : Bool) : FileTree × Bool :=
  match t.put p n with
  | some t' => (t', answer)
  | none => (t, false)

/-- The tree after the operation, and whether it went through. -/
def exec (f : Faults) (t : FileTree) : FileOp → FileTree × Bool
  | ensureDir p =>
    match t.node p with
    | some .dir => (t, true)
    | some (.file _) => (t, false)
    | none => if f.fails (.makeDir p) then (t, false) else place t p .dir true
  | makeDir p =>
    if f.fails (.makeDir p) || (t.node p).isSome then (t, false) else place t p .dir true
  | copyFile p base data =>
    let q := if t.node p = some .dir then p ++ [base] else p
    if f.fails (.copyFile p) then
      match f.written p with
      | none => (t, false)
      | some n => place t q (.file (data.take n)) false
    else place t q (.file data) true
  | copyStat p => (t, !f.fails (.copyStat p))

end FileOp

/-- Runs the operations in order. A failed one does not stop the rest, but what was to be done
below its path is left out. -/
def runOps (f : Faults) (abandoned : List (List String)) :
    List FileOp → FileTree → FileTree × Bool
  | [], t => (t, true)
  | op :: ops, t =>
    if abandoned.any fun p => p.isPrefixOf op.path then runOps f abandoned ops t
    else
      match op.exec f t with
      | (t', true) => runOps f abandoned ops t'
      | (t', false) => ((runOps f (op.path :: abandoned) ops t').1, false)

/-- `mkdir(parents=True, exist_ok=True)`, outermost directory first. -/
def ensureDirs (p : List String) : List FileOp := p.inits.map .ensureDir

/-- A file or a directory to be copied. -/
inductive Artifact where
  | file (data : List UInt8)
  | dir (entries : List (String × Artifact))

namespace Artifact

mutual

/-- What stands at a place below the artifact. -/
def node : Artifact → List String → Option FileNode
  | file data, [] => some (.file data)
  | file _, _ :: _ => none
  | dir _, [] => some .dir
  | dir entries, name :: rest => nodeIn entries name rest

def nodeIn : List (String × Artifact) → String → List String → Option FileNode
  | [], _, _ => none
  | (n, a) :: entries, name, rest => if n = name then node a rest else nodeIn entries name rest

end

mutual

/-- The operations of `copytree` or of `copy2`, in their order. -/
def copyOps (dst : List String) (base : String) : Artifact → List FileOp
  | file data => [.copyFile dst base data]
  | dir entries => .makeDir dst :: (copyEntries dst entries ++ [.copyStat dst])

def copyEntries (dst : List String) : List (String × Artifact) → List FileOp
  | [] => []
  | (n, a) :: entries => copyOps (dst ++ [n]) n a ++ copyEntries dst entries

end

mutual

/-- No directory of the artifact holds a name twice. -/
def Distinct : Artifact → Prop
  | file _ => True
  | dir entries => DistinctIn entries

def DistinctIn : List (String × Artifact) → Prop
  | [] => True
  | (n, a) :: entries => (∀ e ∈ entries, e.1 ≠ n) ∧ Distinct a ∧ DistinctIn entries

end

end Artifact

/-- An artifact as a file system holds it. -/
def StoredArtifact := { a : Artifact // a.Distinct }

namespace FileOp

theorem place_node (t : FileTree) (p : List String) (n : FileNode) (answer : Bool) :
    (place t p n answer).1 = t ∨ (t.node p = some .dir → n = .dir) ∧
      (place t p n answer).1.node = Function.update t.node p (some n) := by
  unfold place
  split
  · rename_i t' hput
    obtain ⟨hnode, hkeep⟩ := FileTree.put_eq_some hput
    exact .inr ⟨hkeep, hnode⟩
  · exact .inl rfl

theorem Touches.below {op : FileOp} (h : op.Touches q) : op.path <+: q := by
  cases op with
  | ensureDir p =>
    rw [show q = p from h]
    exact List.prefix_refl p
  | makeDir p =>
    rw [show q = p from h]
    exact List.prefix_refl p
  | copyFile p base data => exact h
  | copyStat p => cases h

/-- An operation leaves the tree as it is or puts one node, where it may and not in the place
of a directory. -/
theorem exec_node (f : Faults) (t : FileTree) (op : FileOp) :
    (op.exec f t).1 = t ∨ ∃ q n, op.Touches q ∧ (t.node q = some .dir → n = .dir) ∧
      (op.exec f t).1.node = Function.update t.node q (some n) := by
  have hplace : ∀ q n answer, op.Touches q → (place t q n answer).1 = t ∨
      ∃ q' n', op.Touches q' ∧ (t.node q' = some .dir → n' = .dir) ∧
        (place t q n answer).1.node = Function.update t.node q' (some n') :=
    fun q n answer hq => (place_node t q n answer).imp id fun h => ⟨q, n, hq, h⟩
  cases op with
  | ensureDir p =>
    simp only [exec]
    split
    · exact .inl rfl
    · exact .inl rfl
    · split
      · exact .inl rfl
      · exact hplace p _ _ rfl
  | makeDir p =>
    simp only [exec]
    split
    · exact .inl rfl
    · exact hplace p _ _ rfl
  | copyFile p base data =>
    have hbelow : p <+: if t.node p = some .dir then p ++ [base] else p := by
      split
      · exact List.prefix_append _ _
      · exact List.prefix_refl p
    simp only [exec]
    split
    · split
      · exact .inl rfl
      · exact hplace _ _ _ hbelow
    · exact hplace _ _ _ hbelow
  | copyStat p => exact .inl rfl

theorem exec_frame (f : Faults) (t : FileTree) (op : FileOp) (hq : ¬ op.Touches q) :
    (op.exec f t).1.node q = t.node q := by
  rcases op.exec_node f t with h | ⟨q', n, hbelow, -, h⟩
  · rw [h]
  · rw [h, Function.update_of_ne]
    rintro rfl
    exact hq hbelow

theorem exec_keeps (f : Faults) (t : FileTree) (op : FileOp) (hq : t.node q ≠ none) :
    (op.exec f t).1.node q ≠ none := by
  rcases op.exec_node f t with h | ⟨q', n, -, -, h⟩
  · rwa [h]
  · rw [h]
    by_cases heq : q = q'
    · rw [heq, Function.update_self]
      simp
    · rwa [Function.update_of_ne heq]

theorem exec_keepsDir (f : Faults) (t : FileTree) (op : FileOp) (hq : t.node q = some .dir) :
    (op.exec f t).1.node q = some .dir := by
  rcases op.exec_node f t with h | ⟨q', n, -, hkeep, h⟩
  · rwa [h]
  · rw [h]
    by_cases heq : q = q'
    · rw [heq, Function.update_self, hkeep (heq ▸ hq)]
    · rwa [Function.update_of_ne heq]

end FileOp

/-- What every operation of the list preserves, the run preserves. -/
theorem runOps_induct (f : Faults) {P : FileTree → Prop}
    (hstep : ∀ op ∈ ops, ∀ t, P t → P (op.exec f t).1) (ht : P t) :
    P (runOps f abandoned ops t).1 := by
  induction ops generalizing abandoned t with
  | nil => exact ht
  | cons op ops ih =>
    have htail : ∀ op' ∈ ops, ∀ t, P t → P (op'.exec f t).1 :=
      fun op' h => hstep op' (.tail _ h)
    have hexec := hstep op List.mem_cons_self t ht
    rw [runOps]
    split
    · exact ih htail ht
    · split
      · rename_i t' hop
        rw [hop] at hexec
        exact ih htail hexec
      · rename_i t' hop
        rw [hop] at hexec
        exact ih htail hexec

theorem runOps_frame (f : Faults) (hq : ∀ op ∈ ops, ¬ op.Touches q) :
    (runOps f abandoned ops t).1.node q = t.node q := by
  apply runOps_induct f (P := fun t' => t'.node q = t.node q) _ rfl
  intro op hop t' ht'
  rw [op.exec_frame f t' (hq op hop), ht']

theorem ensureDirs_frame (f : Faults) (hq : ¬ q <+: p) :
    (runOps f abandoned (ensureDirs p) t).1.node q = t.node q := by
  apply runOps_frame
  intro op hop htouch
  obtain ⟨r, hr, rfl⟩ := List.mem_map.mp hop
  rw [show q = r from htouch] at hq
  exact hq ((List.mem_inits r p).mp hr)

theorem runOps_keeps (f : Faults) (hq : t.node q ≠ none) :
    (runOps f abandoned ops t).1.node q ≠ none :=
  runOps_induct f (P := fun t' => t'.node q ≠ none) (fun op _ t' => op.exec_keeps f t') hq

theorem runOps_keepsDir (f : Faults) (hq : t.node q = some .dir) :
    (runOps f abandoned ops t).1.node q = some .dir :=
  runOps_induct f (P := fun t' => t'.node q = some .dir)
    (fun op _ t' => op.exec_keepsDir f t') hq

theorem runOps_cons_true (f : Faults) (op : FileOp) (ops : List FileOp) (t t' : FileTree) :
    runOps f [] (op :: ops) t = (t', true) ↔
      ∃ t₁, op.exec f t = (t₁, true) ∧ runOps f [] ops t₁ = (t', true) := by
  rw [runOps, List.any_nil, if_neg (by simp)]
  cases hop : op.exec f t with
  | mk t₁ b =>
    cases b with
    | true => simp
    | false => simp

theorem runOps_singleton_true (f : Faults) (op : FileOp) (t t' : FileTree) :
    runOps f [] [op] t = (t', true) ↔ op.exec f t = (t', true) := by
  rw [runOps_cons_true]
  simp [runOps]

theorem runOps_append_true (f : Faults) (xs ys : List FileOp) (t t' : FileTree) :
    runOps f [] (xs ++ ys) t = (t', true) ↔
      ∃ t₁, runOps f [] xs t = (t₁, true) ∧ runOps f [] ys t₁ = (t', true) := by
  induction xs generalizing t with
  | nil => simp [runOps]
  | cons op xs ih =>
    rw [List.cons_append, runOps_cons_true]
    constructor
    · rintro ⟨t₁, hop, hrest⟩
      obtain ⟨t₂, hxs, hys⟩ := (ih t₁).mp hrest
      exact ⟨t₂, (runOps_cons_true f op xs t t₂).mpr ⟨t₁, hop, hxs⟩, hys⟩
    · rintro ⟨t₂, hxs, hys⟩
      obtain ⟨t₁, hop, hxs⟩ := (runOps_cons_true f op xs t t₂).mp hxs
      exact ⟨t₁, hop, (ih t₁).mpr ⟨t₂, hxs, hys⟩⟩

theorem runOps_abandoned (f : Faults) (hp : p ∈ abandoned)
    (hbelow : ∀ op ∈ ops, p <+: op.path) : (runOps f abandoned ops t).1 = t := by
  induction ops with
  | nil => rfl
  | cons op ops ih =>
    have hskip : abandoned.any (fun p => p.isPrefixOf op.path) = true := by
      rw [List.any_eq_true]
      exact ⟨p, hp, List.isPrefixOf_iff_prefix.mpr (hbelow op List.mem_cons_self)⟩
    rw [runOps, if_pos hskip]
    exact ih fun op' h => hbelow op' (.tail _ h)

namespace FileOp

theorem place_true (h : place t p n true = (t', true)) :
    t'.node = Function.update t.node p (some n) := by
  unfold place at h
  split at h
  · rename_i t₁ hput
    cases h
    exact (FileTree.put_eq_some hput).1
  · cases h

theorem place_of_dir {t : FileTree} (hdir : p = [] ∨ t.node p.dropLast = some .dir)
    (hnew : t.node p = none) (answer : Bool) :
    ∃ t', place t p n answer = (t', answer) ∧ t'.node = Function.update t.node p (some n) := by
  obtain ⟨t', hput, hnode⟩ := FileTree.put_of_dir hdir hnew
  exact ⟨t', by rw [place, hput], hnode⟩

theorem makeDir_true (h : (makeDir p).exec f t = (t', true)) :
    f.fails (.makeDir p) = false ∧ t.node p = none ∧
      t'.node = Function.update t.node p (some .dir) := by
  rw [exec] at h
  split at h
  · cases h
  · rename_i hcond
    rw [Bool.or_eq_true, not_or, Bool.not_eq_true, Option.not_isSome_iff_eq_none] at hcond
    exact ⟨hcond.1, hcond.2, place_true h⟩

theorem copyFile_true (hp : t.node p ≠ some .dir)
    (h : (copyFile p base data).exec f t = (t', true)) :
    f.fails (.copyFile p) = false ∧ t'.node = Function.update t.node p (some (.file data)) := by
  simp only [exec, if_neg hp] at h
  split at h
  · split at h
    · cases h
    · unfold place at h
      split at h
      · cases h
      · cases h
  · rename_i hf
    exact ⟨by simpa using hf, place_true h⟩

theorem copyStat_true (h : (copyStat p).exec f t = (t', true)) :
    f.fails (.copyStat p) = false ∧ t' = t := by
  simp only [exec, Prod.mk.injEq, Bool.not_eq_eq_eq_not, Bool.not_true] at h
  exact ⟨h.2, h.1.symm⟩

/-- The operations of a copy, which always take their step. -/
def IsCopy : FileOp → Prop
  | ensureDir _ => False
  | makeDir _ => True
  | copyFile _ _ _ => True
  | copyStat _ => True

theorem exec_true_step {op : FileOp} (hop : op.IsCopy) (h : op.exec f t = (t', true)) :
    f.fails op.step = false := by
  cases op with
  | ensureDir p => cases hop
  | makeDir p => exact (makeDir_true h).1
  | copyFile p base data =>
    cases hf : f.fails (.copyFile p) with
    | false => exact hf
    | true =>
      simp only [exec, hf, if_true] at h
      split at h
      · cases h
      · unfold place at h
        split at h
        · cases h
        · cases h
  | copyStat p => exact (copyStat_true h).1

end FileOp

theorem runOps_true_steps (hcopy : ∀ op ∈ ops, FileOp.IsCopy op)
    (h : runOps f [] ops t = (t', true)) : ∀ op ∈ ops, f.fails op.step = false := by
  induction ops generalizing t with
  | nil => simp
  | cons op ops ih =>
    obtain ⟨t₁, hop, hrest⟩ := (runOps_cons_true _ _ _ _ _).mp h
    intro op' hop'
    cases hop' with
    | head => exact FileOp.exec_true_step (hcopy op List.mem_cons_self) hop
    | tail _ hop' => exact ih (fun o ho => hcopy o (.tail _ ho)) hrest op' hop'

theorem runOps_skipDirs (f : Faults) (keep : List String → Bool) (ds : List (List String))
    (ops : List FileOp) (h : ∀ d ∈ ds, keep d = false → t.node d = some .dir) :
    runOps f abandoned (ds.map .ensureDir ++ ops) t =
      runOps f abandoned ((ds.filter keep).map .ensureDir ++ ops) t := by
  induction ds generalizing abandoned t with
  | nil => rfl
  | cons d ds ih =>
    have htail : ∀ t' : FileTree, (∀ q, t.node q = some .dir → t'.node q = some .dir) →
        ∀ d' ∈ ds, keep d' = false → t'.node d' = some .dir :=
      fun t' ht d' hd hk => ht d' (h d' (.tail _ hd) hk)
    have hkeepDir : ∀ q, t.node q = some .dir →
        ((FileOp.ensureDir d).exec f t).1.node q = some .dir :=
      fun q hq => (FileOp.ensureDir d).exec_keepsDir f t hq
    cases hkeep : keep d with
    | false =>
      have hdir := h d List.mem_cons_self hkeep
      rw [List.filter_cons_of_neg (by simp [hkeep]), List.map_cons, List.cons_append, runOps]
      split
      · exact ih (htail t fun _ hq => hq)
      · simp only [FileOp.exec, hdir]
        exact ih (htail t fun _ hq => hq)
    | true =>
      rw [List.filter_cons_of_pos hkeep, List.map_cons, List.map_cons, List.cons_append,
        List.cons_append, runOps, runOps]
      split
      · exact ih (htail t fun _ hq => hq)
      · split
        · rename_i t' hop
          rw [hop] at hkeepDir
          exact ih (htail t' hkeepDir)
        · rename_i t' hop
          rw [hop] at hkeepDir
          rw [ih (htail t' hkeepDir)]

/-- A first operation that fails without a trace, with all the others below it, leaves
everything as it was. -/
theorem runOps_refused (f : Faults) (hop : op.exec f t = (t, false))
    (hbelow : ∀ op' ∈ ops, op.path <+: op'.path) : runOps f [] (op :: ops) t = (t, false) := by
  rw [runOps, List.any_nil, if_neg (by simp), hop]
  simp only [Prod.mk.injEq, and_true]
  exact runOps_abandoned f List.mem_cons_self hbelow

theorem runOps_created (f : Faults) (hop : (op.exec f t).1.node q ≠ none) :
    (runOps f [] (op :: ops) t).1.node q ≠ none := by
  rw [runOps, List.any_nil, if_neg (by simp)]
  split
  · rename_i t' h
    rw [h] at hop
    exact runOps_keeps f hop
  · rename_i t' h
    rw [h] at hop
    exact runOps_keeps f hop

theorem ensureDirs_concat (p : List String) (c : String) :
    ensureDirs (p ++ [c]) = ensureDirs p ++ [.ensureDir (p ++ [c])] := by
  simp [ensureDirs, List.inits_append]

theorem ensureDir_true_iff (f : Faults) (t : FileTree)
    (hdir : p = [] ∨ t.node p.dropLast = some .dir) :
    (∃ t', (FileOp.ensureDir p).exec f t = (t', true)) ↔
      (t.node p ≠ some .dir → t.node p = none ∧ f.fails (.makeDir p) = false) := by
  rw [FileOp.exec]
  cases hnode : t.node p with
  | none =>
    cases hf : f.fails (.makeDir p) with
    | true => simp
    | false =>
      obtain ⟨t', hplace, -⟩ := FileOp.place_of_dir (n := .dir) hdir hnode true
      simp [hplace]
  | some n =>
    cases n with
    | dir => simp
    | file data => simp

theorem ensureDir_true_node (h : (FileOp.ensureDir p).exec f t = (t', true)) :
    t'.node p = some .dir := by
  rw [FileOp.exec] at h
  split at h
  · rename_i hdir
    cases h
    exact hdir
  · cases h
  · split at h
    · cases h
    · rw [FileOp.place_true h, Function.update_self]

/-- Directories can be made exactly when nothing else is in their place and no step of making
the missing ones fails; the innermost is then a directory. -/
theorem ensureDirs_true_iff (f : Faults) (t : FileTree) (p : List String) :
    ((∃ t', runOps f [] (ensureDirs p) t = (t', true)) ↔
      ∀ d, d <+: p → t.node d ≠ some .dir → t.node d = none ∧ f.fails (.makeDir d) = false) ∧
    ∀ t', runOps f [] (ensureDirs p) t = (t', true) → t'.node p = some .dir := by
  induction p using List.reverseRecOn with
  | nil =>
    have hone : ∀ t', runOps f [] (ensureDirs []) t = (t', true) ↔
        (FileOp.ensureDir []).exec f t = (t', true) := by
      intro t'
      rw [show ensureDirs [] = [FileOp.ensureDir []] from rfl, runOps_singleton_true]
    simp only [hone, List.prefix_nil, forall_eq]
    exact ⟨ensureDir_true_iff f t (.inl rfl), fun t' h => ensureDir_true_node h⟩
  | append_singleton p c ih =>
    obtain ⟨ihiff, ihdir⟩ := ih
    have hone : ∀ t', runOps f [] (ensureDirs (p ++ [c])) t = (t', true) ↔
        ∃ t₁, runOps f [] (ensureDirs p) t = (t₁, true) ∧
          (FileOp.ensureDir (p ++ [c])).exec f t₁ = (t', true) := by
      intro t'
      rw [ensureDirs_concat, runOps_append_true]
      simp only [runOps_singleton_true]
    have hframe : ∀ t₁, runOps f [] (ensureDirs p) t = (t₁, true) →
        t₁.node (p ++ [c]) = t.node (p ++ [c]) := by
      intro t₁ hrun
      have hlong : ¬ p ++ [c] <+: p := by
        intro h
        have hlen := h.length_le
        rw [List.length_append, List.length_singleton] at hlen
        omega
      have hsame : (runOps f [] (ensureDirs p) t).1.node (p ++ [c]) = t.node (p ++ [c]) :=
        ensureDirs_frame f hlong
      rwa [hrun] at hsame
    refine ⟨?_, ?_⟩
    · simp only [hone, List.prefix_concat_iff, forall_eq_or_imp]
      constructor
      · rintro ⟨t', t₁, hrun, hop⟩
        refine ⟨?_, ihiff.mp ⟨t₁, hrun⟩⟩
        rw [← hframe t₁ hrun]
        have hparent : t₁.node (p ++ [c]).dropLast = some .dir := by
          rw [List.dropLast_concat]
          exact ihdir t₁ hrun
        exact (ensureDir_true_iff f t₁ (.inr hparent)).mp ⟨t', hop⟩
      · rintro ⟨hlast, hrest⟩
        obtain ⟨t₁, hrun⟩ := ihiff.mpr hrest
        have hparent : t₁.node (p ++ [c]).dropLast = some .dir := by
          rw [List.dropLast_concat]
          exact ihdir t₁ hrun
        rw [← hframe t₁ hrun] at hlast
        obtain ⟨t', hop⟩ := (ensureDir_true_iff f t₁ (.inr hparent)).mpr hlast
        exact ⟨t', t₁, hrun, hop⟩
    · intro t' h
      obtain ⟨t₁, -, hop⟩ := (hone t').mp h
      exact ensureDir_true_node hop

namespace Artifact

mutual

theorem copyOps_path : (a : Artifact) → op ∈ copyOps dst base a → dst <+: op.path
  | file data, h => by
    rw [copyOps, List.mem_singleton] at h
    rw [h]
    exact List.prefix_refl dst
  | dir entries, h => by
    simp only [copyOps, List.mem_cons, List.mem_append, List.not_mem_nil, or_false] at h
    rcases h with rfl | h | rfl
    · exact List.prefix_refl dst
    · exact copyEntries_path entries h
    · exact List.prefix_refl dst

theorem copyEntries_path :
    (entries : List (String × Artifact)) → op ∈ copyEntries dst entries → dst <+: op.path
  | [], h => by cases h
  | (n, a) :: entries, h => by
    rw [copyEntries, List.mem_append] at h
    rcases h with h | h
    · exact (List.prefix_append dst [n]).trans (copyOps_path a h)
    · exact copyEntries_path entries h

end

mutual

theorem copyOps_isCopy : (a : Artifact) → op ∈ copyOps dst base a → op.IsCopy
  | file data, h => by
    rw [copyOps, List.mem_singleton] at h
    rw [h]
    trivial
  | dir entries, h => by
    simp only [copyOps, List.mem_cons, List.mem_append, List.not_mem_nil, or_false] at h
    rcases h with rfl | h | rfl
    · trivial
    · exact copyEntries_isCopy entries h
    · trivial

theorem copyEntries_isCopy :
    (entries : List (String × Artifact)) → op ∈ copyEntries dst entries → op.IsCopy
  | [], h => by cases h
  | (n, a) :: entries, h => by
    rw [copyEntries, List.mem_append] at h
    rcases h with h | h
    · exact copyOps_isCopy a h
    · exact copyEntries_isCopy entries h

end

theorem copyOps_frame (hq : ¬ dst <+: q) :
    (runOps f abandoned (copyOps dst base a) t).1.node q = t.node q :=
  runOps_frame f fun _ hop htouch => hq ((copyOps_path a hop).trans htouch.below)

theorem nodeIn_of_not_mem (h : name ∉ entries.map Prod.fst) (rest : List String) :
    nodeIn entries name rest = none := by
  induction entries with
  | nil => rw [nodeIn]
  | cons e entries ih =>
    simp only [List.map_cons, List.mem_cons, not_or] at h
    rw [nodeIn, if_neg (Ne.symm h.1)]
    exact ih h.2

theorem not_prefix_sibling (dst : List String) (h : n ≠ name) (rest : List String) :
    ¬ dst ++ [n] <+: dst ++ name :: rest := by
  rw [List.prefix_append_right_inj, List.cons_prefix_cons]
  exact fun hpre => h hpre.1

mutual

theorem copyOps_node : (a : Artifact) → a.Distinct → (t.node dst = none) →
    runOps f [] (copyOps dst base a) t = (t', true) → (r : List String) →
    t'.node (dst ++ r) = a.node r
  | file data, _, hnew, hrun, r => by
    rw [copyOps, runOps_cons_true] at hrun
    obtain ⟨t₁, hop, hrun⟩ := hrun
    cases hrun
    rw [(FileOp.copyFile_true (by simp [hnew]) hop).2]
    cases r with
    | nil => rw [List.append_nil, Function.update_self, node]
    | cons c r =>
      rw [Function.update_of_ne (by simp), node]
      exact FileTree.node_append_none hnew _
  | dir entries, hdist, hnew, hrun, r => by
    rw [copyOps, runOps_cons_true] at hrun
    obtain ⟨t₁, hop, hrun⟩ := hrun
    obtain ⟨t₂, hentries, hstat⟩ := (runOps_append_true _ _ _ _ _).mp hrun
    obtain ⟨-, -, ht₁⟩ := FileOp.makeDir_true hop
    rw [runOps_cons_true] at hstat
    obtain ⟨t₃, hstat, hend⟩ := hstat
    obtain rfl := (FileOp.copyStat_true hstat).2
    cases hend
    have hbelow : ∀ name rest, t₁.node (dst ++ name :: rest) = none := by
      intro name rest
      rw [ht₁, Function.update_of_ne (by simp)]
      exact FileTree.node_append_none hnew _
    cases r with
    | nil =>
      have hdir : (runOps f [] (copyEntries dst entries) t₁).1.node dst = some .dir :=
        runOps_keepsDir f (by rw [ht₁, Function.update_self])
      rw [hentries] at hdir
      rw [List.append_nil, hdir, node]
    | cons name rest =>
      rw [copyEntries_node entries hdist (fun e _ => hbelow e.1 []) hentries name rest, node]
      split
      · rfl
      · rename_i hname
        rw [hbelow, nodeIn_of_not_mem hname]

theorem copyEntries_node : (entries : List (String × Artifact)) → DistinctIn entries →
    (∀ e ∈ entries, t.node (dst ++ [e.1]) = none) →
    runOps f [] (copyEntries dst entries) t = (t', true) → (name : String) →
    (rest : List String) → t'.node (dst ++ name :: rest) =
      if name ∈ entries.map Prod.fst then nodeIn entries name rest
      else t.node (dst ++ name :: rest)
  | [], _, _, hrun, name, rest => by
    cases hrun
    simp
  | (n, a) :: entries, hdist, hnew, hrun, name, rest => by
    obtain ⟨hfirst, ha, hdist⟩ := hdist
    obtain ⟨t₁, hcopy, hrun⟩ := (runOps_append_true _ _ _ _ _).mp hrun
    have hnode := copyOps_node a ha (hnew (n, a) List.mem_cons_self) hcopy
    have hframe : ∀ name rest, n ≠ name →
        t₁.node (dst ++ name :: rest) = t.node (dst ++ name :: rest) := by
      intro name rest hne
      have hcopied : (runOps f [] (copyOps (dst ++ [n]) n a) t).1.node (dst ++ name :: rest) =
          t.node (dst ++ name :: rest) := copyOps_frame (not_prefix_sibling dst hne rest)
      rwa [hcopy] at hcopied
    have hnew' : ∀ e ∈ entries, t₁.node (dst ++ [e.1]) = none := by
      intro e he
      rw [hframe e.1 [] (hfirst e he).symm]
      exact hnew e (.tail _ he)
    rw [copyEntries_node entries hdist hnew' hrun name rest, nodeIn]
    by_cases hname : n = name
    · have hnot : name ∉ entries.map Prod.fst := by
        rw [← hname, List.mem_map]
        rintro ⟨e, he, heq⟩
        exact hfirst e he heq
      rw [if_neg hnot, if_pos (by simp [hname]), if_pos hname, ← hname, List.append_cons]
      exact hnode rest
    · simp only [List.map_cons, List.mem_cons, Ne.symm hname, false_or, if_neg hname]
      rw [hframe name rest hname]

end

mutual

theorem copyOps_succeeds : (a : Artifact) → a.Distinct → (t.node dst = none) →
    t.node dst.dropLast = some .dir →
    (∀ op ∈ copyOps dst base a, f.fails op.step = false) →
    ∃ t', runOps f [] (copyOps dst base a) t = (t', true)
  | file data, _, hnew, hdir, hf => by
    have hf : f.fails (.copyFile dst) = false :=
      hf (.copyFile dst base data) (by rw [copyOps]; exact List.mem_cons_self)
    obtain ⟨t', hplace, -⟩ := FileOp.place_of_dir (n := .file data) (.inr hdir) hnew true
    refine ⟨t', ?_⟩
    rw [copyOps, runOps_cons_true]
    exact ⟨t', by simp [FileOp.exec, hf, hnew, hplace], rfl⟩
  | dir entries, hdist, hnew, hdir, hf => by
    simp only [copyOps, List.mem_cons, List.mem_append, List.not_mem_nil, or_false] at hf
    obtain ⟨t₁, hplace, ht₁⟩ := FileOp.place_of_dir (n := .dir) (.inr hdir) hnew true
    have hmake : (FileOp.makeDir dst).exec f t = (t₁, true) := by
      have hfirst : f.fails (.makeDir dst) = false := hf (.makeDir dst) (.inl rfl)
      simp [FileOp.exec, hfirst, hnew, hplace]
    have hself : t₁.node dst = some .dir := by rw [ht₁, Function.update_self]
    have hempty : ∀ e ∈ entries, t₁.node (dst ++ [e.1]) = none := by
      intro e _
      rw [ht₁, Function.update_of_ne (by simp)]
      exact FileTree.node_append_none hnew _
    obtain ⟨t₂, hentries⟩ := copyEntries_succeeds entries hdist hempty hself
      fun op hop => hf op (.inr (.inl hop))
    refine ⟨t₂, ?_⟩
    rw [copyOps, runOps_cons_true]
    refine ⟨t₁, hmake, (runOps_append_true _ _ _ _ _).mpr ⟨t₂, hentries, ?_⟩⟩
    rw [runOps_cons_true]
    have hstat : f.fails (.copyStat dst) = false := hf (.copyStat dst) (.inr (.inr rfl))
    exact ⟨t₂, by simp [FileOp.exec, hstat], rfl⟩

theorem copyEntries_succeeds : (entries : List (String × Artifact)) → DistinctIn entries →
    (∀ e ∈ entries, t.node (dst ++ [e.1]) = none) → t.node dst = some .dir →
    (∀ op ∈ copyEntries dst entries, f.fails op.step = false) →
    ∃ t', runOps f [] (copyEntries dst entries) t = (t', true)
  | [], _, _, _, _ => ⟨t, rfl⟩
  | (n, a) :: entries, hdist, hnew, hdir, hf => by
    obtain ⟨hfirst, ha, hdist⟩ := hdist
    simp only [copyEntries, List.mem_append] at hf
    obtain ⟨t₁, hcopy⟩ := copyOps_succeeds a ha (hnew (n, a) List.mem_cons_self)
      (by rw [List.dropLast_concat]; exact hdir) fun op hop => hf op (.inl hop)
    have hself : t₁.node dst = some .dir := by
      have hkeep : (runOps f [] (copyOps (dst ++ [n]) n a) t).1.node dst = some .dir :=
        runOps_keepsDir f hdir
      rwa [hcopy] at hkeep
    have hnew' : ∀ e ∈ entries, t₁.node (dst ++ [e.1]) = none := by
      intro e he
      have hcopied : (runOps f [] (copyOps (dst ++ [n]) n a) t).1.node (dst ++ [e.1]) =
          t.node (dst ++ [e.1]) := copyOps_frame (not_prefix_sibling dst (hfirst e he).symm [])
      rw [hcopy] at hcopied
      rw [hcopied]
      exact hnew e (.tail _ he)
    obtain ⟨t₂, hrest⟩ := copyEntries_succeeds entries hdist hnew' hself
      fun op hop => hf op (.inr hop)
    exact ⟨t₂, (runOps_append_true _ _ _ _ _).mpr ⟨t₁, hcopy, hrest⟩⟩

end

end Artifact
