import Mathlib.Data.List.Sort
import Whooshd.Library.FileTree
import Whooshd.Library.Path

set_option autoImplicit true

namespace Artifact

mutual

/-- The file or directory at a place below the artifact. -/
def sub : Artifact → List String → Option Artifact
  | file data, [] => some (file data)
  | file _, _ :: _ => none
  | dir entries, [] => some (dir entries)
  | dir entries, name :: rest => subIn entries name rest

def subIn : List (String × Artifact) → String → List String → Option Artifact
  | [], _, _ => none
  | (n, a) :: entries, name, rest => if n = name then sub a rest else subIn entries name rest

end

mutual

/-- Every entry has the name of a file. -/
def Named : Artifact → Prop
  | file _ => True
  | dir entries => NamedIn entries

def NamedIn : List (String × Artifact) → Prop
  | [] => True
  | (n, a) :: entries => IsPathName n ∧ Named a ∧ NamedIn entries

end

def entryNames : Artifact → List String
  | file _ => []
  | dir entries => entries.map Prod.fst

def isDir : Artifact → Bool
  | file _ => false
  | dir _ => true

mutual

theorem named_sub : (a : Artifact) → a.Named → a.sub p = some b → b.Named
  | file _, h, hsub => by
    cases p with
    | nil =>
      cases hsub
      exact h
    | cons name rest => cases hsub
  | dir entries, h, hsub => by
    cases p with
    | nil =>
      cases hsub
      exact h
    | cons name rest => exact named_subIn entries h hsub

theorem named_subIn :
    (entries : List (String × Artifact)) → NamedIn entries → subIn entries name rest = some b →
      b.Named
  | [], _, hsub => by cases hsub
  | (n, a) :: entries, h, hsub => by
    rw [subIn] at hsub
    split at hsub
    · exact named_sub a h.2.1 hsub
    · exact named_subIn entries h.2.2 hsub

end

theorem NamedIn.isPathName (h : NamedIn entries) (hn : n ∈ entries.map Prod.fst) :
    IsPathName n := by
  induction entries with
  | nil => cases hn
  | cons entry entries ih =>
    rcases List.mem_cons.mp hn with rfl | hn
    · exact h.1
    · exact ih h.2.2 hn

mutual

theorem sub_append : (a : Artifact) → (p q : List String) →
    a.sub (p ++ q) = (a.sub p).bind (·.sub q)
  | file _, [], _ => rfl
  | file _, _ :: _, _ => rfl
  | dir _, [], _ => rfl
  | dir entries, name :: p, q => subIn_append entries name p q

theorem subIn_append : (entries : List (String × Artifact)) → (name : String) →
    (p q : List String) → subIn entries name (p ++ q) = (subIn entries name p).bind (·.sub q)
  | [], _, _, _ => rfl
  | (_, a) :: entries, name, p, q => by
    rw [subIn, subIn]
    split
    · exact sub_append a p q
    · exact subIn_append entries name p q

end

@[simp] theorem sub_dir_cons (entries : List (String × Artifact)) (name : String)
    (rest : List String) : (dir entries).sub (name :: rest) = subIn entries name rest := rfl

@[simp] theorem sub_nil (a : Artifact) : a.sub [] = some a := by
  cases a with
  | file data => rfl
  | dir entries => rfl

@[simp] theorem subIn_cons_self (name : String) (a : Artifact)
    (entries : List (String × Artifact)) (rest : List String) :
    subIn ((name, a) :: entries) name rest = a.sub rest := by
  rw [subIn, if_pos rfl]

theorem subIn_cons_ne (h : n ≠ name) (a : Artifact) (entries : List (String × Artifact))
    (rest : List String) : subIn ((n, a) :: entries) name rest = subIn entries name rest := by
  rw [subIn, if_neg h]

theorem mem_of_subIn (h : subIn entries name rest = some a) : name ∈ entries.map Prod.fst := by
  induction entries with
  | nil => cases h
  | cons entry entries ih =>
    rw [subIn] at h
    split at h
    · rename_i hname
      exact hname ▸ List.mem_cons_self
    · exact List.mem_cons_of_mem _ (ih h)

end Artifact

/-- A file tree without links. -/
structure Disk where
  root : Artifact
  distinct : root.Distinct
  named : root.Named

namespace Disk

def isDirAt (d : Disk) (p : List String) : Bool := (d.root.sub p).any Artifact.isDir

/-- The place that a written path leads to: each `..` goes back to the parent. -/
def walk (d : Disk) (here : List String) : List String → Option (List String)
  | [] => if (d.root.sub here).isSome then some here else none
  | name :: rest =>
    if d.isDirAt here then walk d (if name = ".." then here.dropLast else here ++ [name]) rest
    else none

def at? (d : Disk) (p : List String) : Option Artifact := (d.walk [] p).bind d.root.sub

def exists? (d : Disk) (p : List String) : Bool := (d.at? p).isSome

def isDir (d : Disk) (p : List String) : Bool := (d.at? p).any Artifact.isDir

def isFile (d : Disk) (p : List String) : Bool := (d.at? p).any fun a => !a.isDir

/-- The names in a directory, sorted. -/
def sortedNames (d : Disk) (p : List String) : List String :=
  (((d.at? p).map Artifact.entryNames).getD []).insertionSort (· ≤ ·)

theorem isPathName_of_mem_sortedNames (h : n ∈ sortedNames d p) : IsPathName n := by
  rw [sortedNames, List.mem_insertionSort] at h
  cases ha : d.at? p with
  | none => simp [ha] at h
  | some a =>
    rw [ha] at h
    obtain ⟨q, -, hsub⟩ := Option.bind_eq_some_iff.mp ha
    have hnamed := Artifact.named_sub d.root d.named hsub
    cases a with
    | file data => cases h
    | dir entries => exact Artifact.NamedIn.isPathName hnamed h

theorem sorted_sortedNames (d : Disk) (p : List String) :
    (d.sortedNames p).Pairwise (· ≤ ·) :=
  List.pairwise_insertionSort _ _

theorem find?_eq_iff_before [DecidableEq α] {P : α → Bool} {l : List α} (hmem : x ∈ l)
    (hx : P x = true) : l.find? P = some x ↔ ∀ y ∈ l.takeWhile (· ≠ x), P y = false := by
  induction l with
  | nil => cases hmem
  | cons a l ih =>
    by_cases hax : a = x
    · subst hax
      simp [hx]
    · have hmem' : x ∈ l := List.mem_of_ne_of_mem (Ne.symm hax) hmem
      cases ha : P a with
      | true => simp [ha, hax]
      | false => simp [ha, hax, ih hmem']

theorem find?_eq_iff_smaller {P : String → Bool} {l : List String} (hsorted : l.Pairwise (· ≤ ·))
    (hmem : x ∈ l) :
    l.find? P = some x ↔ P x = true ∧ ∀ y ∈ l, y ≠ x → y ≤ x → P y = false := by
  constructor
  · intro hfind
    obtain ⟨hx, before, after, rfl, hbefore⟩ := List.find?_eq_some_iff_append.mp hfind
    refine ⟨hx, ?_⟩
    intro y hy hne hle
    rcases List.mem_append.mp hy with hy | hy
    · simpa using hbefore y hy
    · rcases List.mem_cons.mp hy with rfl | hy
      · exact absurd rfl hne
      · have hafter := (List.pairwise_cons.mp (List.pairwise_append.mp hsorted).2.1).1 y hy
        exact absurd (String.le_antisymm hle hafter) hne
  · rintro ⟨hx, hsmaller⟩
    obtain ⟨before, after, rfl, hbefore⟩ := List.eq_append_cons_of_mem hmem
    apply List.find?_eq_some_iff_append.mpr
    refine ⟨hx, before, after, rfl, ?_⟩
    intro y hy
    have hle : y ≤ x := (List.pairwise_append.mp hsorted).2.2 y hy x List.mem_cons_self
    have hne : y ≠ x := by
      rintro rfl
      exact hbefore hy
    simpa using hsmaller y (List.mem_append_left _ hy) hne hle

theorem isDirAt_iff (d : Disk) (p : List String) :
    d.isDirAt p = true ↔ ∃ entries, d.root.sub p = some (.dir entries) := by
  unfold isDirAt
  cases hsub : d.root.sub p with
  | none => simp
  | some a =>
    cases a with
    | file data => simp [Artifact.isDir]
    | dir entries => simp [Artifact.isDir]

theorem walk_name {d : Disk} (h : d.root.sub here = some (.dir entries)) (hname : name ≠ "..")
    (rest : List String) : d.walk here (name :: rest) = d.walk (here ++ [name]) rest := by
  rw [walk, if_pos ((d.isDirAt_iff here).mpr ⟨entries, h⟩), if_neg hname]

theorem walk_up {d : Disk} (h : d.root.sub here = some (.dir entries)) (rest : List String) :
    d.walk here (".." :: rest) = d.walk here.dropLast rest := by
  rw [walk, if_pos ((d.isDirAt_iff here).mpr ⟨entries, h⟩), if_pos rfl]

theorem walk_end {d : Disk} (h : d.root.sub here = some a) : d.walk here [] = some here := by
  rw [walk, h]
  rfl

theorem walk_append (d : Disk) (here a b : List String) :
    d.walk here (a ++ b) = (d.walk here a).bind fun place => d.walk place b := by
  induction a generalizing here with
  | nil =>
    cases hhere : d.root.sub here with
    | some a => simp [walk, hhere]
    | none =>
      cases b with
      | nil => simp [walk, hhere]
      | cons name b => simp [walk, isDirAt, hhere]
  | cons name a ih =>
    rw [List.cons_append, walk, walk]
    split
    · exact ih _
    · rfl

/-- The path leads to a directory with a file of the name. -/
structure Holds (d : Disk) (dir : List String) (name : String) : Prop where
  isDir : d.isDir dir = true
  isFile : d.isFile (dir ++ [name]) = true
  listed : name ∈ d.sortedNames dir

theorem Holds.of_walk {d : Disk} (hwalk : d.walk [] dir = some place)
    (hplace : d.root.sub place = some (.dir entries))
    (hentry : Artifact.subIn entries name [] = some (.file data)) (hname : name ≠ "..") :
    d.Holds dir name := by
  have hat : d.at? dir = some (.dir entries) := by rw [at?, hwalk, Option.bind_some, hplace]
  have hdir : d.isDirAt place = true := (d.isDirAt_iff place).mpr ⟨entries, hplace⟩
  have hfile : d.root.sub (place ++ [name]) = some (.file data) := by
    rw [Artifact.sub_append, hplace]
    exact hentry
  have hat' : d.at? (dir ++ [name]) = some (.file data) := by
    rw [at?, walk_append, hwalk, Option.bind_some, walk, if_pos hdir, if_neg hname, walk, hfile]
    exact hfile
  refine ⟨?_, ?_, ?_⟩
  · rw [Disk.isDir, hat]
    rfl
  · rw [Disk.isFile, hat']
    rfl
  · rw [sortedNames, List.mem_insertionSort, hat]
    exact Artifact.mem_of_subIn hentry

end Disk
