import Whooshd.External.Containing

namespace Whooshd.External
set_option autoImplicit true

/-- The file that the directory of a model is recognised by. -/
def IsMark (fmt : ModelFormat) (name : String) : Prop :=
  match fmt with
  | .gguf => Text.endsWith ".gguf" name = true
  | .mlx => name = "config.json"
  | .safetensors => name = "config.json" ∨ Text.endsWith ".safetensors" name = true

theorem directoryPath_of_mark (h : host.disk.Holds dir name) (hmark : IsMark fmt name) :
    ∃ path, directoryPath host none dir fmt = some path := by
  cases fmt with
  | gguf =>
    have hlisted : name ∈ globNames host dir ".gguf" := List.mem_filter.mpr ⟨h.listed, hmark⟩
    cases hnames : globNames host dir ".gguf" with
    | nil => exact absurd (hnames ▸ hlisted) List.not_mem_nil
    | cons first names => exact ⟨_, by rw [directoryPath, hnames]; rfl⟩
  | mlx =>
    obtain rfl : name = "config.json" := hmark
    exact ⟨_, if_pos h.isFile⟩
  | safetensors =>
    have hmatch : ∃ matched, safetensorsMatch host dir = some matched := by
      unfold safetensorsMatch
      split
      · exact ⟨_, rfl⟩
      · rename_i hconfig
        rcases hmark with rfl | hmark
        · exact absurd h.isFile hconfig
        · have hlisted : name ∈ globNames host dir ".safetensors" :=
            List.mem_filter.mpr ⟨h.listed, hmark⟩
          rw [if_neg]
          · exact ⟨_, rfl⟩
          · intro hempty
            rw [List.isEmpty_iff] at hempty
            exact absurd (hempty ▸ hlisted) List.not_mem_nil
    obtain ⟨matched, hmatch⟩ := hmatch
    exact ⟨_, by rw [directoryPath, hmatch]; rfl⟩

/-- A directory that is found at a place too high up lets the search out of its root. -/
theorem not_resolverContains [Interpreter] {disk : Disk}
    (hfmt : resolveFormat host format modelId = some fmt)
    (hsplit : splitModelId modelId = some (publisher, repo))
    (h : disk.Holds (candidateDir root fmt publisher repo) name) (hmark : IsMark fmt name)
    (hhigh : (ResolvedPath.ofParts (candidateDir root fmt publisher repo)).parts.length +
      (if fmt = .gguf then 1 else 0) < root.parts.length + 3) :
    ¬ ResolverContains host format modelId := by
  intro hcontains
  have hmarked : ∃ path, directoryPath { host with disk } none
      (candidateDir root fmt publisher repo) fmt = some path := directoryPath_of_mark h hmark
  obtain ⟨path, hpath⟩ := hmarked
  have hlocated : (resolveModel { host with disk }
      { modelId, format, searchPaths := [root] }).located = some path := by
    have hfmt' : resolveFormat { host with disk } format modelId = some fmt := hfmt
    simp only [resolveModel, hfmt', hsplit, searchRoots_located, List.find?_cons, h.isDir]
    exact hpath
  obtain ⟨hfound, hresult⟩ := (located_eq_some _ _).mp hlocated
  obtain ⟨p, root', fmt', rest, hresult', hroot, hformat, hparts, hlength⟩ :=
    (hcontains disk host.locate none).1 [root] hfound
  rw [List.mem_singleton] at hroot
  subst hroot
  rw [hresult, Option.some.injEq] at hresult'
  subst hresult'
  obtain ⟨tail, hstr, -, htail⟩ := directoryPath_eq_some hpath
  obtain rfl := ResolvedPath.str_injective hstr
  have hshort := ResolvedPath.length_ofParts_append (candidateDir root' fmt publisher repo) tail
  rw [hparts, List.length_append, List.length_cons, htail] at hshort
  omega

/-- The root that a search is led out of. -/
def searchRoot : ResolvedPath := ⟨["models"], by decide⟩

/-- A file that a model is recognised by; it has another name than the given one if there is
a choice. -/
def markBeside (fmt : ModelFormat) (name : String) : String :=
  match fmt with
  | .gguf => if name = "model.gguf" then "weights.gguf" else "model.gguf"
  | .mlx => "config.json"
  | .safetensors => if name = "config.json" then "model.safetensors" else "config.json"

theorem markBeside_isMark (fmt : ModelFormat) (name : String) :
    IsMark fmt (markBeside fmt name) ∧ IsPathName (markBeside fmt name) := by
  cases fmt with
  | gguf =>
    by_cases h : name = "model.gguf"
    · simp only [IsMark, markBeside, if_pos h]
      decide
    · simp only [IsMark, markBeside, if_neg h]
      decide
  | mlx =>
    simp only [IsMark, markBeside]
    decide
  | safetensors =>
    by_cases h : name = "config.json"
    · simp only [IsMark, markBeside, if_pos h]
      decide
    · simp only [IsMark, markBeside, if_neg h]
      decide

theorem markBeside_ne (h : fmt = .mlx → name ≠ "config.json") : name ≠ markBeside fmt name := by
  cases fmt with
  | gguf =>
    by_cases hname : name = "model.gguf"
    · simp [markBeside, hname]
    · simp [markBeside, hname]
  | mlx => exact h rfl
  | safetensors =>
    by_cases hname : name = "config.json"
    · simp [markBeside, hname]
    · simp [markBeside, hname]

/-- Entries that stand together in a directory. -/
structure Entries where
  list : List (String × Artifact)
  distinct : Artifact.DistinctIn list
  named : Artifact.NamedIn list

namespace Entries

def empty : Entries := ⟨[], trivial, trivial⟩

def file (name : String) (hname : IsPathName name) : Entries :=
  ⟨[(name, .file [])], ⟨by simp, trivial, trivial⟩, ⟨hname, trivial, trivial⟩⟩

/-- The entries with a directory beside them. -/
def withDir (e : Entries) (name : String) (hname : IsPathName name) (inner : Entries)
    (hnew : ∀ entry ∈ e.list, entry.1 ≠ name) : Entries :=
  ⟨(name, .dir inner.list) :: e.list, ⟨hnew, inner.distinct, e.distinct⟩,
    ⟨hname, inner.named, e.named⟩⟩

def disk (e : Entries) : Disk := ⟨.dir e.list, e.distinct, e.named⟩

end Entries

/-- A file tree by what stands in the directory of the format, beside it and beside the root. -/
def modelsDisk (fmt : ModelFormat) (inner beside outer : Entries)
    (hbeside : ∀ e ∈ beside.list, e.1 ≠ fmt.value) (houter : ∀ e ∈ outer.list, e.1 ≠ "models") :
    Disk :=
  (outer.withDir "models" (by decide) (beside.withDir fmt.value (fmt_isPathName fmt) inner hbeside)
    houter).disk

section ModelsDisk

variable {fmt : ModelFormat} {inner beside outer : Entries}
  {hbeside : ∀ e ∈ beside.list, e.1 ≠ fmt.value}
  {houter : ∀ e ∈ outer.list, e.1 ≠ "models"}

theorem modelsDisk_root : (modelsDisk fmt inner beside outer hbeside houter).root.sub [] =
    some (.dir (("models", .dir ((fmt.value, .dir inner.list) :: beside.list)) :: outer.list)) :=
  rfl

theorem modelsDisk_models :
    (modelsDisk fmt inner beside outer hbeside houter).root.sub ["models"] =
      some (.dir ((fmt.value, .dir inner.list) :: beside.list)) := rfl

theorem modelsDisk_format :
    (modelsDisk fmt inner beside outer hbeside houter).root.sub ["models", fmt.value] =
      some (.dir inner.list) := by
  simp [modelsDisk, Entries.withDir, Entries.disk]

theorem walk_candidateDir (publisher repo : String) :
    (modelsDisk fmt inner beside outer hbeside houter).walk []
        (candidateDir searchRoot fmt publisher repo) =
      (modelsDisk fmt inner beside outer hbeside houter).walk ["models", fmt.value]
        (ResolvedPath.split publisher ++ ResolvedPath.split repo) := by
  have hcandidate : candidateDir searchRoot fmt publisher repo =
      "models" :: fmt.value :: (ResolvedPath.split publisher ++ ResolvedPath.split repo) := rfl
  rw [hcandidate, Disk.walk_name modelsDisk_root (by decide), List.nil_append,
    Disk.walk_name modelsDisk_models (fmt_isPathName fmt).2.2.2]
  rfl

/-- Some file tree has a model at a place that is too high up. -/
def LeadsOut (fmt : ModelFormat) (publisher repo : String) : Prop :=
  ∃ disk name, Disk.Holds disk (candidateDir searchRoot fmt publisher repo) name ∧
    IsMark fmt name ∧
    (ResolvedPath.ofParts (candidateDir searchRoot fmt publisher repo)).parts.length +
      (if fmt = .gguf then 1 else 0) < searchRoot.parts.length + 3

/-- The search takes the steps from the directory of the format to a place with a model. -/
theorem leadsOut_of_walk (inner beside outer : Entries)
    (hbeside : ∀ e ∈ beside.list, e.1 ≠ fmt.value) (houter : ∀ e ∈ outer.list, e.1 ≠ "models")
    (name : String) (hsteps : ResolvedPath.split publisher ++ ResolvedPath.split repo = steps)
    (hwalk : (modelsDisk fmt inner beside outer hbeside houter).walk ["models", fmt.value] steps =
      some place)
    (hplace : (modelsDisk fmt inner beside outer hbeside houter).root.sub place =
      some (.dir entries))
    (hentry : Artifact.subIn entries (markBeside fmt name) [] = some (.file []))
    (hhigh : (ResolvedPath.ofParts (["models", fmt.value] ++ steps)).parts.length +
        (if fmt = .gguf then 1 else 0) < 4) : LeadsOut fmt publisher repo := by
  obtain ⟨hmark, hname⟩ := markBeside_isMark fmt name
  subst hsteps
  refine ⟨_, _, .of_walk ?_ hplace hentry hname.2.2.2, hmark, hhigh⟩
  rw [walk_candidateDir, hwalk]

end ModelsDisk

theorem fmt_ne_up (fmt : ModelFormat) : fmt.value ≠ ".." := (fmt_isPathName fmt).2.2.2

/-- The file that a model is recognised by, alone in its directory. -/
def markOnly (fmt : ModelFormat) (name : String) : Entries :=
  .file (markBeside fmt name) (markBeside_isMark fmt name).2

theorem markOnly_entry (fmt : ModelFormat) (name : String) :
    Artifact.subIn (markOnly fmt name).list (markBeside fmt name) [] = some (.file []) := by
  rw [markOnly, Entries.file, Artifact.subIn_cons_self, Artifact.sub_nil]

theorem markOnly_ne (h : markBeside fmt name ≠ other) :
    ∀ e ∈ (markOnly fmt name).list, e.1 ≠ other := by
  intro e he
  rw [markOnly, Entries.file, List.mem_singleton] at he
  exact he ▸ h

theorem empty_ne (name : String) : ∀ e ∈ Entries.empty.list, e.1 ≠ name :=
  fun _ he => absurd he List.not_mem_nil

theorem gguf_le (fmt : ModelFormat) : (if fmt = .gguf then 1 else 0) ≤ 1 := by
  split
  · exact Nat.le_refl 1
  · exact Nat.zero_le 1

theorem format_parts (fmt : ModelFormat) :
    (ResolvedPath.ofParts ["models", fmt.value]).parts.length = 2 := by
  cases fmt with
  | gguf => decide
  | mlx => decide
  | safetensors => decide

theorem ofParts_back (fmt : ModelFormat) (steps : List String) :
    ResolvedPath.ofParts (["models", fmt.value] ++ ".." :: steps) =
      ResolvedPath.ofParts (["models"] ++ steps) :=
  ResolvedPath.ofParts_up (fmt_ne_up fmt) ["models"] steps

theorem leadsOut_format (h : ResolvedPath.split publisher ++ ResolvedPath.split repo = []) :
    LeadsOut fmt publisher repo := by
  refine leadsOut_of_walk (markOnly fmt "") .empty .empty (empty_ne _) (empty_ne _) "" h
    (Disk.walk_end modelsDisk_format) modelsDisk_format (markOnly_entry fmt "") ?_
  have hgguf := gguf_le fmt
  rw [List.append_nil, format_parts]
  omega

theorem leadsOut_root (h : ResolvedPath.split publisher ++ ResolvedPath.split repo = [".."]) :
    LeadsOut fmt publisher repo := by
  have hmark : markBeside fmt "" ≠ fmt.value := by
    cases fmt with
    | gguf => decide
    | mlx => decide
    | safetensors => decide
  refine leadsOut_of_walk .empty (markOnly fmt "") .empty (markOnly_ne hmark) (empty_ne _) "" h
    ?_ modelsDisk_models ?_ ?_
  · rw [Disk.walk_up modelsDisk_format]
    exact Disk.walk_end modelsDisk_models
  · rw [Artifact.subIn_cons_ne hmark.symm, markOnly_entry]
  · have hgguf := gguf_le fmt
    have hroot : (ResolvedPath.ofParts (["models"] ++ [])).parts.length = 1 := by decide
    rw [ofParts_back, hroot]
    omega

/-- The search goes back to where the root stands. -/
theorem leadsOut_above
    (h : ResolvedPath.split publisher ++ ResolvedPath.split repo = ["..", ".."]) :
    LeadsOut fmt publisher repo := by
  have hmark : markBeside fmt "" ≠ "models" := by
    cases fmt with
    | gguf => decide
    | mlx => decide
    | safetensors => decide
  refine leadsOut_of_walk .empty .empty (markOnly fmt "") (empty_ne _) (markOnly_ne hmark) "" h
    ?_ modelsDisk_root ?_ ?_
  · rw [Disk.walk_up modelsDisk_format]
    exact (Disk.walk_up modelsDisk_models []).trans (Disk.walk_end modelsDisk_root)
  · rw [Artifact.subIn_cons_ne hmark.symm, markOnly_entry]
  · have hgguf := gguf_le fmt
    have habove : (ResolvedPath.ofParts (["models"] ++ [".."])).parts.length = 0 := by decide
    rw [ofParts_back, habove]
    omega

theorem leadsOut_beside (hname : IsPathName name)
    (h : ResolvedPath.split publisher ++ ResolvedPath.split repo = ["..", name]) :
    LeadsOut fmt publisher repo := by
  have hhigh : (ResolvedPath.ofParts (["models", fmt.value] ++ ["..", name])).parts.length +
      (if fmt = .gguf then 1 else 0) < 4 := by
    have hgguf := gguf_le fmt
    have hone := ResolvedPath.length_ofParts_append ["models"] [name]
    have hroot : (ResolvedPath.ofParts ["models"]).parts.length = 1 := by decide
    rw [hroot, List.length_singleton] at hone
    rw [ofParts_back]
    omega
  by_cases hsame : name = fmt.value
  · subst hsame
    refine leadsOut_of_walk (markOnly fmt "") .empty .empty (empty_ne _) (empty_ne _) "" h
      ?_ modelsDisk_format (markOnly_entry fmt "") hhigh
    rw [Disk.walk_up modelsDisk_format]
    exact (Disk.walk_name modelsDisk_models (fmt_ne_up fmt) []).trans
      (Disk.walk_end modelsDisk_format)
  · have hbeside : ∀ e ∈ (Entries.empty.withDir name hname (markOnly fmt "") (empty_ne _)).list,
        e.1 ≠ fmt.value := by
      intro e he
      rcases List.mem_singleton.mp he
      exact hsame
    have hplace : (modelsDisk fmt .empty
        (Entries.empty.withDir name hname (markOnly fmt "") (empty_ne _)) .empty hbeside
        (empty_ne _)).root.sub ["models", name] = some (.dir (markOnly fmt "").list) := by
      simp [modelsDisk, Entries.withDir, Entries.disk, Artifact.subIn_cons_ne (Ne.symm hsame)]
    refine leadsOut_of_walk _ _ _ hbeside (empty_ne _) "" h ?_ hplace (markOnly_entry fmt "") hhigh
    rw [Disk.walk_up modelsDisk_format]
    exact (Disk.walk_name modelsDisk_models hname.2.2.2 []).trans (Disk.walk_end hplace)

/-- The search goes to a directory in the one of the format, and no file adds a level. -/
theorem leadsOut_publisher (hname : IsPathName name) (hfmt : fmt ≠ .gguf)
    (h : ResolvedPath.split publisher ++ ResolvedPath.split repo = [name]) :
    LeadsOut fmt publisher repo := by
  have hplace : (modelsDisk fmt (Entries.empty.withDir name hname (markOnly fmt "") (empty_ne _))
      .empty .empty (empty_ne _) (empty_ne _)).root.sub ["models", fmt.value, name] =
        some (.dir (markOnly fmt "").list) := by
    simp [modelsDisk, Entries.withDir, Entries.disk]
  refine leadsOut_of_walk _ _ _ (empty_ne _) (empty_ne _) "" h ?_ hplace (markOnly_entry fmt "") ?_
  · exact (Disk.walk_name modelsDisk_format hname.2.2.2 []).trans (Disk.walk_end hplace)
  · have hone := ResolvedPath.length_ofParts_append ["models", fmt.value] [name]
    rw [format_parts, List.length_singleton] at hone
    rw [if_neg hfmt]
    omega

/-- The search goes into a directory and back to the one of the format. -/
theorem leadsOut_back (hname : IsPathName name) (hmlx : fmt = .mlx → name ≠ "config.json")
    (h : ResolvedPath.split publisher ++ ResolvedPath.split repo = [name, ".."]) :
    LeadsOut fmt publisher repo := by
  have hmark : name ≠ markBeside fmt name := markBeside_ne hmlx
  have hplace : (modelsDisk fmt ((markOnly fmt name).withDir name hname .empty
      (markOnly_ne hmark.symm)) .empty .empty (empty_ne _) (empty_ne _)).root.sub
        ["models", fmt.value, name] = some (.dir Entries.empty.list) := by
    simp [modelsDisk, Entries.withDir, Entries.disk]
  refine leadsOut_of_walk ((markOnly fmt name).withDir name hname .empty (markOnly_ne hmark.symm))
    .empty .empty (empty_ne _) (empty_ne _) name h ?_ modelsDisk_format ?_ ?_
  · rw [Disk.walk_name modelsDisk_format hname.2.2.2]
    exact (Disk.walk_up hplace []).trans (Disk.walk_end modelsDisk_format)
  · rw [Entries.withDir, Artifact.subIn_cons_ne hmark, markOnly_entry]
  · have hgguf := gguf_le fmt
    rw [ResolvedPath.ofParts_up hname.2.2.2, List.append_nil, format_parts]
    omega

theorem splitModelId_components (h : splitModelId modelId = some (publisher, repo)) :
    (publisher ≠ "" ∧ '/' ∉ publisher.toList) ∧ repo ≠ "" ∧ '/' ∉ repo.toList := by
  unfold splitModelId at h
  split at h
  · rename_i publisher' repo' hparts
    split at h
    · cases h
    · rename_i hempty
      cases h
      have hslash : ∀ part ∈ modelId.toList.splitOn '/', '/' ∉ part :=
        fun part hpart => ResolvedPath.not_mem_of_mem_splitOn hpart
      rw [hparts, List.forall_mem_cons, List.forall_mem_singleton] at hslash
      simpa [hslash] using hempty
  · cases h

theorem component_cases (hne : c ≠ "") (hslash : '/' ∉ c.toList) :
    c = "." ∨ c = ".." ∨ IsPathName c := by
  by_cases hdot : c = "."
  · exact .inl hdot
  · by_cases hup : c = ".."
    · exact .inr (.inl hup)
    · exact .inr (.inr ⟨hne, hslash, hdot, hup⟩)

/-- Every other pair of components is led out on some file tree. -/
theorem leadsOut_of_not_keepsLayout (h : ¬ KeepsLayout fmt publisher repo)
    (hpublisher : publisher = "." ∨ publisher = ".." ∨ IsPathName publisher)
    (hrepo : repo = "." ∨ repo = ".." ∨ IsPathName repo) : LeadsOut fmt publisher repo := by
  rcases hpublisher with rfl | rfl | hpublisher
  · rcases hrepo with rfl | rfl | hrepo
    · exact leadsOut_format (by decide)
    · exact leadsOut_root (by decide)
    · have hfmt : fmt ≠ .gguf := fun hfmt => h (.inr (.inl ⟨hfmt, .inl ⟨rfl, hrepo⟩⟩))
      apply leadsOut_publisher hrepo hfmt
      rw [ResolvedPath.split_dot, ResolvedPath.split_name hrepo, List.nil_append]
  · rcases hrepo with rfl | rfl | hrepo
    · exact leadsOut_root (by decide)
    · exact leadsOut_above (by decide)
    · apply leadsOut_beside hrepo
      rw [ResolvedPath.split_up, ResolvedPath.split_name hrepo]
      rfl
  · rcases hrepo with rfl | rfl | hrepo
    · have hfmt : fmt ≠ .gguf := fun hfmt => h (.inr (.inl ⟨hfmt, .inr ⟨hpublisher, rfl⟩⟩))
      apply leadsOut_publisher hpublisher hfmt
      rw [ResolvedPath.split_dot, ResolvedPath.split_name hpublisher, List.append_nil]
    · have hmlx : fmt = .mlx → publisher ≠ "config.json" :=
        fun hfmt hconfig => h (.inr (.inr ⟨hfmt, hconfig, rfl⟩))
      apply leadsOut_back hpublisher hmlx
      rw [ResolvedPath.split_up, ResolvedPath.split_name hpublisher]
      rfl
    · exact absurd (.inl ⟨hpublisher, hrepo⟩) h

/-- The searches for an id stay in their roots exactly when its components keep the layout. -/
theorem resolverContains_iff [Interpreter] (host : Host) (format : Option String)
    (modelId : String) :
    ResolverContains host format modelId ↔
      ∀ fmt publisher repo, resolveFormat host format modelId = some fmt →
        splitModelId modelId = some (publisher, repo) → KeepsLayout fmt publisher repo := by
  constructor
  · intro h fmt publisher repo hfmt hsplit
    by_contra hout
    obtain ⟨⟨hpublisher, hslash⟩, hrepo, hslash'⟩ := splitModelId_components hsplit
    obtain ⟨disk, name, hholds, hmark, hhigh⟩ := leadsOut_of_not_keepsLayout hout
      (component_cases hpublisher hslash) (component_cases hrepo hslash')
    exact not_resolverContains hfmt hsplit hholds hmark hhigh h
  · intro h disk locate quant
    exact ⟨fun searchPaths => resolveModel_contained h,
      fun searchPaths routes => (resolveModel_contained h).of_routes⟩

/-- A file tree with something beside the directory of the format that is no model of it. -/
def privateRoot : Artifact :=
  .dir [("models", .dir [("safetensors", .dir []), ("private", .dir [("config.json", .file [])])])]

theorem privateRoot_distinct : privateRoot.Distinct := by
  simp only [privateRoot, Artifact.Distinct, Artifact.DistinctIn]
  decide

theorem privateRoot_named : privateRoot.Named := by
  simp only [privateRoot, Artifact.Named, Artifact.NamedIn]
  decide

def privateHost : Host where
  disk := ⟨privateRoot, privateRoot_distinct, privateRoot_named⟩
  locate := fun path => .ofParts [path]
  cases := .ascii
  knownQuants := twoQuantsHost.knownQuants

section
attribute [local instance] latin1Interpreter

theorem private_directory_found : ¬ ResolverContains privateHost none "../private" := by
  intro h
  obtain ⟨path, root, fmt, rest, hpath, hroot, -, hparts, hlength⟩ :=
    (h privateHost.disk privateHost.locate none).1 [searchRoot] (by decide +kernel)
  have hfound : (resolveModel privateHost
      { modelId := "../private", searchPaths := [searchRoot] }).path =
        some (ResolvedPath.str (.ofParts ["models", "private"])) := by decide +kernel
  rw [hfound, Option.some.injEq] at hpath
  have hlong := congrArg List.length hparts
  rw [← ResolvedPath.str_injective hpath, List.mem_singleton.mp hroot, List.length_append,
    List.length_cons] at hlong
  have hshort : (ResolvedPath.ofParts ["models", "private"]).parts.length = 2 := by decide
  have hone : searchRoot.parts.length = 1 := rfl
  omega

end

end Whooshd.External
