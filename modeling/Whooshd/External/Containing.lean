import Whooshd.External.Agreement

namespace Whooshd.External
set_option autoImplicit true

def RoutePath.text : RoutePath → String
  | given path => path
  | resolved path => path.str

/-- An entry of `unavailable_routes`. -/
structure UnavailableRoute where
  id : String
  status : ExternalRouteStatus
  path : String
  reason : Option String

def ExternalWeightRouteStatus.unavailable (s : ExternalWeightRouteStatus) : UnavailableRoute :=
  { id := s.id, status := s.status, path := s.path.text, reason := s.reason }

/-- A result whose metadata also tells which routes there are. -/
structure RouteResolutionResult extends ModelResolutionResult where
  routeIdsChecked : List String
  availableRouteIds : List String
  unavailableRoutes : List UnavailableRoute

/-- The search paths of the request are ignored: the routes supply them. -/
def resolveModelFromRoutes [Interpreter] (host : Host) (request : ModelResolutionRequest)
    (routes : List ExternalWeightRoute) : RouteResolutionResult :=
  let allStatuses := validateAllRoutes host routes
  let enriched (result : ModelResolutionResult) : RouteResolutionResult :=
    { result with
      routeIdsChecked := allStatuses.map (·.id)
      availableRouteIds := (allStatuses.filter (·.available)).map (·.id)
      unavailableRoutes := (allStatuses.filter (!·.available)).map (·.unavailable) }
  let availablePaths := getAvailableRoutePaths host routes
  if availablePaths.isEmpty then
    enriched
      { status := .missing, modelId := request.modelId, format := request.format
        reason := some "no external weight routes are available" }
  else
    let result := resolveModel host { request with searchPaths := availablePaths }
    if result.status = .found then enriched { result with source := some "external" }
    else
      let reason := result.reason.getD ""
      enriched
        { result with
          reason := some (if reason = "" then "model not found in any external weight route"
            else reason) }

/-- What is found lies below the directory of its format in one of the roots, at least two
components down. -/
def Contained (roots : List ResolvedPath) (r : ModelResolutionResult) : Prop :=
  r.status = .found → ∃ path root fmt rest, r.path = some (ResolvedPath.str path) ∧ root ∈ roots ∧
    r.format = some (ModelFormat.value fmt) ∧ path.parts = root.parts ++ fmt.value :: rest ∧
    2 ≤ rest.length

/-- On every file tree the searches for a model stay in their roots. -/
def ResolverContains [Interpreter] (host : Host) (format : Option String)
    (modelId : String) : Prop :=
  ∀ disk locate quant,
    (∀ searchPaths, Contained searchPaths
      (resolveModel { host with disk, locate } { modelId, format, quant, searchPaths })) ∧
    ∀ searchPaths routes, Contained (routes.map fun route => locate route.path)
      (resolveModelFromRoutes { host with disk, locate } { modelId, format, quant, searchPaths }
        routes).toModelResolutionResult

/-- Both components are names; where the file of the model adds a level of its own, one of them
may be a dot. The last pair leads back to the directory of the format, but nothing is found
there: `config.json` would have to be a directory and a file. -/
def KeepsLayout (fmt : ModelFormat) (publisher repo : String) : Prop :=
  IsPathName publisher ∧ IsPathName repo ∨
  fmt = .gguf ∧ (publisher = "." ∧ IsPathName repo ∨ IsPathName publisher ∧ repo = ".") ∨
  fmt = .mlx ∧ publisher = "config.json" ∧ repo = ".."

theorem validateDirectory_format [Interpreter]
    (h : validateDirectory host dir fmt quant modelId runtime checked = some r) :
    r.format = some fmt.value ∧ (r.status = .found → r.path.isSome = true) := by
  unfold validateDirectory at h
  split at h
  · cases h
  · cases fmt with
    | gguf =>
      cases h
      simp only [validateGguf]
      split
      · exact ⟨rfl, fun hfound => by cases hfound⟩
      · split
        · exact ⟨rfl, fun hfound => by cases hfound⟩
        · exact ⟨rfl, fun _ => rfl⟩
    | mlx =>
      cases h
      simp only [validateMlx]
      split
      · exact ⟨rfl, fun hfound => by cases hfound⟩
      · exact ⟨rfl, fun _ => rfl⟩
    | safetensors =>
      cases h
      simp only [validateSafetensors]
      split
      · exact ⟨rfl, fun hfound => by cases hfound⟩
      · exact ⟨rfl, fun _ => rfl⟩

theorem searchRoots_format [Interpreter] (host : Host) (fmt : ModelFormat)
    (quant : Option String) (modelId publisher repo : String) (checked : List String)
    (roots : List ResolvedPath) :
    (searchRoots host fmt quant modelId publisher repo checked roots).format = some fmt.value ∧
      ((searchRoots host fmt quant modelId publisher repo checked roots).status = .found →
        (searchRoots host fmt quant modelId publisher repo checked roots).path.isSome = true) := by
  induction roots generalizing checked with
  | nil => exact ⟨rfl, fun hfound => by cases hfound⟩
  | cons root roots ih =>
    rw [searchRoots]
    split
    · rename_i r hr
      exact validateDirectory_format hr
    · exact ih _

/-- What is found is what the directory of the model in one of the roots resolves to. -/
theorem resolveModel_found [Interpreter] (h : (resolveModel host request).status = .found) :
    ∃ fmt publisher repo root path,
      resolveFormat host request.format request.modelId = some fmt ∧
      splitModelId request.modelId = some (publisher, repo) ∧ root ∈ request.searchPaths ∧
      host.disk.isDir (candidateDir root fmt publisher repo) = true ∧
      directoryPath host request.quant (candidateDir root fmt publisher repo) fmt = some path ∧
      (resolveModel host request).path = some path ∧
      (resolveModel host request).format = some fmt.value := by
  unfold resolveModel at h ⊢
  cases hfmt : resolveFormat host request.format request.modelId with
  | none =>
    rw [hfmt] at h
    cases h
  | some fmt =>
    cases hsplit : splitModelId request.modelId with
    | none =>
      rw [hfmt, hsplit] at h
      cases h
    | some parts =>
      obtain ⟨publisher, repo⟩ := parts
      simp only [hfmt, hsplit] at h ⊢
      obtain ⟨hformat, hpath⟩ := searchRoots_format host fmt request.quant request.modelId
        publisher repo [] request.searchPaths
      obtain ⟨path, hpath⟩ := Option.isSome_iff_exists.mp (hpath h)
      have hlocated := (located_eq_some _ path).mpr ⟨h, hpath⟩
      rw [searchRoots_located, Option.bind_eq_some_iff] at hlocated
      obtain ⟨root, hroot, hdir⟩ := hlocated
      have hisDir : host.disk.isDir (candidateDir root fmt publisher repo) = true := by
        simpa using List.find?_some hroot
      exact ⟨fmt, publisher, repo, root, path, rfl, rfl, List.mem_of_find?_eq_some hroot, hisDir,
        hdir, hpath, hformat⟩

theorem directoryPath_below
    (hnames : ∀ n ∈ ResolvedPath.split publisher ++ ResolvedPath.split repo, IsPathName n)
    (hlength : 2 ≤ (ResolvedPath.split publisher ++ ResolvedPath.split repo).length +
      if fmt = .gguf then 1 else 0)
    (h : directoryPath host quant (candidateDir root fmt publisher repo) fmt = some path) :
    ∃ p rest, path = ResolvedPath.str p ∧ p.parts = root.parts ++ fmt.value :: rest ∧
      2 ≤ rest.length := by
  obtain ⟨tail, rfl, htail, htailLength⟩ := directoryPath_eq_some h
  have hall : ∀ n ∈ candidateDir root fmt publisher repo ++ tail, IsPathName n := by
    intro n hn
    rcases List.mem_append.mp hn with hn | hn
    · rcases List.mem_append.mp hn with hn | hn
      · exact root.names n hn
      · rcases List.mem_cons.mp hn with rfl | hn
        · exact fmt_isPathName fmt
        · exact hnames n hn
    · exact htail n hn
  refine ⟨_, ResolvedPath.split publisher ++ ResolvedPath.split repo ++ tail, rfl, ?_, ?_⟩
  · rw [ResolvedPath.ofParts_names hall]
    simp [candidateDir]
  · rw [List.length_append, htailLength]
    exact hlength

/-- A `config.json` that is gone through as a directory is no file. -/
theorem directoryPath_config_up (root : ResolvedPath)
    (hdir : host.disk.isDir (candidateDir root .mlx "config.json" "..") = true) :
    directoryPath host quant (candidateDir root .mlx "config.json" "..") .mlx = none := by
  have hname : ResolvedPath.split "config.json" = ["config.json"] := by decide
  have hcandidate : candidateDir root .mlx "config.json" ".." =
      (root.parts ++ ["mlx"]) ++ ["config.json", ".."] := by
    rw [candidateDir, hname, ResolvedPath.split_up, List.append_assoc]
    rfl
  rw [directoryPath, if_neg]
  intro hfile
  rw [hcandidate] at hdir hfile
  generalize root.parts ++ ["mlx"] = base at hdir hfile
  rw [Disk.isDir, Disk.at?, Disk.walk_append] at hdir
  rw [Disk.isFile, Disk.at?, Disk.walk_append, Disk.walk_append] at hfile
  cases hbase : host.disk.walk [] base with
  | none => simp [hbase] at hdir
  | some place =>
    by_cases hplace : host.disk.isDirAt place = true
    · by_cases hconfig : host.disk.isDirAt (place ++ ["config.json"]) = true
      · obtain ⟨entries, hentries⟩ := (host.disk.isDirAt_iff place).mp hplace
        obtain ⟨inner, hinner⟩ := (host.disk.isDirAt_iff _).mp hconfig
        simp [hbase, Disk.walk, hplace, hconfig, hentries, hinner, Artifact.isDir] at hfile
      · simp [hbase, Disk.walk, hplace, hconfig] at hdir
    · simp [hbase, Disk.walk, hplace] at hdir

theorem KeepsLayout.directoryPath_below (h : KeepsLayout fmt publisher repo)
    (hdir : host.disk.isDir (candidateDir root fmt publisher repo) = true)
    (hpath : directoryPath host quant (candidateDir root fmt publisher repo) fmt = some path) :
    ∃ p rest, path = ResolvedPath.str p ∧ p.parts = root.parts ++ fmt.value :: rest ∧
      2 ≤ rest.length := by
  rcases h with ⟨hpublisher, hrepo⟩ | ⟨rfl, ⟨rfl, hrepo⟩ | ⟨hpublisher, rfl⟩⟩ | ⟨rfl, rfl, rfl⟩
  · apply Whooshd.External.directoryPath_below _ _ hpath
    · rw [ResolvedPath.split_name hpublisher, ResolvedPath.split_name hrepo]
      simp [hpublisher, hrepo]
    · rw [ResolvedPath.split_name hpublisher, ResolvedPath.split_name hrepo]
      exact Nat.le_add_right 2 _
  · apply Whooshd.External.directoryPath_below _ _ hpath
    · rw [ResolvedPath.split_dot, ResolvedPath.split_name hrepo]
      simp [hrepo]
    · rw [ResolvedPath.split_dot, ResolvedPath.split_name hrepo]
      exact Nat.le_refl 2
  · apply Whooshd.External.directoryPath_below _ _ hpath
    · rw [ResolvedPath.split_name hpublisher, ResolvedPath.split_dot]
      simp [hpublisher]
    · rw [ResolvedPath.split_name hpublisher, ResolvedPath.split_dot]
      exact Nat.le_refl 2
  · rw [directoryPath_config_up root hdir] at hpath
    cases hpath

theorem resolveModel_contained [Interpreter] {request : ModelResolutionRequest}
    (h : ∀ fmt publisher repo, resolveFormat host request.format request.modelId = some fmt →
      splitModelId request.modelId = some (publisher, repo) → KeepsLayout fmt publisher repo) :
    Contained request.searchPaths (resolveModel host request) := by
  intro hfound
  obtain ⟨fmt, publisher, repo, root, path, hfmt, hsplit, hroot, hdir, hdirPath, hpath, hformat⟩ :=
    resolveModel_found hfound
  obtain ⟨p, rest, rfl, hparts, hlength⟩ :=
    (h fmt publisher repo hfmt hsplit).directoryPath_below hdir hdirPath
  exact ⟨p, root, fmt, rest, hpath, hroot, hformat, hparts, hlength⟩

theorem resolveModelFromRoutes_found [Interpreter]
    (h : (resolveModelFromRoutes host request routes).status = .found) :
    (resolveModel host { request with searchPaths := getAvailableRoutePaths host routes }).status =
        .found ∧
      (resolveModelFromRoutes host request routes).path =
        (resolveModel host
          { request with searchPaths := getAvailableRoutePaths host routes }).path ∧
      (resolveModelFromRoutes host request routes).format =
        (resolveModel host
          { request with searchPaths := getAvailableRoutePaths host routes }).format := by
  simp only [resolveModelFromRoutes] at h ⊢
  split at h
  · cases h
  · rename_i havailable
    rw [if_neg havailable]
    split at h
    · rename_i hfound
      rw [if_pos hfound]
      exact ⟨hfound, rfl, rfl⟩
    · rename_i hfound
      exact absurd h hfound

theorem Contained.of_routes [Interpreter] {request : ModelResolutionRequest}
    (h : Contained (getAvailableRoutePaths host routes)
      (resolveModel host { request with searchPaths := getAvailableRoutePaths host routes })) :
    Contained (routes.map fun route => host.locate route.path)
      (resolveModelFromRoutes host request routes).toModelResolutionResult := by
  intro hfound
  obtain ⟨hstatus, hpath, hformat⟩ := resolveModelFromRoutes_found hfound
  obtain ⟨path, root, fmt, rest, hpath', hroot, hformat', hparts, hlength⟩ := h hstatus
  obtain ⟨route, hroute, hlocated⟩ := mem_getAvailableRoutePaths hroot
  refine ⟨path, root, fmt, rest, hpath.trans hpath', ?_, hformat.trans hformat', hparts, hlength⟩
  rw [validateRouteStatus_root hlocated]
  exact List.mem_map_of_mem hroute

end Whooshd.External
