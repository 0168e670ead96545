import Whooshd.External.Inventory

namespace Whooshd.External
set_option autoImplicit true

/-- A model directory below a root. -/
structure Place where
  root : ResolvedPath
  fmt : ModelFormat
  publisher : String
  repo : String
  deriving DecidableEq

namespace Place

def dir (p : Place) : List String := p.root.parts ++ [p.fmt.value, p.publisher, p.repo]

def modelId (p : Place) : String := p.publisher ++ ("/" ++ p.repo)

end Place

/-- The model directories of a root, in the order of the scan. -/
def places (host : Host) (root : ResolvedPath) : List Place :=
  ModelFormat.all.flatMap fun fmt =>
    let fmtRoot := root.parts ++ [fmt.value]
    if !host.disk.isDir fmtRoot then []
    else (visibleDirs host fmtRoot).flatMap fun publisher =>
      (visibleDirs host (fmtRoot ++ [publisher])).map fun repo => ⟨root, fmt, publisher, repo⟩

/-- What a model directory holds for the inventory: a GGUF file, or the directory itself. -/
structure Offer where
  place : Place
  file : Option String
  deriving DecidableEq

def Place.offers (host : Host) (p : Place) : List Offer :=
  match p.fmt with
  | .gguf =>
    ((globNames host p.dir ".gguf").filter fun name => !Text.startsWith "." name).map
      fun name => ⟨p, some name⟩
  | .mlx => if host.disk.isFile (p.dir ++ ["config.json"]) then [⟨p, none⟩] else []
  | .safetensors => if (safetensorsMatch host p.dir).isSome then [⟨p, none⟩] else []

/-- All that the routes have to offer, in the order of the scan. -/
def offers (host : Host) (routes : List ExternalWeightRoute) : List Offer :=
  (getAvailableRoutePaths host routes).flatMap fun root =>
    (places host root).flatMap (·.offers host)

namespace Offer

/-- The public id. -/
def id (host : Host) (o : Offer) : String :=
  match o.file with
  | some name => o.place.modelId ++ (":" ++ ggufLabel host name)
  | none => o.place.modelId

def servable (o : Offer) : Bool := o.place.fmt ≠ .safetensors

def path (o : Offer) : ResolvedPath := .ofParts (o.place.dir ++ o.file.toList)

end Offer

/-- The id of the route that a root is listed under. -/
def routeIdOf (host : Host) (routes : List ExternalWeightRoute) (root : ResolvedPath) : String :=
  (pathToRoute host routes root).getD "unknown"

/-- The entry that shows the offer. -/
def Offer.entry (host : Host) (routes : List ExternalWeightRoute) (o : Offer) :
    ExternalModelInventoryEntry :=
  { id := o.id host, modelId := o.place.modelId, routeId := routeIdOf host routes o.place.root
    format := o.place.fmt.value, runtime := some o.place.fmt.runtime, path := o.path.str
    servable := o.servable
    metadata :=
      match o.file with
      | some name =>
        { matchedFile := name, quant := extractQuant host (Text.removeSuffix ".gguf" name) }
      | none =>
        { matchedFile :=
            if o.place.fmt = .mlx then "config.json"
            else (safetensorsMatch host o.place.dir).getD "" } }

/-- No other offer comes first under the same id. -/
def Offer.First (host : Host) (routes : List ExternalWeightRoute) (o : Offer) : Prop :=
  (offers host routes).find? (fun o' => o'.id host = o.id host) = some o

/-- No root that is searched earlier has a directory for the model. -/
def Unshadowed (host : Host) (routes : List ExternalWeightRoute) (p : Place) : Prop :=
  ∀ root ∈ (getAvailableRoutePaths host routes).takeWhile (· ≠ p.root),
    host.disk.isDir (Place.dir { p with root }) = false

/-- A file name matches the quant that is asked for, if one is. -/
def matchesQuant (host : Host) (quant : Option String) (name : String) : Bool :=
  quant.all fun q => nameHasQuant host q name

/-- Of the files in its directory, the one on offer is the first that matches the quant. -/
def FirstMatch (host : Host) (quant : Option String) (o : Offer) : Prop :=
  ∀ name, o.file = some name → matchesQuant host quant name = true ∧
    ∀ other ∈ globNames host o.place.dir ".gguf", other ≠ name → other ≤ name →
      matchesQuant host quant other = false

/-- No earlier root hides the offer, and the quant that is read out of its id leads to it. -/
def ReadBack (host : Host) (routes : List ExternalWeightRoute) (o : Offer) : Prop :=
  Unshadowed host routes o.place ∧ FirstMatch host (askedQuant host (o.id host)) o

/-- Every servable entry is served from the path that it shows, which lies under the root of
its route. -/
def InventoryServed [Interpreter] (host : Host) (routes : List ExternalWeightRoute) : Prop :=
  ∀ e ∈ listExternalModelInventory host routes, e.servable = true →
    ((resolveExternalRuntimeModel host e.id routes).found = true ∧
      (resolveExternalRuntimeModel host e.id routes).servable = true ∧
      (resolveExternalRuntimeModel host e.id routes).path = some e.path) ∧
    ∃ route ∈ routes, route.id = e.routeId ∧
      ∃ path, e.path = ResolvedPath.str path ∧ (host.locate route.path).Under path

theorem scanRepo_eq (host : Host) (routes : List ExternalWeightRoute) (p : Place) (scan : Scan) :
    scanRepo host p.fmt p.modelId p.dir (routeIdOf host routes p.root) scan =
      ((p.offers host).map (Offer.entry host routes)).foldl Scan.add scan := by
  obtain ⟨root, fmt, publisher, repo⟩ := p
  cases fmt with
  | gguf =>
    simp only [scanRepo, scanGgufDir, Place.offers, List.map_map, List.foldl_map, List.foldl_filter]
    congr 1
    funext scan name
    cases Text.startsWith "." name with
    | false => rfl
    | true => rfl
  | mlx =>
    simp only [scanRepo, buildEntry, buildMlxEntry, Place.offers]
    cases host.disk.isFile (Place.dir ⟨root, .mlx, publisher, repo⟩ ++ ["config.json"]) with
    | false => rfl
    | true => simp [Offer.entry, Offer.id, Offer.path, Offer.servable]
  | safetensors =>
    simp only [scanRepo, buildEntry, buildSafetensorsEntry, Place.offers]
    cases hmatch : safetensorsMatch host (Place.dir ⟨root, .safetensors, publisher, repo⟩) with
    | none => rfl
    | some matched => simp [Offer.entry, Offer.id, Offer.path, Offer.servable, hmatch]

theorem scanRoute_eq (host : Host) (routes : List ExternalWeightRoute) (root : ResolvedPath)
    (scan : Scan) :
    scanRoute host root (routeIdOf host routes root) scan =
      (((places host root).flatMap (·.offers host)).map (Offer.entry host routes)).foldl
        Scan.add scan := by
  rw [List.map_flatMap, List.foldl_flatMap]
  simp only [← scanRepo_eq]
  unfold scanRoute places
  rw [List.foldl_flatMap]
  congr 1
  funext scan fmt
  by_cases hdir : (!host.disk.isDir (root.parts ++ [fmt.value])) = true
  · simp only [if_pos hdir, List.foldl_nil]
  · simp only [if_neg hdir, List.foldl_flatMap, List.foldl_map, Place.modelId, Place.dir,
      List.append_assoc, List.cons_append, List.nil_append]

/-- The inventory is what the routes have to offer, less what comes again under an id. -/
theorem listExternalModelInventory_eq (host : Host) (routes : List ExternalWeightRoute) :
    listExternalModelInventory host routes =
      (((offers host routes).map (Offer.entry host routes)).foldl Scan.add {}).entries := by
  unfold listExternalModelInventory offers
  rw [List.map_flatMap, List.foldl_flatMap]
  simp only [← scanRoute_eq]
  rfl

theorem mem_foldl_add (l : List ExternalModelInventoryEntry) (scan : Scan)
    (hseen : scan.seenIds = scan.entries.map (·.id)) :
    e ∈ (l.foldl Scan.add scan).entries ↔
      e ∈ scan.entries ∨ e.id ∉ scan.seenIds ∧ l.find? (·.id = e.id) = some e := by
  induction l generalizing scan with
  | nil => simp
  | cons a l ih =>
    rw [List.foldl_cons, List.find?_cons]
    by_cases hmem : a.id ∈ scan.seenIds
    · rw [Scan.add, if_pos hmem, ih scan hseen]
      by_cases hid : a.id = e.id
      · rw [hid] at hmem
        simp [hmem]
      · simp [hid]
    · rw [Scan.add, if_neg hmem, ih _ (by simp [hseen])]
      by_cases hid : a.id = e.id
      · rw [hid] at hmem
        simp only [List.mem_append, List.mem_singleton, hid, or_true, not_true_eq_false,
          false_and, or_false, hmem, not_false_eq_true, decide_true, Option.some.injEq, true_and]
        exact or_congr_right eq_comm
      · have hne : e ≠ a := fun h => hid (congrArg _ h.symm)
        simp [hid, hne, Ne.symm hid]

theorem mem_inventory (host : Host) (routes : List ExternalWeightRoute)
    (e : ExternalModelInventoryEntry) :
    e ∈ listExternalModelInventory host routes ↔
      ∃ o, Offer.First host routes o ∧ e = o.entry host routes := by
  rw [listExternalModelInventory_eq, mem_foldl_add _ _ rfl, List.find?_map]
  simp only [List.not_mem_nil, false_or, not_false_eq_true, true_and, Option.map_eq_some_iff]
  constructor
  · rintro ⟨o, hfind, rfl⟩
    exact ⟨o, hfind, rfl⟩
  · rintro ⟨o, hfind, rfl⟩
    exact ⟨o, hfind, rfl⟩

theorem inventory_unique (h : e ∈ listExternalModelInventory host routes)
    (h' : e' ∈ listExternalModelInventory host routes) (hid : e.id = e'.id) : e = e' := by
  obtain ⟨o, ho, rfl⟩ := (mem_inventory host routes e).mp h
  obtain ⟨o', ho', rfl⟩ := (mem_inventory host routes e').mp h'
  have hid' : o.id host = o'.id host := hid
  unfold Offer.First at ho ho'
  rw [hid', ho'] at ho
  cases ho
  rfl

/-- Under its id the inventory finds the entry again. -/
theorem Offer.First.find (h : Offer.First host routes o) :
    (listExternalModelInventory host routes).find? (·.id = o.id host) =
      some (o.entry host routes) := by
  have hmem : o.entry host routes ∈ listExternalModelInventory host routes :=
    (mem_inventory host routes _).mpr ⟨o, h, rfl⟩
  cases hfind : (listExternalModelInventory host routes).find? (·.id = o.id host) with
  | none =>
    rw [List.find?_eq_none] at hfind
    have hne : ¬ (o.entry host routes).id = o.id host := by simpa using hfind _ hmem
    exact absurd rfl hne
  | some e =>
    have hid : e.id = o.id host := by simpa using List.find?_some hfind
    rw [inventory_unique (List.mem_of_find?_eq_some hfind) hmem hid]

/-- An offer stands in a directory that the scan has gone through. -/
structure Offer.Stands (host : Host) (routes : List ExternalWeightRoute) (o : Offer) : Prop where
  root : o.place.root ∈ getAvailableRoutePaths host routes
  dir : host.disk.isDir o.place.dir = true
  publisher : IsPathName o.place.publisher
  repo : IsPathName o.place.repo
  gguf : ∀ name, o.file = some name →
    o.place.fmt = .gguf ∧ name ∈ globNames host o.place.dir ".gguf" ∧ IsPathName name
  mlx : o.file = none → o.place.fmt = .mlx →
    host.disk.isFile (o.place.dir ++ ["config.json"]) = true
  whole : o.file = none → o.place.fmt ≠ .gguf

theorem mem_visibleDirs (h : name ∈ visibleDirs host dir) :
    IsPathName name ∧ host.disk.isDir (dir ++ [name]) = true := by
  obtain ⟨hmem, hdir⟩ := List.mem_filter.mp h
  rw [Bool.and_eq_true] at hdir
  exact ⟨Disk.isPathName_of_mem_sortedNames hmem, hdir.1⟩

theorem mem_places (h : p ∈ places host root) :
    p.root = root ∧ IsPathName p.publisher ∧ IsPathName p.repo ∧
      host.disk.isDir p.dir = true := by
  obtain ⟨fmt, -, h⟩ := List.mem_flatMap.mp h
  simp only at h
  split at h
  · cases h
  · obtain ⟨publisher, hpublisher, h⟩ := List.mem_flatMap.mp h
    obtain ⟨repo, hrepo, rfl⟩ := List.mem_map.mp h
    obtain ⟨hname, hdir⟩ := mem_visibleDirs hrepo
    refine ⟨rfl, (mem_visibleDirs hpublisher).1, hname, ?_⟩
    simpa [Place.dir] using hdir

theorem offer_stands (h : o ∈ offers host routes) : o.Stands host routes := by
  obtain ⟨root, hroot, h⟩ := List.mem_flatMap.mp h
  obtain ⟨p, hp, ho⟩ := List.mem_flatMap.mp h
  obtain ⟨rfl, hpublisher, hrepo, hdir⟩ := mem_places hp
  clear h
  unfold Place.offers at ho
  split at ho
  · rename_i hfmt
    obtain ⟨name, hname, rfl⟩ := List.mem_map.mp ho
    have hglob := (List.mem_filter.mp hname).1
    have hpath := Disk.isPathName_of_mem_sortedNames (List.mem_filter.mp hglob).1
    refine ⟨hroot, hdir, hpublisher, hrepo, ?_, by simp, by simp⟩
    intro name' hname'
    cases hname'
    exact ⟨hfmt, hglob, hpath⟩
  · rename_i hfmt
    split at ho
    · rename_i hconfig
      rw [List.mem_singleton] at ho
      subst ho
      exact ⟨hroot, hdir, hpublisher, hrepo, by simp, fun _ _ => hconfig, fun _ => by simp [hfmt]⟩
    · cases ho
  · rename_i hfmt
    split at ho
    · rw [List.mem_singleton] at ho
      subst ho
      exact ⟨hroot, hdir, hpublisher, hrepo, by simp, by simp [hfmt], fun _ => by simp [hfmt]⟩
    · cases ho

theorem resolveFormat_value (host : Host) (fmt : ModelFormat) (modelId : String) :
    resolveFormat host (some fmt.value) modelId = some fmt := by
  have hlower : host.cases.lower (Text.strip fmt.value) = fmt.value := by
    rw [host.cases.lower_ascii]
    · cases fmt with
      | gguf => decide
      | mlx => decide
      | safetensors => decide
    · cases fmt with
      | gguf => decide
      | mlx => decide
      | safetensors => decide
  rw [resolveFormat, hlower]
  cases fmt with
  | gguf => rfl
  | mlx => rfl
  | safetensors => rfl

theorem splitModelId_modelId (p : Place) (hpublisher : IsPathName p.publisher)
    (hrepo : IsPathName p.repo) : splitModelId p.modelId = some (p.publisher, p.repo) := by
  have hsplit : p.modelId.toList.splitOn '/' = [p.publisher.toList, p.repo.toList] := by
    have hjoin : p.modelId.toList =
        ['/'].intercalate [p.publisher.toList, p.repo.toList] := by
      simp [Place.modelId, List.intercalate]
    rw [hjoin]
    apply List.splitOn_intercalate
    · intro l hl
      rcases List.mem_pair.mp hl with rfl | rfl
      · exact hpublisher.2.1
      · exact hrepo.2.1
    · simp
  rw [splitModelId, hsplit]
  have hpublisher' : p.publisher.toList.isEmpty = false := by simpa using hpublisher.1
  have hrepo' : p.repo.toList.isEmpty = false := by simpa using hrepo.1
  simp [hpublisher', hrepo']

theorem candidateDir_eq (p : Place) (hpublisher : IsPathName p.publisher)
    (hrepo : IsPathName p.repo) (root : ResolvedPath) :
    candidateDir root p.fmt p.publisher p.repo = Place.dir { p with root } := by
  rw [candidateDir, ResolvedPath.split_name hpublisher, ResolvedPath.split_name hrepo]
  rfl

/-- The path that a model directory is resolved to. -/
def resolvedPath (host : Host) (quant : Option String) (roots : List ResolvedPath) (p : Place) :
    Option String :=
  (roots.find? fun root => host.disk.isDir (Place.dir { p with root })).bind fun root =>
    directoryPath host quant (Place.dir { p with root }) p.fmt

theorem resolveModel_located [Interpreter] (p : Place) (hpublisher : IsPathName p.publisher)
    (hrepo : IsPathName p.repo) (host : Host) (quant : Option String)
    (roots : List ResolvedPath) :
    (resolveModel host { modelId := p.modelId, format := some p.fmt.value, quant
                         searchPaths := roots }).located = resolvedPath host quant roots p := by
  simp only [resolveModel, resolveFormat_value, splitModelId_modelId p hpublisher hrepo,
    searchRoots_located, candidateDir_eq p hpublisher hrepo]
  rfl

theorem located_eq_some (r : ModelResolutionResult) (path : String) :
    r.located = some path ↔ r.status = .found ∧ r.path = some path := by
  unfold ModelResolutionResult.located
  split
  · rename_i h
    simp [h]
  · rename_i h
    simp [h]

/-- A servable offer is served from a path exactly when its model is resolved to it. -/
theorem Offer.First.resolve_iff [Interpreter] (h : Offer.First host routes o)
    (hstands : o.Stands host routes)
    (hservable : o.servable = true) (path : String) :
    ((resolveExternalRuntimeModel host (o.id host) routes).found = true ∧
      (resolveExternalRuntimeModel host (o.id host) routes).servable = true ∧
      (resolveExternalRuntimeModel host (o.id host) routes).path = some path) ↔
    resolvedPath host (askedQuant host (o.id host)) (getAvailableRoutePaths host routes)
      o.place = some path := by
  have hroots : (getAvailableRoutePaths host routes).isEmpty = false := by
    cases hnil : getAvailableRoutePaths host routes with
    | nil => exact absurd (hnil ▸ hstands.root) (by simp)
    | cons root roots => rfl
  have hid : (o.entry host routes).modelId ≠ "" := by
    intro hempty
    have hsplit := splitModelId_modelId o.place hstands.publisher hstands.repo
    rw [show o.place.modelId = "" from hempty] at hsplit
    cases hsplit
  have hservable' : (o.entry host routes).servable = true := hservable
  rw [← resolveModel_located o.place hstands.publisher hstands.repo, located_eq_some]
  simp only [resolveExternalRuntimeModel, h.find, hservable', hroots, Bool.not_true,
    Bool.false_eq_true, if_false, if_neg hid]
  rw [show (o.entry host routes).modelId = o.place.modelId from rfl,
    show (o.entry host routes).format = o.place.fmt.value from rfl]
  split
  · rename_i hstatus
    simp [hstatus]
  · rename_i hstatus
    simp only [ne_eq, not_not] at hstatus
    simp [hstatus]

theorem fmt_isPathName (fmt : ModelFormat) : IsPathName fmt.value := by
  cases fmt with
  | gguf => decide
  | mlx => decide
  | safetensors => decide

theorem Place.dir_names (p : Place) (hpublisher : IsPathName p.publisher)
    (hrepo : IsPathName p.repo) (htail : ∀ n ∈ tail, IsPathName n) :
    ∀ n ∈ p.dir ++ tail, IsPathName n := by
  intro n hn
  simp only [Place.dir, List.append_assoc, List.mem_append, List.mem_cons, List.not_mem_nil,
    or_false] at hn
  rcases hn with hn | (rfl | rfl | rfl) | hn
  · exact p.root.names n hn
  · exact fmt_isPathName p.fmt
  · exact hpublisher
  · exact hrepo
  · exact htail n hn

theorem matchedFile_eq (host : Host) (quant : Option String) (names : List String) :
    matchedFile host quant names = names.find? (matchesQuant host quant) := by
  cases quant with
  | some q => rfl
  | none =>
    cases names with
    | nil => rfl
    | cons name names => rfl

theorem directoryPath_eq_some (h : directoryPath host quant dir fmt = some path) :
    ∃ tail, path = (ResolvedPath.ofParts (dir ++ tail)).str ∧ (∀ n ∈ tail, IsPathName n) ∧
      tail.length = if fmt = .gguf then 1 else 0 := by
  cases fmt with
  | gguf =>
    obtain ⟨name, hname, rfl⟩ := Option.map_eq_some_iff.mp h
    rw [matchedFile_eq] at hname
    have hmem := (List.mem_filter.mp (List.mem_of_find?_eq_some hname)).1
    exact ⟨[name], rfl, by simpa using Disk.isPathName_of_mem_sortedNames hmem, rfl⟩
  | mlx =>
    simp only [directoryPath] at h
    split at h
    · cases h
      exact ⟨[], by simp, by simp, rfl⟩
    · cases h
  | safetensors =>
    obtain ⟨matched, -, rfl⟩ := Option.map_eq_some_iff.mp h
    exact ⟨[], by simp, by simp, rfl⟩

theorem Offer.Stands.file_names (h : Offer.Stands host routes o) :
    (∀ n ∈ o.file.toList, IsPathName n) ∧
      o.file.toList.length = if o.place.fmt = .gguf then 1 else 0 := by
  cases hfile : o.file with
  | none => simp [h.whole hfile]
  | some name =>
    obtain ⟨hfmt, -, hname⟩ := h.gguf name hfile
    simp [hfmt, hname]

theorem Offer.Stands.root_eq (h : Offer.Stands host routes o) {root : ResolvedPath}
    (hpath : directoryPath host quant (Place.dir { o.place with root }) o.place.fmt =
      some o.path.str) : root = o.place.root := by
  obtain ⟨tail, hstr, htail, hlength⟩ := directoryPath_eq_some hpath
  obtain ⟨hfile, hlength'⟩ := h.file_names
  have hnames := o.place.dir_names h.publisher h.repo hfile
  have hnames' := Place.dir_names { o.place with root } h.publisher h.repo htail
  have hsame := ResolvedPath.str_injective hstr
  rw [Offer.path, ResolvedPath.ofParts_names hnames, ResolvedPath.ofParts_names hnames',
    ResolvedPath.mk.injEq] at hsame
  have hdirs : o.place.dir = Place.dir { o.place with root } :=
    List.append_inj_left' hsame (by rw [hlength, hlength'])
  have hparts : o.place.root.parts = root.parts := List.append_inj_left' hdirs rfl
  rw [← ResolvedPath.mk.injEq] at hparts
  exact hparts.symm

theorem Offer.Stands.directoryPath_iff (h : Offer.Stands host routes o)
    (hservable : o.servable = true) (quant : Option String) :
    directoryPath host quant o.place.dir o.place.fmt = some o.path.str ↔
      FirstMatch host quant o := by
  unfold FirstMatch
  cases hfile : o.file with
  | none =>
    have hfmt : o.place.fmt = .mlx := by
      have hwhole := h.whole hfile
      cases hfmt : o.place.fmt with
      | gguf => exact absurd hfmt hwhole
      | mlx => rfl
      | safetensors => simp [Offer.servable, hfmt] at hservable
    have hconfig := h.mlx hfile hfmt
    simp [hfmt, directoryPath, hconfig, Offer.path, hfile]
  | some name =>
    obtain ⟨hfmt, hglob, hname⟩ := h.gguf name hfile
    have hsorted : (globNames host o.place.dir ".gguf").Pairwise (· ≤ ·) :=
      (Disk.sorted_sortedNames _ _).filter _
    have hsame : directoryPath host quant o.place.dir .gguf = some o.path.str ↔
        matchedFile host quant (globNames host o.place.dir ".gguf") = some name := by
      simp only [directoryPath, Option.map_eq_some_iff, Offer.path, hfile, Option.toList_some]
      constructor
      · rintro ⟨name', hmatched, hstr⟩
        rw [hmatched]
        rw [matchedFile_eq] at hmatched
        have hmem := (List.mem_filter.mp (List.mem_of_find?_eq_some hmatched)).1
        have hname' := Disk.isPathName_of_mem_sortedNames hmem
        have heq := ResolvedPath.str_injective hstr
        rw [ResolvedPath.ofParts_names
            (o.place.dir_names h.publisher h.repo (by simpa using hname')),
          ResolvedPath.ofParts_names (o.place.dir_names h.publisher h.repo (by simpa using hname)),
          ResolvedPath.mk.injEq, List.append_cancel_left_eq, List.singleton_inj] at heq
        rw [heq]
      · intro hmatched
        exact ⟨name, hmatched, rfl⟩
    rw [hfmt, hsame, matchedFile_eq, Disk.find?_eq_iff_smaller hsorted hglob]
    simp

/-- A servable offer resolves to its own path exactly when it is read back. -/
theorem Offer.Stands.resolvedPath_iff (h : Offer.Stands host routes o)
    (hservable : o.servable = true) :
    resolvedPath host (askedQuant host (o.id host)) (getAvailableRoutePaths host routes) o.place =
      some o.path.str ↔ ReadBack host routes o := by
  have hfirst : (getAvailableRoutePaths host routes).find?
      (fun root => host.disk.isDir (Place.dir { o.place with root })) = some o.place.root ↔
      Unshadowed host routes o.place :=
    Disk.find?_eq_iff_before h.root h.dir
  unfold ReadBack resolvedPath
  rw [← hfirst, ← h.directoryPath_iff hservable, Option.bind_eq_some_iff]
  constructor
  · rintro ⟨root, hfind, hpath⟩
    obtain rfl := h.root_eq hpath
    exact ⟨hfind, hpath⟩
  · rintro ⟨hfind, hpath⟩
    exact ⟨o.place.root, hfind, hpath⟩

theorem routeIdOf_route (h : root ∈ getAvailableRoutePaths host routes) :
    ∃ route ∈ routes, route.id = routeIdOf host routes root ∧
      host.locate route.path = root := by
  obtain ⟨route, hroute, hroot⟩ := mem_getAvailableRoutePaths h
  unfold routeIdOf pathToRoute
  cases hfind : (validateAllRoutes host routes).reverse.find? (fun s => s.root? = some root) with
  | none =>
    rw [List.find?_eq_none] at hfind
    have hmem : validateRouteStatus host route ∈ (validateAllRoutes host routes).reverse :=
      List.mem_reverse.mpr (List.mem_map_of_mem hroute)
    exact absurd (by simpa using hroot) (hfind _ hmem)
  | some s =>
    have hs := List.mem_reverse.mp (List.mem_of_find?_eq_some hfind)
    obtain ⟨route', hroute', rfl⟩ := List.mem_map.mp hs
    have hroot' : (validateRouteStatus host route').root? = some root := by
      simpa using List.find?_some hfind
    refine ⟨route', hroute', ?_, (validateRouteStatus_root hroot').symm⟩
    exact (validateRouteStatus_id host route').symm

theorem Offer.Stands.under_root (h : Offer.Stands host routes o) :
    ∃ route ∈ routes, route.id = (o.entry host routes).routeId ∧
      (host.locate route.path).Under o.path := by
  obtain ⟨route, hroute, hid, hlocate⟩ := routeIdOf_route h.root
  refine ⟨route, hroute, hid, ?_⟩
  rw [hlocate, ResolvedPath.Under, Offer.path, ResolvedPath.ofParts_names
    (o.place.dir_names h.publisher h.repo h.file_names.1)]
  simp only [Place.dir, List.append_assoc]
  exact List.prefix_append _ _

/-- Every servable entry is served from the path that it shows exactly when what is first on
offer under an id is also read back from it. -/
theorem external_inventory_served_iff [Interpreter] (host : Host)
    (routes : List ExternalWeightRoute) :
    InventoryServed host routes ↔
      ∀ o ∈ offers host routes, o.servable = true → o.First host routes →
        ReadBack host routes o := by
  constructor
  · intro h o ho hservable hfirst
    have hstands := offer_stands ho
    have hentry := (mem_inventory host routes _).mpr ⟨o, hfirst, rfl⟩
    have hserved := (h _ hentry hservable).1
    rw [← hstands.resolvedPath_iff hservable]
    exact (hfirst.resolve_iff hstands hservable o.path.str).mp hserved
  · intro h e he hservable
    obtain ⟨o, hfirst, rfl⟩ := (mem_inventory host routes e).mp he
    have ho : o ∈ offers host routes := List.mem_of_find?_eq_some hfirst
    have hstands := offer_stands ho
    have hread := h o ho hservable hfirst
    rw [← hstands.resolvedPath_iff hservable] at hread
    obtain ⟨route, hroute, hid, hunder⟩ := hstands.under_root
    exact ⟨(hfirst.resolve_iff hstands hservable o.path.str).mpr hread,
      route, hroute, hid, o.path, rfl, hunder⟩

/-- A directory with two files, whose names both have `Q4_K` in them. -/
def twoQuants : Artifact :=
  .dir [("weights", .dir [("gguf", .dir [("acme", .dir [("Tiny-GGUF",
    .dir [("tiny-Q4_K_M.gguf", .file []), ("tiny-Q4_K_S.gguf", .file [])])])])])]

def twoQuantsHost : Host where
  disk :=
    { root := twoQuants
      distinct := by simp [twoQuants, Artifact.Distinct, Artifact.DistinctIn]
      named := by
        simp only [twoQuants, Artifact.Named, Artifact.NamedIn]
        decide }
  locate := fun path => .ofParts [path]
  cases := .ascii
  knownQuants := ⟨_, .refl _⟩

/-- The second of the files is on offer as `Q4_K`, by which the first is found. -/
def secondQuant : Offer where
  place :=
    { root := .ofParts ["weights"], fmt := .gguf, publisher := "acme", repo := "Tiny-GGUF" }
  file := some "tiny-Q4_K_S.gguf"

section
attribute [local instance] latin1Interpreter

theorem wrong_quant_served :
    ¬ InventoryServed twoQuantsHost [{ id := "local", path := "weights" }] := by
  intro h
  have hmem : secondQuant.entry twoQuantsHost [{ id := "local", path := "weights" }] ∈
      listExternalModelInventory twoQuantsHost [{ id := "local", path := "weights" }] := by
    decide +kernel
  have hpath := (h _ hmem rfl).1.2.2
  have hserved : (resolveExternalRuntimeModel twoQuantsHost "acme/Tiny-GGUF:Q4_K"
      [{ id := "local", path := "weights" }]).path =
        some "/weights/gguf/acme/Tiny-GGUF/tiny-Q4_K_M.gguf" := by decide +kernel
  have hid : (secondQuant.entry twoQuantsHost [{ id := "local", path := "weights" }]).id =
      "acme/Tiny-GGUF:Q4_K" := by decide +kernel
  rw [hid, hserved] at hpath
  exact absurd hpath (by decide +kernel)

end

end Whooshd.External
