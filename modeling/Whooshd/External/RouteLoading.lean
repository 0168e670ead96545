import Whooshd.External.Routes
import Whooshd.Library.Coerce
import Whooshd.Library.StableSort

namespace Whooshd.External
set_option autoImplicit true

/-- What the text of the routes is read with. -/
structure RouteReader where
  /-- `json.loads`, up to the integers that are too long and the nesting that is too deep for it. -/
  loads : String → Option Json
  /-- `Path(path).expanduser()`: the home of an unknown user cannot be found. -/
  expanduser : String → Option String

inductive RouteError where
  /-- An integer is too long for `json.loads`, or the nesting too deep. -/
  | notLoadable
  | noHome
  | priority (e : PyError)
  deriving DecidableEq, Repr

/-- The id and the path of an entry, when neither of them is empty. -/
def namesOf (fields : List (String × Json)) : Option (String × String) :=
  match Json.field? "id" fields, Json.field? "path" fields with
  | some (.str rid), some (.str rpath) => if rid = "" ∨ rpath = "" then none else some (rid, rpath)
  | _, _ => none

def routeOf (fields : List (String × Json)) (rid path : String) (priority : Int) :
    ExternalWeightRoute where
  id := Text.strip rid
  path := path
  enabled := (Json.fieldD "enabled" (.bool true) fields).truthy
  readOnly := (Json.fieldD "read_only" (.bool true) fields).truthy
  priority := priority

/-- One round of the loop over the entries. -/
def loadEntry (reader : RouteReader) (entry : Json) :
    Except RouteError (Option ExternalWeightRoute) :=
  match entry with
  | .obj fields =>
    match namesOf fields with
    | none => .ok none
    | some (rid, rpath) =>
      match reader.expanduser (Text.strip rpath) with
      | none => .error .noHome
      | some path =>
        match (Json.fieldD "priority" (.int 100) fields).toInt with
        | .error e => .error (.priority e)
        | .ok priority => .ok (some (routeOf fields rid path priority))
  | _ => .ok none

def loadEntries (reader : RouteReader) : List Json → Except RouteError (List ExternalWeightRoute)
  | [] => .ok []
  | entry :: entries => do
    let route ← loadEntry reader entry
    let routes ← loadEntries reader entries
    return route.toList ++ routes

/-- The routes of the environment, where an unset variable is an empty one. -/
def loadExternalWeightRoutes [Interpreter] (reader : RouteReader) (environ : Option String) :
    Except RouteError (List ExternalWeightRoute) :=
  let raw := Text.strip (environ.getD "")
  if raw = "" then .ok []
  else
    match reader.loads raw with
    | none => .ok []
    | some data =>
      if !data.loadable then .error .notLoadable
      else
        match data with
        | .arr entries => loadEntries reader entries
        | _ => .ok []

/-- The priority of an entry: an integer, or none given. -/
def givenPriority (fields : List (String × Json)) : Option Int :=
  match Json.fieldD "priority" (.int 100) fields with
  | .int n => some n
  | _ => none

/-- The route of a well-formed entry. -/
def entryRoute (reader : RouteReader) : Json → Option ExternalWeightRoute
  | .obj fields => do
    let (rid, rpath) ← namesOf fields
    let priority ← givenPriority fields
    let path := Text.strip rpath
    return routeOf fields rid ((reader.expanduser path).getD path) priority
  | _ => none

/-- The entries of the text, if it is a list. -/
def entriesOf (reader : RouteReader) (environ : Option String) : List Json :=
  let raw := Text.strip (environ.getD "")
  match if raw = "" then none else reader.loads raw with
  | some (.arr entries) => entries
  | _ => []

/-- The text loads as the routes of its well-formed entries, in their order. -/
def RoutesLoaded [Interpreter] (reader : RouteReader) (environ : Option String) : Prop :=
  loadExternalWeightRoutes reader environ =
    .ok ((entriesOf reader environ).filterMap (entryRoute reader))

/-- An entry with a name and a path has an integer for its priority and a home that is known. -/
def EntryFits (reader : RouteReader) (entry : Json) : Prop :=
  ∀ fields rid rpath, entry = .obj fields → namesOf fields = some (rid, rpath) →
    (reader.expanduser (Text.strip rpath)).isSome ∧ (givenPriority fields).isSome

/-- No integer of the text is too long, its nesting is not too deep, and every entry fits. -/
structure EnvironFits [Interpreter] (reader : RouteReader) (environ : Option String) :
    Prop where
  loadable : ∀ data, Text.strip (environ.getD "") ≠ "" →
    reader.loads (Text.strip (environ.getD "")) = some data → data.loadable = true
  entries : ∀ entry ∈ entriesOf reader environ, EntryFits reader entry

theorem toInt_of_givenPriority (h : givenPriority fields = some n) :
    (Json.fieldD "priority" (.int 100) fields).toInt = .ok n := by
  unfold givenPriority at h
  split at h
  · rename_i heq
    cases h
    rw [heq]
    rfl
  · cases h

theorem loadEntry_of_fits (h : EntryFits reader entry) :
    loadEntry reader entry = .ok (entryRoute reader entry) := by
  cases entry with
  | obj fields =>
    cases hnames : namesOf fields with
    | none => simp [loadEntry, entryRoute, hnames]
    | some names =>
      obtain ⟨rid, rpath⟩ := names
      obtain ⟨hhome, hpriority⟩ := h fields rid rpath rfl hnames
      obtain ⟨path, hpath⟩ := Option.isSome_iff_exists.mp hhome
      obtain ⟨n, hn⟩ := Option.isSome_iff_exists.mp hpriority
      simp [loadEntry, entryRoute, hnames, hpath, hn, toInt_of_givenPriority hn]
  | _ => rfl

theorem loadEntry_ok (h : loadEntry reader entry = .ok route) :
    EntryFits reader entry ∨ entryRoute reader entry = none ∧ route.isSome := by
  cases entry with
  | obj fields =>
    cases hnames : namesOf fields with
    | none =>
      left
      intro fields' rid rpath hfields hsome
      cases hfields
      rw [hnames] at hsome
      cases hsome
    | some names =>
      obtain ⟨rid, rpath⟩ := names
      simp only [loadEntry, hnames] at h
      cases hpath : reader.expanduser (Text.strip rpath) with
      | none =>
        rw [hpath] at h
        cases h
      | some path =>
        cases hn : givenPriority fields with
        | none =>
          right
          rw [hpath] at h
          refine ⟨by simp [entryRoute, hnames, hn], ?_⟩
          cases hint : (Json.fieldD "priority" (.int 100) fields).toInt with
          | error e =>
            rw [hint] at h
            cases h
          | ok n =>
            rw [hint] at h
            cases h
            rfl
        | some n =>
          left
          intro fields' rid' rpath' hfields hsome
          cases hfields
          rw [hnames] at hsome
          cases hsome
          exact ⟨by rw [hpath]; rfl, by rw [hn]; rfl⟩
  | _ =>
    left
    intro fields rid rpath hfields
    cases hfields

theorem loadEntries_of_fits (h : ∀ entry ∈ entries, EntryFits reader entry) :
    loadEntries reader entries = .ok (entries.filterMap (entryRoute reader)) := by
  induction entries with
  | nil => rfl
  | cons entry entries ih =>
    rw [List.forall_mem_cons] at h
    rw [loadEntries, loadEntry_of_fits h.1, ih h.2]
    cases hroute : entryRoute reader entry with
    | none => simp [hroute, bind, Except.bind, pure, Except.pure]
    | some route => simp [hroute, bind, Except.bind, pure, Except.pure]

/-- Nothing that is well formed is lost, and where nothing else is added every entry fits. -/
theorem loadEntries_ok (h : loadEntries reader entries = .ok routes) :
    (entries.filterMap (entryRoute reader)).length ≤ routes.length ∧
      (routes.length = (entries.filterMap (entryRoute reader)).length →
        ∀ entry ∈ entries, EntryFits reader entry) := by
  induction entries generalizing routes with
  | nil => simp
  | cons entry entries ih =>
    rw [loadEntries, Except.bind_eq_ok_iff] at h
    obtain ⟨route, hroute, h⟩ := h
    rw [Except.bind_eq_ok_iff] at h
    obtain ⟨rest, hrest, h⟩ := h
    cases h
    obtain ⟨hle, hall⟩ := ih hrest
    rw [List.length_append]
    rcases loadEntry_ok hroute with hfits | ⟨hnone, hsome⟩
    · have hown : route = entryRoute reader entry := by
        rw [loadEntry_of_fits hfits] at hroute
        cases hroute
        rfl
      have hlength : ((entry :: entries).filterMap (entryRoute reader)).length =
          route.toList.length + (entries.filterMap (entryRoute reader)).length := by
        rw [hown]
        cases hentry : entryRoute reader entry with
        | none => simp [hentry]
        | some r => simp [hentry, Nat.add_comm]
      rw [hlength]
      constructor
      · omega
      · intro heq
        exact List.forall_mem_cons.mpr ⟨hfits, hall (by omega)⟩
    · have hlength : route.toList.length = 1 := by
        obtain ⟨r, rfl⟩ := Option.isSome_iff_exists.mp hsome
        rfl
      rw [List.filterMap_cons_none hnone]
      constructor
      · omega
      · intro heq
        omega

theorem loadEntries_iff :
    loadEntries reader entries = .ok (entries.filterMap (entryRoute reader)) ↔
      ∀ entry ∈ entries, EntryFits reader entry := by
  constructor
  · intro h
    exact (loadEntries_ok h).2 rfl
  · exact loadEntries_of_fits

theorem environFits_iff [Interpreter] (h : ∀ data, Text.strip (environ.getD "") ≠ "" →
    reader.loads (Text.strip (environ.getD "")) = some data → data.loadable = true) :
    EnvironFits reader environ ↔ ∀ entry ∈ entriesOf reader environ, EntryFits reader entry :=
  ⟨EnvironFits.entries, fun hentries => ⟨h, hentries⟩⟩

theorem routesLoaded_iff [Interpreter] (reader : RouteReader) (environ : Option String) :
    RoutesLoaded reader environ ↔ EnvironFits reader environ := by
  unfold RoutesLoaded loadExternalWeightRoutes
  simp only
  by_cases hraw : Text.strip (environ.getD "") = ""
  · have hnil : entriesOf reader environ = [] := by simp [entriesOf, hraw]
    rw [if_pos hraw, environFits_iff (fun _ hne => absurd hraw hne), hnil]
    exact iff_of_true rfl (List.forall_mem_nil _)
  · rw [if_neg hraw]
    cases hdata : reader.loads (Text.strip (environ.getD "")) with
    | none =>
      have hnil : entriesOf reader environ = [] := by simp [entriesOf, hraw, hdata]
      rw [environFits_iff (fun _ _ hsome => by simp [hdata] at hsome), hnil]
      exact iff_of_true rfl (List.forall_mem_nil _)
    | some data =>
      simp only
      cases hload : data.loadable with
      | false =>
        apply iff_of_false
        · simp
        · intro h
          have hloadable := h.loadable data hraw hdata
          rw [hload] at hloadable
          cases hloadable
      | true =>
        have hloadable : ∀ data', Text.strip (environ.getD "") ≠ "" →
            reader.loads (Text.strip (environ.getD "")) = some data' → data'.loadable = true := by
          intro data' _ hsome
          rw [hdata] at hsome
          cases hsome
          exact hload
        rw [environFits_iff hloadable]
        cases data with
        | arr entries =>
          have hentries : entriesOf reader environ = entries := by
            simp [entriesOf, hraw, hdata]
          rw [hentries]
          exact loadEntries_iff
        | _ =>
          have hnil : entriesOf reader environ = [] := by simp [entriesOf, hraw, hdata]
          rw [hnil]
          exact iff_of_true rfl (List.forall_mem_nil _)

/-- The routes that are enabled and available. -/
def availableRoutes (host : Host) (routes : List ExternalWeightRoute) :
    List ExternalWeightRoute :=
  routes.filter fun route => route.enabled && (validateRouteStatus host route).available

/-- The order of the routes by their own priority and id. -/
def OwnOrder (r s : ExternalWeightRoute) : Prop :=
  r.priority < s.priority ∨ r.priority = s.priority ∧ r.id ≤ s.id

/-- The order of the routes by the priority that is found under their id. -/
def LookupOrder (routes : List ExternalWeightRoute) (r s : ExternalWeightRoute) : Prop :=
  routePriority routes r.id < routePriority routes s.id ∨
    routePriority routes r.id = routePriority routes s.id ∧ r.id ≤ s.id

instance (routes : List ExternalWeightRoute) : DecidableRel (LookupOrder routes) :=
  fun r s => inferInstanceAs (Decidable (routePriority routes r.id < routePriority routes s.id ∨
    routePriority routes r.id = routePriority routes s.id ∧ r.id ≤ s.id))

/-- The paths are those of the available routes, one for each, in the order of the routes' own
priorities and ids. -/
def PathsOrdered (host : Host) (routes : List ExternalWeightRoute) : Prop :=
  ∃ order : List ExternalWeightRoute, order.Perm (availableRoutes host routes) ∧
    order.Pairwise OwnOrder ∧
    getAvailableRoutePaths host routes = order.map fun route => host.locate route.path

/-- Pairs of an available route and one that stands for it in the order of the routes' own
priorities: one at the same path, itself if no two share a path. -/
structure StandIns (host : Host) (routes : List ExternalWeightRoute)
    (pairs : List (ExternalWeightRoute × ExternalWeightRoute)) : Prop where
  available : pairs.map Prod.fst = availableRoutes host routes
  standIns : (pairs.map Prod.snd).Perm (availableRoutes host routes)
  samePath : ∀ p ∈ pairs, host.locate p.1.path = host.locate p.2.path
  /-- Those of one id are listed in their own order. -/
  shared : pairs.Pairwise fun p q => p.1.id = q.1.id → OwnOrder p.2 q.2
  /-- Those of different ids stand in their own order wherever the priorities found under the ids
  put them in this order. -/
  separate : ∀ p ∈ pairs, ∀ q ∈ pairs, p.1.id ≠ q.1.id →
    LookupOrder routes p.1 q.1 → OwnOrder p.2 q.2

/-- What is asked of the stand-ins, where every route stands for itself. -/
structure PrioritiesOwn (host : Host) (routes : List ExternalWeightRoute) : Prop where
  shared : (availableRoutes host routes).Pairwise fun r s => r.id = s.id → OwnOrder r s
  separate : ∀ r ∈ availableRoutes host routes, ∀ s ∈ availableRoutes host routes,
    r.id ≠ s.id → LookupOrder routes r s → OwnOrder r s

theorem lookupOrder_tie (routes : List ExternalWeightRoute) (r s : ExternalWeightRoute) :
    LookupOrder routes r s ∧ LookupOrder routes s r ↔ r.id = s.id := by
  constructor
  · rintro ⟨h₁ | ⟨h₁, hle₁⟩, h₂ | ⟨h₂, hle₂⟩⟩
    · omega
    · omega
    · omega
    · exact String.le_antisymm hle₁ hle₂
  · intro h
    have hself : routePriority routes r.id = routePriority routes s.id := by rw [h]
    exact ⟨.inr ⟨hself, h ▸ String.le_refl _⟩, .inr ⟨hself.symm, h ▸ String.le_refl _⟩⟩

instance (routes : List ExternalWeightRoute) : Std.Total (LookupOrder routes) where
  total r s := by
    unfold LookupOrder
    rcases Int.lt_trichotomy (routePriority routes r.id) (routePriority routes s.id) with
      h | h | h
    · exact .inl (.inl h)
    · rcases String.le_total r.id s.id with hle | hle
      · exact .inl (.inr ⟨h, hle⟩)
      · exact .inr (.inr ⟨h.symm, hle⟩)
    · exact .inr (.inl h)

instance (routes : List ExternalWeightRoute) :
    IsTrans ExternalWeightRoute (LookupOrder routes) where
  trans r s t := by
    rintro (h₁ | ⟨h₁, hle₁⟩) (h₂ | ⟨h₂, hle₂⟩)
    · exact .inl (by omega)
    · exact .inl (by omega)
    · exact .inl (by omega)
    · exact .inr ⟨h₁.trans h₂, String.le_trans hle₁ hle₂⟩

theorem routeOrder_iff (host : Host) (routes : List ExternalWeightRoute)
    (r s : ExternalWeightRoute) :
    routeOrder routes (validateRouteStatus host r) (validateRouteStatus host s) = true ↔
      LookupOrder routes r s := by
  simp [routeOrder, validateRouteStatus_id, LookupOrder]

theorem validateRouteStatus_located (h : (validateRouteStatus host route).available = true) :
    (validateRouteStatus host route).root? = some (host.locate route.path) := by
  rw [validateRouteStatus_available] at h
  obtain ⟨root, hroot⟩ := Option.isSome_iff_exists.mp h
  rw [hroot, validateRouteStatus_root hroot]

/-- The paths in the order of the priorities that are found under the ids. -/
theorem getAvailableRoutePaths_eq (host : Host) (routes : List ExternalWeightRoute) :
    getAvailableRoutePaths host routes =
      ((availableRoutes host routes).insertionSort (LookupOrder routes)).map
        fun route => host.locate route.path := by
  have hstatuses : ((routes.filter (·.enabled)).map (validateRouteStatus host)).filter
      (·.available) = (availableRoutes host routes).map (validateRouteStatus host) := by
    rw [List.filter_map, List.filter_filter, availableRoutes]
    congr 2
    funext route
    exact Bool.and_comm _ _
  have hsort : ((availableRoutes host routes).map (validateRouteStatus host)).insertionSort
      (fun s t => routeOrder routes s t) =
      ((availableRoutes host routes).insertionSort (LookupOrder routes)).map
        (validateRouteStatus host) := by
    symm
    apply List.map_insertionSort
    intro r _ s _
    exact (routeOrder_iff host routes r s).symm
  unfold getAvailableRoutePaths
  simp only
  rw [hstatuses, hsort, List.filterMap_map, ← List.filterMap_eq_map]
  apply List.filterMap_congr
  intro route hroute
  rw [List.mem_insertionSort, availableRoutes, List.mem_filter, Bool.and_eq_true] at hroute
  exact validateRouteStatus_located hroute.2.2

/-- The order in which pairs of routes are sorted by the first of them. -/
abbrev PairOrder (routes : List ExternalWeightRoute)
    (p q : ExternalWeightRoute × ExternalWeightRoute) : Prop :=
  LookupOrder routes p.1 q.1

instance (routes : List ExternalWeightRoute) : Std.Total (PairOrder routes) where
  total p q := total_of (LookupOrder routes) p.1 q.1

instance (routes : List ExternalWeightRoute) :
    IsTrans (ExternalWeightRoute × ExternalWeightRoute) (PairOrder routes) where
  trans _ _ _ h h' := trans_of (LookupOrder routes) h h'

theorem sorted_pairs_fst (routes : List ExternalWeightRoute)
    (pairs : List (ExternalWeightRoute × ExternalWeightRoute)) :
    (pairs.insertionSort (PairOrder routes)).map Prod.fst =
      (pairs.map Prod.fst).insertionSort (LookupOrder routes) := by
  apply List.map_insertionSort
  intro p _ q _
  exact Iff.rfl

theorem standIns_ordered_iff {pairs : List (ExternalWeightRoute × ExternalWeightRoute)} :
    (pairs.insertionSort (PairOrder routes)).Pairwise (fun p q => OwnOrder p.2 q.2) ↔
      pairs.Pairwise (fun p q => p.1.id = q.1.id → OwnOrder p.2 q.2) ∧
        ∀ p ∈ pairs, ∀ q ∈ pairs, p.1.id ≠ q.1.id → LookupOrder routes p.1 q.1 →
          OwnOrder p.2 q.2 :=
  List.pairwise_insertionSort_iff fun p q => lookupOrder_tie routes p.1 q.1

/-- The stand-ins, sorted with their routes, are the order that is asked for. -/
theorem pathsOrdered_of_standIns (h : StandIns host routes pairs) : PathsOrdered host routes := by
  have hperm := List.perm_insertionSort (PairOrder routes) pairs
  refine ⟨(pairs.insertionSort (PairOrder routes)).map Prod.snd, ?_, ?_, ?_⟩
  · exact (hperm.map Prod.snd).trans h.standIns
  · rw [List.pairwise_map]
    exact standIns_ordered_iff.mpr ⟨h.shared, h.separate⟩
  · rw [getAvailableRoutePaths_eq, ← h.available, ← sorted_pairs_fst, List.map_map, List.map_map]
    apply List.map_congr_left
    intro p hp
    exact h.samePath p (hperm.mem_iff.mp hp)

theorem standIns_of_pathsOrdered (h : PathsOrdered host routes) :
    ∃ pairs, StandIns host routes pairs := by
  obtain ⟨order, horder, hown, hpaths⟩ := h
  rw [getAvailableRoutePaths_eq] at hpaths
  have hlength : ((availableRoutes host routes).insertionSort (LookupOrder routes)).length =
      order.length := by
    rw [List.length_insertionSort, horder.length_eq]
  -- the two arrangements side by side, then back in the order in which the routes are listed
  obtain ⟨pairs, hfst, hzip⟩ := List.exists_insertionSort_of_map_fst
    (List.map_fst_zip hlength.le)
  have hperm := List.perm_insertionSort (PairOrder routes) pairs
  have hsnd : (pairs.insertionSort (PairOrder routes)).map Prod.snd = order := by
    rw [← hzip]
    exact List.map_snd_zip hlength.ge
  have hordered := standIns_ordered_iff.mp (List.pairwise_map.mp (hsnd ▸ hown))
  refine ⟨pairs, hfst, ?_, ?_, hordered.1, hordered.2⟩
  · rw [← hsnd] at horder
    exact (hperm.map Prod.snd).symm.trans horder
  · intro p hp
    have hmem := hperm.mem_iff.mpr hp
    rw [← hfst, ← sorted_pairs_fst, ← hsnd, List.map_map, List.map_map, List.map_inj_left] at hpaths
    exact hpaths p hmem

theorem pathsOrdered_iff (host : Host) (routes : List ExternalWeightRoute) :
    PathsOrdered host routes ↔ ∃ pairs, StandIns host routes pairs :=
  ⟨standIns_of_pathsOrdered, fun ⟨_, h⟩ => pathsOrdered_of_standIns h⟩

theorem standIns_iff_own
    (hpaths : ((availableRoutes host routes).map fun route => host.locate route.path).Nodup) :
    (∃ pairs, StandIns host routes pairs) ↔ PrioritiesOwn host routes := by
  constructor
  · rintro ⟨pairs, h⟩
    have hself : ∀ p ∈ pairs, p.2 = p.1 := by
      intro p hp
      apply List.inj_on_of_nodup_map hpaths
      · exact h.standIns.mem_iff.mp (List.mem_map_of_mem hp)
      · exact h.available ▸ List.mem_map_of_mem hp
      · exact (h.samePath p hp).symm
    constructor
    · rw [← h.available, List.pairwise_map]
      apply h.shared.imp_of_mem
      intro p q hp hq hown
      rwa [hself p hp, hself q hq] at hown
    · rw [← h.available]
      intro r hr s hs
      obtain ⟨p, hp, rfl⟩ := List.mem_map.mp hr
      obtain ⟨q, hq, rfl⟩ := List.mem_map.mp hs
      have hown := h.separate p hp q hq
      rwa [hself p hp, hself q hq] at hown
  · intro h
    refine ⟨(availableRoutes host routes).map fun r => (r, r), ?_, ?_, ?_, ?_, ?_⟩
    · rw [List.map_map]
      exact List.map_id _
    · rw [List.map_map]
      exact .of_eq (List.map_id _)
    · simp
    · rw [List.pairwise_map]
      exact h.shared
    · simp only [List.forall_mem_map]
      exact h.separate

/-- A reader of one document, for which only the user's own home is known. -/
def documentReader (data : Json) : RouteReader where
  loads text := if text = data.dumps then some data else none
  expanduser path := if path.startsWith "~nobody" then none else some path

/-- A list of one route, with the path and the priority given. -/
def oneRoute (path : String) (priority : Json) : Json :=
  .arr [.obj [("id", .str "vault"), ("path", .str path), ("priority", priority)]]

section
attribute [local instance] latin1Interpreter

def loadOneRoute (path : String) (priority : Json) : Except RouteError (List Int) :=
  (loadExternalWeightRoutes (documentReader (oneRoute path priority))
    (some (oneRoute path priority).dumps)).map fun routes => routes.map (·.priority)

def twoRoots : Artifact := .dir [("first", .dir []), ("second", .dir [])]

theorem twoRoots_distinct : twoRoots.Distinct := by
  simp [twoRoots, Artifact.Distinct, Artifact.DistinctIn]

theorem twoRoots_named : twoRoots.Named := by
  simp only [twoRoots, Artifact.Named, Artifact.NamedIn]
  decide

def twoRootsHost : Host where
  disk := ⟨twoRoots, twoRoots_distinct, twoRoots_named⟩
  locate := fun path => .ofParts [path]
  cases := .ascii
  knownQuants := ⟨["Q5_K_M", "Q4_K_M", "Q8_0"], .swap _ _ _⟩

/-- The second of the routes is listed again, disabled, with a priority before the first. -/
def lentPriority : List ExternalWeightRoute :=
  [{ id := "a", path := "first", priority := 10 }, { id := "b", path := "second", priority := 20 },
    { id := "b", path := "second", enabled := false, priority := 1 }]

theorem lentPriority_reorders : ¬ PathsOrdered twoRootsHost lentPriority := by
  intro h
  have hpaths : ((availableRoutes twoRootsHost lentPriority).map
      fun route => twoRootsHost.locate route.path).Nodup := by decide +kernel
  have hown := (standIns_iff_own hpaths).mp ((pathsOrdered_iff _ _).mp h)
  have havailable : availableRoutes twoRootsHost lentPriority =
      [{ id := "a", path := "first", priority := 10 },
        { id := "b", path := "second", priority := 20 }] := rfl
  have hseparate := hown.separate
  rw [havailable] at hseparate
  have hback := hseparate _ (List.mem_cons_of_mem _ List.mem_cons_self) _ List.mem_cons_self
    (by decide) (by decide)
  rcases hback with h | ⟨h, -⟩
  · exact absurd h (by decide)
  · exact absurd h (by decide)

end

end Whooshd.External
