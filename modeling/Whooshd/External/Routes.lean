import Whooshd.Library.Disk
import Whooshd.Library.Text

namespace Whooshd.External
set_option autoImplicit true

/-- What the routes and the models under them are read from. -/
structure Host where
  disk : Disk
  /-- `path.expanduser().resolve()`. -/
  locate : String → ResolvedPath
  cases : Text.CaseMap
  /-- The set `_KNOWN_QUANTS` in the order in which it is gone through. -/
  knownQuants : { quants : List String // quants.Perm ["Q4_K_M", "Q5_K_M", "Q8_0"] }

inductive ExternalRouteStatus where
  | available | disabled | mountUnavailable | invalidPath
  deriving DecidableEq, Repr

structure ExternalWeightRoute where
  id : String
  path : String
  enabled : Bool := true
  readOnly : Bool := true
  priority : Int := 100

/-- The path of a route: a route that is disabled keeps the one that it was given. -/
inductive RoutePath where
  | given (path : String)
  | resolved (path : ResolvedPath)

structure ExternalWeightRouteStatus where
  id : String
  path : RoutePath
  enabled : Bool
  available : Bool := false
  status : ExternalRouteStatus := .disabled
  reason : Option String := none

/-- The volume that a path under `/Volumes` lies on. -/
def mountOf (path : ResolvedPath) : Option (List String) :=
  match path.parts with
  | top :: name :: _ => if top = "Volumes" then some [top, name] else none
  | _ => none

def isMountUnavailable (host : Host) (path : ResolvedPath) : Bool :=
  (mountOf path).any fun mount => !host.disk.exists? mount

def mountPoint (path : ResolvedPath) : String :=
  ((mountOf path).map fun mount => (ResolvedPath.ofParts mount).str).getD path.str

def validateRouteStatus (host : Host) (route : ExternalWeightRoute) :
    ExternalWeightRouteStatus :=
  if !route.enabled then
    { id := route.id, path := .given route.path, enabled := false, status := .disabled
      reason := some "route is disabled" }
  else
    let rpath := host.locate route.path
    let status : ExternalWeightRouteStatus :=
      { id := route.id, path := .resolved rpath, enabled := true }
    if host.disk.exists? rpath.parts then
      if host.disk.isDir rpath.parts then { status with available := true, status := .available }
      else
        { status with
          status := .invalidPath, reason := some "path exists but is not a directory" }
    else if isMountUnavailable host rpath then
      { status with
        status := .mountUnavailable
        reason := some ("mount point unavailable: " ++ mountPoint rpath) }
    else { status with status := .invalidPath, reason := some "path does not exist" }

def validateAllRoutes (host : Host) (routes : List ExternalWeightRoute) :
    List ExternalWeightRouteStatus :=
  routes.map (validateRouteStatus host)

/-- The route under an id in `rid_to_route`, where the last one stays. -/
def ridToRoute (routes : List ExternalWeightRoute) (id : String) : Option ExternalWeightRoute :=
  routes.reverse.find? (·.id = id)

def routePriority (routes : List ExternalWeightRoute) (id : String) : Int :=
  ((ridToRoute routes id).map (·.priority)).getD 100

/-- The order of the pairs of priority and id. -/
def routeOrder (routes : List ExternalWeightRoute) (s t : ExternalWeightRouteStatus) : Bool :=
  let p := routePriority routes s.id
  let q := routePriority routes t.id
  p < q || p = q && s.id ≤ t.id

/-- A status that is available, with its root. -/
def ExternalWeightRouteStatus.root? (s : ExternalWeightRouteStatus) : Option ResolvedPath :=
  match s.path with
  | .given _ => none
  | .resolved path => if s.available then some path else none

def getAvailableRoutePaths (host : Host) (routes : List ExternalWeightRoute) :
    List ResolvedPath :=
  let statuses := (routes.filter (·.enabled)).map (validateRouteStatus host)
  let available := statuses.filter (·.available)
  (available.insertionSort fun s t => routeOrder routes s t).filterMap (·.root?)

theorem validateRouteStatus_root (h : (validateRouteStatus host route).root? = some root) :
    root = host.locate route.path := by
  unfold validateRouteStatus at h
  split at h
  · cases h
  · simp only at h
    split at h
    · split at h
      · cases h
        rfl
      · cases h
    · split at h
      · cases h
      · cases h

theorem validateRouteStatus_available (host : Host) (route : ExternalWeightRoute) :
    (validateRouteStatus host route).available =
      (validateRouteStatus host route).root?.isSome := by
  unfold validateRouteStatus
  split
  · rfl
  · simp only
    split
    · split
      · rfl
      · rfl
    · split
      · rfl
      · rfl

theorem validateRouteStatus_id (host : Host) (route : ExternalWeightRoute) :
    (validateRouteStatus host route).id = route.id := by
  unfold validateRouteStatus
  split
  · rfl
  · simp only
    split
    · split
      · rfl
      · rfl
    · split
      · rfl
      · rfl

theorem mem_getAvailableRoutePaths (h : root ∈ getAvailableRoutePaths host routes) :
    ∃ route ∈ routes, (validateRouteStatus host route).root? = some root := by
  obtain ⟨s, hs, hroot⟩ := List.mem_filterMap.mp h
  rw [List.mem_insertionSort, List.mem_filter, List.mem_map] at hs
  obtain ⟨⟨route, hroute, rfl⟩, -⟩ := hs
  exact ⟨route, (List.mem_filter.mp hroute).1, hroot⟩

end Whooshd.External
