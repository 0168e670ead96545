import Whooshd.External.Resolver
import Whooshd.Library.Regex

namespace Whooshd.External
set_option autoImplicit true

open Regex.Pattern (ignoringCase)

structure EntryMetadata where
  matchedFile : String
  quant : Option String := none
  deriving DecidableEq

structure ExternalModelInventoryEntry where
  id : String
  modelId : String
  source : String := "external"
  routeId : String := ""
  format : String := ""
  runtime : Option String := none
  path : String := ""
  registryManaged : Bool := false
  pathAvailable : Bool := true
  servable : Bool := false
  metadata : EntryMetadata
  deriving DecidableEq

def skipDirs : List String := [".cache", ".huggingface", ".git", ".DS_Store", "__pycache__"]

/-- The match of `_QUANT_RE` at the start of a text. -/
def quantAt : List Char → Option (List Char)
  | cs =>
    let q := ignoringCase 'Q'
    let f := ignoringCase 'F'
    match cs with
    | a :: b :: c :: rest =>
      let d := rest.head?
      if q a && b.isDigit && c = '_' &&
          d.any (fun x => ignoringCase 'K' x || ignoringCase 'L' x || ignoringCase 'M' x ||
            x = '0' || x.isDigit) then
        some (a :: b :: c :: d.toList)
      else if f a && b = '1' && c = '6' then some [a, b, c]
      else if f a && b = '3' && c = '2' then some [a, b, c]
      else if ignoringCase 'B' a && f b && c = '1' && d = some '6' then some (a :: b :: c :: ['6'])
      else if ignoringCase 'I' a && q b && c.isDigit && d = some '_' then
        some (a :: b :: c :: '_' :: (rest.drop 1).takeWhile fun x => x ≠ '/' && x ≠ '.')
      else none
    | _ => none

/-- The first match of `_QUANT_RE` in a text. -/
def searchQuant : List Char → Option (List Char)
  | [] => quantAt []
  | c :: cs => (quantAt (c :: cs)).or (searchQuant cs)

def extractQuant (host : Host) (stem : String) : Option String :=
  let upper := host.cases.upper stem
  match host.knownQuants.1.find? fun kq => Text.occursIn kq.toList upper.toList with
  | some kq => some kq
  | none => (searchQuant stem.toList).map fun m => host.cases.upper (String.ofList m)

def safeIdComponent (name : String) : String :=
  let replaced := name.toList.map fun c => if Text.isIdChar c then c else '-'
  let safe := Text.trim (fun c => c = '-' || c = '.') (String.ofList (replaced.take 64))
  if safe = "" then "unknown" else safe

/-- The part of a public id behind the colon. -/
def ggufLabel (host : Host) (name : String) : String :=
  let stem := Text.removeSuffix ".gguf" name
  match extractQuant host stem with
  | some quant => if quant = "" then safeIdComponent stem else quant
  | none => safeIdComponent stem

/-- The entries found so far, and their ids. -/
structure Scan where
  entries : List ExternalModelInventoryEntry := []
  seenIds : List String := []

def Scan.add (scan : Scan) (entry : ExternalModelInventoryEntry) : Scan :=
  if entry.id ∈ scan.seenIds then scan
  else ⟨scan.entries ++ [entry], scan.seenIds ++ [entry.id]⟩

def isHidden (name : String) : Bool := Text.startsWith "." name || name ∈ skipDirs

/-- The entry of one `.gguf` file. -/
def ggufEntry (host : Host) (modelId : String) (directory : List String) (routeId name : String) :
    ExternalModelInventoryEntry :=
  { id := modelId ++ (":" ++ ggufLabel host name), modelId, routeId
    format := ModelFormat.gguf.value, runtime := some ModelFormat.gguf.runtime
    path := (ResolvedPath.ofParts (directory ++ [name])).str, servable := true
    metadata :=
      { matchedFile := name, quant := extractQuant host (Text.removeSuffix ".gguf" name) } }

def scanGgufDir (host : Host) (modelId : String) (directory : List String) (routeId : String)
    (scan : Scan) : Scan :=
  (globNames host directory ".gguf").foldl (fun scan name =>
    if Text.startsWith "." name then scan
    else scan.add (ggufEntry host modelId directory routeId name)) scan

def buildMlxEntry (host : Host) (modelId : String) (directory : List String) (routeId : String) :
    Option ExternalModelInventoryEntry :=
  if !host.disk.isFile (directory ++ ["config.json"]) then none
  else
    some
      { id := modelId, modelId, routeId, format := ModelFormat.mlx.value
        runtime := some ModelFormat.mlx.runtime, path := (ResolvedPath.ofParts directory).str
        servable := true, metadata := { matchedFile := "config.json" } }

def buildSafetensorsEntry (host : Host) (modelId : String) (directory : List String)
    (routeId : String) : Option ExternalModelInventoryEntry :=
  (safetensorsMatch host directory).map fun matched =>
    { id := modelId, modelId, routeId, format := ModelFormat.safetensors.value
      runtime := some ModelFormat.safetensors.runtime
      path := (ResolvedPath.ofParts directory).str, servable := false
      metadata := { matchedFile := matched } }

def buildEntry (host : Host) (modelId : String) (fmt : ModelFormat) (directory : List String)
    (routeId : String) : Option ExternalModelInventoryEntry :=
  match fmt with
  | .gguf => none
  | .mlx => buildMlxEntry host modelId directory routeId
  | .safetensors => buildSafetensorsEntry host modelId directory routeId

/-- One directory of a publisher. -/
def scanRepo (host : Host) (fmt : ModelFormat) (modelId : String) (directory : List String)
    (routeId : String) (scan : Scan) : Scan :=
  match fmt with
  | .gguf => scanGgufDir host modelId directory routeId scan
  | _ =>
    match buildEntry host modelId fmt directory routeId with
    | none => scan
    | some entry => scan.add entry

/-- The directories in a directory that are gone through, in order. -/
def visibleDirs (host : Host) (directory : List String) : List String :=
  (host.disk.sortedNames directory).filter fun name =>
    host.disk.isDir (directory ++ [name]) && !isHidden name

def scanRoute (host : Host) (root : ResolvedPath) (routeId : String) (scan : Scan) : Scan :=
  ModelFormat.all.foldl (fun scan fmt =>
    let fmtRoot := root.parts ++ [fmt.value]
    if !host.disk.isDir fmtRoot then scan
    else
      (visibleDirs host fmtRoot).foldl (fun scan publisher =>
        (visibleDirs host (fmtRoot ++ [publisher])).foldl (fun scan repo =>
          scanRepo host fmt (publisher ++ ("/" ++ repo)) (fmtRoot ++ [publisher, repo]) routeId
            scan) scan) scan) scan

/-- The id under a path in `path_to_route`, where the last route stays. -/
def pathToRoute (host : Host) (routes : List ExternalWeightRoute) (root : ResolvedPath) :
    Option String :=
  ((validateAllRoutes host routes).reverse.find? fun s => s.root? = some root).map (·.id)

def listExternalModelInventory (host : Host) (routes : List ExternalWeightRoute) :
    List ExternalModelInventoryEntry :=
  ((getAvailableRoutePaths host routes).foldl (fun scan root =>
    scanRoute host root ((pathToRoute host routes root).getD "unknown") scan) {}).entries

structure ParsedPublicId where
  modelId : String
  format : ModelFormat
  quant : Option String := none
  deriving DecidableEq

/-- `text.rsplit(":", 1)` on a text with a colon. -/
def rsplitColon (cs : List Char) : String × String :=
  let suffix := (cs.reverse.takeWhile (· ≠ ':')).reverse
  (String.ofList (cs.take (cs.length - (suffix.length + 1))), String.ofList suffix)

/-- The readings of an id that does not name a GGUF model. -/
def parsePlainId (host : Host) (model : String) : ParsedPublicId :=
  let lower := host.cases.lower model
  if Text.startsWith "mlx-community/" lower || Text.endsWith "-mlx" lower then
    { modelId := model, format := .mlx }
  else { modelId := model, format := .safetensors }

def parseExternalModelPublicId (host : Host) (model : String) : ParsedPublicId :=
  let model := Text.strip model
  if ':' ∈ model.toList && '/' ∈ model.toList then
    let (candidateId, suffix) := rsplitColon model.toList
    let upper := host.cases.upper candidateId
    if Text.occursIn "GGUF".toList upper.toList then
      { modelId := candidateId, format := .gguf, quant := some suffix }
    else if Text.endsWith "-GGUF" upper then
      { modelId := candidateId, format := .gguf, quant := some suffix }
    else parsePlainId host model
  else parsePlainId host model

structure RuntimeMetadata where
  quant : Option String := none
  matchedFile : Option String := none
  resolutionStatus : Option ResolutionStatus := none
  reason : Option String := none

structure ExternalRuntimeResolution where
  found : Bool := false
  servable : Bool := false
  modelId : String := ""
  publicId : String := ""
  format : Option String := none
  runtime : Option String := none
  path : Option String := none
  routeId : Option String := none
  reason : Option String := none
  metadata : RuntimeMetadata := {}

/-- The quant that is asked for: an empty one counts as none. -/
def askedQuant (host : Host) (requestedModel : String) : Option String :=
  (parseExternalModelPublicId host requestedModel).quant.filter (· ≠ "")

def resolveExternalRuntimeModel [Interpreter] (host : Host) (requestedModel : String)
    (routes : List ExternalWeightRoute) : ExternalRuntimeResolution :=
  let parsed := parseExternalModelPublicId host requestedModel
  match (listExternalModelInventory host routes).find? (·.id = requestedModel) with
  | none =>
    { found := false, publicId := requestedModel, format := some parsed.format.value
      reason := some "not_external" }
  | some entry =>
    let resolution : ExternalRuntimeResolution :=
      { found := true, servable := false, modelId := entry.modelId, publicId := requestedModel
        format := some entry.format, runtime := entry.runtime, routeId := some entry.routeId }
    if !entry.servable then { resolution with reason := some "not_servable" }
    else
      let availablePaths := getAvailableRoutePaths host routes
      if availablePaths.isEmpty then { resolution with reason := some "route_unavailable" }
      else
        let result := resolveModel host
          { modelId := if entry.modelId = "" then requestedModel else entry.modelId
            format := some entry.format, quant := askedQuant host requestedModel
            searchPaths := availablePaths }
        if result.status ≠ .found then
          { resolution with
            reason := some "invalid_layout"
            metadata := { resolutionStatus := some result.status, reason := result.reason } }
        else
          { resolution with
            servable := true, path := result.path
            metadata := { quant := parsed.quant, matchedFile := result.metadata.matchedFile } }

theorem resolveExternalRuntimeModel_some [Interpreter]
    (h : (listExternalModelInventory host routes).find? (·.id = model) = some entry) :
    (resolveExternalRuntimeModel host model routes).found = true ∧
      (resolveExternalRuntimeModel host model routes).runtime = entry.runtime ∧
      ((resolveExternalRuntimeModel host model routes).servable = true →
        entry.servable = true) := by
  simp only [resolveExternalRuntimeModel, h]
  generalize resolveModel host _ = result
  cases entry.servable with
  | false => exact ⟨rfl, rfl, id⟩
  | true =>
    cases (getAvailableRoutePaths host routes).isEmpty with
    | true => exact ⟨rfl, rfl, fun _ => rfl⟩
    | false =>
      by_cases hstatus : result.status = .found
      · simp [hstatus]
      · simp [hstatus]

theorem resolveExternalRuntimeModel_none [Interpreter]
    (h : (listExternalModelInventory host routes).find? (·.id = model) = none) :
    (resolveExternalRuntimeModel host model routes).found = false := by
  simp only [resolveExternalRuntimeModel, h]

end Whooshd.External
