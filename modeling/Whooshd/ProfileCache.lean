import Mathlib.Logic.Function.Basic
import Whooshd.Capacity
import Whooshd.Library.Coerce

namespace Whooshd
set_option autoImplicit true

/-- A file that cannot be opened or decoded has no text. -/
inductive FileContent where
  | text (t : String)
  | unreadable
  deriving DecidableEq, Repr

structure ProfileFile where
  mtime : Int
  content : FileContent

abbrev ProfileFiles := String → Option ProfileFile

/-- A profile with the time at which it was captured, or read if its file does not tell. -/
structure LoadedProfile (φ : Type) where
  fields : φ
  capturedAt : Time
  deriving DecidableEq, Repr

/-- What a profile is read with. -/
structure ProfileReader (φ : Type) where
  /-- The other fields of a text that is a valid profile, and its `captured_at` if it has one. -/
  validate : String → Option (φ × Option Time)
  /-- The paths for which `os.stat` raises a `ValueError`, such as those with a null character. -/
  refused : String → Bool

def loadFile (reader : ProfileReader φ) (now : Time) : FileContent → Option (LoadedProfile φ)
  | .unreadable => none
  | .text t => (reader.validate t).map fun found => ⟨found.1, found.2.getD now⟩

/-- A refused path does not exist for `os.path.exists`. -/
def safeLoadProfile (reader : ProfileReader φ) (files : ProfileFiles) (now : Time)
    (path : String) : Option (LoadedProfile φ) :=
  if path = "" ∨ reader.refused path = true then none
  else
    match files path with
    | none => none
    | some file => loadFile reader now file.content

/-- A path with the time of its last change, of which a missing file has none. -/
abbrev Signature := String × Option Int

structure ProfileCache (φ : Type) where
  profile : Option (LoadedProfile φ)
  signature : Option Signature
  failureSignature : Option Signature

def ProfileCache.empty : ProfileCache φ := ⟨none, none, none⟩

/-- A controller, with the files and the environment that it reads. -/
structure ProfileState (φ : Type) where
  files : ProfileFiles
  /-- `WHOOSHD_CAPACITY_PROFILE_PATH`. -/
  env : Option String
  profilePath : Option String
  cache : ProfileCache φ

namespace ProfileState

/-- The path given to the controller, or else that of the environment. -/
def configuredPath (s : ProfileState φ) : Option String :=
  (s.profilePath.filter (· ≠ "")).orElse fun _ => s.env.filter (· ≠ "")

def getMtime (reader : ProfileReader φ) (s : ProfileState φ) (path : String) :
    Except PyError (Option Int) :=
  if reader.refused path then .error .valueError
  else .ok ((s.files path).map (·.mtime))

/-- `_get_profile`: the profile, and what is cached afterwards. -/
def getProfile (reader : ProfileReader φ) (now : Time) (s : ProfileState φ) :
    Except PyError (Option (LoadedProfile φ) × ProfileCache φ) :=
  match s.configuredPath with
  | none => .ok (none, s.cache)
  | some path =>
    match s.getMtime reader path with
    | .error e => .error e
    | .ok mtime =>
      let sig := (path, mtime)
      if s.cache.signature = some sig ∧ s.cache.profile.isSome then .ok (s.cache.profile, s.cache)
      else if s.cache.failureSignature = some sig then .ok (none, s.cache)
      else
        let profile := safeLoadProfile reader s.files now path
        .ok (profile,
          { profile := profile
            signature := some sig
            failureSignature := if profile.isSome then none else some sig })

/-- What is loaded from the path without the cache. -/
def uncached (reader : ProfileReader φ) (now : Time) (s : ProfileState φ) :
    Option (LoadedProfile φ) :=
  s.configuredPath.bind (safeLoadProfile reader s.files now)

end ProfileState

/-- What may happen to a controller and its files. -/
inductive ProfileEvent where
  | write (path : String) (file : ProfileFile)
  | delete (path : String)
  | setEnv (path : Option String)
  | invalidateProfileCache
  | getProfile (now : Time)

namespace ProfileState

def after (reader : ProfileReader φ) (s : ProfileState φ) : ProfileEvent → ProfileState φ
  | .write path file => { s with files := Function.update s.files path (some file) }
  | .delete path => { s with files := Function.update s.files path none }
  | .setEnv path => { s with env := path }
  | .invalidateProfileCache => { s with cache := .empty }
  | .getProfile now =>
    match s.getProfile reader now with
    | .error _ => s
    | .ok (_, cache) => { s with cache := cache }

/-- A new controller, while there are no files yet. -/
def start (profilePath : Option String) : ProfileState φ :=
  { files := fun _ => none, env := none, profilePath := profilePath, cache := .empty }

def run (reader : ProfileReader φ) (profilePath : Option String) (history : List ProfileEvent) :
    ProfileState φ :=
  history.foldl (after reader) (start profilePath)

end ProfileState

/-- A path and the time of its last change tell what is in the file. -/
def SignatureDetermines (history : List ProfileEvent) : Prop :=
  ∀ path f g, .write path f ∈ history → .write path g ∈ history → f.mtime = g.mtime →
    f.content = g.content

/-- A result that one of the calls has loaded under the signature. -/
def LoadedUnder (reader : ProfileReader φ) (history : List ProfileEvent) (sig : Signature)
    (result : Option (LoadedProfile φ)) : Prop :=
  match sig.2 with
  | none => result = none
  | some mtime => ∃ file read, .write sig.1 file ∈ history ∧ .getProfile read ∈ history ∧
      file.mtime = mtime ∧ result = loadFile reader read file.content

/-- What is cached under a signature has been loaded under it. -/
structure CacheCoherent (reader : ProfileReader φ) (history : List ProfileEvent)
    (s : ProfileState φ) : Prop where
  written : ∀ path file, s.files path = some file → .write path file ∈ history
  found : ∀ sig profile, s.cache.signature = some sig → s.cache.profile = some profile →
    LoadedUnder reader history sig (some profile)
  failed : ∀ sig, s.cache.failureSignature = some sig → LoadedUnder reader history sig none

variable {reader : ProfileReader φ} {s : ProfileState φ}

theorem LoadedUnder.append (h : LoadedUnder reader history sig result)
    (more : List ProfileEvent) : LoadedUnder reader (history ++ more) sig result := by
  obtain ⟨path, mtime⟩ := sig
  cases mtime with
  | none => exact h
  | some mtime =>
    obtain ⟨file, read, hwrite, hread, hmtime, hresult⟩ := h
    exact ⟨file, read, List.mem_append_left _ hwrite, List.mem_append_left _ hread, hmtime, hresult⟩

theorem CacheCoherent.append (h : CacheCoherent reader history s) (more : List ProfileEvent) :
    CacheCoherent reader (history ++ more) s where
  written path file hfile := List.mem_append_left _ (h.written path file hfile)
  found sig profile hsig hprofile := (h.found sig profile hsig hprofile).append more
  failed sig hsig := (h.failed sig hsig).append more

theorem cacheCoherent_start (profilePath : Option String) :
    CacheCoherent reader [] (.start profilePath) where
  written path file hfile := by cases hfile
  found sig profile hsig := by cases hsig
  failed sig hsig := by cases hsig

theorem configuredPath_ne (h : s.configuredPath = some path) : path ≠ "" := by
  unfold ProfileState.configuredPath at h
  cases hown : s.profilePath.filter (· ≠ "") with
  | some own =>
    rw [hown] at h
    cases h
    simpa using (Option.filter_eq_some_iff.mp hown).2
  | none =>
    rw [hown] at h
    simpa using (Option.filter_eq_some_iff.mp h).2

theorem safeLoadProfile_eq (hpath : s.configuredPath = some path)
    (hrefused : reader.refused path = false) (now : Time) :
    safeLoadProfile reader s.files now path =
      (s.files path).bind fun file => loadFile reader now file.content := by
  have hne : ¬ (path = "" ∨ reader.refused path = true) := by
    simp [configuredPath_ne hpath, hrefused]
  rw [safeLoadProfile, if_neg hne]
  cases s.files path <;> rfl

theorem loadedUnder_load (h : CacheCoherent reader history s) (hpath : s.configuredPath = some path)
    (hrefused : reader.refused path = false) (now : Time) :
    LoadedUnder reader (history ++ [.getProfile now]) (path, (s.files path).map (·.mtime))
      (safeLoadProfile reader s.files now path) := by
  rw [safeLoadProfile_eq hpath hrefused]
  cases hfile : s.files path with
  | none => rfl
  | some file =>
    exact ⟨file, now, List.mem_append_left _ (h.written path file hfile), List.mem_concat_self,
      rfl, rfl⟩

theorem getProfile_loaded (h : CacheCoherent reader history s)
    (hpath : s.configuredPath = some path)
    (hrefused : reader.refused path = false) (now : Time) :
    ∃ result cache, s.getProfile reader now = .ok (result, cache) ∧
      LoadedUnder reader (history ++ [.getProfile now]) (path, (s.files path).map (·.mtime))
        result ∧
      CacheCoherent reader (history ++ [.getProfile now]) { s with cache := cache } := by
  have hkept := h.append [.getProfile now]
  have hmtime : s.getMtime reader path = .ok ((s.files path).map (·.mtime)) := by
    rw [ProfileState.getMtime, hrefused]
    rfl
  rw [ProfileState.getProfile, hpath]
  simp only [hmtime]
  by_cases hfound : s.cache.signature = some (path, (s.files path).map (·.mtime)) ∧
      s.cache.profile.isSome = true
  · obtain ⟨profile, hprofile⟩ := Option.isSome_iff_exists.mp hfound.2
    refine ⟨s.cache.profile, s.cache, if_pos hfound, ?_, hkept⟩
    rw [hprofile]
    exact hkept.found _ profile hfound.1 hprofile
  rw [if_neg hfound]
  by_cases hfailed : s.cache.failureSignature = some (path, (s.files path).map (·.mtime))
  · exact ⟨none, s.cache, if_pos hfailed, hkept.failed _ hfailed, hkept⟩
  rw [if_neg hfailed]
  have hload := loadedUnder_load h hpath hrefused now
  refine ⟨_, _, rfl, hload, hkept.written, ?_, ?_⟩
  · intro sig profile hsig hprofile
    cases hsig
    rwa [show safeLoadProfile reader s.files now path = some profile from hprofile] at hload
  · intro sig hsig
    cases hsome : safeLoadProfile reader s.files now path with
    | some profile =>
      rw [hsome] at hsig
      cases hsig
    | none =>
      rw [hsome] at hsig hload
      cases hsig
      exact hload

theorem cacheCoherent_get (h : CacheCoherent reader history s) (now : Time) :
    CacheCoherent reader (history ++ [.getProfile now]) (s.after reader (.getProfile now)) := by
  have hkept := h.append [.getProfile now]
  cases hpath : s.configuredPath with
  | none =>
    rw [ProfileState.after, ProfileState.getProfile, hpath]
    exact hkept
  | some path =>
    cases hrefused : reader.refused path with
    | true =>
      rw [ProfileState.after, ProfileState.getProfile, hpath]
      simp only [ProfileState.getMtime, hrefused, if_true]
      exact hkept
    | false =>
      obtain ⟨result, cache, hget, -, hcoherent⟩ := getProfile_loaded h hpath hrefused now
      rw [ProfileState.after, hget]
      exact hcoherent

theorem cacheCoherent_after (h : CacheCoherent reader history s) (e : ProfileEvent) :
    CacheCoherent reader (history ++ [e]) (s.after reader e) := by
  have hkept := h.append [e]
  cases e with
  | write path file =>
    refine ⟨?_, hkept.found, hkept.failed⟩
    intro p f hf
    change Function.update s.files path (some file) p = some f at hf
    by_cases hp : p = path
    · subst hp
      rw [Function.update_self] at hf
      cases hf
      exact List.mem_concat_self
    · rw [Function.update_of_ne hp] at hf
      exact hkept.written p f hf
  | delete path =>
    refine ⟨?_, hkept.found, hkept.failed⟩
    intro p f hf
    change Function.update s.files path none p = some f at hf
    by_cases hp : p = path
    · subst hp
      rw [Function.update_self] at hf
      cases hf
    · rw [Function.update_of_ne hp] at hf
      exact hkept.written p f hf
  | setEnv path => exact ⟨hkept.written, hkept.found, hkept.failed⟩
  | invalidateProfileCache =>
    refine ⟨hkept.written, ?_, ?_⟩
    · intro sig profile hsig
      cases hsig
    · intro sig hsig
      cases hsig
  | getProfile now => exact cacheCoherent_get h now

theorem cacheCoherent_run (reader : ProfileReader φ) (profilePath : Option String)
    (history : List ProfileEvent) :
    CacheCoherent reader history (.run reader profilePath history) := by
  induction history using List.reverseRecOn with
  | nil => exact cacheCoherent_start profilePath
  | append_singleton history e ih =>
    rw [ProfileState.run, List.foldl_append]
    exact cacheCoherent_after ih e

/-- The time of a read shows in nothing but the time of capture. -/
theorem uncached_fields (reader : ProfileReader φ) (s : ProfileState φ) (now read : Time) :
    (s.uncached reader read).map (·.fields) = (s.uncached reader now).map (·.fields) := by
  have hload : ∀ content, (loadFile reader read content).map (·.fields) =
      (loadFile reader now content).map (·.fields) := by
    intro content
    cases content with
    | unreadable => rfl
    | text t =>
      rw [loadFile, loadFile, Option.map_map, Option.map_map]
      rfl
  rw [ProfileState.uncached, ProfileState.uncached]
  cases s.configuredPath with
  | none => rfl
  | some path =>
    simp only [Option.bind_some, safeLoadProfile]
    split
    · rfl
    · split
      · rfl
      · exact hload _

theorem loadedUnder_present (hdet : SignatureDetermines history)
    (hwritten : ∀ file, s.files path = some file → .write path file ∈ history)
    (h : LoadedUnder reader history (path, (s.files path).map (·.mtime)) result) (now : Time) :
    ∃ read, (read = now ∨ .getProfile read ∈ history) ∧
      result = (s.files path).bind fun file => loadFile reader read file.content := by
  cases hfile : s.files path with
  | none =>
    rw [hfile] at h
    exact ⟨now, .inl rfl, h⟩
  | some file =>
    rw [hfile] at h
    obtain ⟨file', read, hwrite, hread, hmtime, hresult⟩ := h
    have hcontent := hdet path file' file hwrite (hwritten file hfile) hmtime
    refine ⟨read, .inr hread, ?_⟩
    rw [hresult, hcontent]
    rfl

/-- After any history a call returns what is loaded without the cache, now or at the time of an
earlier call, and the same fields as now in either case. -/
theorem getProfile_uncached (reader : ProfileReader φ) (profilePath : Option String)
    (history : List ProfileEvent) (now : Time) (hdet : SignatureDetermines history)
    (hstat : ∀ path, (ProfileState.run reader profilePath history).configuredPath = some path →
      reader.refused path = false) :
    ∃ read, (read = now ∨ .getProfile read ∈ history) ∧
      ((ProfileState.run reader profilePath history).getProfile reader now).map Prod.fst =
        .ok ((ProfileState.run reader profilePath history).uncached reader read) ∧
      ((ProfileState.run reader profilePath history).uncached reader read).map (·.fields) =
        ((ProfileState.run reader profilePath history).uncached reader now).map (·.fields) := by
  have hcoherent := cacheCoherent_run reader profilePath history
  generalize ProfileState.run reader profilePath history = s at hcoherent hstat
  cases hpath : s.configuredPath with
  | none =>
    refine ⟨now, .inl rfl, ?_, rfl⟩
    rw [ProfileState.getProfile, ProfileState.uncached, hpath]
    rfl
  | some path =>
    have hrefused := hstat path hpath
    obtain ⟨result, cache, hget, hloaded, -⟩ := getProfile_loaded hcoherent hpath hrefused now
    have hdet' : SignatureDetermines (history ++ [.getProfile now]) := by
      intro p f g hf hg
      have hin : ∀ file, ProfileEvent.write p file ∈ history ++ [.getProfile now] →
          .write p file ∈ history := by
        intro file hmem
        simpa using hmem
      exact hdet p f g (hin f hf) (hin g hg)
    have hwritten : ∀ file, s.files path = some file →
        .write path file ∈ history ++ [.getProfile now] := fun file hfile =>
      List.mem_append_left _ (hcoherent.written path file hfile)
    obtain ⟨read, hread, hresult⟩ := loadedUnder_present hdet' hwritten hloaded now
    refine ⟨read, ?_, ?_, uncached_fields reader s now read⟩
    · rcases hread with hnow | hmem
      · exact .inl hnow
      · rcases List.mem_append.mp hmem with hbefore | hlast
        · exact .inr hbefore
        · exact .inl (by simpa using hlast)
    · rw [hget, ProfileState.uncached, hpath, Option.bind_some, hresult,
        safeLoadProfile_eq hpath hrefused]
      rfl

/-- A profile whose file does not tell when it was captured. -/
def undatedText : String :=
  "\x7b\"model_id\": \"m\", \"runtime\": \"mlx\", \"machine_class\": \"mc\", " ++
    "\"prompt_size_chars\": 10, \"configured_max_tokens\": 16\x7d"

def undatedReader : ProfileReader CapacityProfile where
  validate text :=
    if text = undatedText then
      some
        ({ modelId := "m", runtime := "mlx", machineClass := "mc", hostMemoryBytes := none
           recommendedActiveConcurrency := 1 }, none)
    else none
  refused path := path.toList.contains '\x00'

/-- The profile is read once, and its file stays as it is. -/
def undatedHistory : List ProfileEvent :=
  [.write "p.json" ⟨100, .text undatedText⟩, .getProfile 5]

theorem undatedHistory_determines : SignatureDetermines undatedHistory := by
  intro path f g hf hg _
  simp only [undatedHistory, List.mem_cons, ProfileEvent.write.injEq, reduceCtorEq,
    List.not_mem_nil, or_false] at hf hg
  rw [hf.2, hg.2]

theorem getProfile_uncached_undated :
    ∃ read, (read = 9 ∨ .getProfile read ∈ undatedHistory) ∧
      ((ProfileState.run undatedReader (some "p.json") undatedHistory).getProfile
        undatedReader 9).map Prod.fst =
        .ok ((ProfileState.run undatedReader (some "p.json") undatedHistory).uncached
          undatedReader read) ∧
      ((ProfileState.run undatedReader (some "p.json") undatedHistory).uncached
        undatedReader read).map (·.fields) =
        ((ProfileState.run undatedReader (some "p.json") undatedHistory).uncached
          undatedReader 9).map (·.fields) :=
  getProfile_uncached undatedReader (some "p.json") undatedHistory 9 undatedHistory_determines
    (by
      intro path hpath
      cases hpath
      decide +kernel)

/-- The cached profile was captured at the time of its first read, a profile that is loaded again
at the time of the second; and a path with a null character raises. -/
theorem cached_time_differs :
    SignatureDetermines undatedHistory ∧
      (((ProfileState.run undatedReader (some "p.json") undatedHistory).getProfile
        undatedReader 9).map fun r => r.1.map (·.capturedAt)) = .ok (some 5) ∧
      ((ProfileState.run undatedReader (some "p.json") undatedHistory).uncached
        undatedReader 9).map (·.capturedAt) = some 9 ∧
      ((ProfileState.run undatedReader (some "p\x00.json") []).getProfile undatedReader 9).map
        (fun r => r.1.map (·.capturedAt)) = .error .valueError ∧
      ((ProfileState.run undatedReader (some "p\x00.json") []).uncached undatedReader 9).map
        (·.capturedAt) = none :=
  ⟨undatedHistory_determines, by decide +kernel, by decide +kernel, by decide +kernel,
    by decide +kernel⟩

end Whooshd
