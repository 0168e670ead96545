import Mathlib.Logic.Function.Basic
import Whooshd.Library.Machine
import Whooshd.Runtime

namespace Whooshd.Supervision
set_option autoImplicit true

structure LlamaCppAdapterConfig where
  serverUrl : Option String
  binaryPath : Option String
  modelPath : Option String
  host : String
  port : Int
  contextWindow : Option Int
  parallelSlots : Option Int
  extraArgs : List String
  startupTimeout : Time
  startupTimeout_pos : 0 < startupTimeout
  autoStart : Bool

/-- `a or b` for texts that may be missing. -/
def orText (a b : Option String) : Option String :=
  match a with
  | some s => if s = "" then b else some s
  | none => b

def endsWithGguf (s : String) : Bool := ".gguf".toList.isSuffixOf s.toList

def validateManagedConfig (config : LlamaCppAdapterConfig) (modelPathOverride : Option String) :
    Except String Unit :=
  match orText config.binaryPath none, orText modelPathOverride (orText config.modelPath none) with
  | none, _ => .error "auto_start=true requires binary_path to be set"
  | some _, none => .error "auto_start=true requires model_path to be set"
  | some _, some model =>
    if !endsWithGguf model then .error "Model path must end in .gguf"
    else if config.port < 1 ∨ config.port > 65535 then
      .error s!"Port out of valid range (1-65535): {config.port}"
    else if config.contextWindow.any (· ≤ 0) then
      .error s!"context_window must be positive, got {config.contextWindow.getD 0}"
    else if config.parallelSlots.any (· ≤ 0) then
      .error s!"parallel_slots must be positive, got {config.parallelSlots.getD 0}"
    else .ok ()

def validateFilesExist (isFile : String → Bool) (config : LlamaCppAdapterConfig)
    (modelPathOverride : Option String) : Except String Unit :=
  let binary := config.binaryPath.getD ""
  let model := (orText modelPathOverride config.modelPath).getD ""
  if !isFile binary then .error s!"llama-server binary not found: {binary}"
  else if !isFile model then
    if modelPathOverride.isSome then
      .error "External model path is unavailable at execution time."
    else .error "Model file not found"
  else .ok ()

def buildLlamaServerArgv (config : LlamaCppAdapterConfig) (modelPathOverride : Option String) :
    Except String (List String) := do
  validateManagedConfig config modelPathOverride
  let model := (orText modelPathOverride config.modelPath).getD ""
  let contextArgs := match config.contextWindow with
    | some n => if n > 0 then ["--ctx-size", toString n] else []
    | none => []
  let slotArgs := match config.parallelSlots with
    | some n => if n > 0 then ["--parallel", toString n] else []
    | none => []
  return [config.binaryPath.getD "", "--model", model, "--host", config.host, "--port",
    toString config.port] ++ contextArgs ++ slotArgs ++ config.extraArgs

abbrev Pid := Nat

/-- What supervision takes from the adapter and its configuration. -/
structure Supervisor where
  /-- Whether `warmup` makes the wrapper of a process if there is none. -/
  makes : Bool
  /-- Whether there is a server to be asked without a process of one's own. -/
  unmanaged : Bool
  /-- The checks before a launch, and the command. -/
  argv : (String → Bool) → Except String (List String)
  alreadyRunning : Pid → String
  launchFailed : String → String
  exited : Option Int → String
  notReady : String
  startupTimeout : Time
  startupTimeout_pos : 0 < startupTimeout

def codeText (code : Option Int) : String :=
  match code with
  | some n => toString n
  | none => "None"

def llamaCppSupervisor (config : LlamaCppAdapterConfig) (timeoutText : String) : Supervisor where
  makes := config.autoStart
  unmanaged := !config.autoStart && (orText config.serverUrl none).isSome
  argv isFile := do
    validateManagedConfig config none
    validateFilesExist isFile config none
    buildLlamaServerArgv config none
  alreadyRunning pid := s!"llama-server is already running (pid={pid})"
  launchFailed _ := "Failed to launch llama-server: OSError"
  exited code :=
    s!"llama-server exited unexpectedly with code {codeText code} before becoming ready"
  notReady := s!"llama-server did not become ready within {timeoutText}s"
  startupTimeout := config.startupTimeout
  startupTimeout_pos := config.startupTimeout_pos

inductive WaitPhase where
  | probing
  | sleeping
  deriving DecidableEq, Repr

/-- A warmup in `wait_until_ready`. -/
structure Wait where
  server : Nat
  deadline : Time
  phase : WaitPhase
  deriving DecidableEq, Repr

/-- An adapter with the children it has launched. -/
structure State where
  nextPid : Pid
  /-- What `poll` returns for a child. -/
  returnCode : Pid → Option Int
  nextServer : Nat
  /-- The child in the hands of each wrapper. -/
  process : Nat → Option Pid
  managedProcess : Option Nat
  waits : List Wait

def State.initial : State := ⟨0, fun _ => none, 0, fun _ => none, none, []⟩

/-- What comes of an attempt to launch: nothing, a child, or a child that is gone at once. -/
inductive Launch where
  | osError (exc : String)
  | running
  | gone (code : Int)

/-- How a child takes `terminate` and, if it does not exit in time, `kill`. -/
inductive Ending where
  | terminated (code : Int)
  | killed (code : Int)
  | survives
  deriving DecidableEq, Repr

/-- The answer to a health probe. -/
inductive Probe where
  | reachable
  | unreachable (detail : String)

inductive Event where
  /-- A child exits by itself. -/
  | exits (pid : Pid) (code : Int)
  | warmup (now : Time) (isFile : String → Bool) (launch : Launch) (probe : Probe)
  /-- The answer to the probe of a warmup. -/
  | answered (i : Nat) (probe : Probe)
  /-- A warmup goes on after its pause. -/
  | woken (i : Nat) (now : Time) (ending : Ending)
  | cancelled (i : Nat)
  | checkHealth
  | isLoaded
  | unload (ending : Ending)

inductive Note where
  | launched (pid : Pid) (argv : List String)
  | raised (message : String)
  | ready
  /-- A child that `kill` did not end in time, and that nobody holds any more. -/
  | survived (pid : Pid)
  deriving DecidableEq, Repr

namespace State

/-- `poll() is None`, for a child that has been launched. -/
def Live (s : State) (pid : Pid) : Prop := pid < s.nextPid ∧ s.returnCode pid = none

def isRunning (s : State) (server : Nat) : Bool :=
  match s.process server with
  | none => false
  | some pid => (s.returnCode pid).isNone

def clear (s : State) (server : Nat) : State :=
  { s with process := Function.update s.process server none }

def exit (s : State) (pid : Pid) (code : Int) : State :=
  { s with returnCode := Function.update s.returnCode pid (some code) }

/-- A new child in the hands of a wrapper. -/
def launch (s : State) (server : Nat) : State :=
  { s with
    nextPid := s.nextPid + 1
    process := Function.update s.process server (some s.nextPid) }

def checkExited (s : State) (server : Nat) : State :=
  match s.process server with
  | none => s
  | some pid => if (s.returnCode pid).isSome then s.clear server else s

def stop (s : State) (server : Nat) (ending : Ending) : State × List Note :=
  match s.process server with
  | none => (s, [])
  | some pid =>
    if (s.returnCode pid).isSome then (s.clear server, [])
    else
      match ending with
      | .terminated code | .killed code => ((s.exit pid code).clear server, [])
      | .survives => (s.clear server, [.survived pid])

/-- The steps of `check_health` before the probe, and whether there is a probe. -/
def checkHealth (sup : Supervisor) (s : State) : State × Bool :=
  match s.managedProcess with
  | none => (s, sup.unmanaged)
  | some server =>
    let s := s.checkExited server
    (s, s.isRunning server)

/-- `start` fails or leaves a child with the wrapper. -/
def start (sup : Supervisor) (s : State) (server : Nat) (isFile : String → Bool)
    (launch : Launch) : Except String (State × List String) :=
  if s.isRunning server then .error (sup.alreadyRunning ((s.process server).getD 0))
  else
    match sup.argv isFile with
    | .error message => .error message
    | .ok argv =>
      match launch with
      | .osError exc => .error (sup.launchFailed exc)
      | .running => .ok (s.launch server, argv)
      | .gone code => .ok ((s.launch server).exit s.nextPid code, argv)

/-- One turn of the loop of `wait_until_ready`, up to its next pause. -/
def waitTurn (sup : Supervisor) (s : State) (server : Nat) (deadline now : Time)
    (ending : Ending) : State × List Note :=
  if now < deadline then
    if s.isRunning server = false then
      (s, [.raised (sup.exited ((s.process server).bind s.returnCode))])
    else
      let (s, probes) := s.checkHealth sup
      let phase := if probes then .probing else .sleeping
      ({ s with waits := s.waits ++ [⟨server, deadline, phase⟩] }, [])
  else
    let (s, notes) := s.stop server ending
    (s, notes ++ [.raised sup.notReady])

/-- `warmup`, once there is a wrapper. -/
def warmupManaged (sup : Supervisor) (s : State) (server : Nat) (now : Time)
    (isFile : String → Bool) (launch : Launch) : State × List Note :=
  let s := s.checkExited server
  if s.isRunning server then ((s.checkHealth sup).1, [])
  else
    match s.start sup server isFile launch with
    | .error message => (s, [.raised message])
    | .ok (s, argv) =>
      let pid := (s.process server).getD 0
      -- the first turn begins before the deadline, so that it stops nothing
      let (s, notes) := s.waitTurn sup server (now + sup.startupTimeout) now .survives
      (s, .launched pid argv :: notes)

def warmup (sup : Supervisor) (s : State) (now : Time) (isFile : String → Bool) (launch : Launch)
    (probe : Probe) : State × List Note :=
  match s.managedProcess with
  | some server => s.warmupManaged sup server now isFile launch
  | none =>
    if sup.makes then
      let server := s.nextServer
      { s with nextServer := server + 1, managedProcess := some server }.warmupManaged sup server
        now isFile launch
    else if !sup.unmanaged then (s, [])
    else
      match probe with
      | .reachable => (s, [.ready])
      | .unreachable _ => (s, [])

def unload (s : State) (ending : Ending) : State × List Note :=
  match s.managedProcess with
  | none => (s, [])
  | some server =>
    let (s, notes) := s.stop server ending
    ({ s with managedProcess := none }, notes)

/-- The wait that is next in its phase. -/
def waiting (s : State) (i : Nat) (phase : WaitPhase) : Option Wait :=
  (s.waits[i]?).filter (·.phase = phase)

def after (sup : Supervisor) (s : State) : Event → Option (State × List Note)
  | .exits pid code =>
    if pid < s.nextPid ∧ s.returnCode pid = none then
      some (s.exit pid code, [])
    else none
  | .warmup now isFile launch probe => some (s.warmup sup now isFile launch probe)
  | .answered i probe =>
    (s.waiting i .probing).map fun w =>
      let s := { s with waits := s.waits.eraseIdx i }
      match probe with
      | .reachable => (s, [.ready])
      | .unreachable _ => ({ s with waits := s.waits ++ [{ w with phase := .sleeping }] }, [])
  | .woken i now ending =>
    (s.waiting i .sleeping).map fun w =>
      { s with waits := s.waits.eraseIdx i }.waitTurn sup w.server w.deadline now ending
  | .cancelled i =>
    if i < s.waits.length then some ({ s with waits := s.waits.eraseIdx i }, []) else none
  | .checkHealth => some ((s.checkHealth sup).1, [])
  | .isLoaded =>
    some (match s.managedProcess with
      | none => s
      | some server => s.checkExited server, [])
  | .unload ending => some (s.unload ending)

/-- `is_loaded`. -/
def loaded (s : State) : Bool := s.managedProcess.any s.isRunning

/-- The child in the hands of the wrapper of the adapter. -/
def tracked (s : State) : Option Pid := s.managedProcess.bind s.process

end State

/-- An adapter with everything that can happen to it. -/
def machine (sup : Supervisor) : Machine State Event Note := ⟨State.after sup⟩

end Whooshd.Supervision
