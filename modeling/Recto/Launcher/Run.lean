import Recto.Data.Unwinding
import Recto.Restart.Backoff

/-!
# The supervision run

`run` of the launcher: sources are brought up once, a child is spawned and
waited for in each round, the restart policy decides whether there is another
round, and `finally` blocks release what was acquired. Every call out of the
launcher may raise. The two loops without end are cut after a number of rounds.
-/

namespace Recto
namespace Launcher

open Restart Raising

/-! ## What the launcher calls -/

/-- A secret source, with the object it is and the name it gives. -/
structure SecretSource where
  handle : ℕ
  name : String
  deriving DecidableEq, Repr

/-- What the launcher reads of `ServiceConfig`. -/
structure ServiceConfig where
  service : String
  exec : String
  args : List String
  workingDir : String
  secretTargetEnvs : List String
  healthzEnabled : Bool
  healthzType : String
  restart : RestartSpec

/-- An exception: whether `except Exception` takes it, and the name of its class. -/
structure Raised where
  isException : Bool
  name : String
  deriving DecidableEq, Repr

/-- The events of `_emit_event`, with what they carry. -/
inductive Notice where
  | childSpawn (cmd : List String) (cwd : Option String) (secretsInjected : List String)
  | childExit (returncode : ℤ) (healthzSignaled : Bool)
  | finalExit (returncode restartAttempts : ℤ)
  | maxAttemptsReached (maxAttempts lastReturncode : ℤ)
  | restartAttempt (attempt delaySeconds previousReturncode : ℤ) (backoff : String)
  | teardownFailed (source error : String)
  deriving DecidableEq, Repr

def Notice.kind : Notice → String
  | childSpawn .. => "child.spawn"
  | childExit .. => "child.exit"
  | finalExit .. => "run.final_exit"
  | maxAttemptsReached .. => "max_attempts_reached"
  | restartAttempt .. => "restart.attempt"
  | teardownFailed .. => "source.teardown_failed"

/-- The calls of a run. Job limits, probes and processes are the objects their factories return. -/
inductive LauncherCall where
  | newTelemetry
  | startRun (service healthzType policy : String)
  | newBuffer
  | newAdminUi
  | adminUiStart
  | supportsLifecycle (src : SecretSource)
  | init (src : SecretSource)
  | teardown (src : SecretSource)
  | buildChildEnv
  | buildDispatcher
  | emitEvent (notice : Notice)
  | popen (cmd : List String) (env : List (String × String)) (cwd : Option String)
  | newJobLimit
  | hasHandle (job : ℕ)
  | attach (job proc : ℕ)
  | close (job : ℕ)
  | newProbe
  | probeStart (probe : ℕ)
  | restartRequired (probe : ℕ)
  | probeStop (probe : ℕ)
  | poll (proc : ℕ)
  | terminate (proc : ℕ)
  | waitGrace (proc : ℕ)
  | kill (proc : ℕ)
  | wait (proc : ℕ)
  | pollSleep
  | sleep (delay : ℤ)
  | adminUiStop
  | endRun (lastRc : ℤ)
  | shutdown
  deriving DecidableEq, Repr

/-- What a call returns. A `wait` with a timeout that expires returns `none`. -/
abbrev LauncherCall.Value : LauncherCall → Type
  | supportsLifecycle _ => Bool
  | buildChildEnv => List (String × String)
  | popen .. => ℕ
  | newJobLimit => ℕ
  | hasHandle _ => Bool
  | newProbe => ℕ
  | restartRequired _ => Bool
  | poll _ => Option ℤ
  | waitGrace _ => Option ℤ
  | wait _ => ℤ
  | _ => Unit

/-- The local variables that outlive an exception. -/
structure RunLocals where
  initialized : List SecretSource
  lastRc : ℤ
  deriving DecidableEq, Repr

abbrev Launching (α : Type) :=
  Raising LauncherCall LauncherCall.Value Raised RunLocals α

/-- One call of the launcher. -/
abbrev calling (q : LauncherCall) : Launching q.Value := perform q

abbrev RunLog := CallLog LauncherCall fun q => Except Raised q.Value

abbrev RunEvent := Σ q : LauncherCall, Except Raised q.Value

/-! ## Sources -/

/-- The first half of `_bracket_lifecycle`. -/
def initSources : List SecretSource → Launching Unit
  | [] => pure ()
  | src :: rest => do
    let stateful ← calling (.supportsLifecycle src)
    if stateful then
      let _ ← calling (.init src)
      assign fun x => { x with initialized := x.initialized ++ [src] }
      initSources rest
    else initSources rest

/-- The second half: an exception of one source is reported, anything else leaves the loop. -/
def teardownSources : List SecretSource → Launching Unit
  | [] => pure ()
  | src :: rest => do
    handling (calling (.teardown src)) fun e =>
      if e.isException then some (calling (.emitEvent (.teardownFailed src.name e.name))) else none
    teardownSources rest

/-- `_bracket_lifecycle` around a body -/
def bracketLifecycle {α : Type} (sources : List SecretSource) (body : Launching α) : Launching α := do
  assign fun x => { x with initialized := [] }
  finallyDo (do initSources sources; body) do
    let initialized ← local? (·.initialized)
    teardownSources initialized

/-! ## One child -/

/-- `probe is not None and probe.restart_required.is_set()` -/
def isTripped : Option ℕ → Launching Bool
  | none => pure false
  | some probe => calling (.restartRequired probe)

/-- `_wait_for_exit_or_unhealthy`, cut after a number of polls -/
def waitForExitOrUnhealthy (proc : ℕ) (probe : Option ℕ) : ℕ → Launching ℤ
  | 0 => cutOff
  | polls + 1 => do
    match ← calling (.poll proc) with
    | some rc => pure rc
    | none =>
      let tripped ← isTripped probe
      if tripped then
        let _ ← calling (.terminate proc)
        match ← calling (.waitGrace proc) with
        | some rc => pure rc
        | none =>
          let _ ← calling (.kill proc)
          calling (.wait proc)
      else
        let _ ← calling .pollSleep
        waitForExitOrUnhealthy proc probe polls

/-- The job limit is attached when it has a handle, and closed when that raises an exception. -/
def attachJob (job proc : ℕ) : Launching Unit := do
  let limited ← calling (.hasHandle job)
  if limited then
    handling (calling (.attach job proc)) fun e =>
      if e.isException then some do let _ ← calling (.close job); raise e else none
  else pure ()

/-- The probe of a child, if health is watched at all. -/
def startProbe (config : ServiceConfig) : Launching (Option ℕ) :=
  if config.healthzEnabled then do
    let probe ← calling .newProbe
    let _ ← calling (.probeStart probe)
    pure (some probe)
  else pure none

def stopProbe : Option ℕ → Launching Unit
  | none => pure ()
  | some probe => calling (.probeStop probe)

/-- The guarded part of `_spawn_and_wait`. -/
def awaitChild (proc job : ℕ) (probe : Option ℕ) (polls : ℕ) : Launching (ℤ × Bool) :=
  finallyDo
    (do
      let rc ← waitForExitOrUnhealthy proc probe polls
      let healthzSignaled ← isTripped probe
      pure (rc, healthzSignaled))
    (do
      stopProbe probe
      calling (.close job))

/-- `working_dir or None` -/
def ServiceConfig.cwd (config : ServiceConfig) : Option String :=
  if config.workingDir = "" then none else some config.workingDir

/-- `_spawn_and_wait` -/
def spawnAndWait (config : ServiceConfig) (env : List (String × String)) (polls : ℕ) :
    Launching ℤ := do
  let cmd := config.exec :: config.args
  let _ ← calling (.emitEvent (.childSpawn cmd config.cwd config.secretTargetEnvs))
  let proc ← calling (.popen cmd env config.cwd)
  let job ← calling .newJobLimit
  attachJob job proc
  let probe ← startProbe config
  let ended ← awaitChild proc job probe polls
  let _ ← calling (.emitEvent (.childExit ended.1 ended.2))
  pure ended.1

/-! ## The run -/

/-- `should_restart` -/
def shouldRestart (returncode : ℤ) (fields : RestartFields) : Bool :=
  if fields.policy = "never" then false
  else if fields.policy = "always" then true
  else if fields.policy = "on-failure" then returncode ≠ 0
  else false

/-- The `while True` of `run`, cut after a number of rounds. -/
def superviseLoop (config : ServiceConfig) (env : List (String × String)) (polls : ℕ) :
    ℕ → ℤ → Launching ℤ
  | 0, _ => cutOff
  | rounds + 1, attempt => do
    let lastRc ← spawnAndWait config env polls
    assign fun x => { x with lastRc }
    if shouldRestart lastRc config.restart.toRestartFields = false then
      let _ ← calling (.emitEvent (.finalExit lastRc attempt))
      pure lastRc
    else
      match nextDelay (attempt + 1) config.restart.toRestartFields with
      | .error (.maxAttemptsReached _) =>
        let _ ← calling (.emitEvent (.maxAttemptsReached config.restart.maxAttempts lastRc))
        pure lastRc
      | .error (.valueError _) => raise ⟨true, "ValueError"⟩
      | .ok delay =>
        let _ ← calling (.emitEvent
          (.restartAttempt (attempt + 1) delay lastRc config.restart.backoff))
        let _ ← calling (.sleep delay)
        superviseLoop config env polls rounds (attempt + 1)

/-- What a run does inside its bracket. -/
def supervise (config : ServiceConfig) (rounds polls : ℕ) : Launching ℤ := do
  let env ← calling .buildChildEnv
  let _ ← calling .buildDispatcher
  superviseLoop config env polls rounds 0

/-- The `finally` of `run`. -/
def closeRun : Launching Unit := do
  let _ ← calling .adminUiStop
  let lastRc ← local? (·.lastRc)
  let _ ← calling (.endRun lastRc)
  calling .shutdown

/-- `run` -/
def run (config : ServiceConfig) (sources : List SecretSource) (rounds polls : ℕ) :
    Launching ℤ := do
  let _ ← calling .newTelemetry
  let _ ← calling (.startRun config.service config.healthzType config.restart.policy)
  let _ ← calling .newBuffer
  let _ ← calling .newAdminUi
  let _ ← calling .adminUiStart
  assign fun x => { x with lastRc := 0 }
  finallyDo (bracketLifecycle sources (supervise config rounds polls)) closeRun

/-- Everything that answers a run. -/
abbrev RunWorld := RunLog → (q : LauncherCall) → Except Raised q.Value

/-- What a run does against a world, and how it ends. -/
def played (config : ServiceConfig) (sources : List SecretSource) (rounds polls : ℕ)
    (world : RunWorld) : RunLog × Ended Raised ℤ × RunLocals :=
  (run config sources rounds polls ⟨[], 0⟩).play world []

end Launcher
end Recto
