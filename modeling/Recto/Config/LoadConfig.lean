import Recto.Config.Specs
import Recto.Data.Dict

/-!
# `load_config`

Every section is read by code of its own, which gives what it could build and
the problems it found. What it raises instead of reporting escapes. The text of
an exception that a section reports is left out; its class stands for it.
-/

namespace Recto
namespace Config

open Json

variable (u : Unicode)

/-- A section's value, if one could be built, and its problems. -/
abbrev Built (α : Type) := Option α × List String

def noEntries : Yaml := .map []

/-- `x or fallback` -/
def orElse (x fallback : Yaml) : Yaml := if x.truthy then x else fallback

/-- A `try` that catches `ConfigValidationError` and adds its problems. -/
def reporting {α : Type} (prefixed : String → String) (x : Except PyError (Made α)) : Except PyError (Built α) := do
  match ← x with
  | .ok a => return (some a, [])
  | .error problems => return (none, problems.map prefixed)

/-- `except (TypeError, ValueError)` -/
def isCaught (e : PyError) : Bool := e = .typeError ∨ e = .valueError

/-- The class of a caught exception. -/
def className (e : PyError) : String := if e = .typeError then "TypeError" else "ValueError"

/-- The same, and a `TypeError` or a `ValueError` is a problem of the section. -/
def reportingTypes {α : Type} (field : String) (x : Except PyError (Made α)) : Except PyError (Built α) :=
  match reporting id x with
  | .ok built => .ok built
  | .error e =>
    if isCaught e then .ok (none, [field ++ ": type error -- " ++ className e]) else .error e

/-! ## Secrets and webhooks -/

/-- `_require` -/
def require (d : List (Scalar × Yaml)) (key path : String) : Option Yaml × List String :=
  match get? d key with
  | none => (none, [path ++ "." ++ key ++ ": required"])
  | some (.scalar .null) => (none, [])
  | some x => (some x, [])

/-- `_build_secret_spec` -/
def buildSecretSpec (d : List (Scalar × Yaml)) (path : String) : Except PyError (Built SecretSpec) :=
  let name := require d "name" path
  let source := require d "source" path
  let targetEnv := require d "target_env" path
  let problems := name.2 ++ source.2 ++ targetEnv.2
  match name.1, source.1, targetEnv.1 with
  | some name, some source, some targetEnv => do
    let name ← strOf u.printable name
    let source ← strOf u.printable source
    let targetEnv ← strOf u.printable targetEnv
    let config ← dictOf (getOr d "config" noEntries)
    return (some ⟨name, source, targetEnv, (getBool d "required" true).truthy, config⟩, problems)
  | _, _, _ => return (none, problems)

/-- `{str(k): str(v) for k, v in entries}`, before a later key replaces an equal one. -/
def strEntries (entries : List (Scalar × Yaml)) : Except PyError (List (String × String)) :=
  entries.mapM fun e => do
    let k ← strOf u.printable (.scalar e.1)
    let v ← strOf u.printable e.2
    return (k, v)

def strDict (entries : List (Scalar × Yaml)) : Except PyError (List (String × String)) :=
  (strEntries u entries).map fun pairs => pairs.foldl (fun d p => setItem p.1 p.2 d) []

/-- `_build_comms_spec` -/
def buildCommsSpec (d : List (Scalar × Yaml)) (path : String) :
    Except PyError (Built (Checked (CommsFields.checks u))) :=
  reporting (fun p => path ++ ": " ++ p) do
    let type ← strOf u.printable (getStr d "type" "webhook")
    let url ← strOf u.printable (getStr d "url" "")
    let headers ← dictOf (getOr d "headers" noEntries)
    let headers ← strDict u headers
    let template ← dictOf (getOr d "template" noEntries)
    postInit (CommsFields.checks u) ⟨type, url, headers, template⟩

/-- One item of a section that is a list. -/
def buildItem {α : Type} (build : List (Scalar × Yaml) → String → Except PyError (Built α))
    (path : String) : Yaml → Except PyError (Built α)
  | .map d => build d path
  | _ => .ok (none, [path ++ ": must be a mapping"])

/-- The loop over a section that is a list, from an index on. -/
def buildFrom {α : Type} (build : List (Scalar × Yaml) → String → Except PyError (Built α)) (field : String) :
    ℕ → List Yaml → Except PyError (List α × List String)
  | _, [] => .ok ([], [])
  | i, item :: items => do
    let built ← buildItem build (field ++ "[" ++ toString i ++ "]") item
    let later ← buildFrom build field (i + 1) items
    return (built.1.toList ++ later.1, built.2 ++ later.2)

/-- `for i, x in enumerate(spec.get(name, []) or [])` -/
def buildEach {α : Type} (build : List (Scalar × Yaml) → String → Except PyError (Built α)) (name : String)
    (spec : List (Scalar × Yaml)) : Except PyError (List α × List String) := do
  let items ← itemsOf (orElse (getOr spec name (.list [])) (.list []))
  buildFrom build ("spec." ++ name) 0 items

/-! ## The sections that are mappings -/

/-- `HealthzSpec(…)`, with the command found to be a list. -/
def makeHealthz (d : List (Scalar × Yaml)) (command : List Yaml) :
    Except PyError (Made (Checked (HealthzFields.checks u))) := do
  let type ← strOf u.printable (getStr d "type" "http")
  let url ← strOf u.printable (getStr d "url" "")
  let host ← strOf u.printable (getStr d "host" "")
  let port ← intOf (getInt d "port" 0)
  let command ← command.mapM (strOf u.printable)
  let expectedExitCode ← intOf (getInt d "expected_exit_code" 0)
  let intervalSeconds ← intOf (getInt d "interval_seconds" 30)
  let timeoutSeconds ← intOf (getInt d "timeout_seconds" 5)
  let failureThreshold ← intOf (getInt d "failure_threshold" 3)
  let restartGraceSeconds ← intOf (getInt d "restart_grace_seconds" 10)
  postInit (HealthzFields.checks u) ⟨(getBool d "enabled" false).truthy, type, url, host, port,
    command, expectedExitCode, intervalSeconds, timeoutSeconds, failureThreshold,
    restartGraceSeconds⟩

/-- `healthz_raw.get("command") or ()`, if it is a list. -/
def commandOf (d : List (Scalar × Yaml)) : List Yaml × List String :=
  match orElse (getOr d "command" (.scalar .null)) (.list []) with
  | .list xs => (xs, [])
  | _ => ([], ["spec.healthz.command: must be a list of strings"])

/-- The section, if it is a mapping. -/
def buildMapping {α : Type} (build : List (Scalar × Yaml) → Except PyError (Built α)) (name : String)
    (spec : List (Scalar × Yaml)) : Except PyError (Built α) :=
  match orElse (getOr spec name noEntries) noEntries with
  | .map d => build d
  | _ => .ok (none, ["spec." ++ name ++ ": must be a mapping"])

def buildHealthz (d : List (Scalar × Yaml)) : Except PyError (Built (Checked (HealthzFields.checks u))) := do
  let command := commandOf d
  let built ← reportingTypes "spec.healthz" (makeHealthz u d command.1)
  return (built.1, command.2 ++ built.2)

/-- The default of `notify_on_event`. -/
def defaultEvents : Yaml :=
  .list (RestartSection.default.notifyOnEvent.map fun e => .scalar (.str e))

/-- `RestartSpec(…)` -/
def makeRestart (d : List (Scalar × Yaml)) :
    Except PyError (Made (Checked (RestartSection.checks u))) := do
  let policy ← strOf u.printable (getStr d "policy" "always")
  let backoff ← strOf u.printable (getStr d "backoff" "exponential")
  let initial ← intOf (getInt d "initial_delay_seconds" 1)
  let longest ← intOf (getInt d "max_delay_seconds" 60)
  let attempts ← intOf (getInt d "max_attempts" 10)
  let events ← itemsOf (getOr d "notify_on_event" defaultEvents)
  let events ← events.mapM (strOf u.printable)
  postInit (RestartSection.checks u) ⟨⟨policy, backoff, initial, longest, attempts⟩, events⟩

def buildRestart (d : List (Scalar × Yaml)) : Except PyError (Built (Checked (RestartSection.checks u))) :=
  reportingTypes "spec.restart" (makeRestart u d)

/-- What the section says of the three limits. -/
def limitsOf (d : List (Scalar × Yaml)) : LimitFields :=
  ⟨getOr d "memory_mb" (.scalar .null), getOr d "cpu_percent" (.scalar .null),
    getOr d "process_count" (.scalar .null)⟩

def buildLimits (d : List (Scalar × Yaml)) : Except PyError (Built (Checked (LimitFields.checks u))) :=
  reporting id (postInit (LimitFields.checks u) (limitsOf d))

/-- `(spec_raw.get(name) or {})`, of which `get` is then called. -/
def attributesOf (name : String) (spec : List (Scalar × Yaml)) :
    Except PyError (List (Scalar × Yaml)) :=
  match orElse (getOr spec name (.scalar .null)) noEntries with
  | .map d => .ok d
  | _ => .error .attributeError

def buildAdminUi (spec : List (Scalar × Yaml)) : Except PyError AdminUISpec := do
  let d ← attributesOf "admin_ui" spec
  let bind ← strOf u.printable (getStr d "bind" "127.0.0.1:5050")
  let tunnel ← dictOf (getOr d "expose_via_tunnel" noEntries)
  return ⟨(getBool d "enabled" false).truthy, bind, (getBool d "cf_access_required" true).truthy,
    tunnel⟩

def buildTelemetry (spec : List (Scalar × Yaml)) : Except PyError TelemetrySpec := do
  let d ← attributesOf "telemetry" spec
  let endpoint ← strOf u.printable (getStr d "otlp_endpoint" "")
  let name ← strOf u.printable (getStr d "service_name" "")
  return ⟨(getBool d "enabled" false).truthy, endpoint, name⟩

/-! ## The whole document -/

/-- A part that is to be a mapping, and is read as empty where it is not. -/
def mappingOf (data : List (Scalar × Yaml)) (name : String) : List (Scalar × Yaml) × List String :=
  match getOr data name noEntries with
  | .map d => (d, [])
  | _ => ([], [name ++ ": must be a mapping"])

/-- `x in SUPPORTED`, of which there is one. -/
def isSupported (supported : String) : Yaml → Bool
  | .scalar (.str s) => s = supported
  | _ => false

/-- The problem of an `apiVersion` or a `kind` that is not supported. -/
def unsupported (data : List (Scalar × Yaml)) (name supported : String) :
    Except PyError (List String) :=
  if isSupported supported (getStr data name "") then .ok []
  else do
    let got ← reprOf u.printable (getStr data name "")
    return [name ++ ": " ++ got ++ " is not supported (expected one of ('" ++ supported ++ "',))"]

/-- `ServiceMeta(…)` -/
def buildMeta (d : List (Scalar × Yaml)) : Except PyError (Built (Checked (MetaFields.checks u))) :=
  reporting id do
    let name ← strOf u.printable (getStr d "name" "")
    let description ← strOf u.printable (getStr d "description" "")
    let displayName ← strOf u.printable (getStr d "display_name" "")
    postInit (MetaFields.checks u) ⟨name, description, displayName⟩

/-- `spec.args`, if it is a list. -/
def argsOf (spec : List (Scalar × Yaml)) : List Yaml × List String :=
  match orElse (getOr spec "args" (.list [])) (.list []) with
  | .list xs => (xs, [])
  | _ => ([], ["spec.args: must be a list"])

/-- `spec.env`, if it is a mapping. -/
def envOf (spec : List (Scalar × Yaml)) : List (Scalar × Yaml) × List String :=
  match orElse (getOr spec "env" noEntries) noEntries with
  | .map d => (d, [])
  | _ => ([], ["spec.env: must be a mapping"])

/-- `HealthzSpec()` -/
def defaultHealthz : Checked (HealthzFields.checks u) := ⟨{}, rfl⟩

def defaultRestart : Checked (RestartSection.checks u) := ⟨RestartSection.default, rfl⟩

/-- `ResourceLimitsSpec()` -/
def defaultLimits : Checked (LimitFields.checks u) := ⟨{}, rfl⟩

/-- The sections of `spec` that are built before it. -/
structure Sections where
  secrets : List SecretSpec × List String
  healthz : Built (Checked (HealthzFields.checks u))
  restart : Built (Checked (RestartSection.checks u))
  comms : List (Checked (CommsFields.checks u)) × List String
  limits : Built (Checked (LimitFields.checks u))
  adminUi : AdminUISpec
  telemetry : TelemetrySpec

def buildSections (spec : List (Scalar × Yaml)) : Except PyError (Sections u) := do
  let secrets ← buildEach (buildSecretSpec u) "secrets" spec
  let healthz ← buildMapping (buildHealthz u) "healthz" spec
  let restart ← buildMapping (buildRestart u) "restart" spec
  let comms ← buildEach (buildCommsSpec u) "comms" spec
  let limits ← buildMapping (buildLimits u) "resource_limits" spec
  let adminUi ← buildAdminUi u spec
  let telemetry ← buildTelemetry u spec
  return ⟨secrets, healthz, restart, comms, limits, adminUi, telemetry⟩

variable {u}

def Sections.problems (x : Sections u) : List String :=
  x.secrets.2 ++ x.healthz.2 ++ x.restart.2 ++ x.comms.2 ++ x.limits.2

/-- `ServiceSpec(…)`, with the problems found on the way. -/
def buildSpec (spec : List (Scalar × Yaml)) (x : Sections u) :
    Except PyError (Built (Checked (SpecFields.checks (u := u)))) := do
  let exec := getStr spec "exec" ""
  let problems := (argsOf spec).2 ++ (envOf spec).2 ++
    if exec.truthy then [] else ["spec.exec: required"]
  let built ← reporting id do
    let exec ← strOf u.printable exec
    let args ← (argsOf spec).1.mapM (strOf u.printable)
    let workingDir ← strOf u.printable (getStr spec "working_dir" "")
    let user ← strOf u.printable (getStr spec "user" "")
    let env ← strDict u (envOf spec).1
    postInit SpecFields.checks
      ⟨if exec = "" then "<unset>" else exec, args, workingDir, user, x.secrets.1, env,
        x.healthz.1.getD (defaultHealthz u), x.restart.1.getD (defaultRestart u), x.comms.1,
        x.limits.1.getD (defaultLimits u), x.adminUi, x.telemetry⟩
  return (built.1, problems ++ built.2)

/-- The end of `load_config`: with any problem, or a part missing, nothing is returned. -/
def finish (metadata : Option (Checked (MetaFields.checks u)))
    (spec : Option (Checked (SpecFields.checks (u := u)))) (problems : List String) :
    Except PyError (Made (ServiceConfig u)) :=
  match metadata, spec with
  | some metadata, some spec => do
    match ← postInit ConfigFields.checks ⟨"recto/v1", "Service", metadata, spec⟩ with
    | .error more => return .error (problems ++ more)
    | .ok config => return if problems = [] then .ok config else .error problems
  | _, _ => return .error (if problems = [] then ["internal: metadata or spec failed silently"]
      else problems)

variable (u)

/-- `load_config` on a mapping -/
def loadMapping (data : List (Scalar × Yaml)) : Except PyError (Made (ServiceConfig u)) := do
  let apiProblems ← unsupported u data "apiVersion" "recto/v1"
  let kindProblems ← unsupported u data "kind" "Service"
  let metadata ← buildMeta u (mappingOf data "metadata").1
  let spec := (mappingOf data "spec").1
  let sections ← buildSections u spec
  let built ← buildSpec spec sections
  finish metadata.1 built.1 (apiProblems ++ kindProblems ++ (mappingOf data "metadata").2 ++
    (mappingOf data "spec").2 ++ metadata.2 ++ sections.problems ++ built.2)

/-- `load_config` on the value of a document; an empty one is a mapping without entries. -/
def loadConfig (document : Yaml) : Except PyError (Made (ServiceConfig u)) :=
  match orElse document noEntries with
  | .map data => loadMapping u data
  | x => .ok (.error ["top-level: must be a mapping, got " ++ typeName x])

end Config
end Recto
