import Recto.Data.Checked
import Recto.Json.Limits
import Recto.Restart.Backoff
import Recto.Text.CharTables
import Recto.Text.Repr

/-!
# The spec classes

What a YAML document parses to, and what `str`, `int`, `bool`, `dict`, iteration
and comparison make of a value of any shape, with the exceptions they raise. Of
such values every spec class makes a record with checks that run when one is
built. The first check that fails is its problem; a check can also raise, where
it compares or shows what is not to be compared or shown. A checked record
carries that its own checks pass.
-/

namespace Recto
namespace Config

open Json

/-- A value that can be a key of a mapping. -/
inductive Scalar where
  | null
  | bool (b : Bool)
  | int (n : ℤ)
  | float (x : JsonFloat)
  | str (s : String)
  deriving DecidableEq, Repr

inductive Yaml where
  | scalar (x : Scalar)
  | list (xs : List Yaml)
  | map (entries : List (Scalar × Yaml))
  deriving Repr

def Scalar.toJson : Scalar → Json
  | null => .null
  | bool b => .bool b
  | int n => .int n
  | float x => .float x
  | str s => .str s

/-! ## Texts -/

mutual
/-- `repr(x)` of a value without long integers -/
def reprText (printable : Char → Bool) : Yaml → List Char
  | .scalar x => pyRepr printable x.toJson
  | .list xs => '[' :: reprItems printable xs
  | .map entries => '\x7b' :: reprEntries printable entries
def reprItems (printable : Char → Bool) : List Yaml → List Char
  | [] => [']']
  | [x] => reprText printable x ++ [']']
  | x :: y :: xs => reprText printable x ++ ',' :: ' ' :: reprItems printable (y :: xs)
def reprEntries (printable : Char → Bool) : List (Scalar × Yaml) → List Char
  | [] => ['\x7d']
  | [(k, x)] => pyRepr printable k.toJson ++ ':' :: ' ' :: (reprText printable x ++ ['\x7d'])
  | (k, x) :: e :: es =>
      pyRepr printable k.toJson ++ ':' :: ' ' :: (reprText printable x ++
        ',' :: ' ' :: reprEntries printable (e :: es))
end

/-- An integer of more digits than `str` writes; a hexadecimal literal can have them. -/
def Scalar.isLong : Scalar → Bool
  | int n => decide (maxIntDigits < digitCount n)
  | _ => false

mutual
/-- Some integer in the value is long. -/
def Yaml.isLong : Yaml → Bool
  | .scalar x => x.isLong
  | .list xs => anyLong xs
  | .map entries => anyLongEntry entries
def anyLong : List Yaml → Bool
  | [] => false
  | x :: xs => x.isLong || anyLong xs
def anyLongEntry : List (Scalar × Yaml) → Bool
  | [] => false
  | (k, x) :: entries => k.isLong || x.isLong || anyLongEntry entries
end

/-- `repr(x)` -/
def reprOf (printable : Char → Bool) (x : Yaml) : Except PyError String :=
  if x.isLong then .error .valueError else .ok (String.ofList (reprText printable x))

/-- `str(x)`: a string is itself. -/
def strOf (printable : Char → Bool) : Yaml → Except PyError String
  | .scalar (.str s) => .ok s
  | x => reprOf printable x

/-- `f"{n}"` -/
def formatInt (n : ℤ) : Except PyError String :=
  if maxIntDigits < digitCount n then .error .valueError else .ok (toString n)

/-- `type(x).__name__` -/
def typeName : Yaml → String
  | .scalar .null => "NoneType"
  | .scalar (.bool _) => "bool"
  | .scalar (.int _) => "int"
  | .scalar (.float _) => "float"
  | .scalar (.str _) => "str"
  | .list _ => "list"
  | .map _ => "dict"

/-! ## Conversions -/

/-- `bool(x)` -/
def Yaml.truthy : Yaml → Bool
  | scalar x => Json.truthy x.toJson
  | list xs => !xs.isEmpty
  | map entries => !entries.isEmpty

/-- `int(x)` -/
def intOf : Yaml → Except PyError ℤ
  | .scalar (.str s) =>
      if maxIntDigits < (chars s).countP Char.isDigit then .error .valueError
      else Json.toInt (.str s)
  | .scalar x => Json.toInt x.toJson
  | _ => .error .typeError

/-- `iter(x)`: a mapping gives its keys, a string its characters. -/
def itemsOf : Yaml → Except PyError (List Yaml)
  | .scalar (.str s) => .ok ((chars s).map fun c => .scalar (.str (String.ofList [c])))
  | .scalar _ => .error .typeError
  | .list xs => .ok xs
  | .map entries => .ok (entries.map fun e => .scalar e.1)

/-- The two items that `dict` takes for an entry; the key is to be hashable. -/
def pairOf (x : Yaml) : Except PyError (Scalar × Yaml) := do
  match ← itemsOf x with
  | [.scalar k, v] => return (k, v)
  | [_, _] => throw .typeError
  | _ => throw .valueError

/-- What `==` and `hash` see of a key. -/
def Scalar.key : Scalar → Key
  | null => .none
  | bool b => .number (if b then 1 else 0)
  | int n => .number n
  | float (.decimal m e) => .number (m * (10 : ℚ) ^ e)
  | float .infinity => .infinity
  | float .negInfinity => .negInfinity
  | float .nan => .nan
  | str s => .str s

/-- `d[k] = v`: an equal key stays as it was first written, and no two `nan` are equal. -/
def putEntry (k : Scalar) (v : Yaml) : List (Scalar × Yaml) → List (Scalar × Yaml)
  | [] => [(k, v)]
  | (l, w) :: entries =>
    if l.key = k.key ∧ k.key ≠ .nan then (l, v) :: entries else (l, w) :: putEntry k v entries

/-- `dict(x)` -/
def dictOf : Yaml → Except PyError (List (Scalar × Yaml))
  | .map entries => .ok entries
  | x => do
    let pairs ← (← itemsOf x).mapM pairOf
    return pairs.foldl (fun entries p => putEntry p.1 p.2 entries) []

/-- `d.get(name)` -/
def get? (entries : List (Scalar × Yaml)) (name : String) : Option Yaml :=
  entries.lookup (.str name)

/-- `d.get(name, fallback)` -/
def getOr (entries : List (Scalar × Yaml)) (name : String) (fallback : Yaml) : Yaml :=
  (get? entries name).getD fallback

/-- `d.get(name, s)` with a string -/
def getStr (entries : List (Scalar × Yaml)) (name s : String) : Yaml :=
  getOr entries name (.scalar (.str s))

/-- `d.get(name, n)` with an integer -/
def getInt (entries : List (Scalar × Yaml)) (name : String) (n : ℤ) : Yaml :=
  getOr entries name (.scalar (.int n))

/-- `d.get(name, b)` with a boolean -/
def getBool (entries : List (Scalar × Yaml)) (name : String) (b : Bool) : Yaml :=
  getOr entries name (.scalar (.bool b))

/-! ## Comparisons with integers -/

/-- `x <= n` -/
def leInt (x : Yaml) (n : ℤ) : Except PyError Bool :=
  match x with
  | .scalar x =>
    match x.key with
    | .number q => .ok (decide (q ≤ n))
    | .infinity => .ok false
    | .negInfinity => .ok true
    | .nan => .ok false
    | _ => .error .typeError
  | _ => .error .typeError

/-- `n <= x` -/
def intLe (n : ℤ) (x : Yaml) : Except PyError Bool :=
  match x with
  | .scalar x =>
    match x.key with
    | .number q => .ok (decide ((n : ℚ) ≤ q))
    | .infinity => .ok true
    | .negInfinity => .ok false
    | .nan => .ok false
    | _ => .error .typeError
  | _ => .error .typeError

/-! ## Checked records -/

/-- Whether a check refuses, and the problem it then reports. -/
structure Check where
  refuses : Except PyError Bool
  problem : Except PyError String

/-- A check that compares nothing of unknown type. -/
def Check.of (p : Prop) [Decidable p] (problem : Except PyError String) : Check :=
  ⟨.ok (decide p), problem⟩

/-- The problem of the first check that refuses. -/
def firstProblem : List Check → Except PyError (Option String)
  | [] => .ok none
  | check :: checks => do
    if ← check.refuses then
      return some (← check.problem)
    else
      firstProblem checks

/-- A record whose checks pass. -/
def Checked {α : Type} (checks : α → List Check) := { x : α // firstProblem (checks x) = .ok none }

/-- What is built, or the problems of a `ConfigValidationError`. -/
abbrev Made (α : Type) := Except (List String) α

/-- `__post_init__` -/
def postInit {α : Type} (checks : α → List Check) (x : α) : Except PyError (Made (Checked checks)) :=
  match h : firstProblem (checks x) with
  | .error e => .error e
  | .ok (some problem) => .ok (.error [problem])
  | .ok none => .ok (.ok ⟨x, h⟩)

/-- What Unicode says of characters. -/
structure Unicode where
  printable : Char → Bool
  tables : CharTables

variable (u : Unicode)

/-- `f"{s!r}"` of a string -/
def shown (s : String) : String := String.ofList (reprStr u.printable s)

/-- `field + ": must be " + rule + ", got " + got` -/
def mustBe (field rule : String) (got : Except PyError String) : Except PyError String :=
  got.map fun got => field ++ ": must be " ++ rule ++ ", got " ++ got

/-! ## The classes -/

structure SecretSpec where
  name : String
  source : String
  targetEnv : String
  required : Bool
  config : List (Scalar × Yaml)

structure HealthzFields where
  enabled : Bool := false
  type : String := "http"
  url : String := ""
  host : String := ""
  port : ℤ := 0
  command : List String := []
  expectedExitCode : ℤ := 0
  intervalSeconds : ℤ := 30
  timeoutSeconds : ℤ := 5
  failureThreshold : ℤ := 3
  restartGraceSeconds : ℤ := 10

/-- `HealthzSpec.__post_init__` -/
def HealthzFields.checks (x : HealthzFields) : List Check :=
  [.of (x.type ∉ ["http", "tcp", "exec"])
      (mustBe "spec.healthz.type" "one of http|tcp|exec" (.ok (shown u x.type))),
    .of (x.enabled = true ∧ x.type = "http" ∧ x.url = "")
      (.ok "spec.healthz: 'url' is required when type=http and enabled=true"),
    .of (x.enabled = true ∧ x.type = "tcp" ∧ x.host = "")
      (.ok "spec.healthz: 'host' is required when type=tcp and enabled=true"),
    .of (x.enabled = true ∧ x.type = "tcp" ∧ ¬(1 ≤ x.port ∧ x.port ≤ 65535))
      (mustBe "spec.healthz.port" "1..65535 when type=tcp and enabled=true" (formatInt x.port)),
    .of (x.enabled = true ∧ x.type = "exec" ∧ x.command = [])
      (.ok ("spec.healthz: 'command' is required (non-empty list) " ++
        "when type=exec and enabled=true")),
    .of (x.intervalSeconds ≤ 0)
      (mustBe "spec.healthz.interval_seconds" "> 0" (formatInt x.intervalSeconds)),
    .of (x.timeoutSeconds ≤ 0)
      (mustBe "spec.healthz.timeout_seconds" "> 0" (formatInt x.timeoutSeconds)),
    .of (x.failureThreshold < 1)
      (mustBe "spec.healthz.failure_threshold" ">= 1" (formatInt x.failureThreshold)),
    .of (x.restartGraceSeconds < 0)
      (mustBe "spec.healthz.restart_grace_seconds" ">= 0" (formatInt x.restartGraceSeconds))]

/-- `RestartSpec`, with the events it announces. -/
structure RestartSection extends Restart.RestartFields where
  notifyOnEvent : List String

/-- `RestartSpec()` -/
def RestartSection.default : RestartSection where
  policy := "always"
  backoff := "exponential"
  initialDelaySeconds := 1
  maxDelaySeconds := 60
  maxAttempts := 10
  notifyOnEvent := ["restart", "health_failure", "max_attempts_reached"]

/-- `RestartSpec.__post_init__` -/
def RestartSection.checks (x : RestartSection) : List Check :=
  [.of (x.policy ∉ ["always", "never", "on-failure"])
      (.ok ("spec.restart.policy: must be always|never|on-failure, got " ++ shown u x.policy)),
    .of (x.backoff ∉ ["exponential", "linear", "constant"])
      (.ok ("spec.restart.backoff: must be exponential|linear|constant, got " ++ shown u x.backoff)),
    .of (x.initialDelaySeconds < 0)
      (mustBe "spec.restart.initial_delay_seconds" ">= 0" (formatInt x.initialDelaySeconds)),
    .of (x.maxDelaySeconds < x.initialDelaySeconds)
      (do return "spec.restart.max_delay_seconds: must be >= initial_delay_seconds, got max=" ++
        (← formatInt x.maxDelaySeconds) ++ " initial=" ++ (← formatInt x.initialDelaySeconds)),
    .of (x.maxAttempts < 0)
      (mustBe "spec.restart.max_attempts" ">= 0 (0=unlimited)" (formatInt x.maxAttempts))]

structure CommsFields where
  type : String
  url : String
  headers : List (String × String)
  template : List (Scalar × Yaml)

/-- `CommsSpec.__post_init__` -/
def CommsFields.checks (x : CommsFields) : List Check :=
  [.of (x.type ≠ "webhook")
      (.ok ("spec.comms[].type: only 'webhook' is supported in v0.1, got " ++ shown u x.type)),
    .of (x.url = "") (.ok "spec.comms[].url: required")]

/-- The limits are kept as the document has them. -/
structure LimitFields where
  memoryMb : Yaml := .scalar .null
  cpuPercent : Yaml := .scalar .null
  processCount : Yaml := .scalar .null

/-- `x is not None and …` -/
def unlessNull (x : Yaml) (refuses : Except PyError Bool) : Except PyError Bool :=
  match x with
  | .scalar .null => .ok false
  | _ => refuses

/-- `not (low <= x <= high)` -/
def outside (low high : ℤ) (x : Yaml) : Except PyError Bool := do
  if ← intLe low x then return !(← leInt x high) else return true

/-- `x < 1` on what compares with integers; nothing lies between but `nan`. -/
def belowOne (x : Yaml) : Except PyError Bool := do
  if ← leInt x 1 then return !(← intLe 1 x) else return false

/-- `ResourceLimitsSpec.__post_init__` -/
def LimitFields.checks (x : LimitFields) : List Check :=
  [⟨unlessNull x.memoryMb (leInt x.memoryMb 0),
      mustBe "spec.resource_limits.memory_mb" "> 0" (strOf u.printable x.memoryMb)⟩,
    ⟨unlessNull x.cpuPercent (outside 1 100 x.cpuPercent),
      mustBe "spec.resource_limits.cpu_percent" "1..100" (strOf u.printable x.cpuPercent)⟩,
    ⟨unlessNull x.processCount (belowOne x.processCount),
      mustBe "spec.resource_limits.process_count" ">= 1" (strOf u.printable x.processCount)⟩]

structure AdminUISpec where
  enabled : Bool
  bind : String
  cfAccessRequired : Bool
  exposeViaTunnel : List (Scalar × Yaml)

structure TelemetrySpec where
  enabled : Bool
  otlpEndpoint : String
  serviceName : String

structure MetaFields where
  name : String
  description : String
  displayName : String

/-- `name.replace("-", "").replace("_", "").isalnum()` -/
def isServiceName (name : String) : Bool :=
  u.tables.allAlnum ((chars name).filter fun c => c ≠ '-' && c ≠ '_')

/-- `ServiceMeta.__post_init__` -/
def MetaFields.checks (x : MetaFields) : List Check :=
  [.of (x.name = "") (.ok "metadata.name: required"),
    .of (isServiceName u x.name = false)
      (mustBe "metadata.name" "alphanumeric (with - or _ allowed)" (.ok (shown u x.name)))]

structure SpecFields where
  exec : String
  args : List String
  workingDir : String
  user : String
  secrets : List SecretSpec
  env : List (String × String)
  healthz : Checked (HealthzFields.checks u)
  restart : Checked (RestartSection.checks u)
  comms : List (Checked (CommsFields.checks u))
  resourceLimits : Checked (LimitFields.checks u)
  adminUi : AdminUISpec
  telemetry : TelemetrySpec

variable {u}

/-- The environment variables that more than one secret goes to. -/
def dupes (secrets : List SecretSpec) : List String :=
  let targets := (secrets.map (·.targetEnv)).filter (· ≠ "")
  (targets.filter fun e => 1 < targets.count e).dedup

/-- `ServiceSpec.__post_init__` -/
def SpecFields.checks (x : SpecFields u) : List Check :=
  [.of (x.exec = "") (.ok "spec.exec: required"),
    .of (dupes x.secrets ≠ [])
      (.ok ("spec.secrets: duplicate target_env values: " ++
        String.ofList (reprItems u.printable (((dupes x.secrets).mergeSort (· ≤ ·)).map fun e =>
          .scalar (.str e))) ++
        " -- each secret must inject into a distinct env var"))]

variable (u) in
structure ConfigFields where
  apiVersion : String
  kind : String
  metadata : Checked (MetaFields.checks u)
  spec : Checked (SpecFields.checks (u := u))

/-- `ServiceConfig.__post_init__` -/
def ConfigFields.checks (x : ConfigFields u) : List Check :=
  [.of (x.apiVersion ≠ "recto/v1") (.ok ("apiVersion: " ++ shown u x.apiVersion ++
      " is not supported (expected one of ('recto/v1',))")),
    .of (x.kind ≠ "Service") (.ok ("kind: " ++ shown u x.kind ++
      " is not supported (expected one of ('Service',))"))]

variable (u) in
/-- `ServiceConfig` -/
abbrev ServiceConfig := Checked (ConfigFields.checks (u := u))

end Config
end Recto
