import Mathlib.Data.Finmap
import Recto.Clusters.Identity
import Recto.Text.Encoding

/-!
# The cluster registry

`ClusterRegistry` edits its records in memory and then persists them: the registry
file first, the projection after it. Each of the two writes is atomic, and may raise.
The clock, the drawn token and what the two writes meet come with the call.
-/

namespace Recto
namespace Clusters

/-- The status of a record. -/
inductive ClusterStatus where
  | active
  | retired
  | orphaned
  deriving DecidableEq

/-- `endpoints` and `metadata`: compared, written and read without an order. -/
abbrev Pairs := Finmap fun _ : String => String

/-- `public_view`: a record but for its token's hash. -/
structure ClusterView where
  clusterId : String
  region : String
  ordinal : String
  color : String
  status : ClusterStatus
  createdAtUnix : ℤ
  endpoints : Pairs
  metadata : Pairs
  leaseTtlSeconds : ℤ
  lastHeartbeatUnix : ℤ
  retiredAtUnix : Option ℤ := none
  retiredReason : Option String := none

/-- `ClusterRecord` -/
structure ClusterRecord extends ClusterView where
  heartbeatTokenSha256 : String

/-- `effective_status` -/
def ClusterRecord.effectiveStatus (r : ClusterRecord) (now : ℤ) : ClusterStatus :=
  if r.status ≠ .active then r.status
  else if r.leaseTtlSeconds < now - r.lastHeartbeatUnix then .orphaned
  else .active

/-- `public_view` -/
def ClusterRecord.publicView (r : ClusterRecord) (now : ℤ) : ClusterView :=
  { r.toClusterView with status := r.effectiveStatus now }

/-- What the operations raise: `ClusterRegistryError` with its text's values, or a failed write. -/
inductive RegistryError where
  | invalid (name value : String)
  | alreadyActive (clusterId : String)
  | unknownCluster (clusterId : String)
  | tokenMismatch
  | isRetired (clusterId : String)
  | osError
  deriving DecidableEq

/-- The deployment: the character tables, the hash, and the two settings. -/
structure Deployment where
  tables : CharTables
  sha256 : Bytes → Bytes
  /-- A projection path is set. -/
  projects : Bool
  defaultLeaseTtlSeconds : ℤ

/-- `_sha256_hex` -/
def Deployment.sha256Hex (c : Deployment) (value : String) : String := hex (c.sha256 (utf8 value))

/-- The registry file. -/
structure RegistryFile where
  updatedAtUnix : ℤ
  clusters : List ClusterRecord

/-- The projection file. -/
structure ProjectionFile where
  generatedAtUnix : ℤ
  clusters : List ClusterView

/-- `ClusterRegistry`, with its two files. -/
structure ClusterRegistry where
  records : Dict String ClusterRecord
  file : Option RegistryFile
  projection : Option ProjectionFile

/-- No file yet. -/
def ClusterRegistry.init : ClusterRegistry := ⟨∅, none, none⟩

/-- The operations, with their arguments, the time they read and the token they draw. -/
inductive Operation where
  | register (names : Names) (endpoints metadata : Option Pairs) (leaseTtlSeconds : Option ℤ)
      (token : String) (now : ℤ)
  | heartbeat (clusterId token : String) (endpoints metadata : Option Pairs) (now : ℤ)
  | retire (clusterId token reason : String) (now : ℤ)
  | reap (now : ℤ)

/-- What the operations return. -/
inductive Returned where
  | registered (r : ClusterRecord) (token : String)
  | record (r : ClusterRecord)
  | newlyOrphaned (ids : List String)
  | reloaded

/-- The edit of an operation: the records it leaves in memory, what it will return, and whether it
persists. -/
structure Edit where
  records : Dict String ClusterRecord
  returns : Returned
  persists : Bool

/-! ## Edits -/

/-- `register`, up to `_persist`. -/
def editRegister (c : Deployment) (records : Dict String ClusterRecord) (names : Names)
    (endpoints metadata : Option Pairs) (leaseTtlSeconds : Option ℤ) (token : String) (now : ℤ) :
    Except RegistryError Edit :=
  match names.invalid c.tables with
  | some (name, value) => .error (.invalid name value)
  | none =>
      let clusterId := String.ofList (names.clusterId c.tables)
      if (records.get? clusterId).any fun r => decide (r.status = .active) then
        .error (.alreadyActive clusterId)
      else
        let lease := leaseTtlSeconds.filter fun n => decide (n ≠ 0)
        let stored : ClusterRecord :=
          { clusterId := clusterId
            region := String.ofList (c.tables.lower (chars names.region))
            ordinal := String.ofList (c.tables.lower (chars names.ordinal))
            color := String.ofList (c.tables.lower (chars names.color))
            status := .active
            createdAtUnix := now
            endpoints := endpoints.getD ∅
            metadata := metadata.getD ∅
            leaseTtlSeconds := lease.getD c.defaultLeaseTtlSeconds
            lastHeartbeatUnix := now
            heartbeatTokenSha256 := c.sha256Hex token }
        .ok ⟨records.set clusterId stored, .registered stored token, true⟩

/-- `_authenticated` -/
def authenticated (c : Deployment) (records : Dict String ClusterRecord)
    (clusterId token : String) : Except RegistryError ClusterRecord :=
  match records.get? clusterId with
  | none => .error (.unknownCluster clusterId)
  | some r =>
      if r.heartbeatTokenSha256 = c.sha256Hex token then .ok r else .error .tokenMismatch

/-- `heartbeat`, up to `_persist`. -/
def editHeartbeat (c : Deployment) (records : Dict String ClusterRecord) (clusterId token : String)
    (endpoints metadata : Option Pairs) (now : ℤ) : Except RegistryError Edit := do
  let r ← authenticated c records clusterId token
  if r.status = .retired then .error (.isRetired clusterId)
  else
    let r : ClusterRecord :=
      { r with
        status := .active
        lastHeartbeatUnix := now
        endpoints := endpoints.getD ∅ ∪ r.endpoints
        metadata := metadata.getD ∅ ∪ r.metadata }
    pure ⟨records.set clusterId r, .record r, true⟩

/-- `retire`, up to `_persist`. -/
def editRetire (c : Deployment) (records : Dict String ClusterRecord)
    (clusterId token reason : String) (now : ℤ) : Except RegistryError Edit := do
  let r ← authenticated c records clusterId token
  let r : ClusterRecord :=
    { r with status := .retired, retiredAtUnix := some now, retiredReason := some reason }
  pure ⟨records.set clusterId r, .record r, true⟩

/-- The lease of an active record has lapsed. -/
def ClusterRecord.lapsed (r : ClusterRecord) (now : ℤ) : Bool :=
  decide (r.status = .active ∧ r.effectiveStatus now = .orphaned)

/-- `reap`, up to `_persist`, which it skips where no lease has lapsed. -/
def editReap (records : Dict String ClusterRecord) (now : ℤ) : Edit where
  records := records.mapValues fun r => if r.lapsed now then { r with status := .orphaned } else r
  returns := .newlyOrphaned
    ((records.values.filter fun r => r.lapsed now).map fun r => r.clusterId)
  persists := !(records.values.filter fun r => r.lapsed now).isEmpty

/-- The edit of an operation. -/
def edit (c : Deployment) (records : Dict String ClusterRecord) :
    Operation → Except RegistryError Edit
  | .register names endpoints metadata leaseTtlSeconds token now =>
      editRegister c records names endpoints metadata leaseTtlSeconds token now
  | .heartbeat clusterId token endpoints metadata now =>
      editHeartbeat c records clusterId token endpoints metadata now
  | .retire clusterId token reason now => editRetire c records clusterId token reason now
  | .reap now => .ok (editReap records now)

/-! ## Persisting -/

/-- What the two writes of a call meet: do they raise, and when are they made. -/
structure Writes where
  registryRaises : Bool := false
  projectionRaises : Bool := false
  updatedAtUnix : ℤ := 0
  generatedAtUnix : ℤ := 0

/-- `export_projection` -/
def exportProjection (c : Deployment) (w : Writes) (s : ClusterRegistry) :
    ClusterRegistry × Except RegistryError Unit :=
  if c.projects = false then (s, .ok ())
  else if w.projectionRaises then (s, .error .osError)
  else
    let clusters := s.records.values.map fun r => r.publicView w.generatedAtUnix
    ({ s with projection := some ⟨w.generatedAtUnix, clusters⟩ }, .ok ())

/-- `_persist` -/
def persist (c : Deployment) (w : Writes) (s : ClusterRegistry) :
    ClusterRegistry × Except RegistryError Unit :=
  if w.registryRaises then (s, .error .osError)
  else exportProjection c w { s with file := some ⟨w.updatedAtUnix, s.records.values⟩ }

/-- The records of the registry file. -/
def loadRecords (file : Option RegistryFile) : Dict String ClusterRecord :=
  (file.elim [] RegistryFile.clusters).foldl (fun d r => d.set r.clusterId r) ∅

/-- A call: an operation with what its writes meet, or a restart that loads the file. -/
inductive RegistryCall where
  | operate (op : Operation) (w : Writes)
  | reload

/-- One call. The edit is in memory before anything is persisted. -/
def ClusterRegistry.step (c : Deployment) (s : ClusterRegistry) :
    RegistryCall → ClusterRegistry × Except RegistryError Returned
  | .operate op w =>
      match edit c s.records op with
      | .error e => (s, .error e)
      | .ok e =>
          let edited := { s with records := e.records }
          if e.persists then
            let out := persist c w edited
            (out.1, out.2.map fun _ => e.returns)
          else (edited, .ok e.returns)
  | .reload => ({ s with records := loadRecords s.file }, .ok .reloaded)

/-- The registry, and the tokens it returned so far. -/
structure RegistryRun where
  registry : ClusterRegistry
  tokens : List String

/-- The token in an answer. -/
def tokenReturned : Except RegistryError Returned → List String
  | .ok (.registered _ token) => [token]
  | _ => []

/-- One call of a run. -/
def RegistryRun.next (c : Deployment) (s : RegistryRun) (call : RegistryCall) : RegistryRun :=
  let out := s.registry.step c call
  ⟨out.1, s.tokens ++ tokenReturned out.2⟩

/-- The registry after the calls, started where no file is. -/
def registryRun (c : Deployment) (calls : List RegistryCall) : RegistryRun :=
  calls.foldl (RegistryRun.next c) ⟨.init, []⟩

end Clusters
end Recto
