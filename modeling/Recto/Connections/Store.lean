import Recto.Connections.ActRecord

/-!
# The connections store

`recto.connections.manage`: the metadata rows and the vault values beside them,
and the operations an act uses. A vault may refuse a write or a delete.
-/

namespace Recto
namespace Connections

structure ConnectionMeta where
  service : String
  key : String
  displayName : String
  category : String
  enabled : Bool
  config : List (String × Json)
  healthUrl : Option String
  hasSecret : Bool
  createdAtUnix : ℤ
  updatedAtUnix : ℤ
  rotatedAtUnix : ℤ
  deriving DecidableEq, Repr

/-- The sidecar's rows and the values of the vault, both by service and key. -/
structure ConnectionStore where
  rows : Dict (String × String) ConnectionMeta
  values : Dict (String × String) String

/-- `vault_secret_name` -/
def vaultSecretName (key : String) : String := "conn." ++ key

namespace ConnectionStore

def empty : ConnectionStore := ⟨∅, ∅⟩

/-- `get_connection_meta` -/
def getMeta (s : ConnectionStore) (service key : String) : Option ConnectionMeta :=
  s.rows.get? (service, key)

/-- `set_connection` with a value, an enabled flag or neither, and no other field. -/
def setConnection (s : ConnectionStore) (service key : String) (secret : Option String)
    (enabled : Option Bool) (now : ℤ) (vaultRefuses : Bool) :
    Except (Refused ActRefusal) (ConnectionMeta × ConnectionStore) := do
  let existing := s.getMeta service key
  let written := secret.filter (· ≠ "")
  ensure (written = none ∨ vaultRefuses = false) (.named .valueStoreFailed)
  let row : ConnectionMeta :=
    { service, key
      displayName := (existing.map (·.displayName)).getD key
      category := (existing.map (·.category)).getD "uncategorized"
      enabled := enabled.getD ((existing.map (·.enabled)).getD true)
      config := (existing.map (·.config)).getD []
      healthUrl := existing.bind (·.healthUrl)
      hasSecret := (existing.map (·.hasSecret)).getD false || written.isSome
      createdAtUnix := (existing.map (·.createdAtUnix)).getD now
      updatedAtUnix := now
      rotatedAtUnix := if written.isSome then now else (existing.map (·.rotatedAtUnix)).getD 0 }
  let values := match written with
    | some value => s.values.set (service, vaultSecretName key) value
    | none => s.values
  pure (row, { rows := s.rows.set (service, key) row, values })

/-- `delete_connection`: the row and its value. What the vault raises, other than that it holds no
value, leaves both. -/
def deleteConnection (s : ConnectionStore) (service key : String) (vaultRefuses : Bool) :
    Except (Refused ActRefusal) (Option ConnectionMeta × ConnectionStore) :=
  match s.getMeta service key with
  | none => .ok (none, s)
  | some row =>
      if vaultRefuses then .error (.raised .runtimeError)
      else
        .ok (some row, { rows := s.rows.erase (service, key)
                         values := s.values.erase (service, vaultSecretName key) })

end ConnectionStore

/-- What an act answers: the row it left, or the row it removed. -/
inductive ActAnswer where
  | deleted (removed : Option ConnectionMeta)
  | connection (row : ConnectionMeta)
  deriving DecidableEq, Repr

/-- The act of a verified record, on the store. -/
def carryOut (s : ConnectionStore) (record : ActRecord) (value : Option String) (now : ℤ)
    (vaultRefuses : Bool) : Except (Refused ActRefusal) (ActAnswer × ConnectionStore) :=
  match record.verb with
  | .delete => (s.deleteConnection record.service record.key vaultRefuses).map
      fun r => (.deleted r.1, r.2)
  | .set =>
      match value with
      | none => .error (.named .valueNotAdmitted)
      | some v => (s.setConnection record.service record.key (some v) none now vaultRefuses).map
          fun r => (.connection r.1, r.2)
  | .enable => (s.setConnection record.service record.key none (some true) now vaultRefuses).map
      fun r => (.connection r.1, r.2)
  | .disable => (s.setConnection record.service record.key none (some false) now vaultRefuses).map
      fun r => (.connection r.1, r.2)

end Connections
end Recto
