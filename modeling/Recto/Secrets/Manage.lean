import Recto.Secrets.Sources

/-!
# Reading and writing secret values

`recto.connections.manage` and `recto.user_vault.manage` over a backend: the rows
of metadata, and beside them the values. Over a plain map from tuples to values
the same operations say what they are for.
-/

namespace Recto
namespace Secrets

open Connections

structure UserVaultEntryMeta where
  platform : String
  subject : Subject
  key : Key
  displayName : String
  category : String
  hasSecret : Bool
  createdAtUnix : ℤ
  updatedAtUnix : ℤ
  rotatedAtUnix : ℤ
  deriving DecidableEq

/-- The two sidecars. -/
structure Rows where
  connections : Dict (String × Key) ConnectionMeta
  entries : Dict (String × Subject × Key) UserVaultEntryMeta

/-- The sidecars, and what the backend keeps. -/
structure World (σ : Type) where
  rows : Rows
  vault : σ

/-- What a caller may set on a connection. -/
structure ConnectionFields where
  displayName : Option String := none
  category : Option String := none
  config : Option (List (String × Json)) := none
  enabled : Option Bool := none
  healthUrl : Option String := none

/-- What a caller may set on a user's entry. -/
structure EntryFields where
  displayName : Option String := none
  category : Option String := none

inductive Reply where
  | connection (row : ConnectionMeta)
  | entry (row : UserVaultEntryMeta)
  | secret (value : Option String)
  | removedConnection (row : Option ConnectionMeta)
  | removedEntry (row : Option UserVaultEntryMeta)
  deriving DecidableEq

/-- A value that is set; an empty one counts as none. -/
def nonEmpty (secret : Option String) : Option String := secret.filter (· ≠ "")

section
variable {σ : Type} (b : Backend σ)

/-- The fetch of a value as it is read: none when it is empty. -/
def readValue (t : SecretTuple) (vault : σ) : Except Raised Reply := do
  let value ← b.fetch t vault
  pure (.secret (if value = "" then none else some value))

/-- The write of a value, if there is one. -/
def writeValue (t : SecretTuple) (secret : Option String) (now : ℤ) (vault : σ) : Except Raised σ :=
  match nonEmpty secret with
  | some value => b.write t value now vault
  | none => .ok vault

/-- The delete of a value; that there is none is no error. -/
def deleteValue (t : SecretTuple) (vault : σ) : Except Raised σ :=
  match b.delete t vault with
  | .error .secretNotFound => .ok vault
  | r => r

/-- The row `set_connection` leaves. -/
def connectionRow (service : String) (key : Key) (fields : ConnectionFields) (wroteSecret : Bool)
    (now : ℤ) (existing : Option ConnectionMeta) : ConnectionMeta where
  service
  key
  displayName := fields.displayName.getD ((existing.map (·.displayName)).getD key)
  category := fields.category.getD ((existing.map (·.category)).getD "uncategorized")
  enabled := fields.enabled.getD ((existing.map (·.enabled)).getD true)
  config := fields.config.getD ((existing.map (·.config)).getD [])
  healthUrl := fields.healthUrl.or (existing.bind (·.healthUrl))
  hasSecret := (existing.map (·.hasSecret)).getD false || wroteSecret
  createdAtUnix := (existing.map (·.createdAtUnix)).getD now
  updatedAtUnix := now
  rotatedAtUnix := if wroteSecret then now else (existing.map (·.rotatedAtUnix)).getD 0

/-- The row `set_user_entry` leaves. -/
def entryRow (platform : String) (subject : Subject) (key : Key) (fields : EntryFields)
    (wroteSecret : Bool) (now : ℤ) (existing : Option UserVaultEntryMeta) : UserVaultEntryMeta where
  platform
  subject
  key
  displayName := fields.displayName.getD ((existing.map (·.displayName)).getD key)
  category := fields.category.getD ((existing.map (·.category)).getD "uncategorized")
  hasSecret := (existing.map (·.hasSecret)).getD false || wroteSecret
  createdAtUnix := (existing.map (·.createdAtUnix)).getD now
  updatedAtUnix := now
  rotatedAtUnix := if wroteSecret then now else (existing.map (·.rotatedAtUnix)).getD 0

/-- A name that is there, or `ValueError`. -/
def present {α : Type} (name : Option α) : Except Raised α :=
  match name with
  | some a => .ok a
  | none => .error .valueError

def getConnectionSecret (service key : String) (w : World σ) : Except Raised Reply := do
  let key ← present (readKey key)
  readValue b { service, tier := .platform, key } w.vault

def setConnection (service key : String) (fields : ConnectionFields) (secret : Option String)
    (now : ℤ) (w : World σ) : Except Raised (Reply × World σ) := do
  ensure (service ≠ "") .valueError
  let key ← present (readKey key)
  let vault ← writeValue b { service, tier := .platform, key } secret now w.vault
  let row := connectionRow service key fields (nonEmpty secret).isSome now
    (w.rows.connections.get? (service, key))
  pure (.connection row,
    { rows := { connections := w.rows.connections.set (service, key) row, entries := w.rows.entries }
      vault })

def deleteConnection (service key : String) (w : World σ) : Except Raised (Reply × World σ) := do
  let key ← present (readKey key)
  match w.rows.connections.get? (service, key) with
  | none => pure (.removedConnection none, w)
  | some row => do
      let vault ← deleteValue b { service, tier := .platform, key } w.vault
      pure (.removedConnection (some row),
        { rows := { connections := w.rows.connections.erase (service, key), entries := w.rows.entries }
          vault })

def releaseUserSecret (platform subject key : String) (w : World σ) : Except Raised Reply := do
  let subject ← present (readSubject subject)
  let key ← present (readKey key)
  readValue b { service := platform, tier := .user subject, key } w.vault

def setUserEntry (platform subject key : String) (fields : EntryFields) (secret : Option String)
    (now : ℤ) (w : World σ) : Except Raised (Reply × World σ) := do
  ensure (platform ≠ "") .valueError
  let subject ← present (readSubject subject)
  let key ← present (readKey key)
  let vault ← writeValue b { service := platform, tier := .user subject, key } secret now w.vault
  let row := entryRow platform subject key fields (nonEmpty secret).isSome now
    (w.rows.entries.get? (platform, subject, key))
  pure (.entry row,
    { rows :=
        { connections := w.rows.connections
          entries := w.rows.entries.set (platform, subject, key) row }
      vault })

def deleteUserEntry (platform subject key : String) (w : World σ) :
    Except Raised (Reply × World σ) := do
  let subject ← present (readSubject subject)
  let key ← present (readKey key)
  match w.rows.entries.get? (platform, subject, key) with
  | none => pure (.removedEntry none, w)
  | some row => do
      let vault ← deleteValue b { service := platform, tier := .user subject, key } w.vault
      pure (.removedEntry (some row),
        { rows :=
            { connections := w.rows.connections
              entries := w.rows.entries.erase (platform, subject, key) }
          vault })

end

end Secrets
end Recto
