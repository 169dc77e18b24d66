import Recto.Phone.CanonicalJson
import Recto.UserVault.GrantRecord

/-!
# The user-vault cards

`UserVaultCardModel`: the grant and revoke records the phone signs with its
identity key, and the rows that show them. A field without a renderer, or with
a value that fails its grammar, leaves no card.
-/

namespace Recto
namespace Phone

open Capability
open UserVault (isWord isScopeChar isNonce)
open Connections (isConnectionKey)

/-- `GrantPrefix` -/
def grantPrefix : String := "recto-user-vault-grant-v1|"

/-- `RevokePrefix` -/
def revokePrefix : String := "recto-user-vault-revoke-v1|"

/-- `GrantMaxSeconds` -/
def grantMaxSeconds : ℤ := 365 * 86400

/-- `ActionGrant` -/
def actionGrant : String := "grant"

/-- `ActionRevoke` -/
def actionRevoke : String := "revoke"

/-- `ChipDays` -/
def chipDays : List ℤ := [90, 30, 7]

/-- A `long` after unchecked arithmetic. -/
def toLong (n : ℤ) : ℤ := n.bmod (2 ^ 64)

/-! ## Grammars -/

/-- `Regex.IsMatch` of a pattern between `^` and `$`: the `$` also stands before a line feed that
ends the text. -/
def matchesLine (pattern : String → Bool) (s : String) : Bool :=
  pattern s || ((chars s).getLast? = some '\n' && pattern (String.ofList (chars s).dropLast))

/-- `KeyRe` -/
def keyRe : String → Bool := matchesLine isConnectionKey

/-- `ScopeRe` -/
def scopeRe : String → Bool := matchesLine (isWord isScopeChar 1 64)

/-- `NonceRe` -/
def nonceRe : String → Bool := matchesLine isNonce

/-- `GrantIdRe` -/
def grantIdRe : String → Bool := matchesLine (isRun isLowerHex 64)

/-- `[\x21-\x7e]` -/
def isTokenChar (c : Char) : Bool := 33 ≤ c.toNat && c.toNat ≤ 126

/-- `TokenRe` -/
def tokenRe : String → Bool := matchesLine (isWord isTokenChar 1 128)

/-- The white space `Convert.FromBase64String` skips. -/
def isBase64Space (c : Char) : Bool := c = ' ' || c = '\t' || c = '\n' || c = '\r'

/-- `Convert.FromBase64String`; `none` for its `FormatException`. -/
def fromBase64String (s : List Char) : Option Bytes :=
  let cs := s.filter fun c => !isBase64Space c
  let digits := cs.takeWhile (· ≠ '=')
  let padding := cs.dropWhile (· ≠ '=')
  if cs.length % 4 = 0 ∧ digits.all (fun c => (b64Value c).isSome && c ≠ '-' && c ≠ '_') ∧
      padding.all (· = '=') ∧ padding.length ≤ 2 then
    a2bBase64 cs 0 0 0
  else none

/-- `Replace('-', '+').Replace('_', '/')` on one character. -/
def toStandard (c : Char) : Char := if c = '-' then '+' else if c = '_' then '/' else c

/-- `Handle`, on a string. -/
def handle (s : String) : Option String :=
  if matchesLine (isRun isB64uChar 43) s then
    match fromBase64String ((chars s).map toStandard ++ ['=']) with
    | some raw => if raw.length = 32 ∧ b64u raw = s then some s else none
    | none => none
  else none

/-- What `Uri.TryCreate` finds out about an absolute address. -/
structure Uri where
  scheme : String
  isLoopback : Bool

/-- `Uri.TryCreate(s, UriKind.Absolute, out u)`. -/
structure UriRules where
  tryCreate : String → Option Uri
  empty : tryCreate "" = none

/-- `IsConsumerUrl` -/
def isConsumerUrl (uris : UriRules) (s : String) : Bool :=
  match uris.tryCreate s with
  | some u =>
      (u.scheme = "https" || (u.scheme = "http" && u.isLoopback)) &&
        (utf16 s).all fun ch => 0x20 < ch && ch < 0x7f
  | none => false

/-- `MMM` -/
def monthName (month : ℤ) : String :=
  ["Jan", "Feb", "Mar", "Apr", "May", "Jun", "Jul", "Aug", "Sep", "Oct", "Nov", "Dec"].getD
    (month - 1).toNat ""

/-- `FormatUtc`: `d MMM yyyy, HH:mm 'UTC'`, between the years 1 and 9999. -/
def formatUtc (unix : ℤ) : Except ClrError String :=
  if -62135596800 ≤ unix ∧ unix ≤ 253402300799 then
    let date := civilOfDays (unix / 86400)
    let year := Nat.toDigits 10 date.year.natAbs
    .ok (String.ofList (Nat.toDigits 10 date.day.natAbs) ++ " " ++ monthName date.month ++ " " ++
      String.ofList (List.replicate (4 - year.length) '0' ++ year) ++ ", " ++
      pad2 (unix % 86400 / 3600) ++ ":" ++ pad2 (unix % 3600 / 60) ++ " UTC")
  else .error .argumentOutOfRange

example : formatUtc 1760000000 = .ok "9 Oct 2025, 08:53 UTC" := by decide

/-! ## Rows -/

/-- An `IReadOnlyDictionary<string, object?>`. -/
abbrev ClrRecord := List (String × Json)

structure Renderer where
  label : String
  render : Json → Except ClrError (Option String)
  isHandle : Bool

/-- The text itself, if it has the grammar. -/
def renderText (grammar : String → Bool) (v : Json) : Except ClrError (Option String) :=
  match v with
  | .str s => .ok (if grammar s then some s else none)
  | _ => .ok none

def renderHandle (v : Json) : Except ClrError (Option String) :=
  match v with
  | .str s => .ok (handle s)
  | _ => .ok none

def renderTime (v : Json) : Except ClrError (Option String) :=
  match v with
  | .int t => if 0 < t then (formatUtc t).map some else .ok none
  | _ => .ok none

/-- `Renderers` -/
def renderers (uris : UriRules) : List (String × Renderer) :=
  [("agent_handle", ⟨"Agent", renderHandle, true⟩),
    ("key", ⟨"Key", renderText keyRe, false⟩),
    ("scope", ⟨"For", renderText scopeRe, false⟩),
    ("not_after", ⟨"Until", renderTime, false⟩),
    ("subject", ⟨"You, here", renderHandle, true⟩),
    ("bootloader_id", ⟨"Vault", renderText tokenRe, false⟩),
    ("consumer", ⟨"Service", renderText (isConsumerUrl uris), false⟩),
    ("nonce", ⟨"Nonce", renderText nonceRe, false⟩),
    ("grant_id", ⟨"Grant", renderText grantIdRe, false⟩)]

structure UserVaultCardRow where
  field : String
  label : String
  value : String
  isHandle : Bool
  deriving DecidableEq, Repr

/-- The order of the rows. -/
def rowOrder : List String :=
  ["agent_handle", "key", "scope", "grant_id", "not_after", "subject", "bootloader_id", "consumer",
    "nonce"]

/-- The row of one field; `none` when its value fails the grammar. -/
def rowFor (uris : UriRules) (record : ClrRecord) (field : String) :
    Except ClrError (Option UserVaultCardRow) :=
  match (renderers uris).lookup field, record.lookup field with
  | some r, some v => do
      let value ← r.render v
      pure (value.map fun value => { field, label := r.label, value, isHandle := r.isHandle })
  | _, _ => pure none

/-- The loop of `RowsFor`. -/
def collectRows (uris : UriRules) (record : ClrRecord) :
    List String → Except ClrError (Option (List UserVaultCardRow))
  | [] => pure (some [])
  | field :: fields => do
      let row ← rowFor uris record field
      match row with
      | none => pure none
      | some row => do
          let rows ← collectRows uris record fields
          pure (rows.map (row :: ·))

/-- `RowsFor` -/
def rowsFor (uris : UriRules) (record : ClrRecord) :
    Except ClrError (Option (List UserVaultCardRow)) :=
  if ∀ f ∈ record, f.1 ∈ (renderers uris).map Prod.fst then do
    let rows ← collectRows uris record
      (rowOrder.filter fun field => field ∈ record.map Prod.fst)
    pure (rows.filter fun rows => rows.length = record.length)
  else pure none

/-! ## The card -/

/-- `UserVaultGrantContext`; a JSON `null` leaves `null` in a string. -/
structure UserVaultGrantContext where
  action : Option String
  bootloaderId : Option String
  consumer : Option String
  subject : Option String
  agentHandle : Option String
  key : Option String
  scope : Option String
  notAfter : ℤ
  expiresAtUnix : ℤ
  grantId : Option String
  admittedAtUnix : Option ℤ
  purpose : Option String
  agentName : Option String
  deriving DecidableEq, Repr

structure PendingRequest where
  requestId : String
  kind : String
  userVaultGrant : Option UserVaultGrantContext

structure UserVaultCardModel where
  requestId : String
  action : Option String
  bootloaderId : Option String
  consumer : Option String
  subject : Option String
  agentHandle : Option String
  key : Option String
  scope : Option String
  proposedNotAfter : ℤ
  expiresAtUnix : ℤ
  grantId : Option String
  admittedAtUnix : Option ℤ
  purpose : Option String
  agentName : Option String
  deriving DecidableEq, Repr

/-- A string as an `object?`. -/
def boxed (s : Option String) : Json := (s.map Json.str).getD .null

namespace UserVaultCardModel

/-- The constructor. -/
def ofContext (requestId : String) (c : UserVaultGrantContext) : UserVaultCardModel where
  requestId
  action := c.action
  bootloaderId := c.bootloaderId
  consumer := c.consumer
  subject := c.subject
  agentHandle := c.agentHandle
  key := c.key
  scope := c.scope
  proposedNotAfter := c.notAfter
  expiresAtUnix := c.expiresAtUnix
  grantId := c.grantId
  admittedAtUnix := c.admittedAtUnix
  purpose := c.purpose
  agentName := c.agentName

/-- `WindowChoices`: the proposal, then each chip shorter than it. -/
def windowChoices (m : UserVaultCardModel) (now : ℤ) : List ℤ :=
  let cap := min m.proposedNotAfter (toLong (now + grantMaxSeconds))
  cap :: (chipDays.map fun days => toLong (now + days * 86400)).filter (· < cap)

/-- The fields of a grant record. -/
def grantFields (m : UserVaultCardModel) (notAfter : ℤ) (nonce : String) : ClrRecord :=
  [("agent_handle", boxed m.agentHandle), ("bootloader_id", boxed m.bootloaderId),
    ("consumer", boxed m.consumer), ("key", boxed m.key), ("nonce", .str nonce),
    ("not_after", .int notAfter), ("scope", boxed m.scope), ("subject", boxed m.subject)]

/-- `GrantRecord` -/
def grantRecord (m : UserVaultCardModel) (notAfter : ℤ) (nonce : String) (now? : Option ℤ) :
    Except ClrError ClrRecord := do
  ensure (m.action = some actionGrant) .invalidOperation
  ensure (notAfter ≤ m.proposedNotAfter) .argumentOutOfRange
  ensure (∀ now ∈ now?, now < notAfter ∧ notAfter ≤ toLong (now + grantMaxSeconds))
    .argumentOutOfRange
  pure (m.grantFields notAfter nonce)

/-- `BuildRevokeRecord` -/
def buildRevokeRecord (bootloaderId consumer subject grantId : Option String) (nonce : String) :
    ClrRecord :=
  [("bootloader_id", boxed bootloaderId), ("consumer", boxed consumer), ("grant_id", boxed grantId),
    ("nonce", .str nonce), ("subject", boxed subject)]

/-- `RevokeRecord` -/
def revokeRecord (m : UserVaultCardModel) (nonce : String) : Except ClrError ClrRecord := do
  ensure (m.action = some actionRevoke ∧ m.grantId ≠ none) .invalidOperation
  pure (buildRevokeRecord m.bootloaderId m.consumer m.subject m.grantId nonce)

end UserVaultCardModel

/-- The nonce of the probe. -/
def probeNonce : String := "probe-nonce-0000000000"

/-- The action a kind of request asks for. -/
def expectedAction (kind : String) : Option String :=
  if kind = "user_vault_grant" then some actionGrant
  else if kind = "user_vault_revoke" then some actionRevoke
  else none

/-- `TryBuild`: the card, or why there is none. -/
def tryBuild (uris : UriRules) (req : PendingRequest) (now : ℤ) :
    Except ClrError (Except String UserVaultCardModel) :=
  match req.userVaultGrant with
  | none => pure (.error "The card carries no grant record.")
  | some c =>
      let expected := expectedAction req.kind
      if expected = none ∨ c.action ≠ expected then
        pure (.error "The card's action does not match its kind.")
      else if c.expiresAtUnix ≤ now then pure (.error "This request's window closed.")
      else if expected = some actionGrant ∧
          (c.notAfter ≤ now ∨ toLong (now + grantMaxSeconds) < c.notAfter) then
        pure (.error "The proposed date is past or beyond the 365-day cap.")
      else if expected = some actionRevoke ∧ c.grantId = none then
        pure (.error "The revoke card names no grant.")
      else do
        let model := UserVaultCardModel.ofContext req.requestId c
        let probe ←
          if expected = some actionGrant then model.grantRecord c.notAfter probeNonce none
          else model.revokeRecord probeNonce
        let rows ← rowsFor uris probe
        match rows with
        | none =>
            pure (.error "A field of this record cannot be shown, so it cannot be signed.")
        | some _ => pure (.ok model)

/-- `SignedMessage` -/
def signedMessage (tag : String) (record : ClrRecord) : Except ClrError Bytes := do
  let body ← encode (.obj record)
  pure (utf8 tag ++ body)

/-- `GrantIdOf` -/
def grantIdOf (sha256 : Bytes → Bytes) (grantRecord : ClrRecord) : Except ClrError String := do
  let body ← encode (.obj grantRecord)
  pure (hex (sha256 body))

/-- `NewNonce`, from its random bytes. -/
def newNonce (random : Vector UInt8 16) : String := b64u random.toList

end Phone
end Recto
