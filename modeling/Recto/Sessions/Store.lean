import Mathlib.Data.Rat.Defs
import Recto.Data.Dict

/-!
# Session tokens and their uses

A phone signs a session token for one service and secret; the bootloader keeps
the session of each pair, counts its uses and writes the file of sessions on
every change. Memory changes before the file, and a write may fail. An
`issue_session` request looks the phone up, verifies the token and stores the
session in three steps, with other requests between them.
-/

namespace Recto
namespace Sessions

/-! ## Sessions -/

/-- What the bootloader reads of `SessionClaims`. -/
structure SessionClaims where
  sub : String
  aud : String
  exp : ℤ
  iat : ℤ
  rectoMaxUses : ℤ
  deriving DecidableEq, Repr

/-- `sub.split(":", 1)`, where there is a colon -/
def SessionClaims.pair? (claims : SessionClaims) : Option (String × String) :=
  match claims.sub.toList.span (· ≠ ':') with
  | (service, _ :: secret) => some (String.ofList service, String.ofList secret)
  | (_, []) => none

/-- `Session` -/
structure Session where
  service : String
  secret : String
  phoneId : String
  jwt : String
  expiresAtUnix : ℤ
  issuedAtUnix : ℤ
  maxUses : ℤ
  usesSoFar : ℤ
  deriving DecidableEq, Repr

/-- `Session.is_expired` -/
def Session.isExpired (now : ℚ) (s : Session) : Bool := decide ((s.expiresAtUnix : ℚ) ≤ now)

/-- `Session.is_exhausted`; zero is unlimited. -/
def Session.isExhausted (s : Session) : Bool :=
  if s.maxUses ≤ 0 then false else decide (s.maxUses ≤ s.usesSoFar)

def Session.pair (s : Session) : String × String := (s.service, s.secret)

/-- Tokens: what they say, whose key signed them, and the audience this bootloader is. -/
structure Tokens where
  claims : String → Option SessionClaims
  signed : (key token : String) → Bool
  audience : String

/-- `verify_jwt`, ideal -/
def Tokens.verifyJwt (w : Tokens) (token key : String) (now : ℚ) : Option SessionClaims :=
  (w.claims token).filter fun claims =>
    w.signed key token && decide (claims.aud = w.audience) && decide (now < claims.exp)

/-! ## The store -/

inductive StoreError where
  | notWritten
  deriving DecidableEq, Repr

/-- What `StateStore` keeps of phones (the key of each id) and sessions. The file of phones is
written before memory follows, so one dictionary stands for both. -/
structure Store where
  phones : Dict String String
  sessions : Dict (String × String) Session
  sessionsFile : List Session

/-- `_save_sessions` -/
def saveSessions (lands : Bool) (st : Store) : Except StoreError Unit × Store :=
  if lands then (.ok (), { st with sessionsFile := st.sessions.values })
  else (.error .notWritten, st)

/-- `get_session` -/
def getSession (now : ℚ) (pair : String × String) (lands : Bool) (st : Store) :
    Except StoreError (Option Session) × Store :=
  match st.sessions.get? pair with
  | none => (.ok none, st)
  | some sess =>
    if sess.isExpired now || sess.isExhausted then
      let saved := saveSessions lands { st with sessions := st.sessions.erase pair }
      (saved.1.map fun _ => none, saved.2)
    else (.ok (some sess), st)

/-- `put_session` -/
def putSession (sess : Session) (lands : Bool) (st : Store) : Except StoreError Unit × Store :=
  saveSessions lands { st with sessions := st.sessions.set sess.pair sess }

/-- `increment_session_uses` -/
def incrementSessionUses (pair : String × String) (lands : Bool) (st : Store) :
    Except StoreError (Option Session) × Store :=
  match st.sessions.get? pair with
  | none => (.ok none, st)
  | some sess =>
    let updated := { sess with usesSoFar := sess.usesSoFar + 1 }
    let saved := saveSessions lands { st with sessions := st.sessions.set pair updated }
    (saved.1.map fun _ => some updated, saved.2)

/-- The sessions of every other phone. -/
def withoutPhone (phoneId : String) (sessions : Dict (String × String) Session) :
    Dict (String × String) Session :=
  sessions.filter fun _ s => decide (s.phoneId ≠ phoneId)

/-- `revoke_phone`: a file of sessions that is not written is logged only. -/
def revokePhone (phoneId : String) (phonesLand sessionsLand : Bool) (st : Store) :
    Except StoreError Bool × Store :=
  if phoneId ∉ st.phones then (.ok false, st)
  else if phonesLand then
    (.ok true, (saveSessions sessionsLand
      { st with
        phones := st.phones.erase phoneId
        sessions := withoutPhone phoneId st.sessions }).2)
  else (.error .notWritten, st)

/-- A registration: the id it brings and the phone's key. -/
structure PhoneRegistration where
  phoneId : String
  publicKeyB64u : String
  deriving DecidableEq, Repr

/-- The id a registration is stored under: that of the phone that already holds its key. -/
def storedId (phones : Dict String String) (reg : PhoneRegistration) : String :=
  match phones.items.find? fun item => item.2 = reg.publicKeyB64u with
  | some item => item.1
  | none => reg.phoneId

/-- `register_phone` -/
def registerPhone (reg : PhoneRegistration) (lands : Bool) (st : Store) :
    Except StoreError Unit × Store :=
  if lands then
    (.ok (), { st with phones := st.phones.set (storedId st.phones reg) reg.publicKeyB64u })
  else (.error .notWritten, st)

/-- `replace_phone` -/
def replacePhone (occupant : String) (reg : PhoneRegistration) (phonesLand sessionsLand : Bool)
    (st : Store) : Except StoreError Bool × Store :=
  if occupant ∉ st.phones then (.ok false, st)
  else if phonesLand then
    let phones := st.phones.erase occupant
    (.ok true, (saveSessions sessionsLand
      { st with
        phones := phones.set (storedId phones reg) reg.publicKeyB64u
        sessions := withoutPhone occupant st.sessions }).2)
  else (.error .notWritten, st)

/-- `_load`: each session of the file, under its pair. -/
def loadSessions (file : List Session) : Dict (String × String) Session :=
  file.foldl (fun sessions s => sessions.set s.pair s) ∅

/-! ## Runs -/

/-- An `issue_session` request that has looked its phone up, or verified its token too. -/
inductive Request where
  | found (phoneId key token : String)
  | verified (key : String) (sess : Session)
  | refused
  deriving DecidableEq, Repr

/-- The bootloader, its clock, the requests under way, and how often a session of each token has
been incremented. -/
structure Bootloader where
  store : Store
  requests : List Request
  now : ℚ
  spent : String → ℤ

/-- What may happen. Requests are numbered in the order they came. -/
inductive Event where
  | lookUp (phoneId token : String)
  | verify (request : ℕ)
  | put (request : ℕ) (lands : Bool)
  | get (pair : String × String) (lands : Bool)
  | increment (pair : String × String) (lands : Bool)
  | revoke (phoneId : String) (phonesLand sessionsLand : Bool)
  | register (reg : PhoneRegistration) (lands : Bool)
  | replace (occupant : String) (reg : PhoneRegistration) (phonesLand sessionsLand : Bool)
  | restart
  | tick (time : ℚ)
  deriving DecidableEq

/-- The session of a verified token. -/
def sessionOf (phoneId token : String) (claims : SessionClaims) (pair : String × String) : Session where
  service := pair.1
  secret := pair.2
  phoneId := phoneId
  jwt := token
  expiresAtUnix := claims.exp
  issuedAtUnix := claims.iat
  maxUses := claims.rectoMaxUses
  usesSoFar := 0

/-- The middle of `_handle_issue_session`. -/
def verifyRequest (w : Tokens) (now : ℚ) : Request → Request
  | .found phoneId key token =>
    match w.verifyJwt token key now with
    | none => .refused
    | some claims =>
      match claims.pair? with
      | none => .refused
      | some pair => .verified key (sessionOf phoneId token claims pair)
  | request => request

/-- The count of increments follows the session that an increment finds. -/
def countUse (pair : String × String) (b : Bootloader) : String → ℤ :=
  match b.store.sessions.get? pair with
  | none => b.spent
  | some sess => Function.update b.spent sess.jwt (b.spent sess.jwt + 1)

def Bootloader.step (w : Tokens) (b : Bootloader) : Event → Bootloader
  | .lookUp phoneId token =>
    match b.store.phones.get? phoneId with
    | none => b
    | some key => { b with requests := b.requests ++ [.found phoneId key token] }
  | .verify request => { b with requests := b.requests.modify request (verifyRequest w b.now) }
  | .put request lands =>
    match b.requests[request]? with
    | some (.verified _ sess) =>
      { b with
        store := (putSession sess lands b.store).2
        requests := b.requests.set request .refused }
    | _ => b
  | .get pair lands => { b with store := (getSession b.now pair lands b.store).2 }
  | .increment pair lands =>
    { b with
      store := (incrementSessionUses pair lands b.store).2
      spent := countUse pair b }
  | .revoke phoneId phonesLand sessionsLand =>
    { b with store := (revokePhone phoneId phonesLand sessionsLand b.store).2 }
  | .register reg lands => { b with store := (registerPhone reg lands b.store).2 }
  | .replace occupant reg phonesLand sessionsLand =>
    { b with store := (replacePhone occupant reg phonesLand sessionsLand b.store).2 }
  | .restart =>
    { b with
      store := { b.store with sessions := loadSessions b.store.sessionsFile }
      requests := [] }
  | .tick time => { b with now := max b.now time }

/-- A bootloader with nothing in it. -/
def Bootloader.start (now : ℚ) : Bootloader := ⟨⟨∅, ∅, []⟩, [], now, fun _ => 0⟩

def Bootloader.run (w : Tokens) (b : Bootloader) (events : List Event) : Bootloader :=
  events.foldl (step w) b

end Sessions
end Recto
