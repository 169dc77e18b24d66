import Recto.Capability.Jwt
import Recto.Data.Streams
import Recto.Ethereum.RlpRoundTrip
import Recto.Json.Spaced
import Recto.Text.Repr

/-!
# The sign helper

A child process asks the launcher for signatures over a local socket. Each
message is a frame, a length and then that many bytes of JSON. The server reads
frames off a connection and answers each one; the client sends a request and
reads one answer. Either side gets its stream in chunks of any size.
-/

namespace Recto
namespace SignHelper

open Capability Json Rlp

/-! ## Frames -/

/-- Why no frame could be read. -/
inductive FrameError where
  | closedMidFrame (expected got : ℕ)
  | tooLarge (length : ℕ)
  deriving DecidableEq, Repr

/-- What leaves a function as something other than a `SignHelperError`. -/
inductive Escape where
  | raised (error : PyError)
  | structError
  deriving DecidableEq, Repr

/-- The cap on a frame's body. -/
def frameCap : ℕ := 16 * 1024 * 1024

/-- A body behind its length. -/
def frame (body : Bytes) : Bytes := toBytesBig 4 body.length ++ body

/-- `_write_frame`: what goes out, unless the length does not fit its four bytes. -/
def writeFrame (body : Bytes) : Except Escape Bytes :=
  if body.length < 2 ^ 32 then .ok (frame body) else .error .structError

/-- `_read_frame` -/
def readFrame (chunks : List Bytes) : Except FrameError Bytes × List Bytes :=
  match readExact 4 chunks with
  | (.error got, rest) => (.error (.closedMidFrame 4 got), rest)
  | (.ok header, rest) =>
    if frameCap < fromBytesBig header then (.error (.tooLarge (fromBytesBig header)), rest)
    else
      match readExact (fromBytesBig header) rest with
      | (.error got, rest) => (.error (.closedMidFrame (fromBytesBig header) got), rest)
      | (.ok body, rest) => (.ok body, rest)

/-! ## The server -/

/-- What a capability's `sign` does: it signs, raises `SignHelperDenied`, or raises another
exception. -/
inductive SignOutcome where
  | signature (raw : Bytes)
  | denied (detail : String)
  | failed (detail : String)
  deriving DecidableEq, Repr

structure SigningCapability where
  sign : Bytes → SignOutcome
  algorithm : String
  publicKey : Bytes

/-- A server: its interpreter (what `repr` shows as it is, how deep it recurses) and its resolver,
which may raise on what it cannot look up. -/
structure Helper where
  printable : Char → Bool
  depth : ℕ
  depth_pos : 0 < depth
  resolver : Json → Except PyError (Option SigningCapability)

/-- `_error` -/
def errorMessage (code detail : String) : Bytes :=
  encodeUtf8 (dumpsFlat [("ok", .bool false), ("error", .str code), ("detail", .str detail)])

/-- The answer to what `sign` did. -/
def signedMessage (cap : SigningCapability) : SignOutcome → Bytes
  | .denied detail => errorMessage "denied" detail
  | .failed detail => errorMessage "backend_error" ("sign failed: " ++ detail)
  | .signature raw => encodeUtf8 (dumpsFlat
      [("ok", .bool true), ("signature_b64u", .str (b64u raw)), ("algorithm", .str cap.algorithm),
        ("public_key_b64u", .str (b64u cap.publicKey))])

/-- The request's kind, secret and payload, with the defaults of `dict.get`. -/
def kindOf (fields : List (String × Json)) : Json := (field? fields "kind").getD .null

def secretOf (fields : List (String × Json)) : Json := (field? fields "secret").getD (.str "")

def payloadOf (fields : List (String × Json)) : Json := (field? fields "payload_b64u").getD (.str "")

/-- `_dispatch` of a sign request: only a string can be padded with `=`. -/
def Helper.dispatchSign (h : Helper) (secret payloadB64u : Json) : Except PyError Bytes :=
  if truthy secret = false ∨ truthy payloadB64u = false then
    .ok (errorMessage "backend_error" "secret and payload_b64u required")
  else
    match payloadB64u with
    | .str s =>
      match unb64u s with
      | none => .ok (errorMessage "backend_error" "payload_b64u not valid base64url")
      | some payload =>
        match h.resolver secret with
        | .error e => .error e
        | .ok none => .ok (errorMessage "unknown_secret"
            ("secret " ++ String.ofList (pyRepr h.printable secret) ++ " not configured"))
        | .ok (some cap) => .ok (signedMessage cap (cap.sign payload))
    | _ => .error .typeError

/-- `_dispatch`: of what loading raises, only `JSONDecodeError` is caught. -/
def Helper.dispatch (h : Helper) (body : Bytes) : Except PyError Bytes :=
  match decodeStrict body with
  | none => .ok (errorMessage "backend_error" "invalid JSON")
  | some text =>
    match loadsWithin h.depth text with
    | .error .decode => .ok (errorMessage "backend_error" "invalid JSON")
    | .error e => .error e.raised
    | .ok (.obj fields) =>
      if kindOf fields = .str "sign" then h.dispatchSign (secretOf fields) (payloadOf fields)
      else .ok (errorMessage "backend_error"
        ("unknown kind " ++ String.ofList (pyRepr h.printable (kindOf fields))))
    | .ok _ => .ok (errorMessage "backend_error" "request must be a JSON object")

/-- How `_handle_connection` leaves its loop, or that it has not. -/
inductive ConnectionEnd where
  | refused (error : FrameError)
  | escaped (escape : Escape)
  | running
  deriving DecidableEq, Repr

/-- What the server writes for one frame body. -/
def Helper.answer (h : Helper) (body : Bytes) : Except Escape Bytes :=
  match h.dispatch body with
  | .error e => .error (.raised e)
  | .ok response => writeFrame response

/-- `_handle_connection`, for a number of rounds: the frames it writes, how it ends, and what is
left of the stream. -/
def Helper.handleConnection (h : Helper) : ℕ → List Bytes → List Bytes × ConnectionEnd
  | 0, _ => ([], .running)
  | rounds + 1, chunks =>
    match readFrame chunks with
    | (.error e, _) => ([], .refused e)
    | (.ok body, rest) =>
      match h.answer body with
      | .error e => ([], .escaped e)
      | .ok sent =>
        let later := h.handleConnection rounds rest
        (sent :: later.1, later.2)

/-! ## The client -/

/-- How `SignHelperClient.sign` ends: a signature, `SignHelperDenied`, another `SignHelperError`, or
an exception that is neither. -/
inductive SignResult where
  | signature (raw : Bytes)
  | denied (detail : Json)
  | error
  | escaped
  deriving DecidableEq, Repr

/-- The request of `sign` -/
def requestOf (secret : String) (payload : Bytes) : Bytes :=
  encodeUtf8 (dumpsFlat
    [("kind", .str "sign"), ("secret", .str secret), ("payload_b64u", .str (b64u payload))])

/-- What `sign` makes of an answer. -/
def readReply (depth : ℕ) (body : Bytes) : SignResult :=
  match decodeStrict body with
  | none => .escaped
  | some text =>
    match loadsWithin depth text with
    | .error _ => .escaped
    | .ok (.obj fields) =>
      if truthy ((field? fields "ok").getD .null) = false then
        if (field? fields "error").getD (.str "unknown") = .str "denied" then
          .denied ((field? fields "detail").getD (.str ""))
        else .error
      else
        match (field? fields "signature_b64u").getD (.str "") with
        | .str s =>
          match unb64u s with
          | some raw => .signature raw
          | none => .escaped
        | _ => .escaped
    | .ok _ => .error

/-- A way to cut a stream into chunks. -/
def Cut := { cut : Bytes → List Bytes // ∀ raw, (cut raw).flatten = raw }

/-- One call of `sign`, with the chunks its request and its answer arrive in. -/
structure SignCall where
  secret : String
  payload : Bytes
  requestCut : Cut
  answerCut : Cut

/-- A persistent connection: whether the server still reads it, and what the client has not read. -/
structure Connection where
  serving : Bool
  inbound : List Bytes

/-- One round of the server on what a call sends. -/
def Helper.round (h : Helper) (conn : Connection) (call : SignCall) (sent : Bytes) :
    List Bytes × ConnectionEnd :=
  if conn.serving then h.handleConnection 1 (call.requestCut.1 sent)
  else ([], .refused (.closedMidFrame 4 0))

/-- `sign` on a persistent connection -/
def Helper.sign (h : Helper) (conn : Connection) (call : SignCall) : SignResult × Connection :=
  match writeFrame (requestOf call.secret call.payload) with
  | .error _ => (.escaped, conn)
  | .ok sent =>
    let answered := h.round conn call sent
    let serving := conn.serving && decide (answered.2 = .running)
    match readFrame (conn.inbound ++ answered.1.flatMap call.answerCut.1) with
    | (.error _, rest) => (.error, ⟨serving, rest⟩)
    | (.ok body, rest) => (readReply h.depth body, ⟨serving, rest⟩)

/-- Calls one after the other on one connection. -/
def Helper.signAll (h : Helper) : Connection → List SignCall → List SignResult
  | _, [] => []
  | conn, call :: calls =>
    let called := h.sign conn call
    called.1 :: h.signAll called.2 calls

end SignHelper
end Recto
