import Recto.SignHelper.Protocol

/-!
# Answers and requests stay paired

The server answers every frame and reads on exactly if each body is under the
cap and none makes the dispatcher raise. On a connection whose requests and
answers keep to the cap, the n-th call gets what its own capability makes of its
own payload.
-/

namespace Recto
namespace SignHelper

open Capability Json Rlp

variable {h : Helper} {body response : Bytes} {chunks : List Bytes}

/-! ## Frames -/

theorem decodeStrict_encodeUtf8 (cs : List Char) : decodeStrict (encodeUtf8 cs) = some cs := by
  simp [decodeStrict]

/-- The length of a frame is read first. -/
theorem readExact_header {rest : Bytes} (hchunks : chunks.flatten = frame body ++ rest) :
    ∃ left, readExact 4 chunks = (.ok (toBytesBig 4 body.length), left) ∧
      left.flatten = body ++ rest := by
  rw [frame, List.append_assoc] at hchunks
  simpa using readExact_append hchunks

theorem readFrame_frame (rest : Bytes) (hsmall : body.length < 2 ^ 32)
    (hchunks : chunks.flatten = frame body ++ rest) :
    (body.length ≤ frameCap → ∃ left, readFrame chunks = (.ok body, left) ∧ left.flatten = rest) ∧
    (frameCap < body.length → ∃ left, readFrame chunks = (.error (.tooLarge body.length), left)) := by
  obtain ⟨left, hheader, hleft⟩ := readExact_header hchunks
  have hlength : fromBytesBig (toBytesBig 4 body.length) = body.length :=
    fromBytesBig_toBytesBig (by omega)
  unfold readFrame
  rw [hheader]
  dsimp only
  rw [hlength]
  constructor
  · intro hcap
    obtain ⟨left', hbody, hleft'⟩ := readExact_append hleft
    rw [if_neg (not_lt.mpr hcap), hbody]
    exact ⟨left', rfl, hleft'⟩
  · intro hcap
    rw [if_pos hcap]
    exact ⟨left, rfl⟩

theorem readFrame_over (hchunks : chunks.flatten = []) :
    ∃ left, readFrame chunks = (.error (.closedMidFrame 4 0), left) := by
  obtain ⟨left, hread, -⟩ := readExact_short (show chunks.flatten.length < 4 by simp [hchunks])
  unfold readFrame
  rw [hread, hchunks]
  exact ⟨left, rfl⟩

/-! ## What can be answered -/

/-- An answer whose length fits a frame's header. -/
def Sendable (response : Bytes) : Prop := response.length < 2 ^ 32

/-- The resolver takes the secret, and the signature or the text the answer quotes is not too
long. -/
def Helper.RepliesWithin (h : Helper) (bound : ℕ) (secret : Json) (payload : Bytes) : Prop :=
  ∃ cap, h.resolver secret = .ok cap ∧
    match cap with
    | none => (errorMessage "unknown_secret"
        ("secret " ++ String.ofList (pyRepr h.printable secret) ++ " not configured")).length < bound
    | some cap => (signedMessage cap (cap.sign payload)).length < bound

/-- A sign request that is answered: its payload is a string, and if that decodes, there is a reply
that fits a header. -/
def Helper.SignAnswerable (h : Helper) (secret payloadB64u : Json) : Prop :=
  truthy secret = true → truthy payloadB64u = true → ∃ s, payloadB64u = .str s ∧
    ∀ payload, unb64u s = some payload → h.RepliesWithin (2 ^ 32) secret payload

/-- A frame that is answered: its JSON is neither too deep nor has an integer of too many digits, and
what it asks for can be answered. -/
def Helper.Answerable (h : Helper) (body : Bytes) : Prop :=
  match decodeStrict body with
  | none => True
  | some text =>
    match loadsWithin h.depth text with
    | .error e => e = .decode
    | .ok (.obj fields) =>
      if kindOf fields = .str "sign" then h.SignAnswerable (secretOf fields) (payloadOf fields)
      else Sendable (errorMessage "backend_error"
        ("unknown kind " ++ String.ofList (pyRepr h.printable (kindOf fields))))
    | .ok _ => True

theorem length_errorMessage_fixed : ∀ detail ∈ ["invalid JSON", "request must be a JSON object",
    "secret and payload_b64u required", "payload_b64u not valid base64url"],
    (errorMessage "backend_error" detail).length < frameCap := by
  decide +kernel

theorem sendable_fixed {detail : String} (hdetail : detail ∈ ["invalid JSON",
    "request must be a JSON object", "secret and payload_b64u required",
    "payload_b64u not valid base64url"]) : Sendable (errorMessage "backend_error" detail) :=
  (length_errorMessage_fixed detail hdetail).trans (by decide)

theorem dispatchSign_sends_iff {secret payloadB64u : Json} :
    (∃ response, h.dispatchSign secret payloadB64u = .ok response ∧ Sendable response) ↔
      h.SignAnswerable secret payloadB64u := by
  unfold Helper.dispatchSign Helper.SignAnswerable Helper.RepliesWithin
  by_cases hempty : truthy secret = false ∨ truthy payloadB64u = false
  · rw [if_pos hempty]
    refine iff_of_true ⟨_, rfl, sendable_fixed (by simp)⟩ fun hsecret hpayload => ?_
    rcases hempty with hfalse | hfalse
    · rw [hsecret] at hfalse
      cases hfalse
    · rw [hpayload] at hfalse
      cases hfalse
  · rw [if_neg hempty]
    obtain ⟨hsecret, hpayload⟩ : truthy secret = true ∧ truthy payloadB64u = true := by
      simpa using hempty
    simp only [hsecret, hpayload, true_imp_iff]
    cases payloadB64u with
    | str s =>
      simp only [Json.str.injEq, exists_eq_left']
      cases unb64u s with
      | none => simpa using sendable_fixed (by simp)
      | some payload =>
        cases hresolved : h.resolver secret with
        | error e => simp
        | ok cap => cases cap <;> simp [Sendable]
    | _ => simp

theorem dispatch_sends_iff :
    (∃ response, h.dispatch body = .ok response ∧ Sendable response) ↔ h.Answerable body := by
  unfold Helper.dispatch Helper.Answerable
  cases decodeStrict body with
  | none => simpa using sendable_fixed (by simp)
  | some text =>
    dsimp only
    cases loadsWithin h.depth text with
    | error e =>
      cases e with
      | decode => simpa using sendable_fixed (by simp)
      | _ => simp
    | ok x =>
      cases x with
      | obj fields =>
        dsimp only
        by_cases hkind : kindOf fields = .str "sign"
        · rw [if_pos hkind, if_pos hkind, dispatchSign_sends_iff]
        · rw [if_neg hkind, if_neg hkind]
          simp
      | _ => simpa using sendable_fixed (by simp)

theorem answer_eq_ok {sent : Bytes} : h.answer body = .ok sent ↔
    ∃ response, h.dispatch body = .ok response ∧ Sendable response ∧ sent = frame response := by
  unfold Helper.answer writeFrame
  cases h.dispatch body with
  | error e => simp
  | ok response =>
    dsimp only
    split_ifs with hlength
    · constructor
      · exact fun hsent => ⟨response, rfl, hlength, (Except.ok.inj hsent).symm⟩
      · rintro ⟨response', hresponse, -, rfl⟩
        rw [Except.ok.inj hresponse]
    · refine iff_of_false (by simp) ?_
      rintro ⟨response', hresponse, hfits, -⟩
      obtain rfl := Except.ok.inj hresponse
      exact hlength hfits

theorem answerable_iff : h.Answerable body ↔ ∃ sent, h.answer body = .ok sent := by
  rw [← dispatch_sends_iff]
  constructor
  · rintro ⟨response, hresponse, hsend⟩
    exact ⟨frame response, answer_eq_ok.mpr ⟨response, hresponse, hsend, rfl⟩⟩
  · rintro ⟨sent, hsent⟩
    obtain ⟨response, hresponse, hsend, -⟩ := answer_eq_ok.mp hsent
    exact ⟨response, hresponse, hsend⟩

/-! ## The server -/

/-- Every body got its own answer, in one frame, and the server read on to the end of the stream. -/
def Helper.Answered (h : Helper) (bodies : List Bytes) (served : List Bytes × ConnectionEnd) : Prop :=
  ∃ answers, List.Forall₂ (fun body answer => h.dispatch body = .ok answer) bodies answers ∧
    served = (answers.map frame, .refused (.closedMidFrame 4 0))

theorem handleConnection_answered_iff (bodies : List Bytes) (rounds : ℕ)
    (hsmall : ∀ body ∈ bodies, body.length < 2 ^ 32)
    (hchunks : chunks.flatten = (bodies.map frame).flatten) (hrounds : bodies.length < rounds) :
    h.Answered bodies (h.handleConnection rounds chunks) ↔
      ∀ body ∈ bodies, body.length ≤ frameCap ∧ h.Answerable body := by
  induction bodies generalizing chunks rounds with
  | nil =>
    obtain ⟨rounds, rfl⟩ := Nat.exists_eq_add_of_le' (show 1 ≤ rounds by omega)
    obtain ⟨left, hread⟩ := readFrame_over (show chunks.flatten = [] by simpa using hchunks)
    rw [Helper.handleConnection, hread]
    exact iff_of_true ⟨[], .nil, rfl⟩ (by simp)
  | cons body bodies ih =>
    obtain ⟨rounds, rfl⟩ := Nat.exists_eq_add_of_le' (show 1 ≤ rounds by omega)
    obtain ⟨hunder, hover⟩ := readFrame_frame (bodies.map frame).flatten
      (hsmall body List.mem_cons_self) (by simpa using hchunks)
    rw [List.forall_mem_cons, Helper.handleConnection]
    rcases le_or_gt body.length frameCap with hcap | hcap
    · obtain ⟨left, hread, hleft⟩ := hunder hcap
      rw [hread]
      dsimp only
      cases hanswer : h.answer body with
      | error e =>
        refine iff_of_false ?_ fun hall => ?_
        · rintro ⟨answers, -, hserved⟩
          cases (Prod.mk.inj hserved).2
        · obtain ⟨sent, hsent⟩ := answerable_iff.mp hall.1.2
          rw [hanswer] at hsent
          cases hsent
      | ok sent =>
        have hrest := ih rounds (fun b hb => hsmall b (List.mem_cons_of_mem _ hb)) hleft
          (by simpa using hrounds)
        obtain ⟨response, hresponse, -, rfl⟩ := answer_eq_ok.mp hanswer
        rw [← hrest]
        constructor
        · rintro ⟨answers, hanswers, hserved⟩
          obtain ⟨answer, answers, hdispatch, hall, rfl⟩ := List.forall₂_cons_left_iff.mp hanswers
          obtain ⟨hframes, hend⟩ := Prod.mk.inj hserved
          exact ⟨⟨hcap, answerable_iff.mpr ⟨_, hanswer⟩⟩, answers, hall,
            Prod.ext (List.cons.inj hframes).2 hend⟩
        · rintro ⟨-, answers, hall, hserved⟩
          exact ⟨response :: answers, .cons hresponse hall, by rw [hserved]; rfl⟩
    · obtain ⟨left, hread⟩ := hover hcap
      rw [hread]
      refine iff_of_false ?_ fun hall => absurd hall.1.1 (not_le.mpr hcap)
      rintro ⟨answers, -, hserved⟩
      cases (Prod.mk.inj hserved).2

/-! ## The client -/

/-- What a call is to end with: the signature of the named capability over the payload, its denial,
or an error. -/
def Helper.expected (h : Helper) (call : SignCall) : SignResult :=
  if call.secret = "" ∨ call.payload = [] then .error
  else
    match h.resolver (.str call.secret) with
    | .ok (some cap) =>
      match cap.sign call.payload with
      | .signature raw => .signature raw
      | .denied detail => .denied (.str detail)
      | .failed _ => .error
    | _ => .error

/-- The request and its answer keep to the cap, and the resolver takes the name. -/
structure Helper.Fits (h : Helper) (call : SignCall) : Prop where
  request : (requestOf call.secret call.payload).length ≤ frameCap
  answer : call.secret ≠ "" → call.payload ≠ [] →
    h.RepliesWithin (frameCap + 1) (.str call.secret) call.payload

theorem readReply_errorMessage {depth : ℕ} (hdepth : 0 < depth) (code detail : String) :
    readReply depth (errorMessage code detail) =
      if code = "denied" then .denied (.str detail) else .error := by
  rw [readReply, errorMessage, decodeStrict_encodeUtf8]
  dsimp only
  rw [loadsWithin_dumpsFlat hdepth (by simp [IsFlat]) (by simp)]
  simp [field?, List.lookup_cons, truthy]

theorem readReply_signature {depth : ℕ} (hdepth : 0 < depth) (cap : SigningCapability) (raw : Bytes) :
    readReply depth (signedMessage cap (.signature raw)) = .signature raw := by
  rw [readReply, signedMessage, decodeStrict_encodeUtf8]
  dsimp only
  rw [loadsWithin_dumpsFlat hdepth (by simp [IsFlat]) (by simp)]
  simp [field?, List.lookup_cons, truthy, unb64u_b64u]

/-- The server sees the request the client wrote. -/
theorem dispatch_requestOf (secret : String) (payload : Bytes) :
    h.dispatch (requestOf secret payload) =
      h.dispatchSign (.str secret) (.str (b64u payload)) := by
  rw [Helper.dispatch, requestOf, decodeStrict_encodeUtf8]
  dsimp only
  rw [loadsWithin_dumpsFlat h.depth_pos (by simp [IsFlat]) (by simp)]
  simp [kindOf, secretOf, payloadOf, field?, List.lookup_cons]

theorem truthy_b64u (payload : Bytes) : truthy (.str (b64u payload)) = false ↔ payload = [] := by
  rcases payload with _ | ⟨a, _ | ⟨b, _ | ⟨c, rest⟩⟩⟩ <;> simp [b64u, b64uChars, truthy]

/-- The answer to a call's request keeps to the cap and is read as what the call is to end with. -/
theorem Helper.Fits.exists_response {call : SignCall} (hfits : h.Fits call) :
    ∃ response, h.dispatch (requestOf call.secret call.payload) = .ok response ∧
      response.length ≤ frameCap ∧ readReply h.depth response = h.expected call := by
  rw [dispatch_requestOf, Helper.dispatchSign, Helper.expected]
  have hsecret : truthy (.str call.secret) = false ↔ call.secret = "" := by simp [truthy]
  simp only [hsecret, truthy_b64u]
  by_cases hempty : call.secret = "" ∨ call.payload = []
  · rw [if_pos hempty, if_pos hempty]
    exact ⟨_, rfl, (length_errorMessage_fixed _ (by simp)).le,
      (readReply_errorMessage h.depth_pos _ _).trans (if_neg (by decide))⟩
  · rw [if_neg hempty, if_neg hempty, unb64u_b64u]
    obtain ⟨hsecret', hpayload⟩ := not_or.mp hempty
    obtain ⟨cap, hcap, hlength⟩ := hfits.answer hsecret' hpayload
    dsimp only
    rw [hcap]
    cases cap with
    | none =>
      exact ⟨_, rfl, Nat.lt_succ_iff.mp hlength,
        (readReply_errorMessage h.depth_pos _ _).trans (if_neg (by decide))⟩
    | some cap =>
      refine ⟨_, rfl, Nat.lt_succ_iff.mp hlength, ?_⟩
      dsimp only
      cases cap.sign call.payload with
      | signature raw => exact readReply_signature h.depth_pos cap raw
      | denied detail => exact (readReply_errorMessage h.depth_pos _ _).trans (if_pos rfl)
      | failed detail => exact (readReply_errorMessage h.depth_pos _ _).trans (if_neg (by decide))

/-- A call that fits ends as it is to, and leaves the connection as it was. -/
theorem sign_eq {conn : Connection} {call : SignCall} (hserving : conn.serving = true)
    (hinbound : conn.inbound.flatten = []) (hfits : h.Fits call) :
    (h.sign conn call).1 = h.expected call ∧ (h.sign conn call).2.serving = true ∧
      (h.sign conn call).2.inbound.flatten = [] := by
  obtain ⟨response, hresponse, hanswer, hreply⟩ := hfits.exists_response
  have hrequest := hfits.request
  have hcap : frameCap < 2 ^ 32 := by decide
  have hsent : h.answer (requestOf call.secret call.payload) = .ok (frame response) :=
    answer_eq_ok.mpr ⟨response, hresponse, hanswer.trans_lt hcap, rfl⟩
  obtain ⟨left, hread, -⟩ := (readFrame_frame [] (hrequest.trans_lt hcap)
    (by simpa using call.requestCut.2 (frame (requestOf call.secret call.payload)))).1 hrequest
  have hround : h.round conn call (frame (requestOf call.secret call.payload)) =
      ([frame response], .running) := by
    rw [Helper.round, if_pos hserving, Helper.handleConnection, hread]
    dsimp only
    rw [hsent]
    rfl
  have harrived : (conn.inbound ++ [frame response].flatMap call.answerCut.1).flatten =
      frame response ++ [] := by
    simpa [hinbound] using call.answerCut.2 (frame response)
  obtain ⟨left', hread', hleft'⟩ := (readFrame_frame [] (hanswer.trans_lt hcap) harrived).1 hanswer
  have hsign : h.sign conn call = (readReply h.depth response, ⟨true, left'⟩) := by
    rw [Helper.sign, writeFrame, if_pos (hrequest.trans_lt hcap)]
    dsimp only
    rw [hround]
    dsimp only
    rw [hread', hserving]
    rfl
  rw [hsign]
  exact ⟨hreply, rfl, hleft'⟩

theorem signAll_eq {conn : Connection} {calls : List SignCall} (hserving : conn.serving = true)
    (hinbound : conn.inbound.flatten = []) (hfits : ∀ call ∈ calls, h.Fits call) :
    h.signAll conn calls = calls.map h.expected := by
  induction calls generalizing conn with
  | nil => rfl
  | cons call calls ih =>
    obtain ⟨hresult, hserving', hinbound'⟩ :=
      sign_eq hserving hinbound (hfits call List.mem_cons_self)
    rw [Helper.signAll, List.map_cons, hresult]
    exact congrArg _ (ih hserving' hinbound' fun c hc => hfits c (List.mem_cons_of_mem _ hc))

/-- A result is what the named capability made of exactly the payload, or `SignHelperDenied`, or
`SignHelperError`. -/
def Helper.Faithful (h : Helper) (call : SignCall) : SignResult → Prop
  | .signature raw => ∃ cap, h.resolver (.str call.secret) = .ok (some cap) ∧
      cap.sign call.payload = .signature raw
  | .denied detail => ∃ cap text, h.resolver (.str call.secret) = .ok (some cap) ∧
      cap.sign call.payload = .denied text ∧ detail = .str text
  | .error => True
  | .escaped => False

theorem faithful_expected (call : SignCall) : h.Faithful call (h.expected call) := by
  unfold Helper.expected
  split_ifs
  · trivial
  · cases hresolved : h.resolver (.str call.secret) with
    | error e => trivial
    | ok cap =>
      cases cap with
      | none => trivial
      | some cap =>
        dsimp only
        cases hsigned : cap.sign call.payload with
        | signature raw => exact ⟨cap, hresolved, hsigned⟩
        | denied detail => exact ⟨cap, detail, hresolved, hsigned, rfl⟩
        | failed detail => trivial

/-- A body that fits a frame's header. -/
def FrameBody := { body : Bytes // body.length < 2 ^ 32 }

/-- However its stream is cut, the server gives every frame its one answer and reads on exactly if
each body is under the cap and can be answered; and on a connection whose calls all fit, the n-th
call ends with what is its own. -/
theorem signHelper_pairs_iff (h : Helper) :
    (∀ (bodies : List FrameBody) (cut : Cut),
      h.Answered (bodies.map (·.1)) (h.handleConnection (bodies.length + 1)
          (cut.1 ((bodies.map fun body => frame body.1).flatten))) ↔
        ∀ body ∈ bodies, body.1.length ≤ frameCap ∧ h.Answerable body.1) ∧
    ∀ calls : List SignCall, (∀ call ∈ calls, h.Fits call) →
      h.signAll ⟨true, []⟩ calls = calls.map h.expected ∧
        ∀ call ∈ calls, h.Faithful call (h.expected call) := by
  refine ⟨fun bodies cut => ?_, fun calls hfits => ⟨signAll_eq rfl rfl hfits, fun call _ =>
    faithful_expected call⟩⟩
  have hchunks : (cut.1 ((bodies.map fun body => frame body.1).flatten)).flatten =
      ((bodies.map (·.1)).map frame).flatten := by
    rw [cut.2, List.map_map]
    rfl
  rw [handleConnection_answered_iff (bodies.map (·.1)) (bodies.length + 1)
    (by simpa using fun body _ => body.2) hchunks (by simp)]
  simp

/-- A helper without secrets. -/
def emptyHelper : Helper where
  printable _ := true
  depth := 1000
  depth_pos := by decide
  resolver _ := .ok none

/-- `{"kind": "sign", "secret": "K", "payload_b64u": 5}` -/
def numberPayload : Bytes :=
  encodeUtf8 "\x7b\"kind\": \"sign\", \"secret\": \"K\", \"payload_b64u\": 5\x7d".toList

/-- A payload that is a number is not answered, and the connection is closed. -/
theorem numberPayload_unanswered :
    ¬emptyHelper.Answered [numberPayload] (emptyHelper.handleConnection 2 [frame numberPayload]) := by
  rintro ⟨answers, hanswers, -⟩
  obtain ⟨answer, -, hdispatch, -, -⟩ := List.forall₂_cons_left_iff.mp hanswers
  have hraised : emptyHelper.dispatch numberPayload = .error .typeError := by decide +kernel
  rw [hraised] at hdispatch
  cases hdispatch

end SignHelper
end Recto
