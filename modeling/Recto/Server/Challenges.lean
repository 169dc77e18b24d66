import Recto.Server.TopPlane

/-!
# Pairing codes and the challenges they buy

An owner code buys an owner challenge, a member code a member challenge, the code
of an armed reset a challenge bound to its intent, and no code at all a plain
challenge, which only serves a revoke.
-/

namespace Recto
namespace Server

open Genesis

variable (env : Host)

/-- Refused with `RegistrationExpiredError`. -/
def registrationExpired : Refusal := .bootloader .registrationExpired

/-- `issue_challenge` -/
def issueChallenge : Served String := do
  let challenge ← drawToken env
  Faulty.modify fun s => { s with challenges := s.challenges.set challenge (s.clock + 60) }
  pure challenge

/-- `issue_owner_challenge` -/
def issueOwnerChallenge : Served String := do
  let challenge ← drawToken env
  Faulty.modify fun s => { s with ownerChallenges := s.ownerChallenges.set challenge (s.clock + 60) }
  pure challenge

/-- `issue_member_challenge` -/
def issueMemberChallenge (binding : Option (String × String)) : Served String := do
  let challenge ← drawToken env
  Faulty.modify fun s =>
    { s with memberChallenges := s.memberChallenges.set challenge (s.clock + 60, binding) }
  pure challenge

/-- `issue_pairing_code` -/
def issuePairingCode (ttlSeconds : ℤ) : Served String := do
  let code ← uniqueCode env 64
  Faulty.modify fun s => { s with pairingCodes := s.pairingCodes.set code (s.clock + ttlSeconds) }
  pure code

/-- `issue_member_pairing_code` -/
def issueMemberPairingCode (ttlSeconds : ℤ) (binding : Option (String × String)) :
    Served String := do
  let code ← uniqueCode env 64
  Faulty.modify fun s =>
    { s with memberPairingCodes := s.memberPairingCodes.set code (s.clock + ttlSeconds, binding) }
  pure code

/-! ## The code of a reset -/

/-- An armed reset's code that can still be redeemed. -/
def ResetRecord.CodeLive (r : ResetRecord) (now : ℤ) : Prop :=
  r.state = .armed ∧ r.codeHash ≠ none ∧ now < r.codeExpiresAt

instance (r : ResetRecord) (now : ℤ) : Decidable (r.CodeLive now) :=
  inferInstanceAs (Decidable (_ ∧ _))

def isAscii (s : String) : Bool := (chars s).all fun c => c.toNat < 128

/-- `_armed_reset_for_code` -/
def Store.armedResetForCode (s : Store) (code : String) : Option ResetRecord :=
  if code = "" ∨ isAscii code = false then none
  else s.listResets.find? fun r => r.CodeLive s.clock ∧ r.codeHash = some (s.mac env "code" code)

/-- `_RESET_CODE_ATTEMPTS` -/
def resetCodeAttempts : ℕ := 5

/-- A wrong code counts, and past the limit the live code is burned. -/
def ResetRecord.wrongCode (r : ResetRecord) : ResetRecord :=
  if resetCodeAttempts ≤ r.codeAttempts + 1 then
    { r with codeAttempts := r.codeAttempts + 1, codeHash := none, codeExpiresAt := 0 }
  else { r with codeAttempts := r.codeAttempts + 1 }

/-- `_count_reset_code_failure` -/
def countResetCodeFailure : Served PUnit := do
  let s ← Faulty.get
  Faulty.forEach (fun r => putReset r.wrongCode)
    (s.listResets.filter fun r => r.CodeLive s.clock ∧ s.ResetOpen r)

/-- The challenge of a reset is bound to its intent. -/
def resetChallenge (intentId token : String) : String :=
  resetChallengePrefix ++ intentId ++ ":" ++ token

/-- The code is spent, and only the challenge's MAC is stored. -/
def ResetRecord.challenged (r : ResetRecord) (mac : String) (now : ℤ) : ResetRecord :=
  { r with
    codeHash := none
    challenge := none
    challengeMac := some mac
    challengeExpiresAt := now + 300 }

def redeemResetCode (r : ResetRecord) : Served String := do
  let token ← drawToken env
  let challenge := resetChallenge r.intent.intentId token
  let s ← Faulty.get
  match s.getReset r.id with
  | none => Faulty.raise registrationExpired
  | some current =>
      if current.state = .armed ∧ current.codeHash = r.codeHash ∧ s.ResetOpen current then
        putReset (current.challenged (s.mac env "challenge" challenge) s.clock)
        pure challenge
      else Faulty.raise registrationExpired

/-- Where a request came from, and what the wrong-code limiter says of it. -/
structure Client where
  /-- Through the public edge: only these are counted. -/
  isPublic : Bool
  blocked : Bool
  wasSpent : Bool
  exposed : Bool
  deriving DecidableEq, Repr

/-- `_handle_registration_challenge` with a code. -/
def redeemCode (code : String) (client : Client) : Served String := do
  Faulty.ofExcept (demand (client.blocked = false) 429 "too_many_wrong_codes")
  let s ← Faulty.get
  match s.armedResetForCode env code with
  | some r => redeemResetCode env r
  | none =>
      let owner ← consumePairingCode code
      let binding ← if owner then pure none else consumeMemberPairingCode code
      if owner = false ∧ binding = none then
        if client.wasSpent = false ∧ client.isPublic = true then countResetCodeFailure else pure ⟨⟩
        Faulty.raise registrationExpired
      else if client.isPublic = true ∧ client.exposed = true then Faulty.raise registrationExpired
      else if owner then issueOwnerChallenge env
      else issueMemberChallenge env binding

end Server
end Recto
