import Recto.Grants.Handlers
import Recto.Grants.Revoking

/-!
# A spent grant acts at most once

Requests that present grants are served side by side. The act route and the
pairing route look a jti up and spend it in two calls, the read in one. A
schedule on which every spend finds its jti not yet spent carries out at most
one act of each jti; where a second request stands between the two calls, both
act.
-/

namespace Recto
namespace Grants

open Capability Connections State

/-! ## Requests and their acts -/

inductive SpendRequest where
  | act (body : Json)
  | pair (body : Json)
  | read (body : Json)

namespace SpendRequest

def handler (cfg : Config) : SpendRequest → Handler
  | act body => handleConnectionsAct cfg body
  | pair body => handleDevicesPair cfg body
  | read body => handleSecretRead cfg body

/-- The token the handler reads from the body. -/
def token : SpendRequest → Option String
  | act body => nonBlank (at? body "jws")
  | pair body => nonBlank (at? body "user_jws")
  | read body => nonEmpty (at? body "capability_jws")

/-- The claims of the grant a request presents. -/
def grant (r : SpendRequest) : Option CapabilityClaims := r.token.bind tokenClaims

/-- The grant is for one use. -/
def singleUse (r : SpendRequest) : Bool := r.grant.any fun claims => isOne claims.maxUses

end SpendRequest

/-- The request presents a grant with the jti. -/
def Presents (jti : String) (r : SpendRequest) : Prop := r.grant.map jtiText = some jti

instance (jti : String) (r : SpendRequest) : Decidable (Presents jti r) :=
  inferInstanceAs (Decidable (_ = _))

/-- A step that carries an act out: a connection mutated, a pairing forwarded, a single-use value
returned. -/
def isAct (r : SpendRequest) : (q : Query) → Answer q → Bool
  | .carryOut _ _, .ok _ => true
  | .forward _, _ => true
  | .send (.value _ _ _ _), _ => r.singleUse
  | _, _ => false

section
variable {ι : Type}

/-- The acts carried out by requests that present the jti. -/
def actsOf (requests : ι → SpendRequest) (jti : String)
    (trace : List (Event ι Query Answer Moment)) : List (Event ι Query Answer Moment) :=
  trace.filter fun e => Presents jti (requests e.thread) ∧ isAct (requests e.thread) e.query e.answer

end

/-! ## The stages of a request -/

inductive Stage where
  | fresh
  | spent
  | acted
  deriving DecidableEq

/-- The entry that spends the grant. -/
def Spends (grant : Option CapabilityClaims) (entry : RevocationEntry) : Prop :=
  ∃ claims, grant = some claims ∧ entry.jti = jtiText claims ∧ entry.originalExp = claims.exp

/-- A request spends its grant once and acts once, after it. -/
def spendMonitor (r : SpendRequest) : Monitor Query Answer Stage where
  allows stage q :=
    match q with
    | .addRevocation entry => stage = .fresh ∧ Spends r.grant entry
    | .consumeSingleUse entry => stage = .fresh ∧ Spends r.grant entry
    | .carryOut _ _ => stage = .spent
    | .forward _ => stage = .spent
    | .send (.value _ _ _ _) => stage = .spent ∨ r.singleUse = false
    | .putGrant _ => False
    | _ => True
  answers _ _ := True
  next stage q a :=
    match q, a with
    | .addRevocation _, some () => .spent
    | .consumeSingleUse _, some true => .spent
    | .carryOut _ _, _ => .acted
    | .forward _, _ => .acted
    | .send (.value _ _ _ _), _ => if stage = .spent then .acted else stage
    | _, _ => stage

section
variable {r : SpendRequest} {stage : Stage} {cfg : Config}

@[simp] theorem obeys_refuse (status : ℕ) (error : String) :
    (spendMonitor r).Obeys (fun _ _ => True) stage (refuse status error) :=
  ⟨trivial, fun _ _ => trivial⟩

@[simp] theorem obeys_badRequest : (spendMonitor r).Obeys (fun _ _ => True) stage badRequest :=
  obeys_refuse _ _

@[simp] theorem obeys_internalError :
    (spendMonitor r).Obeys (fun _ _ => True) stage internalError := obeys_refuse _ _

theorem obeys_carryOutAct (record : ActRecord) (value : Option String) (jti : String) :
    (spendMonitor r).Obeys (fun _ _ => True) .spent (carryOutAct record value jti) := by
  unfold carryOutAct
  refine Monitor.obeys_ite (fun _ => ⟨rfl, ?_⟩) fun _ => ⟨trivial, ?_⟩
  swap
  · rintro (_ | _) -
    · exact obeys_refuse _ _
    refine ⟨rfl, ?_⟩
    rintro ((refusal | e) | answer) -
    · exact obeys_refuse _ _
    · exact obeys_internalError
    · exact ⟨trivial, fun _ _ => trivial⟩
  · rintro ((refusal | e) | answer) -
    · exact obeys_refuse _ _
    · exact obeys_internalError
    · exact ⟨trivial, fun _ _ => trivial⟩

theorem obeys_actOnGrant {claims : CapabilityClaims} (h : r.grant = some claims)
    (record : ActRecord) (value : Json) :
    (spendMonitor r).Obeys (fun _ _ => True) .fresh (actOnGrant cfg claims record value) := by
  unfold actOnGrant
  refine Monitor.obeys_ite (fun _ => obeys_refuse _ _) fun _ => ⟨trivial, fun (revoked : Bool) _ => ?_⟩
  refine Monitor.obeys_ite (fun _ => obeys_refuse _ _) fun _ => ⟨trivial, fun (now : ℤ) _ => ?_⟩
  refine ⟨⟨rfl, claims, h, rfl, rfl⟩, ?_⟩
  rintro (_ | _) -
  · exact obeys_internalError
  · dsimp only
    rcases verifyActGrant cfg.env claims record cfg.bootloaderId true with (_ | _) | _
    · exact obeys_refuse _ _
    · exact obeys_internalError
    · dsimp only
      cases checkActValue cfg.env record value with
      | error refusal => exact obeys_refuse _ _
      | ok checked => exact obeys_carryOutAct _ _ _

theorem obeys_connectionsAct (body : Json) :
    (spendMonitor (.act body)).Obeys (fun _ _ => True) .fresh (handleConnectionsAct cfg body) := by
  unfold handleConnectionsAct
  refine Monitor.obeys_ite (fun _ => obeys_refuse _ _) fun _ => ?_
  cases cfg.operatorPubkey with
  | none => exact obeys_refuse _ _
  | some operatorKey =>
    dsimp only
    cases hjws : nonBlank (at? body "jws") with
    | none => exact obeys_badRequest
    | some jws =>
      refine Monitor.obeys_ite (fun _ => obeys_refuse _ _) fun _ => ?_
      rcases ActRecord.fromDict (at? body "record") with (refusal | e) | record
      · exact obeys_refuse _ _
      · exact obeys_internalError
      · refine ⟨trivial, fun (now : ℤ) _ => ?_⟩
        dsimp only
        cases hverify : verifyJws cfg.env jws operatorKey (some cfg.bootloaderId) none now with
        | error e => cases e <;> exact obeys_refuse _ _
        | ok claims =>
          refine obeys_actOnGrant ?_ record _
          simp [SpendRequest.grant, SpendRequest.token, hjws, tokenClaims_of_verifyJws hverify]

theorem obeys_forwardPairing (record : PairRecord) (fingerprint url jws : String)
    (attestation : Option CapabilityClaims) :
    (spendMonitor r).Obeys (fun _ _ => True) .spent
      (forwardPairing cfg record fingerprint url jws attestation) := by
  unfold forwardPairing
  dsimp only
  split
  · exact obeys_refuse _ _
  · refine ⟨rfl, fun (reply : ConsumerReply) _ => ?_⟩
    cases reply with
    | answered status body => exact ⟨trivial, fun _ _ => trivial⟩
    | unreachable => exact obeys_refuse _ _
    | failed => exact obeys_refuse _ _

theorem obeys_pairOnGrant {claims : CapabilityClaims} (h : r.grant = some claims)
    (record : PairRecord) (url jws : String) :
    (spendMonitor r).Obeys (fun _ _ => True) .fresh (pairOnGrant cfg claims record url jws) := by
  unfold pairOnGrant
  refine Monitor.obeys_ite (fun _ => obeys_refuse _ _) fun _ => ⟨trivial, fun (revoked : Bool) _ => ?_⟩
  refine Monitor.obeys_ite (fun _ => obeys_refuse _ _) fun _ => ⟨trivial, fun (now : ℤ) _ => ?_⟩
  dsimp only
  rcases verifyPairGrant cfg.env claims record record.phonePubkey cfg.bootloaderId now pairAction
    with (refusal | e) | fingerprint
  · exact obeys_refuse _ _
  · exact obeys_internalError
  · refine ⟨⟨rfl, claims, h, rfl, rfl⟩, ?_⟩
    rintro (_ | _) -
    · exact obeys_internalError
    · exact Monitor.obeys_ite (fun _ => ⟨trivial, fun _ _ => obeys_forwardPairing _ _ _ _ _⟩)
        fun _ => obeys_forwardPairing _ _ _ _ _

theorem obeys_devicesPair (body : Json) :
    (spendMonitor (.pair body)).Obeys (fun _ _ => True) .fresh (handleDevicesPair cfg body) := by
  unfold handleDevicesPair
  refine Monitor.obeys_ite (fun _ => obeys_refuse _ _) fun _ => ?_
  cases nonBlank (at? body "consumer_base_url") with
  | none => exact obeys_badRequest
  | some url =>
    cases hjws : nonBlank (at? body "user_jws") with
    | none => exact obeys_badRequest
    | some jws =>
      refine Monitor.obeys_ite (fun _ => obeys_refuse _ _) fun _ => ?_
      cases PairRecord.fromDict (at? body "record") with
      | error refusal => exact obeys_refuse _ _
      | ok record =>
        refine Monitor.obeys_ite (fun _ => obeys_refuse _ _) fun _ => ?_
        refine Monitor.obeys_ite (fun _ => obeys_refuse _ _) fun _ => ⟨trivial, fun (now : ℤ) _ => ?_⟩
        dsimp only
        cases hverify : verifyJws cfg.env jws ((fromHex record.phonePubkey).getD [])
            (some cfg.bootloaderId) none now with
        | error e => cases e <;> exact obeys_refuse _ _
        | ok claims =>
          refine obeys_pairOnGrant ?_ record url jws
          simp [SpendRequest.grant, SpendRequest.token, hjws, tokenClaims_of_verifyJws hverify]

theorem obeys_readOnGrant {claims : CapabilityClaims} (h : r.grant = some claims)
    (service secretName : String) :
    (spendMonitor r).Obeys (fun _ _ => True) .fresh
      (readOnGrant cfg claims service secretName) := by
  unfold readOnGrant
  refine ⟨trivial, fun (revoked : Bool) _ => ?_⟩
  refine Monitor.obeys_ite (fun _ => obeys_refuse _ _) fun _ => ?_
  cases cfg.manifest with
  | none => exact obeys_internalError
  | some manifest =>
    refine Monitor.obeys_ite (fun _ => obeys_refuse _ _) fun _ => ?_
    refine Monitor.obeys_ite (fun _ => obeys_refuse _ _) fun _ => ?_
    cases cfg.vaultSecrets.get? (service, secretName) with
    | none => exact obeys_refuse _ _
    | some value =>
      refine Monitor.obeys_ite (fun _ => ⟨trivial, fun (now : ℤ) _ => ?_⟩) fun hone => ?_
      · refine ⟨⟨rfl, claims, h, rfl, rfl⟩, ?_⟩
        rintro (_ | (_ | _)) -
        · exact obeys_internalError
        · exact obeys_refuse _ _
        · exact ⟨.inl rfl, fun _ _ => trivial⟩
      · exact ⟨.inr (by simp [SpendRequest.singleUse, h, hone]), fun _ _ => trivial⟩

theorem obeys_secretRead (body : Json) :
    (spendMonitor (.read body)).Obeys (fun _ _ => True) .fresh (handleSecretRead cfg body) := by
  unfold handleSecretRead
  refine Monitor.obeys_ite (fun _ => obeys_refuse _ _) fun _ => ?_
  cases cfg.operatorPubkey with
  | none => exact obeys_refuse _ _
  | some operatorKey =>
    refine Monitor.obeys_ite (fun _ => obeys_refuse _ _) fun _ => ?_
    cases hjws : nonEmpty (at? body "capability_jws") with
    | none => exact obeys_badRequest
    | some jws =>
      cases nonEmpty (at? body "service") with
      | none => exact obeys_badRequest
      | some service =>
        cases nonEmpty (at? body "secret_name") with
        | none => exact obeys_badRequest
        | some secretName =>
          refine ⟨trivial, fun (now : ℤ) _ => ?_⟩
          dsimp only
          cases hverify : verifyJws cfg.env jws operatorKey (some "recto:vault") none now with
          | error e => cases e <;> exact obeys_refuse _ _
          | ok claims =>
            refine Monitor.obeys_ite (fun _ => obeys_refuse _ _) fun _ => ?_
            refine obeys_readOnGrant ?_ service secretName
            simp [SpendRequest.grant, SpendRequest.token, hjws, tokenClaims_of_verifyJws hverify]

theorem obeys_handler (r : SpendRequest) :
    (spendMonitor r).Obeys (fun _ _ => True) .fresh (r.handler cfg) := by
  cases r with
  | act body => exact obeys_connectionsAct body
  | pair body => exact obeys_devicesPair body
  | read body => exact obeys_secretRead body

end

/-! ## One step -/

section
variable {ι : Type}

/-- No grant with the jti that a request presents has expired by the time. -/
def Unexpired (requests : ι → SpendRequest) (jti : String) (time : ℤ) : Prop :=
  ∀ i, ∀ claims ∈ (requests i).grant, jtiText claims = jti → time < claims.exp

instance [Fintype ι] (requests : ι → SpendRequest) (jti : String) (time : ℤ) :
    Decidable (Unexpired requests jti time) :=
  inferInstanceAs (Decidable (∀ _, _))

/-- Where the next call is a spend of the jti, `is_revoked` would still answer no. -/
def FindsUnspent (backend : RevocationBackend) (jti : String) (c : Server ι)
    (turn : ι × Moment) : Prop :=
  match c.threads turn.1 with
  | .call (.addRevocation entry) _ =>
      entry.jti = jti → (isRevoked backend turn.2.now jti c.shared.revocations).1 = false
  | _ => True

instance (backend : RevocationBackend) (jti : String) (c : Server ι) (turn : ι × Moment) :
    Decidable (FindsUnspent backend jti c turn) := by
  unfold FindsUnspent
  split <;> infer_instance

/-- What holds of the requests that present the jti: one of them at most has spent it, the list
remembers that until after the horizon, and that one alone has acted. -/
structure SpentOnce (requests : ι → SpendRequest) (jti : String) (horizon : ℤ) (c : Server ι)
    (stages : ι → Stage) : Prop where
  acts : (actsOf requests jti c.trace).length ≤ 1
  actedBy : actsOf requests jti c.trace ≠ [] →
    ∃ i, Presents jti (requests i) ∧ stages i = .acted
  sole : ∀ i j, Presents jti (requests i) → Presents jti (requests j) → stages i ≠ .fresh →
    stages j ≠ .fresh → i = j
  held : ∀ i, Presents jti (requests i) → stages i ≠ .fresh →
    HeldPast c.shared.revocations jti horizon

variable {requests : ι → SpendRequest} {jti : String} {horizon : ℤ} {c : Server ι}
  {stages : ι → Stage} {i : ι}

theorem actsOf_concat (trace : List (Event ι Query Answer Moment))
    (e : Event ι Query Answer Moment) :
    actsOf requests jti (trace ++ [e]) = actsOf requests jti trace ++
      if Presents jti (requests e.thread) ∧ isAct (requests e.thread) e.query e.answer then [e]
      else [] := by
  unfold actsOf
  rw [List.filter_append, List.filter_singleton]
  simp

theorem Spends.jti_eq {r : SpendRequest} {entry : RevocationEntry} (h : Spends r.grant entry) :
    Presents jti r ↔ entry.jti = jti := by
  obtain ⟨claims, hgrant, hjti, -⟩ := h
  simp [Presents, hgrant, hjti]

theorem Spends.lt_exp {entry : RevocationEntry} (h : Spends (requests i).grant entry)
    (hunexpired : Unexpired requests jti horizon) (hjti : entry.jti = jti) :
    horizon < entry.originalExp := by
  obtain ⟨claims, hgrant, hclaims, hexp⟩ := h
  rw [hexp]
  exact hunexpired i claims hgrant (hclaims ▸ hjti)

/-- While the jti is not held nobody who presents it has spent it. -/
theorem SpentOnce.all_fresh (h : SpentOnce requests jti horizon c stages)
    (hfree : ¬ HeldPast c.shared.revocations jti horizon) (hi : Presents jti (requests i)) :
    stages i = .fresh := by
  by_contra hne
  exact hfree (h.held i hi hne)

theorem exists_latest (turns : List (ι × Moment)) (hne : turns ≠ []) :
    ∃ last ∈ turns, ∀ turn ∈ turns, turn.2.now ≤ last.2.now := by
  induction turns with
  | nil => exact absurd rfl hne
  | cons turn turns ih =>
    by_cases hnil : turns = []
    · exact ⟨turn, by simp [hnil], by simp [hnil]⟩
    · obtain ⟨last, hlast, hle⟩ := ih hnil
      rcases le_total last.2.now turn.2.now with hlt | hlt
      · exact ⟨turn, by simp, by simpa using fun i m hm => (hle (i, m) hm).trans hlt⟩
      · refine ⟨last, by simp [hlast], ?_⟩
        rintro other (_ | ⟨_, hother⟩)
        · exact hlt
        · exact hle other hother

variable [DecidableEq ι] {c' : Server ι} {e : Event ι Query Answer Moment} {stage : Stage}

/-- A step of a request that presents another jti. -/
theorem SpentOnce.other (h : SpentOnce requests jti horizon c stages)
    (hi : ¬ Presents jti (requests i)) (htrace : c'.trace = c.trace ++ [e]) (he : e.thread = i)
    (hheld : HeldPast c.shared.revocations jti horizon →
      HeldPast c'.shared.revocations jti horizon) :
    SpentOnce requests jti horizon c' (Function.update stages i stage) := by
  have hacts : actsOf requests jti c'.trace = actsOf requests jti c.trace := by
    rw [htrace, actsOf_concat, he, if_neg fun hp => hi hp.1, List.append_nil]
  have hstage : ∀ j, Presents jti (requests j) → Function.update stages i stage j = stages j :=
    fun j hj => Function.update_of_ne (fun hij : j = i => hi (hij ▸ hj)) _ _
  constructor
  · rw [hacts]
    exact h.acts
  · rw [hacts]
    intro hne
    obtain ⟨j, hj, hacted⟩ := h.actedBy hne
    exact ⟨j, hj, by rw [hstage j hj, hacted]⟩
  · intro j k hj hk hsj hsk
    rw [hstage j hj] at hsj
    rw [hstage k hk] at hsk
    exact h.sole j k hj hk hsj hsk
  · intro j hj hsj
    rw [hstage j hj] at hsj
    exact hheld (h.held j hj hsj)

/-- A step that is no act and leaves the stage. -/
theorem SpentOnce.quiet (h : SpentOnce requests jti horizon c stages)
    (htrace : c'.trace = c.trace ++ [e]) (he : e.thread = i)
    (hact : isAct (requests i) e.query e.answer = false) (hstage : stage = stages i)
    (hheld : HeldPast c.shared.revocations jti horizon →
      HeldPast c'.shared.revocations jti horizon) :
    SpentOnce requests jti horizon c' (Function.update stages i stage) := by
  subst he
  have hacts : actsOf requests jti c'.trace = actsOf requests jti c.trace := by
    rw [htrace, actsOf_concat, if_neg (by simp [hact]), List.append_nil]
  rw [hstage, Function.update_eq_self]
  exact ⟨hacts ▸ h.acts, hacts ▸ h.actedBy, h.sole, fun j hj hsj => hheld (h.held j hj hsj)⟩

/-- The spend, where the jti was not held. -/
theorem SpentOnce.spend (h : SpentOnce requests jti horizon c stages)
    (hfree : ¬ HeldPast c.shared.revocations jti horizon) (htrace : c'.trace = c.trace ++ [e])
    (he : e.thread = i) (hact : isAct (requests i) e.query e.answer = false)
    (hheld : HeldPast c'.shared.revocations jti horizon) :
    SpentOnce requests jti horizon c' (Function.update stages i .spent) := by
  have hnil : actsOf requests jti c'.trace = [] := by
    rw [htrace, actsOf_concat, he, if_neg (by simp [hact]), List.append_nil]
    by_contra hne
    obtain ⟨j, hj, hacted⟩ := h.actedBy hne
    rw [h.all_fresh hfree hj] at hacted
    cases hacted
  have hone : ∀ j, Presents jti (requests j) → Function.update stages i .spent j ≠ .fresh → j = i := by
    intro j hj hne
    by_contra hji
    rw [Function.update_of_ne hji] at hne
    exact hne (h.all_fresh hfree hj)
  refine ⟨by simp [hnil], fun hne => absurd hnil hne, ?_, fun _ _ _ => hheld⟩
  intro j k hj hk hsj hsk
  rw [hone j hj hsj, hone k hk hsk]

/-- The act of the one request that has spent the jti. -/
theorem SpentOnce.act (h : SpentOnce requests jti horizon c stages)
    (hi : Presents jti (requests i)) (hspent : stages i = .spent)
    (htrace : c'.trace = c.trace ++ [e])
    (hheld : HeldPast c.shared.revocations jti horizon →
      HeldPast c'.shared.revocations jti horizon) :
    SpentOnce requests jti horizon c' (Function.update stages i .acted) := by
  have hnone : actsOf requests jti c.trace = [] := by
    by_contra hne
    obtain ⟨j, hj, hacted⟩ := h.actedBy hne
    have hji := h.sole j i hj hi (by simp [hacted]) (by simp [hspent])
    rw [hji, hspent] at hacted
    cases hacted
  have hstage : ∀ j, Function.update stages i .acted j ≠ .fresh → stages j ≠ .fresh := by
    intro j hne
    by_cases hji : j = i
    · simp [hji, hspent]
    · rwa [Function.update_of_ne hji] at hne
  constructor
  · rw [htrace, actsOf_concat, hnone]
    split_ifs <;> simp
  · exact fun _ => ⟨i, hi, Function.update_self _ _ _⟩
  · exact fun j k hj hk hsj hsk => h.sole j k hj hk (hstage j hsj) (hstage k hsk)
  · exact fun j hj hsj => hheld (h.held j hj (hstage j hsj))

variable {backend : RevocationBackend} {m : Moment} {q : Query} {next : Answer q → Handler}

/-- What a call that the monitor allows leaves, made where no spend finds its jti spent. -/
theorem SpentOnce.step (law : Lawful backend) (h : SpentOnce requests jti horizon c stages)
    (hunexpired : Unexpired requests jti horizon) (hcall : c.threads i = .call q next)
    (hallow : (spendMonitor (requests i)).allows (stages i) q)
    (hfinds : FindsUnspent backend jti c (i, m)) (hnow : m.now ≤ horizon) :
    SpentOnce requests jti horizon (Serving.step (exec backend) c (i, m))
      (Function.update stages i
        ((spendMonitor (requests i)).next (stages i) q (exec backend q m c.shared).1)) := by
  have htrace : (Serving.step (exec backend) c (i, m)).trace =
      c.trace ++ [⟨i, m, q, (exec backend q m c.shared).1⟩] := by
    rw [Serving.step_call hcall]
  have hshared : (Serving.step (exec backend) c (i, m)).shared = (exec backend q m c.shared).2 := by
    rw [Serving.step_call hcall]
  have hspends : ∀ entry, q = .addRevocation entry ∨ q = .consumeSingleUse entry →
      stages i = .fresh ∧ Spends (requests i).grant entry := by
    rintro entry (rfl | rfl) <;> exact hallow
  have hheld : HeldPast c.shared.revocations jti horizon →
      HeldPast (Serving.step (exec backend) c (i, m)).shared.revocations jti horizon := by
    intro hold
    rw [hshared]
    exact law.exec_keeps hold hnow fun entry hentry hjti =>
      (hspends entry hentry).2.lt_exp hunexpired hjti
  by_cases hi : Presents jti (requests i)
  swap
  · exact h.other hi htrace rfl hheld
  have hnotHeld : ∀ now, now ≤ horizon → ¬ HeldPast c.shared.revocations jti now →
      ¬ HeldPast c.shared.revocations jti horizon := by
    rintro now hle hfree ⟨entry, hget, hexp⟩
    exact hfree ⟨entry, hget, by omega⟩
  cases q with
  | addRevocation entry =>
    obtain ⟨hfresh, hentry⟩ := hspends entry (.inl rfl)
    have hjti : entry.jti = jti := hentry.jti_eq.mp hi
    cases hadd : (addRevocation backend m.now entry c.shared.revocations).1 with
    | none =>
      refine h.quiet htrace rfl rfl ?_ hheld
      simp only [exec, hadd]
      rfl
    | some u =>
      have hfree : ¬ HeldPast c.shared.revocations jti m.now := by
        simp only [FindsUnspent, hcall] at hfinds
        rw [← law.revoked_iff, hfinds hjti]
        simp
      have hstage : (spendMonitor (requests i)).next (stages i) (.addRevocation entry)
          (exec backend (.addRevocation entry) m c.shared).1 = .spent := by
        simp only [exec, hadd]
        rfl
      rw [hstage]
      refine h.spend (hnotHeld _ hnow hfree) htrace rfl rfl ?_
      rw [hshared]
      exact ⟨entry, hjti ▸ law.add_fresh (hjti ▸ hfree) hadd, hentry.lt_exp hunexpired hjti⟩
  | consumeSingleUse entry =>
    obtain ⟨hfresh, hentry⟩ := hspends entry (.inr rfl)
    have hjti : entry.jti = jti := hentry.jti_eq.mp hi
    by_cases hconsume : (consumeSingleUse backend m.now entry c.shared.revocations).1 = some true
    · obtain ⟨hfree, hget⟩ := law.consume_eq_true hconsume
      have hstage : (spendMonitor (requests i)).next (stages i) (.consumeSingleUse entry)
          (exec backend (.consumeSingleUse entry) m c.shared).1 = .spent := by
        simp only [exec, hconsume]
        rfl
      rw [hstage]
      refine h.spend (hnotHeld _ hnow (hjti ▸ hfree)) htrace rfl rfl ?_
      rw [hshared]
      exact ⟨entry, hjti ▸ hget, hentry.lt_exp hunexpired hjti⟩
    · refine h.quiet htrace rfl rfl ?_ hheld
      simp only [exec]
      rcases hr : (consumeSingleUse backend m.now entry c.shared.revocations).1 with _ | (_ | _)
      · rfl
      · rfl
      · exact absurd hr hconsume
  | carryOut record value => exact h.act hi hallow htrace hheld
  | forward relay => exact h.act hi hallow htrace hheld
  | send reply =>
    cases reply with
    | value value service secretName jti' =>
      by_cases hspent : stages i = .spent
      · have hstage : (spendMonitor (requests i)).next (stages i)
            (.send (.value value service secretName jti'))
            (exec backend (.send (.value value service secretName jti')) m c.shared).1 = .acted :=
          if_pos hspent
        rw [hstage]
        exact h.act hi hspent htrace hheld
      · have hreusable : (requests i).singleUse = false := hallow.resolve_left hspent
        exact h.quiet htrace rfl hreusable (if_neg hspent) hheld
    | _ => exact h.quiet htrace rfl rfl rfl hheld
  | _ => exact h.quiet htrace rfl rfl rfl hheld

/-! ## Every schedule -/

/-- All requests before their first call. -/
def serve (cfg : Config) (requests : ι → SpendRequest) (shared : Shared) : Server ι :=
  .start shared fun i => (requests i).handler cfg

/-- Over all requests that present grants with one jti, on every schedule that ends before any of
them expires and on which every spend of the jti finds it unspent, at most one act is carried
out. -/
theorem acts_at_most_once (hbackend : IsBackend backend) (cfg : Config)
    (requests : ι → SpendRequest) (jti : String) (shared : Shared) (turns : List (ι × Moment))
    (hunexpired : ∀ turn ∈ turns, Unexpired requests jti turn.2.now)
    (hfinds : Serving.Along (exec backend) (FindsUnspent backend jti) (serve cfg requests shared)
      turns) :
    (actsOf requests jti
      (Serving.run (exec backend) (serve cfg requests shared) turns).trace).length ≤ 1 := by
  by_cases hne : turns = []
  · simp [hne, actsOf, serve, Serving.start]
  obtain ⟨last, hlast, hle⟩ := exists_latest turns hne
  have hstart : SpentOnce requests jti last.2.now (serve cfg requests shared) fun _ => .fresh :=
    ⟨by simp [actsOf, serve, Serving.start], by simp [actsOf, serve, Serving.start],
      by simp, by simp⟩
  obtain ⟨stages, h, -⟩ := Serving.run_monitored (m := fun i => spendMonitor (requests i))
    (P := fun c turn => FindsUnspent backend jti c turn ∧ turn.2.now ≤ last.2.now)
    (fun _ _ _ _ => trivial) hstart
    (fun i => obeys_handler (requests i))
    (fun c stages i m q next hcall hallow h hturn =>
      h.step hbackend.lawful (hunexpired last hlast) hcall hallow hturn.1 hturn.2)
    (hfinds.and (Serving.along_of_mem hle))
  exact h.acts

end

/-! ## A grant sent twice -/

def sampleHeader : String := "eyJhbGciOiJFUzI1NksiLCJ0eXAiOiJKV1QifQ"

def samplePayload : String :=
  "eyJhdWQiOlsiYm9vdC0xIl0sImNhcCI6eyJhbGxvd19hY3Rpb25zIjpbImNvbm5lY3Rpb25zOmRpc2FibGUiXSwicm" ++
  "VnaXN0cnlfdmVyc2lvbiI6IjEiLCJzY29wZSI6eyJwYXlsb2FkX3NoYTI1NiI6IjYwZDkzZDBmNGZhYTA5OGM2Mjk3" ++
  "YWQ2ODYxMzQ0YjNjZTE4ZTgzNmNjYTFjMTE4ZDM2MmZhNGNlMmVkMmRhZWUiLCJzZXJ2aWNlcyI6WyJTdmMiXX0sIn" ++
  "RpZXIiOjF9LCJleHAiOjE3NjAwMDAzMDAsImlhdCI6MTc2MDAwMDAwMCwiaXNzIjoicGhvbmU6b3duZXIiLCJqdGki" ++
  "OiJncmFudC0xIiwibWF4X3VzZXMiOjEsIm5iZiI6MTc2MDAwMDAwMCwicHVycG9zZSI6IlZhdWx0IERJU0FCTEU6IF" ++
  "N2Yy93ZWF0aGVyIG9uIGJvb3QtMSAtIHVudGlsIDIwMjUtMTAtMDkgMDg6NThaIiwic3ViIjoiYWdlbnQ6ZGVzayJ9"

def sampleSignature : String :=
  "E9IJE4c0rz6t8JxfybLDBGKlYvpgViq1B7bh0Ybz5FNd2tcu59uvk3uDD3Yy5_N3VQ0hFed7icgy2VElbuknHA"

/-- The operator's grant to disable one connection, signed on secp256k1. -/
def sampleToken : String := sampleHeader ++ "." ++ samplePayload ++ "." ++ sampleSignature

/-- The tuple the grant names. -/
def sampleRecord : Json :=
  .obj [("bootloader_id", .str "boot-1"), ("key", .str "weather"), ("not_after", .int 1760000300),
    ("service", .str "Svc"), ("verb", .str "disable")]

def ofHex (digits : String) : Bytes := (fromHex digits).getD []

/-- The key the signature recovers to with the second recovery id. -/
def sampleKey : Bytes :=
  ofHex ("f973a0b87062c389d125d8199e803b832b6ac6bf7867a4f6cd87506060fc4c58" ++
    "4b4a0a3f26c988c54c236b224c48bb605b265949e65c098ecd87a581ca10e25d")

/-- SHA-256 of the signing input. -/
def sampleDigest : Bytes :=
  ofHex "61659c98c55dfc25cc41aedef7c8b22bd94358fe741afe555bf653dc517114d6"

/-- SHA-256 and the recovery of keys, on the bytes that are asked here. -/
def samplePrimitives : TokenPrimitives where
  sha256 raw :=
    if raw = canonicalJson sampleRecord then
      ofHex "60d93d0f4faa098c6297ad6861344b3ce18e836cca1c118d362fa4ce2ed2daee"
    else if raw = signingInput (chars sampleHeader) (chars samplePayload) then sampleDigest
    else []
  recoverPublicKey digest rsv :=
    if digest = sampleDigest ∧ some (rsv.take 64) = unb64u sampleSignature ∧ rsv.drop 64 = [28] then
      some sampleKey
    else none

def sampleConfig : Config where
  env := samplePrimitives
  verifySignature _ _ _ _ := false
  bootloaderId := "boot-1"
  connections := true
  operatorPubkey := some sampleKey
  consumerTokens := ∅
  relayUrls := ∅
  signsResults := false
  vaultSecrets := ∅
  manifest := none
  operatorToken := none
  userVault := false

def sampleRow : ConnectionMeta where
  service := "Svc"
  key := "weather"
  displayName := "weather"
  category := "uncategorized"
  enabled := true
  config := []
  healthUrl := none
  hasSecret := true
  createdAtUnix := 1750000000
  updatedAtUnix := 1750000000
  rotatedAtUnix := 1750000000

def sampleShared : Shared where
  revocations := ∅
  grants := []
  connections := { rows := (∅ : Dict _ _).set ("Svc", "weather") sampleRow, values := ∅ }

/-- Two requests with one body. -/
def sampleRequests (_ : Bool) : SpendRequest :=
  .act (.obj [("jws", .str sampleToken), ("record", sampleRecord)])

def sampleMoment : Moment where
  now := 1760000010
  phones := []
  vaultRefuses := false
  consumerReply := .failed
  token := ""

/-- The calls of the two requests: verify, look up, read the clock, spend, find the row, act. -/
def turnsOf (order : List Bool) : List (Bool × Moment) := order.map fun i => (i, sampleMoment)

theorem sampleUnexpired : Unexpired sampleRequests "grant-1" 1760000010 := by decide +kernel

/-- One request after the other: the second is told the grant is spent. -/
theorem acts_at_most_once_sample :
    (actsOf sampleRequests "grant-1" (Serving.run (exec StateStore.revocations)
      (serve sampleConfig sampleRequests sampleShared)
      (turnsOf [true, true, true, true, true, true, true, false, false, false])).trace).length ≤ 1 :=
  acts_at_most_once (.inl rfl) sampleConfig sampleRequests "grant-1" sampleShared _
    (by
      intro turn hturn
      obtain ⟨i, -, rfl⟩ := List.mem_map.mp hturn
      exact sampleUnexpired)
    (by decide +kernel)

/-- Both look the jti up before either spends it, and both act. -/
theorem racedGrant_acts_twice :
    (∀ turn ∈ turnsOf [true, true, false, false, true, true, true, true, false, false, false, false],
      Unexpired sampleRequests "grant-1" turn.2.now) ∧
    ¬ (actsOf sampleRequests "grant-1" (Serving.run (exec StateStore.revocations)
      (serve sampleConfig sampleRequests sampleShared)
      (turnsOf [true, true, false, false, true, true, true, true, false, false, false,
        false])).trace).length ≤ 1 := by
  refine ⟨?_, by decide +kernel⟩
  intro turn hturn
  obtain ⟨i, -, rfl⟩ := List.mem_map.mp hturn
  exact sampleUnexpired

end Grants
end Recto
