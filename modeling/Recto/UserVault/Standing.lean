import Recto.UserVault.Slots
import Recto.Grants.Spending

/-!
# Who ends a user-vault grant

Every verb of the bootloader is served beside the others. One revocation list
serves them all: the user vault's own three verbs, the three that spend a grant,
the operator's revocation and the end of an owner reset write it. As long as no
caller spends a jti that reads as a grant's id or is another issuer's, a grant
stands until its window ends unless its own phone signed its end.
-/

namespace Recto
namespace UserVault

open Capability Grants State

/-! ## Every verb -/

/-- The calls that change the list or the grants. -/
def Writes : Query → Prop
  | .addRevocation _ => True
  | .consumeSingleUse _ => True
  | .putGrant _ => True
  | _ => False

/-- The program leaves the list and the grants alone. -/
def ReadsOnly (p : Handler) : Prop :=
  (Monitor.only fun q => ¬ Writes q : Monitor Query Answer Unit).Obeys (fun _ _ => True) () p

/-- The entry by which the cancel card or the abort of an owner reset ends it. -/
def endReset (intentId : String) (notBefore : ℤ) (reason : String) : Handler :=
  .call .time fun (now : ℤ) =>
    .call (.addRevocation
      { jti := "ownerreset:" ++ intentId, revokedAt := now
        originalExp := notBefore + 365 * 86400, reason := some reason })
      fun (added : Option Unit) =>
        match added with
        | none => internalError
        | some () => .done ()

/-- A request to any verb: those that write the list, and all others as programs that do not. -/
inductive Request where
  | vault (r : VaultRequest)
  | spend (r : SpendRequest)
  | capabilityRevoke (token : String) (body : Json)
  | resetEnd (intentId : String) (notBefore : ℤ) (reason : String)
  | other (p : Handler) (h : ReadsOnly p)

namespace Request

def handler (cfg : Config) : Request → Handler
  | vault r => r.handler cfg
  | spend r => r.handler cfg
  | capabilityRevoke token body => handleCapabilityRevoke cfg token body
  | resetEnd intentId notBefore reason => endReset intentId notBefore reason
  | other p _ => p

def vault? : Request → Option VaultRequest
  | vault r => some r
  | _ => none

def spend? : Request → Option SpendRequest
  | spend r => some r
  | _ => none

/-- The record of the grant a request asks to admit. -/
def record? (r : Request) : Option GrantRecord := r.vault?.bind VaultRequest.grantRecord

/-- The request does not carry the operator's token. -/
def WithoutToken (cfg : Config) : Request → Prop
  | capabilityRevoke token _ => cfg.operatorToken ≠ some (strip token)
  | _ => True

end Request

/-- The key a spent grant is signed by: the operator's, or the one the pairing record names. -/
def issuer (cfg : Config) : SpendRequest → Option Bytes
  | .act _ => cfg.operatorPubkey
  | .read _ => cfg.operatorPubkey
  | .pair body => ((PairRecord.fromDict (at? body "record")).toOption).bind fun record =>
      fromHex record.phonePubkey

section
variable {ι : Type}

/-- The jti reads as a grant's id, or is one that another issuer's grant carries. -/
def Foreign (cfg : Config) (requests : ι → Request) (r : SpendRequest) (jti : String) : Prop :=
  startsWith jti "uvgrant:" = true ∨
    ∃ j, ∃ r' ∈ (requests j).spend?, Presents jti r' ∧ issuer cfg r' ≠ issuer cfg r

instance [Fintype ι] (cfg : Config) (requests : ι → Request) (r : SpendRequest) (jti : String) :
    Decidable (Foreign cfg requests r jti) := by
  unfold Foreign
  infer_instance

/-- The jti a call puts on the list. -/
def spentJti : Query → Option String
  | .addRevocation entry => some entry.jti
  | .consumeSingleUse entry => some entry.jti
  | _ => none

/-- The next call of a request. -/
def nextQuery (c : Server ι) (i : ι) : Option Query :=
  match c.threads i with
  | .call q _ => some q
  | .done _ => none

/-- Where the next call spends a caller's jti, it is not foreign to the caller. -/
def SpendsOwn (cfg : Config) (requests : ι → Request) (c : Server ι) (turn : ι × Moment) : Prop :=
  ∀ r ∈ (requests turn.1).spend?, ∀ jti ∈ (nextQuery c turn.1).bind spentJti,
    ¬ Foreign cfg requests r jti

instance [Fintype ι] (cfg : Config) (requests : ι → Request) (c : Server ι) (turn : ι × Moment) :
    Decidable (SpendsOwn cfg requests c turn) := by
  unfold SpendsOwn
  infer_instance

/-- The phones an event listed. -/
def heard : Event ι Query Answer Moment → Option (List BoundPhone)
  | ⟨_, _, .listPhones, (phones : List BoundPhone)⟩ => some phones
  | _ => none

/-- A request that ends the grant was signed by the phone its subject was bound to. -/
def SignedEnd (cfg : Config) (requests : ι → Request) (c : Server ι) (g : VaultGrant) : Prop :=
  ∃ i, ∃ r ∈ (requests i).vault?, Ends cfg r g ∧
    ∃ e ∈ c.trace, e.thread = i ∧ ∃ phones ∈ heard e, SignedBy cfg r phones

/-- The grant is live from now on until its window ends. -/
def Stands (backend : RevocationBackend) (c : Server ι) (g : VaultGrant) : Prop :=
  ∀ now, (∀ e ∈ c.trace, e.env.now ≤ now) → now < g.record.notAfter →
    ∃ g', g'.grantId = g.grantId ∧ g'.record = g.record ∧ Live backend c.shared now g'

/-- A turn of a caller who spends a grant leaves whether a foreign jti counts as revoked. -/
def LeavesForeign [DecidableEq ι] (cfg : Config) (backend : RevocationBackend)
    (requests : ι → Request) (c : Server ι) (turn : ι × Moment) : Prop :=
  ∀ r ∈ (requests turn.1).spend?, ∀ jti, Foreign cfg requests r jti → ∀ now, turn.2.now ≤ now →
    (isRevoked backend now jti (Serving.step (exec backend) c turn).shared.revocations).1 =
      (isRevoked backend now jti c.shared.revocations).1

/-! ## What a request may write -/

variable {cfg : Config} {requests : ι → Request}

/-- The monitor of a request. -/
def guard (cfg : Config) : Request → Monitor Query Answer Known
  | .vault r => watch cfg r
  | .spend r => .only fun q => (∀ entry, Adds q entry → Spends r.grant entry) ∧ ∀ g, q ≠ .putGrant g
  | .capabilityRevoke _ _ => .only fun q => ¬ Writes q
  | .resetEnd intentId _ _ => .only fun q =>
      (∀ entry, Adds q entry → entry.jti = "ownerreset:" ++ intentId) ∧ ∀ g, q ≠ .putGrant g
  | .other _ _ => .only fun q => ¬ Writes q

theorem guarded_spend (r : SpendRequest) :
    (guard cfg (.spend r)).Obeys (fun _ _ => True) .nothing (r.handler cfg) := by
  refine (obeys_handler r).to_only ?_ (fun _ _ => trivial) _
  intro stage q hallow
  refine ⟨?_, ?_⟩
  · rintro entry (rfl | rfl) <;> exact hallow.2
  · rintro g rfl
    exact hallow

theorem guarded_refuse (token : String) (body : Json) (status : ℕ) (error : String) :
    (guard cfg (.capabilityRevoke token body)).Obeys (fun _ _ => True) .nothing
      (refuse status error) :=
  ⟨id, fun _ _ => trivial⟩

theorem guarded_capabilityRevoke {token : String} (h : cfg.operatorToken ≠ some (strip token))
    (body : Json) : (guard cfg (.capabilityRevoke token body)).Obeys (fun _ _ => True) .nothing
      (handleCapabilityRevoke cfg token body) := by
  unfold handleCapabilityRevoke
  cases hoperator : cfg.operatorToken.filter (· ≠ "") with
  | none => exact guarded_refuse token body _ _
  | some operatorToken =>
    refine Monitor.obeys_ite (fun _ => guarded_refuse token body _ _) fun _ => ?_
    refine Monitor.obeys_ite (fun _ => guarded_refuse token body _ _) fun hsame => ?_
    exact absurd ((Option.filter_eq_some_iff.mp hoperator).1.trans
      (congrArg some (not_not.mp hsame).symm)) h

theorem guarded_resetEnd (intentId : String) (notBefore : ℤ) (reason : String) :
    (guard cfg (.resetEnd intentId notBefore reason)).Obeys (fun _ _ => True) .nothing
      (endReset intentId notBefore reason) := by
  have hquiet : ∀ q : Query, ¬ Writes q →
      (∀ entry, Adds q entry → entry.jti = "ownerreset:" ++ intentId) ∧ ∀ g, q ≠ .putGrant g := by
    intro q hq
    refine ⟨?_, ?_⟩
    · rintro entry (rfl | rfl) <;> exact absurd trivial hq
    · rintro g rfl
      exact hq trivial
  refine ⟨hquiet _ id, fun (now : ℤ) _ => ⟨⟨?_, nofun⟩, ?_⟩⟩
  · rintro entry (h | h)
    · rw [← Query.addRevocation.inj h]
    · cases h
  · rintro (_ | _) -
    · exact ⟨hquiet _ id, fun _ _ => trivial⟩
    · trivial

theorem guarded_handler (r : Request) (h : r.WithoutToken cfg) :
    (guard cfg r).Obeys (fun _ _ => True) .nothing (r.handler cfg) := by
  cases r with
  | vault r => exact watched_handler r
  | spend r => exact guarded_spend r
  | capabilityRevoke token body => exact guarded_capabilityRevoke h body
  | resetEnd intentId notBefore reason => exact guarded_resetEnd intentId notBefore reason
  | other p hp => exact hp.to_only (fun _ _ => id) (fun _ _ => trivial) _

/-! ## The invariant -/

/-- The records that the requests present. -/
def presentedRecords (requests : ι → Request) (i : ι) : Option GrantRecord := (requests i).record?

/-- Every stored grant was presented; what a request knows it was told; what ends a grant on the list
was signed; and a grant that was stored stands there still unless that or its window ended it. -/
structure Guarded (cfg : Config) (requests : ι → Request) (c : Server ι) (known : ι → Known) :
    Prop where
  presented : ∀ g ∈ c.shared.grants, Presented cfg (presentedRecords requests) g
  seen : ∀ i, ∀ g ∈ (known i).seen, Presented cfg (presentedRecords requests) g
  phones : ∀ i, (known i).phones = [] ∨ ∃ e ∈ c.trace, e.thread = i ∧ (known i).phones ∈ heard e
  entries : ∀ g, Presented cfg (presentedRecords requests) g → ∀ entry,
    c.shared.revocations.get? (grantJti g.grantId) = some entry → SignedEnd cfg requests c g
  stands : ∀ e ∈ c.trace, ∀ g ∈ stored e, Presented cfg (presentedRecords requests) g ∧
    (SignedEnd cfg requests c g ∨ (∃ e ∈ c.trace, g.record.notAfter ≤ e.env.now) ∨
      ∃ g' ∈ c.shared.grants, g'.grantId = g.grantId)

variable {backend : RevocationBackend} {c c' : Server ι} {known : ι → Known} {i : ι} {m : Moment}
  {q : Query} {g g' : VaultGrant} {r : VaultRequest}

theorem Ends.congr (h : Ends cfg r g) (hid : g.grantId = g'.grantId) (hrecord : g.record = g'.record) :
    Ends cfg r g' := by
  unfold Ends at h ⊢
  rwa [← hid, ← hrecord]

theorem SignedEnd.congr (h : SignedEnd cfg requests c g) (hid : g.grantId = g'.grantId)
    (hrecord : g.record = g'.record) : SignedEnd cfg requests c g' := by
  obtain ⟨i, r, hr, hends, hsigned⟩ := h
  exact ⟨i, r, hr, hends.congr hid hrecord, hsigned⟩

theorem SignedEnd.after (h : After backend i m q c c') (hsigned : SignedEnd cfg requests c g) :
    SignedEnd cfg requests c' g := by
  obtain ⟨j, r, hr, hends, e, he, hrest⟩ := hsigned
  exact ⟨j, r, hr, hends, e, h.mem.mpr (.inl he), hrest⟩

theorem not_signedBy_nil : ¬ SignedBy cfg r [] := by
  rintro ⟨consumer, subject, message, phone, -, -, hphone, -⟩
  simp [boundPhoneFor] at hphone

/-- What a request may do once the phone's signature verified shows in the history. -/
theorem Guarded.signedEnd (h : Guarded cfg requests c known) (hr : r ∈ (requests i).vault?)
    (hsigned : SignedBy cfg r (known i).phones) (hends : Ends cfg r g) :
    SignedEnd cfg requests c g := by
  rcases h.phones i with hnil | ⟨e, he, hthread, hphones⟩
  · exact absurd (hnil ▸ hsigned) not_signedBy_nil
  · exact ⟨i, r, hr, hends, e, he, hthread, _, hphones, hsigned⟩

theorem stands_of_guarded (law : Lawful backend) (hsha : NoCollision cfg (presentedRecords requests))
    (h : Guarded cfg requests c known) {e : Event ι Query Answer Moment} (he : e ∈ c.trace)
    (hg : g ∈ stored e) : SignedEnd cfg requests c g ∨ Stands backend c g := by
  obtain ⟨hpresented, hcases⟩ := h.stands e he g hg
  refine or_iff_not_imp_left.mpr fun hunsigned now hnow hwindow => ?_
  obtain hsigned | ⟨e', he', hexp⟩ | ⟨g', hg', hid⟩ := hcases
  · exact absurd hsigned hunsigned
  · have := hnow e' he'
    omega
  · have hpresented' := h.presented g' hg'
    have hrecord := hpresented'.record_eq hsha hpresented hid
    refine ⟨g', hid, hrecord, hg', hrecord ▸ hwindow, Bool.eq_false_iff.mpr fun hrevoked => ?_⟩
    obtain ⟨entry, hget, -⟩ := (law.revoked_iff _ _ _).mp hrevoked
    exact hunsigned ((h.entries g' hpresented' entry hget).congr hid hrecord)

/-! ## One call -/

theorem startsWith_grantJti (grantId : String) : startsWith (grantJti grantId) "uvgrant:" = true := by
  simp [startsWith, grantJti]

/-- Where no caller spends a foreign jti, an entry under the id of a grant is put there by a request
that ends the grant and was signed. -/
theorem Guarded.signed_of_adds (hsha : NoCollision cfg (presentedRecords requests))
    (h : Guarded cfg requests c known) (hallow : (guard cfg (requests i)).allows (known i) q)
    (hown : ∀ r ∈ (requests i).spend?, ∀ jti ∈ spentJti q, ¬ Foreign cfg requests r jti)
    (hg : Presented cfg (presentedRecords requests) g) {entry : RevocationEntry}
    (hadds : Adds q entry) (hjti : entry.jti = grantJti g.grantId) :
    SignedEnd cfg requests c g := by
  have hwrites : Writes q := by rcases hadds with rfl | rfl <;> trivial
  have hspent : entry.jti ∈ spentJti q := by rcases hadds with rfl | rfl <;> rfl
  cases hi : requests i with
  | vault r =>
    rw [hi] at hallow
    rcases hadds with rfl | rfl
    · obtain ⟨hsigned, ⟨old, hold, hends, hj, -⟩ | ⟨actId, hj⟩⟩ := hallow
      · have hid : old.grantId = g.grantId := grantJti_injective (hj.symm.trans hjti)
        have hrecord := (h.seen i old hold).record_eq hsha hg hid
        exact h.signedEnd (by simp [hi, Request.vault?]) hsigned (hends.congr hid hrecord)
      · exact absurd (hjti.symm.trans hj) (grantJti_ne_stopJti _ _)
    · exact hallow.elim
  | spend r =>
    refine absurd (.inl ?_) (hown r (by simp [hi, Request.spend?]) entry.jti hspent)
    rw [hjti]
    exact startsWith_grantJti _
  | capabilityRevoke token body =>
    rw [hi] at hallow
    exact absurd hwrites hallow
  | resetEnd intentId notBefore reason =>
    rw [hi] at hallow
    have hreset := (hallow.1 entry hadds).symm.trans hjti
    have := congrArg (fun s => (chars s).take 1) hreset
    simp [grantJti] at this
  | other p hp =>
    rw [hi] at hallow
    exact absurd hwrites hallow

/-- Only a signed grant request stores a grant, and the one it presents. -/
theorem of_guard_put {k : Known} {r : Request} (hallow : (guard cfg r).allows k (.putGrant g)) :
    ∃ r' ∈ r.vault?, SignedBy cfg r' k.phones ∧ r'.grantRecord = some g.record ∧
      g.grantId = g.record.grantId cfg.env := by
  cases r with
  | vault r => exact ⟨r, rfl, hallow.1, hallow.2.1, hallow.2.2.1⟩
  | spend r => exact absurd rfl (hallow.2 g)
  | capabilityRevoke token body => exact absurd trivial hallow
  | resetEnd intentId notBefore reason => exact absurd rfl (hallow.2 g)
  | other p hp => exact absurd trivial hallow

theorem mem_seen_guard {k : Known} {r : Request} {s : Shared}
    (h : g ∈ ((guard cfg r).next k q (exec backend q m s).1).seen) : g ∈ k.seen ∨ g ∈ s.grants := by
  cases r with
  | vault r => exact mem_seen_learn h
  | _ => exact .inl h

theorem phones_learn (k : Known) (s : Shared) :
    (k.learn q (exec backend q m s).1).phones = k.phones ∨
      (k.learn q (exec backend q m s).1).phones ∈
        heard (⟨i, m, q, (exec backend q m s).1⟩ : Event ι _ _ _) := by
  cases q with
  | listPhones => exact .inr rfl
  | isRevoked jti => exact .inl (k.onward_isRevoked jti _).phones
  | getGrant grantId =>
    simp only [exec]
    cases getUserVaultGrant grantId s.grants <;> exact .inl rfl
  | addRevocation entry =>
    simp only [exec]
    cases (addRevocation backend m.now entry s.revocations).1 <;> exact .inl rfl
  | _ => exact .inl rfl

theorem phones_guard (k : Known) (r : Request) (s : Shared) :
    ((guard cfg r).next k q (exec backend q m s).1).phones = k.phones ∨
      ((guard cfg r).next k q (exec backend q m s).1).phones ∈
        heard (⟨i, m, q, (exec backend q m s).1⟩ : Event ι _ _ _) := by
  cases r with
  | vault r => exact phones_learn k s
  | _ => exact .inl rfl

theorem Guarded.presented_after (h : After backend i m q c c') (hg : Guarded cfg requests c known)
    (hallow : (guard cfg (requests i)).allows (known i) q) :
    ∀ g ∈ c'.shared.grants, Presented cfg (presentedRecords requests) g := by
  intro g hmem
  rw [h.shared] at hmem
  by_cases hput : ∃ g, q = .putGrant g
  · obtain ⟨new, rfl⟩ := hput
    rcases mem_putUserVaultGrant.mp hmem with ⟨hold, -, -⟩ | rfl
    · exact hg.presented g hold
    · obtain ⟨r, hr, -, hrecord, hid⟩ := of_guard_put hallow
      refine ⟨⟨i, ?_⟩, hid⟩
      simp [presentedRecords, Request.record?, Option.mem_def.mp hr, hrecord]
  · rw [exec_grants (fun g hq => hput ⟨g, hq⟩)] at hmem
    exact hg.presented g hmem

/-- A grant that a put drops has run out, or the request that put was signed. -/
theorem Guarded.stands_put (h : After backend i m (.putGrant g) c c')
    (hg : Guarded cfg requests c known)
    (hallow : (guard cfg (requests i)).allows (known i) (.putGrant g))
    (hmem : g' ∈ c.shared.grants) :
    SignedEnd cfg requests c' g' ∨ (∃ e ∈ c'.trace, g'.record.notAfter ≤ e.env.now) ∨
      ∃ new ∈ c'.shared.grants, new.grantId = g'.grantId := by
  obtain ⟨r, hr, hsigned, hrecord, hid⟩ := of_guard_put hallow
  have hnew : ∀ old, old ∈ c'.shared.grants ↔
      (old ∈ c.shared.grants ∧ old.record.slot ≠ g.record.slot ∧ m.now < old.record.notAfter) ∨
        old = g := fun old => by rw [h.shared]; exact mem_putUserVaultGrant
  by_cases hsame : g.grantId = g'.grantId
  · exact .inr (.inr ⟨g, (hnew g).mpr (.inr rfl), hsame⟩)
  by_cases hslot : g'.record.slot = g.record.slot
  · have hends : Ends cfg r g' := .inl ⟨g.record, hrecord, hslot, fun hid' => hsame (hid.trans hid'.symm)⟩
    exact .inl ((hg.signedEnd hr hsigned hends).after h)
  by_cases hexp : m.now < g'.record.notAfter
  · exact .inr (.inr ⟨g', (hnew g').mpr (.inl ⟨hmem, hslot, hexp⟩), rfl⟩)
  · exact .inr (.inl ⟨_, h.mem.mpr (.inr rfl), not_lt.mp hexp⟩)

theorem Guarded.stands_after (hsha : NoCollision cfg (presentedRecords requests))
    (h : After backend i m q c c') (hg : Guarded cfg requests c known)
    (hallow : (guard cfg (requests i)).allows (known i) q) :
    ∀ e ∈ c'.trace, ∀ g ∈ stored e, Presented cfg (presentedRecords requests) g ∧
      (SignedEnd cfg requests c' g ∨ (∃ e ∈ c'.trace, g.record.notAfter ≤ e.env.now) ∨
        ∃ g' ∈ c'.shared.grants, g'.grantId = g.grantId) := by
  intro e he g hstored
  rcases h.mem.mp he with he | rfl
  · obtain ⟨hpresented, hcases⟩ := hg.stands e he g hstored
    refine ⟨hpresented, ?_⟩
    obtain hsigned | ⟨e', he', hexp⟩ | ⟨g', hg', hid⟩ := hcases
    · exact .inl (hsigned.after h)
    · exact .inr (.inl ⟨e', h.mem.mpr (.inl he'), hexp⟩)
    · by_cases hput : ∃ new, q = .putGrant new
      · obtain ⟨new, rfl⟩ := hput
        have hrecord := (hg.presented g' hg').record_eq hsha hpresented hid
        refine (hg.stands_put h hallow hg').imp (fun hsigned => hsigned.congr hid hrecord)
          (Or.imp (fun hexp => hrecord ▸ hexp) fun hnew => hid ▸ hnew)
      · refine .inr (.inr ⟨g', ?_, hid⟩)
        rw [h.shared, exec_grants fun g hq => hput ⟨g, hq⟩]
        exact hg'
  · obtain rfl : q = .putGrant g := mem_stored.mp hstored
    have hmem : g ∈ c'.shared.grants := by
      rw [h.shared]
      exact mem_putUserVaultGrant.mpr (.inr rfl)
    exact ⟨hg.presented_after h hallow g hmem, .inr (.inr ⟨g, hmem, rfl⟩)⟩

/-- All requests before their first call. -/
def serveAll (cfg : Config) (requests : ι → Request) (shared : Shared) : Server ι :=
  Serving.start shared fun i => (requests i).handler cfg

theorem guarded_serveAll {shared : Shared} (hempty : shared.grants = [])
    (hfree : ∀ grantId, shared.revocations.get? (grantJti grantId) = none) :
    Guarded cfg requests (serveAll cfg requests shared) fun _ => .nothing := by
  constructor <;> simp [serveAll, Serving.start, Known.nothing, hempty, hfree]

variable [DecidableEq ι]

theorem Guarded.after (law : Lawful backend) (hsha : NoCollision cfg (presentedRecords requests))
    (h : After backend i m q c c') (hg : Guarded cfg requests c known)
    (hallow : (guard cfg (requests i)).allows (known i) q)
    (hown : ∀ r ∈ (requests i).spend?, ∀ jti ∈ spentJti q, ¬ Foreign cfg requests r jti) :
    Guarded cfg requests c' (Function.update known i
      ((guard cfg (requests i)).next (known i) q (exec backend q m c.shared).1)) := by
  refine ⟨hg.presented_after h hallow, ?_, ?_, ?_, hg.stands_after hsha h hallow⟩
  · intro j g hseen
    by_cases hj : j = i
    · subst hj
      rw [Function.update_self] at hseen
      exact (mem_seen_guard hseen).elim (hg.seen j g) (hg.presented g)
    · rw [Function.update_of_ne hj] at hseen
      exact hg.seen j g hseen
  · intro j
    have hold : (known j).phones = [] ∨
        ∃ e ∈ c'.trace, e.thread = j ∧ (known j).phones ∈ heard e :=
      (hg.phones j).imp_right fun ⟨e, he, hrest⟩ => ⟨e, h.mem.mpr (.inl he), hrest⟩
    by_cases hj : j = i
    · subst hj
      rw [Function.update_self]
      rcases phones_guard (known j) (requests j) c.shared with hsame | hnew
      · rw [hsame]
        exact hold
      · exact .inr ⟨_, h.mem.mpr (.inr rfl), rfl, hnew⟩
    · rwa [Function.update_of_ne hj]
  · intro g hpresented entry hget
    rw [h.shared] at hget
    rcases law.exec_get? hget with hold | ⟨hadds, hjti⟩
    · exact (hg.entries g hpresented entry hold).after h
    · exact (hg.signed_of_adds hsha hallow hown hpresented hadds hjti).after h

theorem guard_answers (cfg : Config) (r : Request) (backend : RevocationBackend) (q : Query)
    (m : Moment) (s : Shared) : (guard cfg r).answers q (exec backend q m s).1 := by
  cases r with
  | vault r => exact watch_answers cfg r backend q m s
  | _ => trivial

theorem Guarded.step (law : Lawful backend) (hsha : NoCollision cfg (presentedRecords requests))
    {next : Answer q → Handler} (hg : Guarded cfg requests c known)
    (hcall : c.threads i = .call q next) (hallow : (guard cfg (requests i)).allows (known i) q)
    (hown : SpendsOwn cfg requests c (i, m)) :
    Guarded cfg requests (Serving.step (exec backend) c (i, m)) (Function.update known i
      ((guard cfg (requests i)).next (known i) q (exec backend q m c.shared).1)) := by
  have hafter : After backend i m q c (Serving.step (exec backend) c (i, m)) := by
    rw [Serving.step_call hcall]
    exact ⟨rfl, rfl⟩
  refine hg.after law hsha hafter hallow fun r hr jti hjti => hown r hr jti ?_
  simpa [nextQuery, hcall] using hjti

/-! ## Every schedule -/

/-- A call that does not spend the jti leaves whether it counts as revoked. -/
theorem isRevoked_after (law : Lawful backend) {jti : String} (hspent : jti ∉ spentJti q) {now : ℤ}
    (hnow : m.now ≤ now) (s : Shared) :
    (isRevoked backend now jti (exec backend q m s).2.revocations).1 =
      (isRevoked backend now jti s.revocations).1 := by
  have hadds : ∀ e, Adds q e → e.jti ≠ jti := by
    rintro e (rfl | rfl) rfl <;> exact hspent rfl
  rw [Bool.eq_iff_iff, law.revoked_iff, law.revoked_iff]
  constructor
  · rintro ⟨e, hget, hexp⟩
    rcases law.exec_get? hget with hold | ⟨hadd, hjti⟩
    · exact ⟨e, hold, hexp⟩
    · exact absurd hjti (hadds e hadd)
  · rintro ⟨e, hget, hexp⟩
    obtain ⟨e', hget', rfl | ⟨hadd, hjti⟩⟩ := law.exec_get?_kept (q := q) hget (hnow.trans_lt hexp)
    · exact ⟨e', hget', hexp⟩
    · exact absurd hjti (hadds e' hadd)

theorem leavesForeign_of_spendsOwn (law : Lawful backend) {turn : ι × Moment}
    (h : SpendsOwn cfg requests c turn) : LeavesForeign cfg backend requests c turn := by
  intro r hr jti hforeign now hnow
  cases hcall : c.threads turn.1 with
  | done a => rw [show turn = (turn.1, turn.2) from rfl, Serving.step_done hcall]
  | call q next =>
    rw [show turn = (turn.1, turn.2) from rfl, Serving.step_call hcall]
    refine isRevoked_after law (fun hspent => h r hr jti ?_ hforeign) hnow c.shared
    simpa [nextQuery, hcall] using hspent

/-- What was stored stands until its window ends unless its bound phone signed its end, and no turn
of a caller who spends a grant changed whether a foreign jti counts as revoked. -/
structure OnlyPhoneEnds (cfg : Config) (backend : RevocationBackend) (requests : ι → Request)
    (c : Server ι) (turns : List (ι × Moment)) : Prop where
  stands : ∀ e ∈ (Serving.run (exec backend) c turns).trace, ∀ g ∈ stored e,
    SignedEnd cfg requests (Serving.run (exec backend) c turns) g ∨
      Stands backend (Serving.run (exec backend) c turns) g
  leaves : Serving.Along (exec backend) (LeavesForeign cfg backend requests) c turns

/-- Along every schedule of requests without the operator's token on which no caller spends a
foreign jti, only its own phone ends a grant. -/
theorem only_bound_phone_ends {cfg : Config} {backend : RevocationBackend}
    (hbackend : IsBackend backend) {requests : ι → Request}
    (htoken : ∀ i, (requests i).WithoutToken cfg)
    (hsha : NoCollision cfg (presentedRecords requests)) {shared : Shared}
    (hempty : shared.grants = [])
    (hfree : ∀ grantId, shared.revocations.get? (grantJti grantId) = none)
    {turns : List (ι × Moment)}
    (hcondition : Serving.Along (exec backend) (SpendsOwn cfg requests)
      (serveAll cfg requests shared) turns) :
    OnlyPhoneEnds cfg backend requests (serveAll cfg requests shared) turns := by
  have law := hbackend.lawful
  refine ⟨?_, hcondition.mono fun c turn h => leavesForeign_of_spendsOwn law h⟩
  obtain ⟨known, h, -⟩ := Serving.run_monitored (m := fun i => guard cfg (requests i))
    (P := SpendsOwn cfg requests) (fun i q m s => guard_answers cfg (requests i) backend q m s)
    (guarded_serveAll hempty hfree) (fun i => guarded_handler (requests i) (htoken i))
    (fun c known i m q next hcall hallow h hown => h.step law hsha hcall hallow hown) hcondition
  exact fun e he g hg => stands_of_guarded law hsha h he hg

end
/-! ## A pairing that names a grant's id -/

/-- A pairing record of a phone that is bound to no subject. -/
def visitorRecord : PairRecord where
  bootloaderId := "boot-1"
  subject := vaultSubject
  phonePubkey :=
    "b1d00505e849f28d8abd54acf6b1ba6862c290a7b5454b2b7883d8dd5cf7c347" ++
    "d3bac64eacc42d22fe8db9fe32f0c17d7a1767cab39ddc7e26ae718d35c32614"
  code := "424242"
  notAfter := 1760000300

def jwsHeaderText : String := "eyJhbGciOiJFUzI1NksiLCJ0eXAiOiJKV1QifQ"

/-- The payload of the visitor's grant with the jti `pair-1`. -/
def ownPayload : String :=
  "eyJhdWQiOlsiYm9vdC0xIl0sImNhcCI6eyJhbGxvd19hY3Rpb25zIjpbImRldmljZXM6cGFpciJdLCJyZWdp" ++
    "c3RyeV92ZXJzaW9uIjoiMSIsInNjb3BlIjp7InBhaXJpbmdfY29kZSI6IjQyNDI0MiIsInBheWxvYWRfc2hh" ++
    "MjU2IjoiODU1ZWEwYjk2ZjEyYTQzMDg2MGFjY2QyNWNhNWU3ZDI3M2M0OTIzM2RmYTMwMmRiYjBjMWU2MDM1" ++
    "YTE2MzQ1YSJ9LCJ0aWVyIjowfSwiZXhwIjoxNzYwMDAwMzAwLCJpYXQiOjE3NjAwMDAwMDAsImlzcyI6InBo" ++
    "b25lOnZpc2l0b3IiLCJqdGkiOiJwYWlyLTEiLCJtYXhfdXNlcyI6MSwibmJmIjoxNzYwMDAwMDAwLCJwdXJw" ++
    "b3NlIjoicGFpciIsInN1YiI6InVzZXI6dmlzaXRvciJ9"

def ownSignature : String :=
  "0fB84fps2TgbMck0eSkndWqOWcyBKJyZrgKUbn_slYt5SqxhXz3mBdty4JlB1AUsDVapq7DHk7_fcXLExWaj" ++
    "JQ"

/-- The payload of the visitor's grant with a vault grant's id for its jti. -/
def namingPayload : String :=
  "eyJhdWQiOlsiYm9vdC0xIl0sImNhcCI6eyJhbGxvd19hY3Rpb25zIjpbImRldmljZXM6cGFpciJdLCJyZWdp" ++
    "c3RyeV92ZXJzaW9uIjoiMSIsInNjb3BlIjp7InBhaXJpbmdfY29kZSI6IjQyNDI0MiIsInBheWxvYWRfc2hh" ++
    "MjU2IjoiODU1ZWEwYjk2ZjEyYTQzMDg2MGFjY2QyNWNhNWU3ZDI3M2M0OTIzM2RmYTMwMmRiYjBjMWU2MDM1" ++
    "YTE2MzQ1YSJ9LCJ0aWVyIjowfSwiZXhwIjoxNzYwMDAwMzAwLCJpYXQiOjE3NjAwMDAwMDAsImlzcyI6InBo" ++
    "b25lOnZpc2l0b3IiLCJqdGkiOiJ1dmdyYW50OjY2MzgwYmM0MmZiNzg4ZTk0YTM4MWRmNzFhMzQxMDAwMGIy" ++
    "M2I5ZmI2MThiYjg0YTI1MjBmNzU2YjMwNmE3ODAiLCJtYXhfdXNlcyI6MSwibmJmIjoxNzYwMDAwMDAwLCJw" ++
    "dXJwb3NlIjoicGFpciIsInN1YiI6InVzZXI6dmlzaXRvciJ9"

def namingSignature : String :=
  "j1l2jsW86OEjkEhLhl3ixl57WD0PZ9oQCPoTp2JnhFo0VNS_Tv9jM3myK1w6oRldcVl1U4mawEn4hRRPvWbK" ++
    "Ng"

/-- A signature over one of the payloads, that recovers to the visitor's key with one recovery id. -/
structure VisitorSignature where
  payload : String
  digest : Bytes
  signature : String
  recovery : UInt8

def visitorSignatures : List VisitorSignature :=
  [{ payload := ownPayload
     digest := (fromHex "1d12e4936ff133d797165d2294fb77c815ea8e86f709cf530ce4b122d6b0fe90").getD []
     signature := ownSignature
     recovery := 28 },
   { payload := namingPayload
     digest := (fromHex "2897fac45e7464d2861838e84d43f79be483d32321adee99004510f000b29077").getD []
     signature := namingSignature
     recovery := 28 }]

/-- The sample's host with a consumer that pairs. -/
def pairingConfig : Config :=
  { vaultConfig with
    env :=
      { sha256 := fun raw =>
          if raw = canonicalJson visitorRecord.toDict then
            (fromHex "855ea0b96f12a430860accd25ca5e7d273c49233dfa302dbb0c1e6035a16345a").getD []
          else
            match visitorSignatures.find? fun s =>
                raw = signingInput (chars jwsHeaderText) (chars s.payload) with
            | some s => s.digest
            | none => vaultConfig.env.sha256 raw
        recoverPublicKey := fun digest rsv =>
          if visitorSignatures.any fun s => digest = s.digest &&
              some (rsv.take 64) = unb64u s.signature && rsv.drop 64 = [s.recovery] then
            fromHex visitorRecord.phonePubkey
          else none }
    consumerTokens := (∅ : Dict String String).set "https://app.example" "webhook" }

def pairingRequest (payload signature : String) : SpendRequest :=
  .pair (.obj [("consumer_base_url", .str "https://app.example"), ("record", visitorRecord.toDict),
    ("user_jws", .str (jwsHeaderText ++ "." ++ payload ++ "." ++ signature))])

/-- The first grant of the sample, a pairing under a jti of its own, and one that names the grant. -/
def pairingRequests (i : Fin 3) : Request :=
  if i.val = 0 then .vault (vaultRequests i)
  else if i.val = 1 then .spend (pairingRequest ownPayload ownSignature)
  else .spend (pairingRequest namingPayload namingSignature)

theorem pairingRequests_noCollision :
    NoCollision pairingConfig (presentedRecords pairingRequests) := by
  unfold NoCollision
  decide +kernel

theorem pairingRequests_withoutToken (i : Fin 3) : (pairingRequests i).WithoutToken pairingConfig := by
  fin_cases i <;> trivial

/-- The pairing under a jti of its own leaves the grant. -/
theorem only_bound_phone_ends_sample :
    OnlyPhoneEnds pairingConfig StateStore.revocations pairingRequests
      (serveAll pairingConfig pairingRequests vaultShared) (callsOf 0 7 ++ callsOf 1 6) :=
  only_bound_phone_ends (.inl rfl) pairingRequests_withoutToken pairingRequests_noCollision rfl
    (fun _ => rfl) (by decide +kernel)

/-- What is left of the requests after so many calls of each. -/
def pairingServer (turns : List (Fin 3 × Moment)) : Server (Fin 3) :=
  Serving.run (exec StateStore.revocations) (serveAll pairingConfig pairingRequests vaultShared) turns

/-- The visitor's pairing revokes the grant, and no bound phone signed that. -/
theorem namedGrant_not_live : ¬ OnlyPhoneEnds pairingConfig StateStore.revocations pairingRequests
    (serveAll pairingConfig pairingRequests vaultShared) (callsOf 0 7 ++ callsOf 2 4) := by
  intro h
  let namedGrant := pairingServer (callsOf 0 7 ++ callsOf 2 4)
  have hfacts : namedGrant.trace[5]?.bind stored = some (vaultGrant firstRecord firstSignature) ∧
      (∀ i, ∀ r ∈ (pairingRequests i).vault?,
        ¬ Ends pairingConfig r (vaultGrant firstRecord firstSignature)) ∧
      (∀ e ∈ namedGrant.trace, e.env.now ≤ 1760000010) ∧
      1760000010 < (vaultGrant firstRecord firstSignature).record.notAfter ∧
      ∀ g ∈ namedGrant.shared.grants,
        ¬ Live StateStore.revocations namedGrant.shared 1760000010 g := by decide +kernel
  obtain ⟨hstored, hends, hnow, hwindow, hdead⟩ := hfacts
  obtain ⟨e, he, hg⟩ := Option.bind_eq_some_iff.mp hstored
  have hcases : SignedEnd pairingConfig pairingRequests namedGrant _ ∨
      Stands StateStore.revocations namedGrant _ := h.stands e (List.mem_of_getElem? he) _ hg
  rcases hcases with ⟨i, r, hr, hend, -⟩ | hstands
  · exact hends i r hr hend
  · obtain ⟨g, -, -, hlive⟩ := hstands 1760000010 hnow hwindow
    exact hdead g hlive.1 hlive

end UserVault
end Recto
