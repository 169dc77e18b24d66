import Recto.UserVault.Handlers
import Recto.Grants.Revoking

/-!
# What a user-vault request may do

The monitor of the three handlers: a request changes something only once the
bound phone's signature over its record verified; it ends a grant it has seen,
with an entry that lasts as long as the grant; it stores its grant only after
every other grant it saw in the slot has ended; and it answers that a grant has
ended only when that grant is on the list.
-/

namespace Recto
namespace UserVault

open Capability Grants State

namespace VaultRequest

/-- Whose grants the record is about. -/
def owner (r : VaultRequest) : Option (String × String) :=
  (r.grantRecord.map fun record => (record.consumer, record.subject)).or
    ((r.revokeRecord.map fun record => (record.consumer, record.subject)).or
      (r.stopRecord.map fun record => (record.consumer, record.subject)))

/-- What the phone signs. -/
def message (r : VaultRequest) : Option Bytes :=
  (r.grantRecord.map GrantRecord.signedMessage).or
    ((r.revokeRecord.map RevokeRecord.signedMessage).or
      (r.stopRecord.map RevokeKeyRecord.signedMessage))

variable {r : VaultRequest}

theorem of_grantRecord {record : GrantRecord} (h : r.grantRecord = some record) :
    r.owner = some (record.consumer, record.subject) ∧ r.message = some record.signedMessage := by
  simp [owner, message, h]

theorem of_revokeRecord {record : RevokeRecord} (h : r.revokeRecord = some record) :
    r.owner = some (record.consumer, record.subject) ∧ r.message = some record.signedMessage := by
  cases r with
  | revoke body => simp [owner, message, h, grantRecord]
  | _ => cases h

theorem of_stopRecord {record : RevokeKeyRecord} (h : r.stopRecord = some record) :
    r.owner = some (record.consumer, record.subject) ∧ r.message = some record.signedMessage := by
  cases r with
  | revokeKey body => simp [owner, message, h, grantRecord, revokeRecord]
  | _ => cases h

end VaultRequest

/-- The record's signature verifies under the key of the phone its subject is bound to. -/
def SignedBy (cfg : Config) (r : VaultRequest) (phones : List BoundPhone) : Prop :=
  ∃ consumer subject message phone, r.owner = some (consumer, subject) ∧ r.message = some message ∧
    boundPhoneFor consumer subject phones = some phone ∧
    isSigned (boundVerifier cfg phone) message (at? r.body "signature_b64u") = true

/-- The record takes the grant back: a newer grant for its slot, its revoke, or the stop-all of its
key. -/
def Ends (cfg : Config) (r : VaultRequest) (g : VaultGrant) : Prop :=
  (∃ record ∈ r.grantRecord, g.record.slot = record.slot ∧ g.grantId ≠ record.grantId cfg.env) ∨
  (∃ record ∈ r.revokeRecord, g.grantId = record.grantId ∧
    (g.record.consumer, g.record.subject) = (record.consumer, record.subject)) ∨
  (∃ record ∈ r.stopRecord, g.record.key = record.key ∧
    (g.record.consumer, g.record.subject) = (record.consumer, record.subject))

instance (cfg : Config) (r : VaultRequest) (g : VaultGrant) : Decidable (Ends cfg r g) := by
  unfold Ends
  infer_instance

/-- What a request has learnt. -/
structure Known where
  phones : List BoundPhone
  seen : List VaultGrant
  ended : List String
  clock : Option ℤ

def Known.nothing : Known := ⟨[], [], [], none⟩

namespace Known

/-- What the answer of a call adds. -/
def learn (k : Known) : (q : Query) → Answer q → Known
  | .listPhones, (phones : List BoundPhone) => { k with phones }
  | .listGrants _ _, (grants : List VaultGrant) => { k with seen := k.seen ++ grants }
  | .getGrant _, some g => { k with seen := k.seen ++ [g] }
  | .isRevoked jti, true => { k with ended := jti :: k.ended }
  | .addRevocation entry, some () => { k with ended := entry.jti :: k.ended }
  | .time, (t : ℤ) => { k with clock := some t }
  | _, _ => k

/-- More has ended, and nothing else was learnt but the time. -/
structure Onward (k k' : Known) : Prop where
  phones : k'.phones = k.phones
  seen : k'.seen = k.seen
  ended : ∀ jti ∈ k.ended, jti ∈ k'.ended

theorem Onward.refl (k : Known) : Onward k k := ⟨rfl, rfl, fun _ h => h⟩

theorem Onward.trans {k k' k'' : Known} (h : Onward k k') (h' : Onward k' k'') : Onward k k'' :=
  ⟨h'.phones.trans h.phones, h'.seen.trans h.seen, fun jti hj => h'.ended jti (h.ended jti hj)⟩

theorem onward_time (k : Known) (t : ℤ) : Onward k (k.learn .time t) := ⟨rfl, rfl, fun _ h => h⟩

theorem onward_isRevoked (k : Known) (jti : String) (revoked : Bool) :
    Onward k (k.learn (.isRevoked jti) revoked) := by
  cases revoked with
  | true => exact ⟨rfl, rfl, fun _ h => List.mem_cons_of_mem _ h⟩
  | false => exact Onward.refl k

theorem onward_added (k : Known) (entry : RevocationEntry) :
    Onward k (k.learn (.addRevocation entry) (some ())) :=
  ⟨rfl, rfl, fun _ h => List.mem_cons_of_mem _ h⟩

theorem mem_ended_added (k : Known) (entry : RevocationEntry) :
    entry.jti ∈ (k.learn (.addRevocation entry) (some ())).ended := List.mem_cons_self

theorem mem_ended_revoked (k : Known) (jti : String) :
    jti ∈ (k.learn (.isRevoked jti) true).ended := List.mem_cons_self

end Known

/-- The monitor of a user-vault request. -/
def watch (cfg : Config) (r : VaultRequest) : Monitor Query Answer Known where
  allows k q :=
    match q with
    | .addRevocation entry => SignedBy cfg r k.phones ∧
        ((∃ g ∈ k.seen, Ends cfg r g ∧ entry.jti = grantJti g.grantId ∧
            entry.originalExp = g.record.notAfter) ∨
          ∃ actId, entry.jti = stopJti actId)
    | .putGrant g => SignedBy cfg r k.phones ∧ r.grantRecord = some g.record ∧
        g.grantId = g.record.grantId cfg.env ∧
        ∀ old ∈ k.seen, old.record.slot = g.record.slot → old.grantId ≠ g.grantId →
          grantJti old.grantId ∈ k.ended
    | .listGrants consumer subject => r.owner = some (consumer, subject)
    | .getGrant _ => True
    | .listPhones => True
    | .isRevoked _ => True
    | .time => True
    | .send (.refused _ _) => True
    | .send (.admitted _ _) => True
    | .send (.grantRevoked grantId) => grantJti grantId ∈ k.ended
    | .send (.stopped grantIds) => (∀ id ∈ grantIds, grantJti id ∈ k.ended) ∧
        ∃ record, r.stopRecord = some record ∧ ∀ g ∈ k.seen, g.record.key = record.key →
          (∃ t, k.clock = some t ∧ g.record.notAfter ≤ t) ∨ grantJti g.grantId ∈ k.ended
    | _ => False
  answers q a :=
    match q, a with
    | .listGrants consumer subject, (grants : List VaultGrant) =>
        ∀ g ∈ grants, (g.record.consumer, g.record.subject) = (consumer, subject)
    | .getGrant grantId, (found : Option VaultGrant) => ∀ g ∈ found, g.grantId = grantId
    | _, _ => True
  next := Known.learn

theorem watch_answers (cfg : Config) (r : VaultRequest) (backend : RevocationBackend) (q : Query)
    (m : Moment) (s : Shared) : (watch cfg r).answers q (exec backend q m s).1 := by
  cases q with
  | listGrants consumer subject =>
    intro g hg
    obtain ⟨-, hg⟩ := List.mem_filter.mp hg
    obtain ⟨hc, hs⟩ := of_decide_eq_true hg
    rw [hc, hs]
  | getGrant grantId =>
    intro g hg
    have := List.find?_some (Option.mem_def.mp hg)
    exact of_decide_eq_true this
  | _ => trivial

section
variable {cfg : Config} {r : VaultRequest} {k : Known} {rest : Handler}

/-- The programs have nothing to establish where they end. -/
abbrev Watched (cfg : Config) (r : VaultRequest) (k : Known) (p : Handler) : Prop :=
  (watch cfg r).Obeys (fun _ _ => True) k p

theorem watched_call {q : Query} {next : Answer q → Handler} (hallow : (watch cfg r).allows k q)
    (hnext : ∀ a, (watch cfg r).answers q a → Watched cfg r (k.learn q a) (next a)) :
    Watched cfg r k (.call q next) := ⟨hallow, hnext⟩

theorem watched_refuse (status : ℕ) (error : String) : Watched cfg r k (refuse status error) :=
  ⟨trivial, fun _ _ => trivial⟩

theorem watched_internalError : Watched cfg r k internalError := watched_refuse _ _

/-- An entry, and what follows its success. -/
theorem watched_add {entry : RevocationEntry} (hsigned : SignedBy cfg r k.phones)
    (hentry : (∃ g ∈ k.seen, Ends cfg r g ∧ entry.jti = grantJti g.grantId ∧
      entry.originalExp = g.record.notAfter) ∨ ∃ actId, entry.jti = stopJti actId)
    (hrest : Watched cfg r (k.learn (.addRevocation entry) (some ())) rest) :
    Watched cfg r k (.call (.addRevocation entry) fun (added : Option Unit) =>
      match added with
      | none => internalError
      | some () => rest) := by
  refine watched_call ⟨hsigned, hentry⟩ ?_
  rintro (_ | _) -
  · exact watched_internalError
  · exact hrest

theorem watched_supersede (olds : List VaultGrant) : ∀ k, SignedBy cfg r k.phones →
    (∀ old ∈ olds, old ∈ k.seen ∧ Ends cfg r old) →
    (∀ k', Known.Onward k k' → (∀ old ∈ olds, grantJti old.grantId ∈ k'.ended) →
      Watched cfg r k' rest) →
    Watched cfg r k (supersede rest olds) := by
  induction olds with
  | nil => exact fun k _ _ hrest => hrest k (.refl k) (by simp)
  | cons old olds ih =>
    intro k hsigned holds hrest
    refine watched_call trivial fun (now : ℤ) _ => ?_
    have htime := k.onward_time now
    obtain ⟨hold, hends⟩ := holds old List.mem_cons_self
    refine watched_add (htime.phones ▸ hsigned) (.inl ⟨old, htime.seen ▸ hold, hends, rfl, rfl⟩) ?_
    have hadded := htime.trans (Known.onward_added (k.learn .time now) (endEntry old now
      "revoked: user-vault grant replaced by a newer one for the same slot"))
    refine ih _ (hadded.phones ▸ hsigned) ?_ ?_
    · intro g hg
      rw [hadded.seen]
      exact holds g (List.mem_cons_of_mem _ hg)
    · intro k' hk' hended
      refine hrest k' (hadded.trans hk') ?_
      rintro g (_ | ⟨_, hg⟩)
      · exact hk'.ended _ (Known.mem_ended_added _ _)
      · exact hended g hg

theorem watched_storeGrant {record : GrantRecord} {signature : Json} {ref : String}
    (hrecord : r.grantRecord = some record) (hsigned : SignedBy cfg r k.phones)
    (hended : ∀ old ∈ k.seen, old.record.slot = record.slot →
      old.grantId ≠ record.grantId cfg.env → grantJti old.grantId ∈ k.ended) :
    Watched cfg r k (storeGrant record (record.grantId cfg.env) signature ref) :=
  watched_call trivial fun _ _ => watched_call ⟨hsigned, hrecord, rfl, hended⟩ fun _ _ =>
    watched_call trivial fun _ _ => trivial

theorem watched_admitGrant {record : GrantRecord} {phone : BoundPhone} {signature : Json}
    (hrecord : r.grantRecord = some record) (hsigned : SignedBy cfg r k.phones)
    (hunseen : k.seen = []) :
    Watched cfg r k (admitGrant record (record.grantId cfg.env) signature phone) := by
  refine watched_call trivial fun (revoked : Bool) _ => ?_
  have hfirst := k.onward_isRevoked (grantJti (record.grantId cfg.env)) revoked
  refine Monitor.obeys_ite (fun _ => watched_refuse _ _) fun _ => ?_
  refine watched_call (VaultRequest.of_grantRecord hrecord).1 fun listed hlisted => ?_
  set k₁ := k.learn (.isRevoked (grantJti (record.grantId cfg.env))) revoked with hk₁
  have hseen : (k₁.learn (.listGrants record.consumer record.subject) listed).seen = listed := by
    change k₁.seen ++ listed = listed
    rw [hfirst.seen, hunseen, List.nil_append]
  have hslot : ∀ old ∈ listed, (old.record.agentHandle, old.record.key) =
      (record.agentHandle, record.key) → old.record.slot = record.slot := by
    intro old hold hak
    obtain ⟨hc, hs⟩ := Prod.mk.inj (hlisted old hold)
    obtain ⟨ha, hk⟩ := Prod.mk.inj hak
    simp [GrantRecord.slot, hc, hs, ha, hk]
  refine watched_supersede _ _ (hfirst.phones ▸ hsigned) ?_ ?_
  · intro old hold
    obtain ⟨hmem, hkeep⟩ := List.mem_filter.mp hold
    obtain ⟨hak, hid⟩ := of_decide_eq_true hkeep
    refine ⟨?_, .inl ⟨record, hrecord, hslot old hmem hak, hid⟩⟩
    rw [hseen]
    exact hmem
  · intro k' hk' hended
    refine watched_storeGrant hrecord ?_ ?_
    · rw [hk'.phones]
      exact hfirst.phones ▸ hsigned
    · intro old hold hslots hid
      rw [hk'.seen, hseen] at hold
      have hak : (old.record.agentHandle, old.record.key) = (record.agentHandle, record.key) :=
        (Prod.mk.inj (Prod.mk.inj hslots).2).2
      exact hended old (List.mem_filter.mpr ⟨hold, decide_eq_true ⟨hak, hid⟩⟩)

theorem watched_revokeGrant {record : RevokeRecord} (hrecord : r.revokeRecord = some record)
    (hsigned : SignedBy cfg r k.phones) : Watched cfg r k (revokeGrant record) := by
  refine watched_call trivial ?_
  rintro (_ | grant) hfound
  · exact watched_refuse _ _
  · have hid : grant.grantId = record.grantId := hfound grant rfl
    refine Monitor.obeys_ite (fun _ => watched_refuse _ _) fun howner => ?_
    refine watched_call trivial fun (now : ℤ) _ => ?_
    refine watched_add hsigned (.inl ⟨grant, ?_, ?_, ?_, rfl⟩) ?_
    · exact List.mem_append_right _ (List.mem_singleton_self _)
    · exact .inr (.inl ⟨record, hrecord, hid, not_not.mp howner⟩)
    · exact congrArg grantJti hid.symm
    · exact watched_call (Known.mem_ended_added _ _) fun _ _ => trivial

/-- The loop keeps what it has seen, and leaves out only what has expired or is on the list. -/
theorem watched_keepLive {now : ℤ} {rest : List VaultGrant → Handler} (gs : List VaultGrant) :
    ∀ k live, (∀ k' live', Known.Onward k k' → k'.clock = k.clock → (∀ g ∈ live, g ∈ live') →
      (∀ g ∈ live', g ∈ live ∨ g ∈ gs) →
      (∀ g ∈ gs, g ∈ live' ∨ g.record.notAfter ≤ now ∨ grantJti g.grantId ∈ k'.ended) →
      Watched cfg r k' (rest live')) →
    Watched cfg r k (keepLive now rest gs live) := by
  induction gs with
  | nil =>
    intro k live hrest
    exact hrest k live (.refl k) rfl (fun _ h => h) (fun _ h => .inl h) (by simp)
  | cons g gs ih =>
    intro k live hrest
    refine Monitor.obeys_ite (fun _ => watched_call trivial fun (revoked : Bool) _ => ?_)
      fun hpast => ?_
    · have hcall := k.onward_isRevoked (grantJti g.grantId) revoked
      have hclock : (k.learn (.isRevoked (grantJti g.grantId)) revoked).clock = k.clock := by
        cases revoked <;> rfl
      refine ih _ _ fun k' live' hk' hclock' hlive hmem hleft => ?_
      refine hrest k' live' (hcall.trans hk') (hclock'.trans hclock) ?_ ?_ ?_
      · intro g' hg'
        refine hlive g' ?_
        split_ifs
        · exact hg'
        · exact List.mem_append_left _ hg'
      · intro g' hg'
        rcases hmem g' hg' with h | h
        · split_ifs at h
          · exact .inl h
          · rcases List.mem_append.mp h with h | h
            · exact .inl h
            · exact .inr (by simp [List.mem_singleton.mp h])
        · exact .inr (List.mem_cons_of_mem _ h)
      · rintro g' (_ | ⟨_, hg'⟩)
        · cases revoked with
          | true => exact .inr (.inr (hk'.ended _ (Known.mem_ended_revoked _ _)))
          | false => exact .inl (hlive g (by simp))
        · exact hleft g' hg'
    · refine ih k live fun k' live' hk' hclock hlive hmem hleft => ?_
      refine hrest k' live' hk' hclock hlive ?_ ?_
      · exact fun g' hg' => (hmem g' hg').imp_right (List.mem_cons_of_mem _)
      · rintro g' (_ | ⟨_, hg'⟩)
        · exact .inr (.inl (not_lt.mp hpast))
        · exact hleft g' hg'

/-- The stop of each grant, when what is left of the key after them has ended. -/
theorem watched_stopEach {now : ℤ} {record : RevokeKeyRecord} (hrecord : r.stopRecord = some record)
    (gs : List VaultGrant) : ∀ k stopped, SignedBy cfg r k.phones →
    (∀ g ∈ gs, g ∈ k.seen ∧ Ends cfg r g) → (∀ id ∈ stopped, grantJti id ∈ k.ended) →
    (∀ g ∈ k.seen, g.record.key = record.key → g ∈ gs ∨
      (∃ t, k.clock = some t ∧ g.record.notAfter ≤ t) ∨ grantJti g.grantId ∈ k.ended) →
    Watched cfg r k (stopEach now gs stopped) := by
  induction gs with
  | nil =>
    intro k stopped _ _ hstopped hleft
    refine watched_call ⟨hstopped, record, hrecord, fun g hg hkey => ?_⟩ fun _ _ => trivial
    simpa using hleft g hg hkey
  | cons g gs ih =>
    intro k stopped hsigned hgs hstopped hleft
    obtain ⟨hseen, hends⟩ := hgs g List.mem_cons_self
    refine watched_add hsigned (.inl ⟨g, hseen, hends, rfl, rfl⟩) ?_
    refine ih _ _ hsigned (fun g' hg' => hgs g' (List.mem_cons_of_mem _ hg')) ?_ ?_
    · intro id hid
      rcases List.mem_append.mp hid with hid | hid
      · exact List.mem_cons_of_mem _ (hstopped id hid)
      · rw [List.mem_singleton.mp hid]
        exact Known.mem_ended_added _ _
    · intro g' hg' hkey
      rcases hleft g' hg' hkey with (_ | ⟨_, h⟩) | h | h
      · exact .inr (.inr (Known.mem_ended_added _ _))
      · exact .inl h
      · exact .inr (.inl h)
      · exact .inr (.inr (List.mem_cons_of_mem _ h))

theorem watched_stopAll {record : RevokeKeyRecord} {actId : String} {now : ℤ}
    (hrecord : r.stopRecord = some record) (hsigned : SignedBy cfg r k.phones)
    (hunseen : k.seen = []) : Watched cfg r k (stopAll record actId now) := by
  refine watched_call trivial fun (used : Bool) _ => ?_
  have hused := k.onward_isRevoked (stopJti actId) used
  refine Monitor.obeys_ite (fun _ => watched_refuse _ _) fun _ => ?_
  refine watched_add (hused.phones ▸ hsigned) (.inr ⟨actId, rfl⟩) ?_
  refine watched_call trivial fun (t : ℤ) _ => ?_
  refine watched_call (VaultRequest.of_stopRecord hrecord).1 fun listed hlisted => ?_
  set k₁ := ((k.learn (.isRevoked (stopJti actId)) used).learn (.addRevocation _) (some ())).learn
    .time t with hk₁
  have hseen : (k₁.learn (.listGrants record.consumer record.subject) listed).seen = listed := by
    change (k.learn (.isRevoked (stopJti actId)) used).seen ++ listed = listed
    rw [hused.seen, hunseen, List.nil_append]
  refine watched_keepLive _ _ _ fun k' live hk' hclock _ hmem hleft => ?_
  have hlive : ∀ g ∈ live, g ∈ listed := by simpa using hmem
  refine watched_stopEach hrecord _ _ _ ?_ ?_ (by simp) ?_
  · rw [hk'.phones]
    exact hused.phones ▸ hsigned
  · intro g hg
    obtain ⟨hg, hkey⟩ := List.mem_filter.mp hg
    rw [hk'.seen, hseen]
    exact ⟨hlive g hg, .inr (.inr ⟨record, hrecord, of_decide_eq_true hkey, hlisted g (hlive g hg)⟩)⟩
  · intro g hg hkey
    rw [hk'.seen, hseen] at hg
    rcases hleft g hg with h | h | h
    · exact .inl (List.mem_filter.mpr ⟨h, decide_eq_true hkey⟩)
    · exact .inr (.inl ⟨t, hclock, h⟩)
    · exact .inr (.inr h)

/-! ## The handlers -/

theorem signedBy_of_isSigned {consumer subject : String} {message : Bytes} {phone : BoundPhone}
    (hr : r.owner = some (consumer, subject) ∧ r.message = some message)
    (hphone : boundPhoneFor consumer subject k.phones = some phone)
    (hsigned : isSigned (boundVerifier cfg phone) message (at? r.body "signature_b64u") = true) :
    SignedBy cfg r k.phones := ⟨_, _, _, phone, hr.1, hr.2, hphone, hsigned⟩

theorem watched_handleGrant (body : Json) :
    Watched cfg (.grant body) .nothing (handleGrant cfg body) := by
  unfold handleGrant
  refine Monitor.obeys_ite (fun _ => watched_refuse _ _) fun _ => ?_
  cases hrecord : GrantRecord.fromDict (at? body "record") with
  | error refusal => exact watched_refuse _ _
  | ok record =>
    refine watched_call trivial fun (phones : List BoundPhone) _ => ?_
    cases hphone : boundPhoneFor record.consumer record.subject phones with
    | none => exact watched_refuse _ _
    | some phone =>
      refine watched_call trivial fun (now : ℤ) _ => ?_
      cases hverify : verifyGrant cfg.env record (at? body "signature_b64u") cfg.bootloaderId now
          (boundVerifier cfg phone) with
      | error refusal => exact watched_refuse _ _
      | ok grantId =>
        obtain ⟨-, -, -, hsigned, rfl⟩ := verifyGrant_eq_ok.mp hverify
        have hr : (VaultRequest.grant body).grantRecord = some record := by
          simp [VaultRequest.grantRecord, hrecord, Except.toOption]
        exact watched_admitGrant hr
          (signedBy_of_isSigned (VaultRequest.of_grantRecord hr) hphone hsigned) rfl

theorem watched_handleRevoke (body : Json) :
    Watched cfg (.revoke body) .nothing (handleRevoke cfg body) := by
  unfold handleRevoke
  refine Monitor.obeys_ite (fun _ => watched_refuse _ _) fun _ => ?_
  cases hrecord : RevokeRecord.fromDict (at? body "record") with
  | error refusal => exact watched_refuse _ _
  | ok record =>
    refine watched_call trivial fun (phones : List BoundPhone) _ => ?_
    cases hphone : boundPhoneFor record.consumer record.subject phones with
    | none => exact watched_refuse _ _
    | some phone =>
      dsimp only
      cases hverify : verifyRevoke record (at? body "signature_b64u") cfg.bootloaderId
          (boundVerifier cfg phone) with
      | error refusal => exact watched_refuse _ _
      | ok grantId =>
        obtain ⟨-, hsigned, -⟩ := verifyRevoke_eq_ok.mp hverify
        have hr : (VaultRequest.revoke body).revokeRecord = some record := by
          simp [VaultRequest.revokeRecord, hrecord, Except.toOption]
        exact watched_revokeGrant hr
          (signedBy_of_isSigned (VaultRequest.of_revokeRecord hr) hphone hsigned)

theorem watched_handleRevokeKey (body : Json) :
    Watched cfg (.revokeKey body) .nothing (handleRevokeKey cfg body) := by
  unfold handleRevokeKey
  refine Monitor.obeys_ite (fun _ => watched_refuse _ _) fun _ => ?_
  cases hrecord : RevokeKeyRecord.fromDict (at? body "record") with
  | error refusal => exact watched_refuse _ _
  | ok record =>
    refine watched_call trivial fun (phones : List BoundPhone) _ => ?_
    cases hphone : boundPhoneFor record.consumer record.subject phones with
    | none => exact watched_refuse _ _
    | some phone =>
      refine watched_call trivial fun (now : ℤ) _ => ?_
      cases hverify : verifyRevokeKey cfg.env record (at? body "signature_b64u") cfg.bootloaderId
          now (boundVerifier cfg phone) with
      | error refusal => exact watched_refuse _ _
      | ok actId =>
        obtain ⟨-, -, hsigned, -⟩ := verifyRevokeKey_eq_ok.mp hverify
        have hr : (VaultRequest.revokeKey body).stopRecord = some record := by
          simp [VaultRequest.stopRecord, hrecord, Except.toOption]
        exact watched_stopAll hr
          (signedBy_of_isSigned (VaultRequest.of_stopRecord hr) hphone hsigned) rfl

theorem watched_handler (r : VaultRequest) : Watched cfg r .nothing (r.handler cfg) := by
  cases r with
  | grant body => exact watched_handleGrant body
  | revoke body => exact watched_handleRevoke body
  | revokeKey body => exact watched_handleRevokeKey body

end
end UserVault
end Recto
