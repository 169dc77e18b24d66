import Recto.Server.LastOwner

/-!
# Member bindings

A member code carries the (consumer, subject) pair it was minted for, the
challenge it buys carries it on, and a registration on that challenge binds the
pair to a phone. In every run, whatever faults its writes meet: a pair is bound
to at most one phone, a phone is bound to at most one subject of a consumer, and
no pair is bound that no code was minted for.
-/

namespace Recto
namespace Server

open Genesis Faulty

variable {env : Host} {F : Fault → Prop}

/-- What the member plane reads: the phones, and the codes and challenges that carry a pair. -/
def Store.memberPlane (s : Store) : Dict String PhoneRegistration ×
    Dict String (ℤ × Option (String × String)) × Dict String (ℤ × Option (String × String)) :=
  (s.phones, s.memberPairingCodes, s.memberChallenges)

/-- The program leaves the member plane alone. -/
abbrev MembersAlone {α : Type} (F : Fault → Prop) (m : Served α) : Prop :=
  Leaves F Store.memberPlane m

/-! ## What is beside the member plane -/

theorem savePending_members : MembersAlone F savePending := .write _ fun _ => rfl

theorem saveSessions_members : MembersAlone F saveSessions := .write _ fun _ => rfl

theorem saveAfterPhones_members : MembersAlone F saveAfterPhones :=
  .bind (.handle saveSessions_members fun _ => .pure _) fun _ =>
    .handle savePending_members fun _ => .pure _

theorem addPending_members (card : PendingRequest) : MembersAlone F (addPending card) :=
  .bind (.modify fun _ => rfl) fun _ => savePending_members

theorem takePending_members (requestId : String) : MembersAlone F (takePending requestId) :=
  .bind .get fun _ => .ite (.bind (.modify fun _ => rfl) fun _ => savePending_members) (.pure _)

theorem takeCards_members (cards : Dict String String) : MembersAlone F (takeCards cards) :=
  .forEach takePending_members _

theorem drawToken_members : MembersAlone F (drawToken env) :=
  .bind .get fun _ => .bind (.modify fun _ => rfl) fun _ => .pure _

theorem drawCode_members : MembersAlone F (drawCode env) :=
  .bind .get fun _ => .bind (.modify fun _ => rfl) fun _ => .pure _

theorem uniqueCode_members : ∀ fuel, MembersAlone F (uniqueCode env fuel)
  | 0 => .raise _
  | fuel + 1 => .bind drawCode_members fun _ => .bind .get fun _ =>
      .ite (uniqueCode_members fuel) (.pure _)

theorem consumeChallenge_members (challenge : String) :
    MembersAlone F (consumeChallenge challenge) :=
  .bind .get fun _ => .bind (.modify fun _ => rfl) fun _ => .pure _

theorem consumeOwnerChallenge_members (challenge : String) :
    MembersAlone F (consumeOwnerChallenge challenge) :=
  .bind .get fun _ => .bind (.modify fun _ => rfl) fun _ => .pure _

theorem consumePairingCode_members (code : String) : MembersAlone F (consumePairingCode code) :=
  .bind .get fun _ => .bind (.modify fun _ => rfl) fun _ => .pure _

theorem spendOwnerChallenge_members (challenge : String) :
    MembersAlone F (spendOwnerChallenge challenge) :=
  .bind (consumeOwnerChallenge_members _) fun _ => .ofExcept _

theorem issueChallenge_members : MembersAlone F (issueChallenge env) :=
  .bind drawToken_members fun _ => .bind (.modify fun _ => rfl) fun _ => .pure _

theorem issueOwnerChallenge_members : MembersAlone F (issueOwnerChallenge env) :=
  .bind drawToken_members fun _ => .bind (.modify fun _ => rfl) fun _ => .pure _

theorem issuePairingCode_members (ttl : ℤ) : MembersAlone F (issuePairingCode env ttl) :=
  .bind (uniqueCode_members _) fun _ => .bind (.modify fun _ => rfl) fun _ => .pure _

theorem putTopPlaneRecord_members (record : TopPlaneRecord) :
    MembersAlone F (putTopPlaneRecord record) := .write _ fun _ => rfl

theorem addRevocation_members (entry : State.RevocationEntry) :
    MembersAlone F (addRevocation entry) :=
  .bind .get fun _ => .ite (.pure _) (.bind (.modify fun _ => rfl) fun _ => .write _ fun _ => rfl)

theorem setOwnerGenesis_members (state : OwnerGenesis) : MembersAlone F (setOwnerGenesis state) :=
  .write _ fun _ => rfl

theorem onChain_append_members (record : Record) :
    MembersAlone F (onChain (appendGenesisChainEntry env.toPrimitives record)) := by
  intro s
  exact .zoom ((append_chain F s.chain record).mono (fun _ _ _ => rfl) (fun _ _ _ => rfl)
    fun _ _ => rfl)

theorem cardDevices_members (recorded : Dict String String) (recordId : String) (message : Bytes)
    (ttl : ℤ) : ∀ phones cards,
      MembersAlone F (cardDevices env recorded recordId message ttl phones cards)
  | [], _ => .pure _
  | _ :: phones, _ => .bind drawToken_members fun _ => .bind .get fun _ =>
      .bind (addPending_members _) fun _ =>
        cardDevices_members recorded recordId message ttl phones _

/-! ### Owner enrolments -/

theorem putOwnerEnroll_members (r : OwnerEnroll) : MembersAlone F (putOwnerEnroll r) :=
  .modify fun _ => rfl

theorem deleteOwnerEnroll_members (requestId : String) :
    MembersAlone F (deleteOwnerEnroll requestId) :=
  .bind .get fun _ => .ite (.bind (.modify fun _ => rfl) fun _ => .pure _) (.pure _)

theorem voidOwnerEnrollsFor_members (ref : String) : MembersAlone F (voidOwnerEnrollsFor ref) :=
  .bind .get fun _ => .forEach (fun _ => .ite
    (.bind (putOwnerEnroll_members _) fun _ =>
      .forEach (fun _ => .handle (takePending_members _) fun _ => .pure _) _)
    (.pure _)) _

theorem refuseOwnerEnroll_members (r : OwnerEnroll) : MembersAlone F (refuseOwnerEnroll r) :=
  .bind (takeCards_members _) fun _ => putOwnerEnroll_members _

theorem dropUnsealedEnroll_members (old : OwnerEnroll) : MembersAlone F (dropUnsealedEnroll old) :=
  .ite (.bind (takeCards_members _) fun _ => .bind (deleteOwnerEnroll_members _) fun _ => .pure _)
    (.pure _)

theorem enrollCards_members (ask : Ask) (inc : Incoming) (notAfter : ℤ) (act : Option EnrollAct) :
    ∀ approvers, MembersAlone F (enrollCards env ask inc notAfter act approvers)
  | [] => .pure _
  | _ :: approvers => .bind drawToken_members fun _ => .bind .get fun _ =>
      .bind (enrollCards_members ask inc notAfter act approvers) fun _ => .pure _

theorem slotAct_members (ask : Ask) (inc : Incoming) (notAfter : ℤ) :
    MembersAlone F (slotAct env ask inc notAfter) := by
  unfold slotAct
  split
  · exact .pure _
  · exact .bind drawToken_members fun _ => .bind (.ofExcept _) fun _ => .pure _

theorem queueOwnerEnroll_members (ask : Ask) (inc : Incoming) :
    MembersAlone F (queueOwnerEnroll env ask inc) :=
  .bind .get fun _ => .bind drawToken_members fun _ => .bind (slotAct_members _ _ _) fun _ =>
    .bind (enrollCards_members _ _ _ _ _) fun _ => .bind (putOwnerEnroll_members _) fun _ =>
      .forEach (fun _ => addPending_members _) _

theorem contestSlot_members (ask : Ask) (inc : Incoming) :
    MembersAlone F (contestSlot env ask inc) :=
  .bind .get fun _ => .bind (.forEach refuseOwnerEnroll_members _) fun _ =>
    .bind drawToken_members fun _ => .bind (putOwnerEnroll_members _) fun _ =>
      .bind (consumeOwnerChallenge_members _) fun _ => .raise _

theorem requestApproval_members (ask : Ask) (inc : Incoming) :
    MembersAlone F (requestApproval env ask inc) := by
  refine .bind (spendOwnerChallenge_members _) fun _ => .bind .get fun s => ?_
  dsimp only
  split
  · exact .bind (queueOwnerEnroll_members _ _) fun _ => .raise _
  · split
    · exact .raise _
    · exact .bind (deleteOwnerEnroll_members _) fun _ =>
        .bind (queueOwnerEnroll_members _ _) fun _ => .raise _

theorem appendSlotEntry_members (act : EnrollAct) : MembersAlone F (appendSlotEntry env act) := by
  refine .handle (.bind (onChain_append_members _) fun _ => .pure _) fun e => ?_
  split <;> exact .raise _

/-! ### Resets and acts -/

theorem redeemResetCode_members (r : ResetRecord) : MembersAlone F (redeemResetCode env r) := by
  refine .bind drawToken_members fun token => .bind .get fun s => ?_
  split
  · exact .raise _
  · exact .ite (.bind (putTopPlaneRecord_members _) fun _ => .pure _) (.raise _)

theorem countResetCodeFailure_members : MembersAlone F countResetCodeFailure :=
  .bind .get fun _ => .forEach (fun _ => putTopPlaneRecord_members _) _

theorem registerFresh_members (r : ResetRecord) (inc : Incoming) :
    MembersAlone F (registerFresh env r inc) := by
  refine .bind .get fun s => ?_
  split
  · exact .raise _
  · exact .bind (.ofExcept _) fun _ => .bind (.ofExcept _) fun _ => .bind (.ofExcept _) fun _ =>
      .bind (.ofExcept _) fun _ => putTopPlaneRecord_members _

theorem openAct_members (draft : Draft) (sig : String) : MembersAlone F (openAct env draft sig) :=
  .bind .get fun _ => .bind (.ofExcept _) fun _ => .bind drawToken_members fun _ =>
    .bind (cardDevices_members _ _ _ _ _ _) fun _ =>
      .bind (putTopPlaneRecord_members _) fun _ => .pure _

theorem signEnroll_members (requestId signature : String) :
    MembersAlone F (signEnroll env requestId signature) :=
  .bind .get fun _ => .bind (.ofExcept _) fun _ => putOwnerEnroll_members _

theorem startReset_members (intent : Intent) (sig : String) :
    MembersAlone F (startReset env intent sig) :=
  .bind .get fun _ => .bind (.ofExcept _) fun _ => .bind (.ofExcept _) fun _ =>
    .bind (cardDevices_members _ _ _ _ _ _) fun _ => putTopPlaneRecord_members _

theorem spendLegNonce_members (intentId : String) (leg : Leg) (nonce : String) :
    MembersAlone F (spendLegNonce intentId leg nonce) := by
  refine .bind .get fun s => ?_
  split
  · exact .pure _
  · exact .bind (.ofExcept _) fun _ =>
      .bind (.handle (putTopPlaneRecord_members _) fun _ => .raise _) fun _ => .pure _

theorem armReset_members (arm : Arm) (sig : String) : MembersAlone F (armReset env arm sig) :=
  .bind .get fun _ => .bind (.ofExcept _) fun _ => .bind (spendLegNonce_members _ _ _) fun _ =>
    .bind .get fun _ => .bind (.ofExcept _) fun _ => .bind drawCode_members fun _ =>
      .bind (takeCards_members _) fun _ => .bind (putTopPlaneRecord_members _) fun _ => .pure _

theorem appendReset_members (record : Record) : MembersAlone F (appendReset env record) := by
  refine .handle (onChain_append_members _) fun e => ?_
  split <;> exact .raise _

theorem refuseAct_members {α : Type} (r : ActRecord) (status : ℕ) (error : String) :
    MembersAlone F (refuseAct r status error : Served α) :=
  .bind (putTopPlaneRecord_members _) fun _ => .raise _

theorem checkAct_members (r : ActRecord) (signature : String) :
    MembersAlone F (checkAct env r signature) :=
  .bind .get fun _ => .ite (.ite (.pure _) (refuseAct_members _ _ _))
    (.bind (.ofExcept _) fun _ => .bind (.ofExcept _) fun _ =>
      .ite (.pure _) (refuseAct_members _ _ _))

theorem appendAct_members (r : ActRecord) (signature : String) :
    MembersAlone F (appendAct env r signature) := by
  refine .handle (onChain_append_members _) fun e => ?_
  split
  · exact refuseAct_members _ _ _
  · exact .raise _

theorem cancelReset_members (r : ResetRecord) (phone : PhoneRegistration) :
    MembersAlone F (cancelReset r phone) :=
  .bind .get fun _ => .bind (takeCards_members _) fun _ => .bind (addRevocation_members _) fun _ =>
    putTopPlaneRecord_members _

theorem respondOwnerEnroll_members (requestId : String) (answer : Answer) :
    MembersAlone F (respondOwnerEnroll env requestId answer) := by
  refine .bind (.ofExcept _) fun _ => .bind .get fun s => ?_
  dsimp only
  split
  · exact .raise _
  · refine .bind (.ofExcept _) fun found => .bind (.ofExcept _) fun _ => .bind (.ofExcept _)
      fun _ => .ite ?_ ?_
    · exact .bind (takeCards_members _) fun _ => .bind (putOwnerEnroll_members _) fun _ => .pure _
    · exact .bind (refuseOwnerEnroll_members _) fun _ => .raise _

theorem respondOther_members (requestId : String) (answer : Answer) :
    MembersAlone F (respondOther requestId answer) :=
  .bind .get fun _ => .ite (.raise _)
    (.ite (.bind (takePending_members _) fun _ => .pure _) (.raise _))

theorem rotateOperator_members (draft : Draft) (cs : Option ChainState) :
    MembersAlone F (rotateOperator draft cs) :=
  .ite (.bind (.modify fun _ => rfl) fun _ =>
    .handle (.ite (.write _ fun _ => rfl) (.raise _)) fun _ => .pure _) (.pure _)

theorem settleIdentity_members (launch : Launch) : MembersAlone F (settleIdentity env launch) := by
  have hmark : Leaves F (fun _ => ()) (settleSealMark env.toPrimitives) := by
    refine .bind .get fun _ => .bind (.ofExcept _) fun plain => ?_
    cases plain with
    | none => exact .pure _
    | some plain => exact .write _ fun _ => rfl
  have hsettle : MembersAlone F (onChain (settleSealMark env.toPrimitives)) :=
    hmark.zoom fun _ _ _ => rfl
  exact .bind drawToken_members fun _ => .bind .get fun _ => .bind (.ofExcept _) fun _ =>
    .bind hsettle fun _ => .bind .get fun _ => .bind (.ofExcept _) fun _ =>
      .bind drawToken_members fun _ => .modify fun _ => rfl

theorem clearDeadResetCodes_members : MembersAlone F clearDeadResetCodes :=
  .bind .get fun _ => .forEach (fun _ => .ite (putTopPlaneRecord_members _) (.pure _)) _

theorem recardOpenResets_members : MembersAlone F (recardOpenResets env) :=
  .bind .get fun _ => .forEach (fun _ => .bind .get fun _ =>
    .ite (.bind (cardDevices_members _ _ _ _ _ _) fun _ => putTopPlaneRecord_members _) (.pure _)) _

theorem decideOwnerGenesis_members : MembersAlone F decideOwnerGenesis := by
  refine .bind .get fun _ => ?_
  split
  · exact setOwnerGenesis_members _
  · exact .ite (.pure _) (setOwnerGenesis_members _)
  · exact .pure _

/-! ## What the phones hold -/

/-- A phone stands under the ref of its key, no two phones hold one pair, a phone holds one subject
of a consumer, and every pair was minted. -/
structure Bindings (env : Host) (Minted : String × String → Prop)
    (phones : Dict String PhoneRegistration) : Prop where
  id : ∀ {ref p}, phones.get? ref = some p → p.phoneId = ref ∧ phoneRef env p.publicKey = ref
  sole : ∀ {ref ref' p p' b}, phones.get? ref = some p → phones.get? ref' = some p' →
    b ∈ p.memberBindings → b ∈ p'.memberBindings → ref = ref'
  subject : ∀ {ref p b b'}, phones.get? ref = some p → b ∈ p.memberBindings →
    b' ∈ p.memberBindings → b.1 = b'.1 → b.2 = b'.2
  minted : ∀ {ref p b}, phones.get? ref = some p → b ∈ p.memberBindings → Minted b

@[simp] theorem storedAs_memberBindings (phones : Dict String PhoneRegistration)
    (reg : PhoneRegistration) : (storedAs phones reg).memberBindings = reg.memberBindings := by
  unfold storedAs mergeOntoExisting
  split <;> rfl

namespace Bindings

variable {Minted : String × String → Prop} {phones : Dict String PhoneRegistration}
  {reg : PhoneRegistration}

theorem empty : Bindings env Minted Dict.empty where
  id h := by cases h
  sole h := by cases h
  subject h := by cases h
  minted h := by cases h

theorem erase (h : Bindings env Minted phones) (ref : String) :
    Bindings env Minted (phones.erase ref) := by
  have hsub : ∀ {ref' p}, (phones.erase ref).get? ref' = some p → phones.get? ref' = some p := by
    intro ref' p hp
    rw [Dict.get?_erase] at hp
    split at hp
    · cases hp
    · exact hp
  exact ⟨fun hp => h.id (hsub hp), fun hp hp' => h.sole (hsub hp) (hsub hp'),
    fun hp => h.subject (hsub hp), fun hp => h.minted (hsub hp)⟩

/-- A key lands under its own ref, whether the registry holds it or not. -/
theorem storedAs_phoneId_eq (h : Bindings env Minted phones)
    (hid : reg.phoneId = phoneRef env reg.publicKey) :
    (storedAs phones reg).phoneId = reg.phoneId := by
  rw [storedAs_phoneId]
  cases hfind : phones.values.find? fun p => p.publicKey = reg.publicKey with
  | none => rfl
  | some e =>
    obtain ⟨ref, href⟩ := Dict.mem_values_iff.mp (List.mem_of_find?_eq_some hfind)
    have hkey : e.publicKey = reg.publicKey := by simpa using List.find?_some hfind
    obtain ⟨heid, heref⟩ := h.id href
    rw [Option.map_some, Option.getD_some, heid, ← heref, hkey, hid]

theorem get?_withPhone (h : Bindings env Minted phones)
    (hid : reg.phoneId = phoneRef env reg.publicKey) {ref : String} {p : PhoneRegistration}
    (hp : (withPhone phones reg).get? ref = some p) :
    ref = reg.phoneId ∧ p = storedAs phones reg ∨ ref ≠ reg.phoneId ∧ phones.get? ref = some p := by
  rw [withPhone, Dict.get?_set, h.storedAs_phoneId_eq hid] at hp
  split at hp
  · rename_i href
    exact .inl ⟨href, (Option.some.inj hp).symm⟩
  · rename_i href
    exact .inr ⟨href, hp⟩

theorem withPhone (h : Bindings env Minted phones)
    (hid : reg.phoneId = phoneRef env reg.publicKey)
    (hsole : ∀ b ∈ reg.memberBindings, ∀ ref p, phones.get? ref = some p → b ∈ p.memberBindings →
      ref = reg.phoneId)
    (hsubject : ∀ b ∈ reg.memberBindings, ∀ b' ∈ reg.memberBindings, b.1 = b'.1 → b.2 = b'.2)
    (hminted : ∀ b ∈ reg.memberBindings, Minted b) :
    Bindings env Minted (withPhone phones reg) := by
  constructor
  case id =>
    intro ref p hp
    rcases h.get?_withPhone hid hp with ⟨rfl, rfl⟩ | ⟨-, hp⟩
    · exact ⟨h.storedAs_phoneId_eq hid, by rw [storedAs_publicKey, hid]⟩
    · exact h.id hp
  case sole =>
    intro ref ref' p p' b hp hp' hb hb'
    rcases h.get?_withPhone hid hp with ⟨rfl, rfl⟩ | ⟨-, hp⟩ <;>
      rcases h.get?_withPhone hid hp' with ⟨rfl, rfl⟩ | ⟨-, hp'⟩
    · rfl
    · rw [storedAs_memberBindings] at hb
      exact (hsole b hb ref' p' hp' hb').symm
    · rw [storedAs_memberBindings] at hb'
      exact hsole b hb' ref p hp hb
    · exact h.sole hp hp' hb hb'
  case subject =>
    intro ref p b b' hp hb hb'
    rcases h.get?_withPhone hid hp with ⟨rfl, rfl⟩ | ⟨-, hp⟩
    · rw [storedAs_memberBindings] at hb hb'
      exact hsubject b hb b' hb'
    · exact h.subject hp hb hb'
  case minted =>
    intro ref p b hp hb
    rcases h.get?_withPhone hid hp with ⟨rfl, rfl⟩ | ⟨-, hp⟩
    · rw [storedAs_memberBindings] at hb
      exact hminted b hb
    · exact h.minted hp hb

/-- A key that registers again holds what it held. -/
theorem again {s : Store} {phones' : Dict String PhoneRegistration} {inc : Incoming}
    (h : Bindings env Minted s.phones) (h' : Bindings env Minted phones')
    (hsub : ∀ {ref p}, phones'.get? ref = some p → s.phones.get? ref = some p)
    (href : inc.ref = phoneRef env inc.publicKey) (slot : Slot) :
    Bindings env Minted (Server.withPhone phones' (inc.again env slot s)) := by
  have hheld : ∀ b ∈ (inc.again env slot s).memberBindings,
      ∃ p, s.phones.get? inc.ref = some p ∧ b ∈ p.memberBindings := by
    intro b hb
    simp only [Incoming.again, Incoming.registration, PhoneRegistration.new, Store.getPhone] at hb
    cases hget : s.phones.get? inc.ref with
    | none => simp [hget] at hb
    | some p => exact ⟨p, rfl, by simpa [hget] using hb⟩
  refine h'.withPhone rfl ?_ ?_ ?_
  · intro b hb ref p hp hbp
    obtain ⟨q, hq, hbq⟩ := hheld b hb
    exact (h.sole (hsub hp) hq hbp hbq).trans href
  · intro b hb b' hb'
    obtain ⟨q, hq, hbq⟩ := hheld b hb
    obtain ⟨q', hq', hbq'⟩ := hheld b' hb'
    obtain rfl := Option.some.inj (hq.symm.trans hq')
    exact h.subject hq hbq hbq'
  · intro b hb
    obtain ⟨q, hq, hbq⟩ := hheld b hb
    exact h.minted hq hbq

/-- The phone a registration's key or ref names is the one under its ref. -/
theorem mine_eq {s : Store} {inc : Incoming} (h : Bindings env Minted s.phones)
    (href : inc.ref = phoneRef env inc.publicKey) : s.mine inc = s.phones.get? inc.ref := by
  unfold Store.mine
  cases hfind : s.findByPubkey inc.publicKey with
  | none => rfl
  | some e =>
    obtain ⟨ref, hget⟩ := Dict.mem_values_iff.mp (List.mem_of_find?_eq_some hfind)
    have hkey : e.publicKey = inc.publicKey := by simpa using List.find?_some hfind
    rw [Option.some_or, href, ← hkey, (h.id hget).2, hget]

end Bindings

/-! ## What a code or a challenge carries -/

/-- Every pair that a code or a challenge carries was minted. -/
def Carries (Minted : String × String → Prop) (d : Dict String (ℤ × Option (String × String))) :
    Prop :=
  ∀ value exp b, d.get? value = some (exp, some b) → Minted b

namespace Carries

variable {Minted : String × String → Prop} {d : Dict String (ℤ × Option (String × String))}

theorem empty : Carries Minted Dict.empty := fun _ _ _ h => by cases h

theorem erase (h : Carries Minted d) (value : String) : Carries Minted (d.erase value) := by
  intro value' exp b hget
  rw [Dict.get?_erase] at hget
  split at hget
  · cases hget
  · exact h _ _ _ hget

theorem set (h : Carries Minted d) (value : String) (exp : ℤ) {binding : Option (String × String)}
    (hb : ∀ b ∈ binding, Minted b) : Carries Minted (d.set value (exp, binding)) := by
  intro value' exp' b hget
  rw [Dict.get?_set] at hget
  split at hget
  · obtain ⟨-, rfl⟩ := Prod.mk.inj (Option.some.inj hget)
    exact hb b rfl
  · exact h _ _ _ hget

theorem liveBinding (h : Carries Minted d) (now : ℤ) (value : String) :
    ∀ b ∈ liveBinding d now value, Minted b := by
  intro b hb
  unfold Server.liveBinding at hb
  split at hb
  · rename_i exp binding hget
    split at hb
    · rw [Option.mem_def.mp hb] at hget
      exact h _ _ _ hget
    · cases hb
  · cases hb

end Carries

/-! ## The invariant -/

/-- The pairs of the member plane stand as they must. -/
structure Planned (env : Host) (Minted : String × String → Prop) (s : Store) : Prop where
  bindings : Bindings env Minted s.phones
  codes : Carries Minted s.memberPairingCodes
  challenges : Carries Minted s.memberChallenges

section Planned

variable {Minted : String × String → Prop} {s : Store}

theorem Planned.congr {s' : Store} (h : s'.memberPlane = s.memberPlane)
    (hs : Planned env Minted s) : Planned env Minted s' := by
  simp only [Store.memberPlane, Prod.mk.injEq] at h
  exact ⟨h.1 ▸ hs.bindings, h.2.1 ▸ hs.codes, h.2.2 ▸ hs.challenges⟩

theorem Planned.of_members {α : Type} {m : Served α} (h : MembersAlone F m) :
    Keeps F (Planned env Minted) m := h.keeps fun _ _ => Planned.congr

theorem Planned.withPhones (hs : Planned env Minted s) {phones : Dict String PhoneRegistration}
    (h : Bindings env Minted phones) {s' : Store}
    (hs' : s'.memberPlane = (phones, s.memberPairingCodes, s.memberChallenges)) :
    Planned env Minted s' :=
  Planned.congr (s := { s with phones := phones }) hs' ⟨h, hs.codes, hs.challenges⟩

/-! ### The registry's operations -/

theorem registerPhone_planned {reg : PhoneRegistration} (hs : Planned env Minted s)
    (hwith : Bindings env Minted (withPhone s.phones reg)) :
    (registerPhone reg).Sat F s (.always (Planned env Minted)) := by
  have hdone : Planned env Minted { s with phones := withPhone s.phones reg } :=
    hs.withPhones hwith rfl
  refine (registerPhone_sat reg s).mono ?_ ?_ ?_
  · rintro _ _ ⟨-, rfl⟩
    exact hdone
  · rintro _ _ rfl
    exact hs
  · rintro _ (rfl | rfl)
    · exact hs
    · exact hdone

theorem revokePhone_planned (ref : String) : Keeps F (Planned env Minted) (revokePhone ref) := by
  intro s hs
  have hgone : Planned env Minted { s with phones := s.phones.erase ref } :=
    hs.withPhones (hs.bindings.erase ref) rfl
  refine .bindGet (.ite (fun _ => ?_) fun _ => .pure hs)
  refine .bind (.write ?_ (fun _ => hs) (fun _ => hs) fun _ => hgone)
  refine .bindModify
    (Keeps.bind (Planned.of_members saveAfterPhones_members) (fun _ => .pure _) _ ?_)
  exact Planned.congr (s := { s with phones := s.phones.erase ref }) rfl hgone

theorem revokeAndVoid_planned (ref : String) :
    Keeps F (Planned env Minted) (revokeAndVoid ref) := by
  refine .bind (revokePhone_planned ref) fun _ => ?_
  exact .ite (fun _ => Planned.of_members (voidOwnerEnrollsFor_members ref)) fun _ => .pure _

theorem replacePhone_planned {occupant : String} {reg : PhoneRegistration}
    (hs : Planned env Minted s)
    (hwith : Bindings env Minted (withPhone (s.phones.erase occupant) reg)) :
    (replacePhone occupant reg).Sat F s (.always (Planned env Minted)) := by
  have hdone : Planned env Minted { s with phones := withPhone (s.phones.erase occupant) reg } :=
    hs.withPhones hwith rfl
  refine .bindGet ?_
  dsimp only
  refine .ite (fun _ => ?_) fun _ => .pure hs
  refine .bind (.write ?_ (fun _ => hs) (fun _ => hs) fun _ => hdone)
  refine .bindModify
    (Keeps.bind (Planned.of_members saveAfterPhones_members) (fun _ => .pure _) _ ?_)
  exact hs.withPhones hwith rfl

/-! ### Codes and challenges -/

theorem issueMemberPairingCode_planned (ttl : ℤ) {binding : Option (String × String)}
    (hb : ∀ b ∈ binding, Minted b) :
    Keeps F (Planned env Minted) (issueMemberPairingCode env ttl binding) := by
  refine .bind (Planned.of_members (uniqueCode_members _)) fun code s hs => ?_
  exact .bindModify (.pure ⟨hs.bindings, hs.codes.set code _ hb, hs.challenges⟩)

theorem issueMemberChallenge_planned {binding : Option (String × String)}
    (hb : ∀ b ∈ binding, Minted b) :
    Keeps F (Planned env Minted) (issueMemberChallenge env binding) := by
  refine .bind (Planned.of_members drawToken_members) fun challenge s hs => ?_
  exact .bindModify (.pure ⟨hs.bindings, hs.codes, hs.challenges.set challenge _ hb⟩)

theorem redeemCode_planned (code : String) (client : Client) :
    Keeps F (Planned env Minted) (redeemCode env code client) := by
  refine .bind (.ofExcept _) fun _ s hs => .bindGet ?_
  split
  · exact Planned.of_members (redeemResetCode_members _) s hs
  · have hchoice : ∀ (owner : Bool) (binding : Option (String × String)),
        (∀ b ∈ binding, Minted b) → Keeps F (Planned env Minted) (do
          if owner = false ∧ binding = none then
            if client.wasSpent = false ∧ client.isPublic = true then countResetCodeFailure
            else pure ⟨⟩
            Faulty.raise registrationExpired
          else if client.isPublic = true ∧ client.exposed = true then
            Faulty.raise registrationExpired
          else if owner then issueOwnerChallenge env
          else issueMemberChallenge env binding) := by
      intro owner binding hb
      refine .ite (fun _ => ?_) fun _ => .ite (fun _ => .raise _) fun _ => ?_
      · exact .ite
          (fun _ => .bind (Planned.of_members countResetCodeFailure_members) fun _ => .raise _)
          fun _ => .raise _
      · exact .ite (fun _ => Planned.of_members issueOwnerChallenge_members)
          fun _ => issueMemberChallenge_planned hb
    refine Keeps.bind (Planned.of_members (consumePairingCode_members _)) (fun owner => ?_) s hs
    refine .ite (fun _ s hs => .bind (.pure (hchoice owner none nofun s hs))) fun _ s hs => ?_
    -- the code is gone from the dictionary, and what it carried was minted
    refine .bind (.bindGet (.bindModify (.pure ?_)))
    exact hchoice owner _ (hs.codes.liveBinding _ _) _
      ⟨hs.bindings, hs.codes.erase code, hs.challenges⟩

/-! ### Registration -/

/-- What holds once no other phone holds the pair: every phone holds what it held, and the pair is
held under the newcomer's ref alone. -/
structure Released (env : Host) (Minted : String × String → Prop) (s₀ : Store) (ref : String)
    (binding : String × String) (s : Store) : Prop where
  planned : Planned env Minted s
  held : ∀ {ref' p b}, s.phones.get? ref' = some p → b ∈ p.memberBindings →
    ∃ p₀, s₀.phones.get? ref' = some p₀ ∧ b ∈ p₀.memberBindings
  alone : ∀ {ref' p}, s.phones.get? ref' = some p → binding ∈ p.memberBindings → ref' = ref

theorem releaseBinding_planned (hs : Planned env Minted s) {inc : Incoming}
    (href : inc.ref = phoneRef env inc.publicKey) (binding : String × String)
    (signature : Option String) :
    (releaseBinding env inc binding signature s.listPhones).Sat F s
      ⟨fun _ s' => Released env Minted s inc.ref binding s', fun _ => Planned env Minted,
        Planned env Minted⟩ := by
  unfold releaseBinding
  split
  · rename_i hnone
    refine .pure ⟨hs, fun hp hb => ⟨_, hp, hb⟩, fun {ref' p} hp hb => ?_⟩
    have hkey : p.publicKey = inc.publicKey := by
      simpa [hb] using List.find?_eq_none.mp hnone p (Dict.mem_values_iff.mpr ⟨ref', hp⟩)
    rw [href, ← hkey, (hs.bindings.id hp).2]
  · rename_i bound hbound
    obtain ⟨ref, hget⟩ := Dict.mem_values_iff.mp (List.mem_of_find?_eq_some hbound)
    have hholds : binding ∈ bound.memberBindings := (by
      simpa using List.find?_some hbound : _ ∧ _).1
    obtain ⟨hid, hkeyRef⟩ := hs.bindings.id hget
    set reg := { bound with memberBindings := bound.memberBindings.filter fun b => b ≠ binding }
    have hreg : reg.phoneId = phoneRef env reg.publicKey := hid.trans hkeyRef.symm
    have hsub : ∀ b ∈ reg.memberBindings, b ∈ bound.memberBindings := fun b hb =>
      List.mem_of_mem_filter hb
    have hwith : Bindings env Minted (withPhone s.phones reg) := by
      refine hs.bindings.withPhone hreg ?_ ?_ ?_
      · intro b hb ref' p hp hbp
        exact (hs.bindings.sole hp hget hbp (hsub b hb)).trans hid.symm
      · intro b hb b' hb'
        exact hs.bindings.subject hget (hsub b hb) (hsub b' hb')
      · intro b hb
        exact hs.bindings.minted hget (hsub b hb)
    have hdone : Planned env Minted { s with phones := withPhone s.phones reg } :=
      hs.withPhones hwith rfl
    refine .bindExcept (fun _ _ => .bindExcept (fun _ _ => ?_) fun _ _ => hs) fun _ _ => hs
    refine .bind ((registerPhone_sat reg s).mono ?_ ?_ ?_)
    · rintro _ _ ⟨-, rfl⟩
      refine .pure ⟨hdone, fun {ref' p b} hp hb => ?_, fun {ref' p} hp hb => ?_⟩
      · rcases hs.bindings.get?_withPhone hreg hp with ⟨rfl, rfl⟩ | ⟨-, hp⟩
        · rw [storedAs_memberBindings] at hb
          exact ⟨bound, by rw [show reg.phoneId = ref from hid, hget], hsub b hb⟩
        · exact ⟨p, hp, hb⟩
      · rcases hs.bindings.get?_withPhone hreg hp with ⟨rfl, rfl⟩ | ⟨hne, hp⟩
        · rw [storedAs_memberBindings] at hb
          simp [reg] at hb
        · exact absurd ((hs.bindings.sole hp hget hb hholds).trans hid.symm) hne
    · rintro _ _ rfl
      exact hs
    · rintro _ (rfl | rfl)
      · exact hs
      · exact hdone

theorem registerMember_planned {inc : Incoming} (href : inc.ref = phoneRef env inc.publicKey)
    (reg : Registration) : Keeps F (Planned env Minted) (registerMember env reg inc) := by
  refine .bind (.ofExcept _) fun _ s hs => .bindGet (.bind (.bindGet (.bindModify (.pure ?_))))
  have hs₁ : Planned env Minted
      { s with memberChallenges := s.memberChallenges.erase inc.challenge } :=
    ⟨hs.bindings, hs.codes, hs.challenges.erase _⟩
  have hlive := hs.challenges.liveBinding s.clock inc.challenge
  dsimp only
  split
  · exact .raise hs₁
  · rename_i binding hbinding
    rw [hbinding] at hlive
    refine .bindExcept (fun _ hown => ?_) fun _ _ => hs₁
    refine .bind ((releaseBinding_planned hs₁ href binding reg.memberRebind).mono ?_
      (fun _ _ h => h) fun _ h => h)
    intro _ s₂ h₂
    rw [hs.bindings.mine_eq href] at hown ⊢
    set own := ((s.phones.get? inc.ref).map PhoneRegistration.memberBindings).getD []
    have hheld : ∀ b ∈ own, ∃ p, s.phones.get? inc.ref = some p ∧ b ∈ p.memberBindings := by
      intro b hb
      simp only [own] at hb
      cases hget : s.phones.get? inc.ref with
      | none => simp [hget] at hb
      | some p => exact ⟨p, rfl, by simpa [hget] using hb⟩
    have hsame : ∀ b ∈ own, b.1 = binding.1 → b.2 = binding.2 := by
      simpa [demand, ensure_eq_ok] using hown
    have hmem : ∀ b, b ∈ own.filter (fun b => b ≠ binding) ++ [binding] →
        b ∈ own ∨ b = binding := by
      intro b hb
      rcases List.mem_append.mp hb with hb | hb
      · exact .inl (List.mem_of_mem_filter hb)
      · exact .inr (List.mem_singleton.mp hb)
    refine registerPhone_planned h₂.planned (h₂.planned.bindings.withPhone rfl ?_ ?_ ?_)
    · intro b hb ref p hp hbp
      rcases hmem b hb with hb | rfl
      · obtain ⟨p₀, hp₀, hb₀⟩ := h₂.held hp hbp
        obtain ⟨q, hq, hbq⟩ := hheld b hb
        exact (hs.bindings.sole hp₀ hq hb₀ hbq).trans href
      · exact (h₂.alone hp hbp).trans href
    · intro b hb b' hb' heq
      rcases hmem b hb with hold | hnew <;> rcases hmem b' hb' with hold' | hnew'
      · obtain ⟨q, hq, hbq⟩ := hheld b hold
        obtain ⟨q', hq', hbq'⟩ := hheld b' hold'
        obtain rfl := Option.some.inj (hq.symm.trans hq')
        exact hs.bindings.subject hq hbq hbq' heq
      · rw [hnew'] at heq ⊢
        exact hsame b hold heq
      · rw [hnew] at heq ⊢
        exact (hsame b' hold' heq.symm).symm
      · rw [hnew, hnew']
    · intro b hb
      rcases hmem b hb with hb | rfl
      · obtain ⟨q, hq, hbq⟩ := hheld b hb
        exact hs.bindings.minted hq hbq
      · exact hlive b rfl

theorem enterSlot_planned (ask : Ask) {inc : Incoming}
    (href : inc.ref = phoneRef env inc.publicKey) :
    Keeps F (Planned env Minted) (enterSlot env ask inc) := by
  refine fun s hs => .bindGet ?_
  split
  · exact registerPhone_planned hs (hs.bindings.again hs.bindings (fun h => h) href _)
  · rename_i occupant _
    have herased : ∀ {ref p}, (s.phones.erase occupant.phoneId).get? ref = some p →
        s.phones.get? ref = some p := by
      intro ref p hp
      rw [Dict.get?_erase] at hp
      split at hp
      · cases hp
      · exact hp
    refine .bindAlways (replacePhone_planned hs
      (hs.bindings.again (hs.bindings.erase _) herased href _)) fun reg s' h => ?_
    split
    · exact .raise h
    · exact Keeps.bind (Planned.of_members (voidOwnerEnrollsFor_members _)) (fun _ => .pure _) s' h

theorem seatOwner_planned (ask : Ask) (entry : OwnerEnroll) {inc : Incoming}
    (href : inc.ref = phoneRef env inc.publicKey) :
    Keeps F (Planned env Minted) (seatOwner env ask entry inc) := by
  unfold seatOwner
  refine .bind (Planned.of_members (spendOwnerChallenge_members inc.challenge)) fun _ => ?_
  refine .bind (Planned.of_members (deleteOwnerEnroll_members entry.requestId)) fun _ => ?_
  refine .bind (.ofExcept _) fun _ => ?_
  cases entry.topPlane with
  | some act =>
    exact .bind (Planned.of_members (appendSlotEntry_members act)) fun _ =>
      enterSlot_planned ask href
  | none => exact enterSlot_planned ask href

theorem registerOwner_planned {inc : Incoming} (href : inc.ref = phoneRef env inc.publicKey)
    (reg : Registration) : Keeps F (Planned env Minted) (registerOwner env reg inc) := by
  refine fun s hs => .bindGet (.bindExcept (fun a _ => ?_) fun _ _ => hs)
  have hagain : ∀ (s₁ : Store) (slot : Slot), s₁.memberPlane = s.memberPlane →
      Bindings env Minted (withPhone s₁.phones (inc.again env slot s)) := by
    intro s₁ slot h₁
    have hphones : s₁.phones = s.phones := congrArg Prod.fst h₁
    exact hs.bindings.again (hphones ▸ hs.bindings) (fun h => hphones ▸ h) href slot
  have hspend := spendOwnerChallenge_members (F := F) inc.challenge
  cases a with
  | repair slot =>
    exact hspend.bindSat (fun _ s₁ h₁ => registerPhone_planned (hs.congr h₁) (hagain s₁ _ h₁))
      (fun _ s₁ h₁ => hs.congr h₁) fun s₁ h₁ => hs.congr h₁
  | genesis slot =>
    refine hspend.bindSat (fun _ s₁ h₁ => ?_) (fun _ s₁ h₁ => hs.congr h₁) fun s₁ h₁ => hs.congr h₁
    refine .bindAlways (registerPhone_planned (hs.congr h₁) (hagain s₁ _ h₁)) fun _ s₂ hs₂ => ?_
    exact Keeps.bind (Planned.of_members (setOwnerGenesis_members _)) (fun _ => .pure _) s₂ hs₂
  | seat ask entry => exact seatOwner_planned ask entry href s hs
  | contested ask => exact Planned.of_members (contestSlot_members ask inc) s hs
  | ask ask => exact Planned.of_members (requestApproval_members ask inc) s hs

theorem register_planned (reg : Registration) :
    Keeps F (Planned env Minted) (register env reg) := by
  refine fun s hs => .bindGet (.bindExcept (fun ⟨kind, inc⟩ hadmit => ?_) fun _ _ => hs)
  have href := (admit_eq_ok hadmit).ref
  cases kind with
  | reset r =>
    exact Keeps.bind (Planned.of_members (registerFresh_members r inc)) (fun _ => .pure _) s hs
  | member => exact Keeps.bind (registerMember_planned href reg) (fun _ => .pure _) s hs
  | owner => exact Keeps.bind (registerOwner_planned href reg) (fun _ => .pure _) s hs

/-! ### Committed work -/

theorem seatFresh_planned (fresh : Fresh) (slot : OwnerSlot) (cs : Option ChainState) :
    Keeps F (Planned env Minted) (seatFresh env fresh slot cs) := by
  refine fun s hs => .bindGet (.ite (fun _ => ?_) fun _ => .pure hs)
  refine .bindAlways (registerPhone_planned hs ?_) fun _ _ h => .pure h
  exact hs.bindings.withPhone rfl (fun _ h => absurd h List.not_mem_nil)
    (fun _ h => absurd h List.not_mem_nil) fun _ h => absurd h List.not_mem_nil

theorem revokeLost_planned (cs : Option ChainState) (p : PhoneRegistration) :
    Keeps F (Planned env Minted) (revokeLost cs p) :=
  .ite (fun _ => .pure _) fun _ => revokeAndVoid_planned _

theorem finishResetSeat_planned (r : ResetRecord) (post : Option ChainState) :
    Keeps F (Planned env Minted) (finishResetSeat env r post) :=
  .bind (.ofExcept _) fun ⟨_, _⟩ => .bind .get fun _ => .bind (.ofExcept _) fun _ =>
    .bind (seatFresh_planned _ _ _) fun _ => .bind .get fun _ =>
      .bind (.forEach fun _ _ => revokeLost_planned _ _) fun _ =>
        .bind (Planned.of_members (putTopPlaneRecord_members _)) fun _ => .pure _

theorem removeDevice_planned (draft : Draft) (cs : Option ChainState) (approver : Option String) :
    Keeps F (Planned env Minted) (removeDevice draft cs approver) := by
  refine .bind .get fun s => ?_
  split
  · exact .pure _
  · exact .ite (fun _ => .pure _) fun _ => revokeAndVoid_planned _

theorem finishAct_planned (r : ActRecord) (approver : Option String) (post : Option ChainState) :
    Keeps F (Planned env Minted) (finishAct env r approver post) := by
  refine .bind .get fun s => .bind (.ofExcept _) fun cs => ?_
  have hput :
      Keeps F (Planned env Minted) (putTopPlaneRecord (.act { r with state := .appended })) :=
    Planned.of_members (putTopPlaneRecord_members _)
  have hremove : Keeps F (Planned env Minted)
      (if r.draft.op = Op.remove.name then (do
        removeDevice r.draft cs approver
        putTopPlaneRecord (.act { r with state := .appended }))
      else putTopPlaneRecord (.act { r with state := .appended })) :=
    .ite (fun _ => .bind (removeDevice_planned _ _ _) fun _ => hput) fun _ => hput
  have hdrop : Keeps F (Planned env Minted)
      (if r.draft.op = Op.sealId.name then (do
        let s ← Faulty.get
        Faulty.forEach dropUnsealedEnroll s.listOwnerEnrolls
        if r.draft.op = Op.remove.name then (do
          removeDevice r.draft cs approver
          putTopPlaneRecord (.act { r with state := .appended }))
        else putTopPlaneRecord (.act { r with state := .appended }))
      else if r.draft.op = Op.remove.name then (do
        removeDevice r.draft cs approver
        putTopPlaneRecord (.act { r with state := .appended }))
      else putTopPlaneRecord (.act { r with state := .appended })) :=
    .ite (fun _ => .bind .get fun _ =>
      .bind (Planned.of_members (.forEach dropUnsealedEnroll_members _)) fun _ => hremove)
      fun _ => hremove
  exact .ite (fun _ => .bind (Planned.of_members (rotateOperator_members _ _)) fun _ => hdrop)
    fun _ => hdrop

/-! ### Answers, acts and resets -/

theorem respondAct_planned (r : ActRecord) (phone : PhoneRegistration) (signature : String) :
    Keeps F (Planned env Minted) (respondAct env r phone signature) := by
  refine .bind .get fun s => .bind (Planned.of_members (takeCards_members _)) fun _ =>
    .ite (fun _ => ?_) fun _ => ?_
  · refine .handle (.bind (finishAct_planned _ _ _) fun _ => .pure _) fun e => ?_
    split <;> first | exact .raise _ | exact .pure _
  · refine .bind (Planned.of_members (checkAct_members _ _)) fun _ =>
      .bind (Planned.of_members (appendAct_members _ _)) fun _ => ?_
    exact .handle (.bind (finishAct_planned _ _ _) fun _ => .pure _) fun _ => .pure _

theorem respondTopPlaneCard_planned (requestId : String) (answer : Answer) :
    Keeps F (Planned env Minted) (respondTopPlaneCard env requestId answer) := by
  refine .bind (.ofExcept _) fun _ => .bind .get fun s => ?_
  split
  · exact .raise _
  · rename_i record _
    refine .bind (.ofExcept _) fun phone => ?_
    cases record with
    | act r => exact respondAct_planned r phone _
    | reset r =>
      exact .bind (.ofExcept _) fun _ =>
        .bind (Planned.of_members (cancelReset_members r phone)) fun _ => .pure _

theorem respond_planned (requestId : String) (answer : Answer) :
    Keeps F (Planned env Minted) (respond env requestId answer) := by
  have hother : Keeps F (Planned env Minted) (respondOther requestId answer) :=
    Planned.of_members (respondOther_members requestId answer)
  refine .bind .get fun s => .ite (fun _ => ?_) fun _ => .ite (fun _ => hother) fun _ =>
    .ite (fun _ => respondTopPlaneCard_planned _ _) fun _ => .ite (fun _ => ?_) fun _ => hother
  · exact Planned.of_members (respondOwnerEnroll_members _ _)
  · exact .bind (Planned.of_members (takePending_members _)) fun _ => .raise _

theorem completeReset_planned (intentId sig : String) :
    Keeps F (Planned env Minted) (completeReset env intentId sig) := by
  refine .bind .get fun s => .bind (.ofExcept _) fun cs => .bind (.ofExcept _) fun committed => ?_
  cases committed with
  | some r =>
    refine .handle (.bind (finishResetSeat_planned r none) fun _ => .pure _) fun e => ?_
    split <;> first | exact .raise _ | exact .pure _
  | none =>
    refine .bind (.ofExcept _) fun c =>
      .bind (Planned.of_members (appendReset_members _)) fun _ => ?_
    exact .handle (.bind (finishResetSeat_planned _ _) fun _ => .pure _) fun _ => .pure _

theorem finishAborted_planned (r : ResetRecord) :
    Keeps F (Planned env Minted) (finishAborted env r) := by
  refine .bind (.handle (.bind (finishResetSeat_planned r none) fun _ => .pure _) fun e => ?_)
    fun finished => .ite (fun _ => .raise _) fun _ => .pure _
  split <;> first | exact .raise _ | exact .pure _

theorem abortReset_planned (abort : Abort) (sig : String) :
    Keeps F (Planned env Minted) (abortReset env abort sig) := by
  refine .bind .get fun s => .bind (.ofExcept _) fun _ =>
    .bind (Planned.of_members (spendLegNonce_members _ _ _)) fun _ => .bind .get fun s =>
      .bind (.ofExcept _) fun ⟨r, committed⟩ => ?_
  cases committed with
  | true => exact finishAborted_planned r
  | false =>
    exact .bind (Planned.of_members (takeCards_members _)) fun _ =>
      .bind (Planned.of_members (addRevocation_members _)) fun _ =>
        .bind (Planned.of_members (putTopPlaneRecord_members _)) fun _ => .pure _

theorem revoke_planned (r : Revoke) : Keeps F (Planned env Minted) (revoke env r) := by
  refine .bind .get fun s => .bind (.ofExcept _) fun _ => ?_
  split
  · exact .bind (Planned.of_members (consumeChallenge_members _)) fun _ =>
      .bind (.ofExcept _) fun _ => .bind (.ofExcept _) fun _ => .bind (.ofExcept _) fun _ =>
        .bind (.ofExcept _) fun _ => revokeAndVoid_planned _
  · exact .raise _

/-! ### The start -/

theorem rollForwardRecord_planned (record : TopPlaneRecord) :
    Keeps F (Planned env Minted) (rollForwardRecord env record) := by
  cases record with
  | reset r =>
    exact .bind .get fun _ => .ite (fun _ => .bind (.ofExcept _) fun _ =>
      .ite (fun _ => .bind (finishResetSeat_planned r none) fun _ => .pure _) fun _ => .pure _)
      fun _ => .pure _
  | act r =>
    exact .bind .get fun _ => .ite (fun _ => finishAct_planned r none none) fun _ => .pure _

theorem rollForwardCommitted_planned :
    Keeps F (Planned env Minted) (rollForwardCommitted env) := by
  refine .bind .get fun s => ?_
  split
  · exact .pure _
  · exact .forEach fun record _ => .handle (rollForwardRecord_planned record) fun _ => .pure _

/-- A new process knows no code and no challenge. -/
theorem start_planned (launch : Launch) : Keeps F (Planned env Minted) (start env launch) := by
  intro s hs
  have hreloaded : Planned env Minted s.reloaded := ⟨hs.bindings, .empty, .empty⟩
  refine .bindModify (Keeps.bind (Planned.of_members (settleIdentity_members launch)) (fun _ => ?_)
    _ hreloaded)
  exact .bind (Planned.of_members clearDeadResetCodes_members) fun _ =>
    .bind rollForwardCommitted_planned fun _ =>
      .bind (Planned.of_members recardOpenResets_members) fun _ =>
        .bind (Planned.of_members decideOwnerGenesis_members) fun _ =>
          Planned.of_members (.modify fun _ => rfl)

/-! ## Runs -/

/-- The event mints a member code for the pair. -/
def Action.Mints (action : Action) (binding : String × String) : Prop :=
  ∃ ttl, action = .request (.mintMemberCode ttl (some binding))

theorem handleRequest_planned {r : Request}
    (hminted : ∀ binding, (Action.request r).Mints binding → Minted binding) :
    Keeps F (Planned env Minted) (handleRequest env r) := by
  have hanswer : ∀ {α : Type} {m : Served α} (wrap : α → Response),
      Keeps F (Planned env Minted) m → Keeps F (Planned env Minted) (answering wrap m) :=
    fun _ h => .bind h fun _ => .pure _
  cases r with
  | mintCode ttl => exact hanswer _ (Planned.of_members (issuePairingCode_members ttl))
  | mintMemberCode ttl binding =>
    refine hanswer _ (issueMemberPairingCode_planned ttl fun b hb => hminted b ⟨ttl, ?_⟩)
    rw [Option.mem_def.mp hb]
  | plainChallenge => exact hanswer _ (Planned.of_members issueChallenge_members)
  | redeemCode code client => exact hanswer _ (redeemCode_planned code client)
  | register reg => exact hanswer _ (register_planned reg)
  | respond requestId answer => exact hanswer _ (respond_planned requestId answer)
  | openAct draft sig => exact hanswer _ (Planned.of_members (openAct_members draft sig))
  | signEnroll requestId sig =>
    exact hanswer _ (Planned.of_members (signEnroll_members requestId sig))
  | startReset intent sig => exact hanswer _ (Planned.of_members (startReset_members intent sig))
  | armReset arm sig => exact hanswer _ (Planned.of_members (armReset_members arm sig))
  | completeReset intentId sig => exact hanswer _ (completeReset_planned intentId sig)
  | abortReset abort sig => exact hanswer _ (abortReset_planned abort sig)
  | revoke r => exact hanswer _ (revoke_planned r)

theorem perform_planned {action : Action}
    (hminted : ∀ binding, action.Mints binding → Minted binding) :
    Keeps F (Planned env Minted) (perform env action) := by
  cases action with
  | request r =>
    exact .bind .get fun _ => .bind (.ofExcept _) fun _ => handleRequest_planned hminted
  | start launch => exact .bind (start_planned launch) fun _ => .pure _
  | enrolMember record =>
    exact .bind (.ofExcept _) fun _ =>
      .bind (Planned.of_members (onChain_append_members _)) fun _ => .pure _

theorem serve_planned {event : Event} (hs : Planned env Minted s)
    (hminted : ∀ binding, event.action.Mints binding → Minted binding) :
    Planned env Minted (serve env s event).after := by
  have hlater : Planned env Minted (s.later event.elapsed) := Planned.congr (s := s) rfl hs
  have hend := Post.always_store
    (perform_planned (F := Fault.Any) hminted _ hlater event.faults fun _ _ => trivial)
  unfold Step.after serve
  dsimp only
  split
  · rename_i s' h
    rw [h] at hend
    exact Planned.congr (s := s') rfl hend
  · exact hend

theorem planned_runEvents (env : Host) (Minted : String × String → Prop) (clock : ℤ)
    (events : List Event)
    (hminted : ∀ event ∈ events, ∀ binding, event.action.Mints binding → Minted binding) :
    Planned env Minted (runEvents env (Store.new clock) events).2 := by
  induction events using List.reverseRecOn with
  | nil => exact ⟨.empty, .empty, .empty⟩
  | append_singleton events event ih =>
    rw [runEvents_concat]
    exact serve_planned (ih fun e he => hminted e (List.mem_append_left _ he))
      (hminted event (by simp))

end Planned

/-- In every run, whatever faults its writes meet: a (consumer, subject) pair is bound to at most
one phone, and a phone is bound to at most one subject of a consumer. -/
theorem memberBindings_exclusive (env : Host) (clock : ℤ) (events : List Event) :
    (∀ p ∈ (runEvents env (Store.new clock) events).2.listPhones,
      ∀ p' ∈ (runEvents env (Store.new clock) events).2.listPhones,
        ∀ binding ∈ p.memberBindings, binding ∈ p'.memberBindings → p = p') ∧
    ∀ p ∈ (runEvents env (Store.new clock) events).2.listPhones, ∀ consumer subject subject',
      (consumer, subject) ∈ p.memberBindings → (consumer, subject') ∈ p.memberBindings →
        subject = subject' := by
  have hbindings :=
    (planned_runEvents env (fun _ => True) clock events fun _ _ _ _ => trivial).bindings
  constructor
  · intro p hp p' hp' binding hb hb'
    obtain ⟨ref, href⟩ := Dict.mem_values_iff.mp hp
    obtain ⟨ref', href'⟩ := Dict.mem_values_iff.mp hp'
    obtain rfl := hbindings.sole href href' hb hb'
    exact Option.some.inj (href.symm.trans href')
  · intro p hp consumer subject subject' hb hb'
    obtain ⟨ref, href⟩ := Dict.mem_values_iff.mp hp
    exact hbindings.subject href hb hb' rfl

/-- In every run, whatever faults its writes meet, every pair that a phone is bound to was named by
a request of the run that minted a member code for it. -/
theorem memberBindings_minted (env : Host) (clock : ℤ) (events : List Event) :
    ∀ p ∈ (runEvents env (Store.new clock) events).2.listPhones, ∀ binding ∈ p.memberBindings,
      ∃ event ∈ events, ∃ ttl, event.action = .request (.mintMemberCode ttl (some binding)) := by
  intro p hp binding hb
  obtain ⟨ref, href⟩ := Dict.mem_values_iff.mp hp
  exact (planned_runEvents env (fun binding => ∃ event ∈ events, event.action.Mints binding) clock
    events fun event he binding h => ⟨event, he, h⟩).bindings.minted href hb

/-- A member code is minted and redeemed, and its phone registers. -/
def sampleMember : List Event :=
  [⟨0, [], .start sampleLaunch⟩, quietly (.mintMemberCode 60 (some ("console", "alice"))),
   quietly (.redeemCode "ccc" onHost),
   quietly (.register
     { sampleRegistration 4 3 "VFfIQQ" "ZmZmZmZmZmZmZmZmZmZmZmZmZmZmZmZmZmZmZmZmZmY" "Xcf1xQ" "" with
       slot := none })]

theorem memberBindings_minted_sample :
    ∃ p ∈ (runEvents sampleHost (Store.new 0) sampleMember).2.listPhones,
      ("console", "alice") ∈ p.memberBindings ∧ ∃ event ∈ sampleMember, ∃ ttl,
        event.action = .request (.mintMemberCode ttl (some ("console", "alice"))) := by
  have hbound : ∃ p ∈ (runEvents sampleHost (Store.new 0) sampleMember).2.listPhones,
      ("console", "alice") ∈ p.memberBindings := by
    decide +kernel
  obtain ⟨p, hp, hb⟩ := hbound
  exact ⟨p, hp, hb, memberBindings_minted sampleHost 0 sampleMember p hp _ hb⟩

end Server
end Recto
