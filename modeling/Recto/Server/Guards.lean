import Recto.Server.Checks
import Recto.Server.Finishing

/-!
# What each request keeps

The registry stays regular, and an owner phone stays once there was one: in every
request by itself, or where it finishes committed work, under the condition on
the store that the finishing asks.
-/

namespace Recto
namespace Server

open Genesis Faulty

variable {env : Host} {F : Fault → Prop} {H : Prop}

/-! ## Codes and challenges -/

theorem redeemResetCode_guarded (r : ResetRecord) :
    Keeps F (Guarded H) (redeemResetCode env r) := by
  refine .bind (Guarded.of_beside drawToken_beside) fun token s hs => .bindGet ?_
  split
  · exact .raise hs
  · rename_i current hcurrent
    refine .ite (fun _ => ?_) fun _ => .raise hs
    refine .bindAlways (putReset_guarded (fun fresh hfresh => ?_) s hs) fun _ _ h => .pure h
    exact hs.regular.getReset hcurrent fresh hfresh

theorem ResetRecord.wrongCode_fresh (r : ResetRecord) : r.wrongCode.fresh = r.fresh := by
  unfold wrongCode
  split <;> rfl

theorem countResetCodeFailure_guarded : Keeps F (Guarded H) countResetCodeFailure := by
  intro s hs
  refine .bindGet (Keeps.forEach (fun r hr => putReset_guarded ?_) s hs)
  rw [ResetRecord.wrongCode_fresh]
  exact hs.regular.reset (List.mem_of_mem_filter hr)

theorem redeemCode_guarded (code : String) (client : Client) :
    Keeps F (Guarded H) (redeemCode env code client) := by
  refine .bind (.ofExcept _) fun _ s hs => .bindGet ?_
  split
  · exact redeemResetCode_guarded _ s hs
  · have hchoice : ∀ (owner : Bool) (binding : Option (String × String)),
        Keeps F (Guarded H) (do
          if owner = false ∧ binding = none then
            if client.wasSpent = false ∧ client.isPublic = true then countResetCodeFailure
            else pure ⟨⟩
            Faulty.raise registrationExpired
          else if client.isPublic = true ∧ client.exposed = true then
            Faulty.raise registrationExpired
          else if owner then issueOwnerChallenge env
          else issueMemberChallenge env binding) := by
      intro owner binding
      refine .ite (fun _ => ?_) fun _ => .ite (fun _ => .raise _) fun _ => ?_
      · exact .ite (fun _ => .bind countResetCodeFailure_guarded fun _ => .raise _)
          fun _ => .raise _
      · exact .ite (fun _ => Guarded.of_beside issueOwnerChallenge_beside)
          fun _ => Guarded.of_beside (issueMemberChallenge_beside _)
    refine Keeps.bind (Guarded.of_beside (consumePairingCode_beside _)) (fun owner => ?_) s hs
    refine .ite (fun _ => .bind (.pure _) (hchoice owner)) fun _ => ?_
    exact .bind (Guarded.of_beside (consumeMemberPairingCode_beside _)) (hchoice owner)

/-! ## Registration -/

theorem registerFresh_guarded {kind : ChallengeKind} {inc : Incoming} {s₀ : Store}
    (hinc : Admitted env s₀ kind inc) (r : ResetRecord) :
    Keeps F (Guarded H) (registerFresh env r inc) := by
  refine fun s hs => .bindGet ?_
  split
  · exact .raise hs
  · refine Keeps.bind (.ofExcept _) (fun _ => .bind (.ofExcept _) fun _ => .bind (.ofExcept _)
      fun _ => .bind (.ofExcept _) fun _ => putReset_guarded ?_) s hs
    rintro fresh ⟨⟩
    exact hinc.canonical

theorem registerPhone_guarded {reg : PhoneRegistration} {s : Store} (hs : Guarded H s)
    (howner : H → HasOwner (withPhone s.phones reg)) :
    (registerPhone reg).Sat F s (.always (Guarded H)) := by
  have hwith : Guarded H { s with phones := withPhone s.phones reg } :=
    ⟨⟨hs.regular.registry.withPhone reg, hs.regular.canonical⟩, howner⟩
  refine (registerPhone_sat reg s).mono ?_ ?_ ?_
  · rintro _ _ ⟨-, rfl⟩
    exact hwith
  · rintro _ _ rfl
    exact hs
  · rintro _ (rfl | rfl)
    · exact hs
    · exact hwith

/-- The phone that gives a binding up stays in its slot. -/
theorem releaseBinding_guarded {s : Store} (hs : Guarded H s) (inc : Incoming)
    (binding : String × String) (signature : Option String) {phones : List PhoneRegistration}
    (hphones : ∀ p ∈ phones, p ∈ s.phones.values) :
    (releaseBinding env inc binding signature phones).Sat F s
      ⟨fun _ s' => Guarded H s' ∧ seatOf s'.phones = seatOf s.phones,
        fun _ => Guarded H, Guarded H⟩ := by
  unfold releaseBinding
  split
  · exact .pure ⟨hs, rfl⟩
  · rename_i bound hbound
    have hmem := hphones _ (List.mem_of_find?_eq_some hbound)
    set reg := { bound with memberBindings := bound.memberBindings.filter fun b => b ≠ binding }
    have hseat : seatOf (withPhone s.phones reg) = seatOf s.phones :=
      seatOf_withPhone hs.regular.registry hmem rfl rfl
    have howner : H → HasOwner (withPhone s.phones reg) := by
      intro hH
      obtain ⟨ref, slot, hslot⟩ := hs.owner hH
      exact ⟨ref, slot, by rwa [slotOf_eq_seatOf, hseat, ← slotOf_eq_seatOf]⟩
    have hwith : Guarded H { s with phones := withPhone s.phones reg } :=
      ⟨⟨hs.regular.registry.withPhone _, hs.regular.canonical⟩, howner⟩
    refine .bindExcept (fun moved _ => .bindExcept (fun _ _ => ?_) fun _ _ => hs) fun _ _ => hs
    refine .bind ((registerPhone_sat reg s).mono ?_ ?_ ?_)
    · rintro _ _ ⟨-, rfl⟩
      exact .pure ⟨hwith, hseat⟩
    · rintro _ _ rfl
      exact hs
    · rintro _ (rfl | rfl)
      · exact hs
      · exact hwith

theorem registerMember_guarded {kind : ChallengeKind} {inc : Incoming} {s : Store}
    (hinc : Admitted env s kind inc) (reg : Registration) (hs : Guarded H s) :
    (registerMember env reg inc).Sat F s (.always (Guarded H)) := by
  refine .bindExcept (fun _ _ => .bindGet ?_) fun _ _ => hs
  refine (consumeMemberChallenge_beside _).seats.bindSat (fun found s₁ h₁ => ?_)
    (fun _ s₁ h₁ => hs.congr h₁) fun s₁ h₁ => hs.congr h₁
  have hs₁ := hs.congr h₁
  have hphones : s₁.phones = s.phones := congrArg Prod.fst h₁
  split
  · exact .raise hs₁
  · rename_i binding
    refine .bindExcept (fun _ _ => ?_) fun _ _ => hs₁
    refine .bind ((releaseBinding_guarded hs₁ inc binding reg.memberRebind fun p hp => ?_).mono
      ?_ (fun _ _ h => h) fun _ h => h)
    · rw [hphones]
      exact hp
    · rintro _ s₂ ⟨hs₂, hseats⟩
      refine registerPhone_guarded hs₂ fun hH => KeepsSlot.hasOwner ?_ (hs₂.owner hH)
      refine keepsSlot_of_mine hs.regular.registry hs₂.regular.registry (by rw [hseats, hphones])
        rfl hinc.ref.symm fun p hp => ?_
      rw [Option.mem_def] at hp
      simp [Incoming.registration, PhoneRegistration.new, hp]

/-! ## The owner plane -/

theorem onChain_append_guarded (record : Record) :
    Keeps F (Guarded H) (onChain (appendGenesisChainEntry env.toPrimitives record)) := by
  intro s hs
  have hchain : ∀ chain, Guarded H { s with chain := chain } :=
    fun _ => ⟨⟨hs.regular.registry, hs.regular.canonical⟩, hs.owner⟩
  exact .zoom ((append_chain F s.chain record).mono (fun _ _ _ => hchain _)
    (fun _ _ _ => hchain _) fun _ _ => hchain _)

theorem appendSlotEntry_guarded (act : EnrollAct) :
    Keeps F (Guarded H) (appendSlotEntry env act) := by
  refine .handle (.bind (onChain_append_guarded _) fun _ => .pure _) fun e => ?_
  split <;> exact .raise _

/-- The newcomer is in the slot whichever way the write of the occupant's removal ends. -/
theorem enterSlot_guarded (ask : Ask) (inc : Incoming) :
    Keeps F (Guarded H) (enterSlot env ask inc) := by
  refine fun s hs => .bindGet ?_
  split
  · exact registerPhone_guarded hs fun _ => hasOwner_withPhone rfl
  · rename_i occupant _
    have hentered : Guarded H { s with
        phones := withPhone (s.phones.erase occupant.phoneId) (inc.again env (.owner ask.slot) s) } :=
      ⟨⟨(hs.regular.registry.erase _).withPhone _, hs.regular.canonical⟩,
        fun _ => hasOwner_withPhone rfl⟩
    have hstep : ∀ s' : Store, (s'.seating = s.seating ∨
        s'.seating = (withPhone (s.phones.erase occupant.phoneId) (inc.again env (.owner ask.slot) s),
          s.topPlane, s.chain)) → Guarded H s' := by
      rintro s' (h | h)
      · exact hs.congr h
      · exact Guarded.congr (by exact h) hentered
    refine .bindAlways ((replacePhone_seats occupant.phoneId (inc.again env (.owner ask.slot) s)
      s).mono (fun _ => hstep) (fun _ => hstep) hstep) fun reg s' h => ?_
    split
    · exact .raise h
    · exact Keeps.bind (Guarded.of_seats (voidOwnerEnrollsFor_seats _)) (fun _ => .pure _) s' h

theorem seatOwner_guarded (ask : Ask) (entry : OwnerEnroll) (inc : Incoming) :
    Keeps F (Guarded H) (seatOwner env ask entry inc) := by
  unfold seatOwner
  refine .bind (Guarded.of_beside (spendOwnerChallenge_beside inc.challenge)) fun _ => ?_
  refine .bind (Guarded.of_seats (deleteOwnerEnroll_seats entry.requestId)) fun _ => ?_
  refine .bind (.ofExcept _) fun _ => ?_
  cases entry.topPlane with
  | some act => exact .bind (appendSlotEntry_guarded act) fun _ => enterSlot_guarded ask inc
  | none => exact enterSlot_guarded ask inc

theorem registerOwner_guarded {kind : ChallengeKind} {inc : Incoming} {s : Store}
    (hinc : Admitted env s kind inc) (reg : Registration) (hs : Guarded H s) :
    (registerOwner env reg inc).Sat F s (.always (Guarded H)) := by
  refine .bindGet (.bindExcept (fun a ha => ?_) fun _ _ => hs)
  have hspend := (spendOwnerChallenge_beside (F := F) inc.challenge).seats
  cases ownerAdmission_eq_ok ha with
  | repair mine hmine =>
    refine hspend.bindSat (fun _ s₁ h₁ => ?_) (fun _ s₁ h₁ => hs.congr h₁) fun s₁ h₁ => hs.congr h₁
    have hphones : s₁.phones = s.phones := congrArg Prod.fst h₁
    have hs₁ := hs.congr h₁
    refine registerPhone_guarded hs₁ fun hH => KeepsSlot.hasOwner ?_ (hs₁.owner hH)
    refine keepsSlot_of_mine hs.regular.registry hs₁.regular.registry (by rw [hphones]) rfl
      hinc.ref.symm fun p hp => ?_
    obtain rfl : mine = p := Option.some.inj (hmine.symm.trans hp)
    rfl
  | genesis slot =>
    refine hspend.bindSat (fun _ s₁ h₁ => ?_) (fun _ s₁ h₁ => hs.congr h₁) fun s₁ h₁ => hs.congr h₁
    refine .bindAlways (registerPhone_guarded (hs.congr h₁) fun _ => hasOwner_withPhone rfl)
      fun _ s₂ hs₂ => ?_
    exact Keeps.bind (Guarded.of_seats (setOwnerGenesis_seats _)) (fun _ => .pure _) s₂ hs₂
  | seat ask entry => exact seatOwner_guarded ask entry inc s hs
  | contested ask => exact Guarded.of_seats (contestSlot_seats ask inc) s hs
  | ask ask => exact Guarded.of_seats (requestApproval_seats ask inc) s hs

theorem register_guarded (reg : Registration) : Keeps F (Guarded H) (register env reg) := by
  refine fun s hs => .bindGet (.bindExcept (fun ⟨kind, inc⟩ hadmit => ?_) fun _ _ => hs)
  have hinc := admit_eq_ok hadmit
  cases kind with
  | reset r => exact Keeps.bind (registerFresh_guarded hinc r) (fun _ => .pure _) s hs
  | member => exact .bindAlways (registerMember_guarded hinc reg hs) fun _ _ h => .pure h
  | owner => exact .bindAlways (registerOwner_guarded hinc reg hs) fun _ _ h => .pure h

/-! ## Answers to cards -/

theorem respondOwnerEnroll_seats (requestId : String) (answer : Answer) :
    SeatsAlone F (respondOwnerEnroll env requestId answer) := by
  refine .bind (.ofExcept _) fun _ => .bind .get fun s => ?_
  dsimp only
  split
  · exact .raise _
  · refine .bind (.ofExcept _) fun found => .bind (.ofExcept _) fun _ => .bind (.ofExcept _)
      fun _ => .ite ?_ ?_
    · exact .bind (Beside.seats (takeCards_beside _)) fun _ =>
        .bind (putOwnerEnroll_seats _) fun _ => .pure _
    · exact .bind (refuseOwnerEnroll_seats _) fun _ => .raise _

theorem cancelReset_guarded {r : ResetRecord} (hr : ∀ fresh ∈ r.fresh, CanonicalKey fresh.publicKey)
    (phone : PhoneRegistration) : Keeps F (Guarded H) (cancelReset r phone) :=
  .bind .get fun _ => .bind (Guarded.of_beside (takeCards_beside _)) fun _ =>
    .bind (Guarded.of_seats (addRevocation_seats _)) fun _ => putReset_guarded hr

theorem refuseAct_guarded {α : Type} {s : Store} (hs : Guarded H s) (r : ActRecord) (status : ℕ)
    (error : String) : (refuseAct r status error : Served α).Sat F s
      ⟨fun _ _ => False, fun _ => Guarded H, Guarded H⟩ :=
  .bind ((putTopPlaneRecord_guarded (show TopPlaneRecord.Canonical (.act { r with state := .refused })
    from trivial) s hs).mono
    (fun _ _ h => .raise h) (fun _ _ h => h) fun _ h => h)

theorem appendAct_guarded {s : Store} (hs : Guarded H s) (r : ActRecord) (signature : String) :
    (appendAct env r signature).Sat F s
      ⟨fun post s' => Guarded H s' ∧ s'.phones = s.phones ∧ ∃ entries mark,
          checkAppend env.toPrimitives s.chain (recordOf r.draft [r.passphraseSig, signature]) =
            .ok (entries, post, mark),
        fun _ => Guarded H, Guarded H⟩ := by
  have hchain : ∀ chain, Guarded H { s with chain := chain } :=
    fun _ => ⟨⟨hs.regular.registry, hs.regular.canonical⟩, hs.owner⟩
  refine .handle (.zoom ((append_chain F s.chain _).mono (fun post _ h => ?_) (fun e _ h => ?_)
    fun _ _ => hchain _))
  · exact ⟨hchain _, rfl, h.1⟩
  · dsimp only
    split
    · exact (refuseAct_guarded (hchain _) r _ _).mono (fun _ _ h => h.elim) (fun _ _ h => h)
        fun _ h => h
    · exact .raise (hchain _)

theorem checkAct_guarded {s : Store} (hs : Guarded H s) (r : ActRecord) (signature : String) :
    (checkAct env r signature).Sat F s
      ⟨fun _ s' => s' = s, fun _ => Guarded H, Guarded H⟩ := by
  have hrefuse : ∀ status error, (refuseAct r status error : Served PUnit).Sat F s
      ⟨fun _ s' => s' = s, fun _ => Guarded H, Guarded H⟩ := fun status error =>
    (refuseAct_guarded hs r status error).mono (fun _ _ h => h.elim) (fun _ _ h => h) fun _ h => h
  refine .bindGet (.ite (fun _ => .ite (fun _ => .pure rfl) fun _ => hrefuse _ _) fun _ => ?_)
  refine .bindExcept (fun _ _ => .bindExcept (fun _ _ => ?_) fun _ _ => hs) fun _ _ => hs
  exact .ite (fun _ => .pure rfl) fun _ => hrefuse _ _

theorem finishAct_answered {s : Store} (hs : Guarded H s) {r : ActRecord} {approver : Option String}
    {post : Option ChainState} (hspared : s.OwnerSpared (chainAfter env post s) approver [.act r])
    {handler : Refusal → Served Responded} (hhandler : ∀ e, Keeps F (Guarded H) (handler e)) :
    (Faulty.handle (do
      finishAct env r approver post
      pure (Responded.appended true)) handler).Sat F s (.always (Guarded H)) :=
  .handle (.bind ((finishAct_guarded hs hspared).mono (fun _ _ h => .pure h)
    (fun e s' h => hhandler e s' h) fun _ h => h))

theorem respondAct_guarded {s : Store} (hs : Guarded H s) {r : ActRecord}
    {phone : PhoneRegistration} {signature : String}
    (hspared : s.OwnerSpared (r.chainAt env s signature) (some phone.phoneId) [.act r]) :
    (respondAct env r phone signature).Sat F s (.always (Guarded H)) := by
  refine .bindGet ((takeCards_beside r.cards).seats.bindSat (fun _ s₁ h₁ => ?_)
    (fun _ _ h => hs.congr h) fun _ h => hs.congr h)
  have hs₁ := hs.congr h₁
  simp only [Store.seating, Prod.mk.injEq] at h₁
  obtain ⟨hphones, -, hchain⟩ := h₁
  refine .ite (fun hcommitted => ?_) fun hcommitted => ?_
  · refine finishAct_answered hs₁ ?_ fun e => ?_
    · rw [ActRecord.chainAt, if_pos hcommitted] at hspared
      rw [chainAfter_congr hchain]
      exact hspared.congr hphones
    · split <;> first | exact .raise _ | exact .pure _
  · refine .bind ((checkAct_guarded hs₁ r signature).mono ?_ (fun _ _ h => h) fun _ h => h)
    rintro _ _ rfl
    refine .bind ((appendAct_guarded hs₁ r signature).mono ?_ (fun _ _ h => h) fun _ h => h)
    rintro post s₂ ⟨hs₂, hphones₂, entries, mark, happend⟩
    refine finishAct_answered hs₂ ?_ fun e => .pure _
    rw [hchain] at happend
    rw [ActRecord.chainAt, if_neg hcommitted, happend] at hspared
    exact hspared.congr (hphones₂.trans hphones)

theorem respondTopPlaneCard_guarded {s : Store} (hs : Guarded H s) {requestId : String}
    {answer : Answer} (hleaves : (Action.request (.respond requestId answer)).LeavesOwner env s) :
    (respondTopPlaneCard env requestId answer).Sat F s (.always (Guarded H)) := by
  refine .bindExcept (fun _ happroved => .bindGet ?_) fun _ _ => hs
  split
  · exact .raise hs
  · rename_i record hrecord
    refine .bindExcept (fun phone hphone => ?_) fun _ _ => hs
    cases record with
    | act r =>
      refine respondAct_guarded hs ?_
      simp only [Action.LeavesOwner, Answer.LeavesOwner, hrecord, hphone] at hleaves
      exact hleaves (ensure_eq_ok.mp happroved)
    | reset r =>
      have hmem : r ∈ s.listResets := Store.mem_listResets.mpr (List.mem_of_find?_eq_some hrecord)
      refine .bindExcept (fun _ _ => ?_) fun _ _ => hs
      exact .bindAlways (cancelReset_guarded (hs.regular.reset hmem) phone s hs) fun _ _ h => .pure h

theorem respond_guarded {s : Store} (hs : Guarded H s) {requestId : String} {answer : Answer}
    (hleaves : (Action.request (.respond requestId answer)).LeavesOwner env s) :
    (respond env requestId answer).Sat F s (.always (Guarded H)) := by
  have hother := Guarded.of_beside (H := H) (respondOther_beside (F := F) requestId answer) s hs
  refine .bindGet (.ite (fun _ => ?_) fun _ => .ite (fun _ => hother) fun _ =>
    .ite (fun _ => ?_) fun _ => .ite (fun _ => ?_) fun _ => hother)
  · exact Guarded.of_seats (respondOwnerEnroll_seats _ _) s hs
  · exact respondTopPlaneCard_guarded hs hleaves
  · exact Keeps.bind (Guarded.of_beside (takePending_beside _)) (fun _ => .raise _) s hs

/-! ## Acts and resets -/

theorem openAct_guarded (draft : Draft) (sig : String) :
    Keeps F (Guarded H) (openAct env draft sig) :=
  .bind .get fun _ => .bind (.ofExcept _) fun _ => .bind (Guarded.of_beside drawToken_beside)
    fun _ => .bind (Guarded.of_beside (cardDevices_beside _ _ _ _ _ _)) fun _ =>
      .bind (putTopPlaneRecord_guarded trivial) fun _ => .pure _

theorem signEnroll_seats (requestId signature : String) :
    SeatsAlone F (signEnroll env requestId signature) :=
  .bind .get fun _ => .bind (.ofExcept _) fun _ => putOwnerEnroll_seats _

theorem startReset_guarded (intent : Intent) (sig : String) :
    Keeps F (Guarded H) (startReset env intent sig) :=
  .bind .get fun _ => .bind (.ofExcept _) fun _ => .bind (.ofExcept _) fun _ =>
    .bind (Guarded.of_beside (cardDevices_beside _ _ _ _ _ _)) fun _ => putReset_guarded nofun

theorem spendLegNonce_guarded (intentId : String) (leg : Leg) (nonce : String) {s : Store}
    (hs : Guarded H s) : (spendLegNonce intentId leg nonce).Sat F s
      ⟨fun spent s' => Guarded H s' ∧ s'.phones = s.phones ∧ s'.chain = s.chain ∧
          ∀ r ∈ spent, ∃ r₀, s.getReset intentId = some r₀ ∧ r = r₀.spend leg nonce,
        fun _ => Guarded H, Guarded H⟩ := by
  refine .bindGet ?_
  split
  · exact .pure ⟨hs, rfl, rfl, by simp⟩
  · rename_i r hr
    have hfresh : (r.spend leg nonce).fresh = r.fresh := by cases leg <;> rfl
    have hcanonical : (TopPlaneRecord.reset (r.spend leg nonce)).Canonical := by
      intro fresh h
      rw [hfresh] at h
      exact hs.regular.getReset hr fresh h
    have hput : Guarded H
        { s with topPlane := s.topPlane.set (r.spend leg nonce).id (.reset (r.spend leg nonce)) } :=
      ⟨hs.regular.put hcanonical, hs.owner⟩
    refine .bindExcept (fun _ _ => ?_) fun _ _ => hs
    refine .bind (.handle (.write ?_ (fun _ => .raise hs) (fun _ => hs) fun _ => hput))
    refine .pure ⟨hput, rfl, rfl, fun r' hr' => ?_⟩
    exact ⟨r, hr, (Option.some.inj hr').symm⟩

theorem armReset_guarded (arm : Arm) (sig : String) : Keeps F (Guarded H) (armReset env arm sig) := by
  refine fun s hs => .bindGet (.bindExcept (fun _ _ => ?_) fun _ _ => hs)
  refine .bind ((spendLegNonce_guarded _ _ _ hs).mono (fun _ s' h => ?_) (fun _ _ h => h)
    fun _ h => h)
  exact Keeps.bind .get (fun _ => .bind (.ofExcept _) fun _ =>
    .bind (Guarded.of_beside drawCode_beside) fun _ =>
      .bind (Guarded.of_beside (takeCards_beside _)) fun _ =>
        .bind (putReset_guarded (by simp [ResetRecord.armed])) fun _ => .pure _) s' h.1

/-- The fresh key of the entry just appended is the chain's member, so no phone is removed without
its device. -/
theorem Completing.seated {s : Store} {cs : ChainState} {intentId sig : String} {c : Completion}
    (hc : Completing env s cs intentId sig c) (hs : s.Regular) {store : ChainStore}
    {entries : List ChainEntry} {post : ChainState} {mark : Json}
    (happend : checkAppend env.toPrimitives store c.record = .ok (entries, post, mark)) :
    hc.fresh.IsSeated hc.slot (some post) := by
  obtain ⟨hfresh, -⟩ := answered_eq_ok hc.answered
  have hrecord := hc.record
  obtain ⟨entry, hentry, hpubkey⟩ := candidate_seats (checkAppend_candidate happend)
    (Or.inr (by rw [hrecord]; rfl))
  have hvalue : entry.pubkey = hc.value := by
    rw [hrecord] at hpubkey
    exact Option.some.inj (hpubkey.symm.trans (fromHex_hex hc.value))
  rw [hrecord] at hentry
  obtain ⟨raw, hraw, hkey⟩ := hs.getReset hc.opened.get _ hfresh
  obtain rfl : raw = hc.value := Option.some.inj (hraw.symm.trans hc.value_eq)
  simp only [Fresh.IsSeated, Option.bind_some]
  exact Option.map_eq_some_iff.mpr ⟨entry, hentry, by rw [hvalue, hkey]⟩

theorem finishCommitted_guarded {s : Store} (hs : Guarded H s) {r : ResetRecord}
    (hspared : s.OwnerSpared (currentChain env s) none [.reset r]) :
    (finishCommitted env r).Sat F s (.always (Guarded H)) := by
  refine .handle (.bind ((finishResetSeat_guarded hs none hspared).mono
    (fun _ _ h => .pure h) (fun e s' h => ?_) fun _ h => h))
  dsimp only
  split
  · exact .raise h
  · exact .pure h

theorem appendReset_guarded (record : Record) {s : Store} (hs : Guarded H s) :
    (appendReset env record).Sat F s
      ⟨fun post s' => Guarded H s' ∧ ∃ entries mark,
          checkAppend env.toPrimitives s.chain record = .ok (entries, post, mark),
        fun _ => Guarded H, Guarded H⟩ := by
  have hchain : ∀ chain, Guarded H { s with chain := chain } :=
    fun _ => ⟨⟨hs.regular.registry, hs.regular.canonical⟩, hs.owner⟩
  refine .handle (.zoom ((append_chain F s.chain _).mono (fun post _ h => ⟨hchain _, h.1⟩)
    (fun e _ h => ?_) fun _ _ => hchain _))
  dsimp only
  split <;> exact .raise (hchain _)

theorem completeReset_guarded {s : Store} (hs : Guarded H s) {intentId sig : String}
    (hleaves : (Action.request (.completeReset intentId sig)).LeavesOwner env s) :
    (completeReset env intentId sig).Sat F s (.always (Guarded H)) := by
  refine .bindGet (.bindExcept (fun cs hsealed => .bindExcept (fun committed hcommitted => ?_)
    fun _ _ => hs) fun _ _ => hs)
  cases committed with
  | some r =>
    refine finishCommitted_guarded hs ?_
    simpa only [Action.LeavesOwner, CommittedLeavesOwner, hsealed, hcommitted] using hleaves
  | none =>
    refine .bindExcept (fun c hc => ?_) fun _ _ => hs
    obtain ⟨hc⟩ := checkComplete_eq_ok hc
    refine .bind ((appendReset_guarded c.record hs).mono ?_ (fun _ _ h => h) fun _ h => h)
    rintro post s₁ ⟨hs₁, entries, mark, happend⟩
    have hnone : c.r.supersededIn (some post) = none := by
      simp [ResetRecord.supersededIn, hc.answered, hc.seated hs.regular happend]
    have hspared : s₁.OwnerSpared (chainAfter env (some post) s₁) none [.reset c.r] := by
      refine or_iff_not_imp_left.mpr fun howners => ?_
      obtain ⟨p, hp⟩ := List.exists_mem_of_ne_nil _ howners
      refine ⟨p, hp, fun record hrecord => ?_⟩
      obtain rfl := List.mem_singleton.mp hrecord
      rintro ⟨slot, hslot, -⟩
      rw [hnone] at hslot
      cases hslot
    exact .handle (.bind ((finishResetSeat_guarded hs₁ (some post) hspared).mono (fun _ _ h => .pure h)
      (fun _ _ h => .pure h) fun _ h => h))

theorem finishAborted_guarded {s : Store} (hs : Guarded H s) {r : ResetRecord}
    (hspared : s.OwnerSpared (currentChain env s) none [.reset r]) :
    (finishAborted env r).Sat F s (.always (Guarded H)) := by
  refine .bindAlways (.handle (.bind ((finishResetSeat_guarded hs none hspared).mono
    (fun _ _ h => .pure h) (fun e s' h => ?_) fun _ h => h))) fun finished s' h => ?_
  · dsimp only
    split
    · exact .raise h
    · exact .pure h
  · exact .ite (fun _ => .raise h) fun _ => .pure h

theorem abortReset_guarded {s : Store} (hs : Guarded H s) {abort : Abort} {sig : String}
    (hleaves : (Action.request (.abortReset abort sig)).LeavesOwner env s) :
    (abortReset env abort sig).Sat F s (.always (Guarded H)) := by
  refine .bindGet (.bindExcept (fun _ hcheck => ?_) fun _ _ => hs)
  refine .bind ((spendLegNonce_guarded _ _ _ hs).mono ?_ (fun _ _ h => h) fun _ h => h)
  rintro spent s₁ ⟨hs₁, hphones, hchain, hspent⟩
  refine .bindGet (.bindExcept (fun ⟨r, committed⟩ hfound => ?_) fun _ _ => hs₁)
  obtain ⟨rfl, -, hcommitted⟩ := checkAborted_eq_ok hfound
  obtain ⟨r₀, hr₀, rfl⟩ := hspent r rfl
  cases committed with
  | true =>
    -- the nonce changes nothing the registry work reads
    refine finishAborted_guarded hs₁ ?_
    have hnow : committedNow s abort.intentId = .ok (some r₀) := by
      obtain ⟨hstate, hentry⟩ := hcommitted rfl
      refine committedNow_eq_some.mpr ⟨hr₀, hstate, ?_⟩
      unfold resetEntryOnChain at hentry ⊢
      rwa [hchain] at hentry
    have hspared : s.OwnerSpared (currentChain env s) none [.reset r₀] := by
      simpa only [Action.LeavesOwner, CommittedLeavesOwner, hcheck, hnow] using hleaves
    rw [currentChain, hchain]
    exact (hspared.congr hphones).of_removes fun _ _ h => h
  | false =>
    refine Keeps.bind (Guarded.of_beside (takeCards_beside _)) (fun _ =>
      .bind (Guarded.of_seats (addRevocation_seats _)) fun _ =>
        .bind (putReset_guarded (by simp [ResetRecord.aborted])) fun _ => .pure _) s₁ hs₁

/-! ## Revokes -/

theorem revoke_guarded (r : Revoke) : Keeps F (Guarded H) (revoke env r) := by
  refine fun s hs => .bindGet (.bindExcept (fun _ _ => ?_) fun _ _ => hs)
  split
  · rename_i revoker target _ htarget
    refine (consumeChallenge_beside r.challenge).seats.bindSat (fun live s₁ h₁ => ?_)
      (fun _ _ h => hs.congr h) fun _ h => hs.congr h
    have hs₁ := hs.congr h₁
    refine .bindExcept (fun _ _ => .bindExcept (fun verified _ => .bindExcept (fun _ _ =>
      .bindExcept (fun _ hrevoke => ?_) fun _ _ => hs₁) fun _ _ => hs₁) fun _ _ => hs₁) fun _ _ => hs₁
    have hgone : Guarded H { s with phones := s.phones.erase r.target } := by
      refine ⟨⟨hs.regular.registry.erase _, hs.regular.canonical⟩, fun hH => ?_⟩
      by_cases howner : target.IsOwner
      · -- the count found another owner
        obtain ⟨p, hp, hne⟩ := exists_owner_beside hs.regular.registry
          ((checkRevoke_eq_ok hrevoke).2.2 howner) r.target
        obtain ⟨hmem, hpowner⟩ := mem_owners.mp hp
        obtain ⟨slot, hslot⟩ := PhoneRegistration.isOwner_iff.mp hpowner
        suffices hkept : slotOf s.phones p.phoneId = some (.owner slot) from hasOwner_erase hkept hne
        rw [slotOf, hs.regular.registry.get?_of_mem hmem, Option.map_some, hslot]
      · obtain ⟨ref, slot, hslot⟩ := hs.owner hH
        refine hasOwner_erase hslot ?_
        rintro rfl
        rw [slotOf, show s.phones.get? r.target = some target from htarget, Option.map_some] at hslot
        exact howner (PhoneRegistration.isOwner_iff.mpr ⟨slot, Option.some.inj hslot⟩)
    have hstep : ∀ s' : Store, (s'.seating = s₁.seating ∨
        s'.seating = (s₁.phones.erase r.target, s₁.topPlane, s₁.chain)) → Guarded H s' := by
      rintro s' (h | h)
      · exact hs₁.congr h
      · refine hgone.congr ?_
        simp only [Store.seating, Prod.mk.injEq] at h h₁ ⊢
        rw [h.1, h.2.1, h.2.2, h₁.1, h₁.2.1, h₁.2.2]
        exact ⟨rfl, rfl, rfl⟩
    exact (revokeAndVoid_seats r.target s₁).mono (fun _ => hstep) (fun _ => hstep) hstep
  · exact .raise hs

end Server
end Recto
