import Recto.Server.Guards

/-!
# The last owner phone

Only the revoke handler counts owners. A slot entry and a completed reset seat a
phone before, or with, the one they remove. A removal, and what a start finishes,
count nobody: there the last owner stays only under a condition on the store.
-/

namespace Recto
namespace Server

open Genesis Faulty

variable {env : Host} {F : Fault → Prop} {H : Prop}

/-! ## The start -/

/-- What a start leaves of the registry, the records and the chain until it finishes anything. -/
structure Starting (H : Prop) (s₀ s : Store) : Prop where
  guarded : Guarded H s
  phones : s.phones = s₀.phones
  chain : s.chain.chain = s₀.chain.chain
  unfinished : ∀ record ∈ s.listTopPlaneRecords, s.Unfinished record → record ∈ s₀.unfinished

theorem Store.Unfinished.congr {s s' : Store} {record : TopPlaneRecord}
    (h : s'.chain.chain = s.chain.chain) (hr : s'.Unfinished record) : s.Unfinished record := by
  cases record with
  | act r =>
    simp only [Store.Unfinished, actEntryOnChain, h] at hr ⊢
    exact hr
  | reset r =>
    simp only [Store.Unfinished, resetEntryOnChain, h] at hr ⊢
    exact hr

/-- The registry, the records and the entries of the chain. -/
def Store.standing (s : Store) :
    Dict String PhoneRegistration × Dict String TopPlaneRecord × List Record :=
  (s.phones, s.topPlane, s.chain.chain)

theorem settleSealMark_chain : Leaves F ChainStore.chain (settleSealMark env.toPrimitives) := by
  refine .bind .get fun _ => .bind (.ofExcept _) fun plain => ?_
  cases plain with
  | none => exact .pure _
  | some plain => exact .write _ fun _ => rfl

theorem settleIdentity_standing (launch : Launch) :
    Leaves F Store.standing (settleIdentity env launch) := by
  have hdraw : Leaves F Store.standing (drawToken env) :=
    (drawToken_beside (F := F)).map fun s : Store => s.standing
  have hsettle : Leaves F Store.standing (onChain (settleSealMark env.toPrimitives)) :=
    settleSealMark_chain.zoom fun s t h => by simp only [Store.standing, h]
  exact .bind hdraw fun _ => .bind .get fun _ => .bind (.ofExcept _) fun _ => .bind hsettle
    fun _ => .bind .get fun _ => .bind (.ofExcept _) fun _ => .bind hdraw fun _ =>
      .modify fun _ => rfl

theorem Starting.of_standing {s : Store} (hs : Guarded H s) {s' : Store}
    (h : s'.standing = s.standing) : Starting H s s' := by
  simp only [Store.standing, Prod.mk.injEq] at h
  obtain ⟨hphones, htopPlane, hchain⟩ := h
  refine ⟨⟨⟨hphones ▸ hs.regular.registry, htopPlane ▸ hs.regular.canonical⟩, hphones ▸ hs.owner⟩,
    hphones, hchain, fun record hmem hrecord => ?_⟩
  rw [Store.mem_listTopPlaneRecords, htopPlane, ← Store.mem_listTopPlaneRecords] at hmem
  exact List.mem_filter.mpr ⟨hmem, decide_eq_true (hrecord.congr hchain)⟩

/-- Only armed resets are rewritten, and they are not committed. -/
theorem clearDeadCodes_starting {s₀ : Store} {r : ResetRecord}
    (hr : ∀ fresh ∈ r.fresh, CanonicalKey fresh.publicKey) :
    Keeps F (Starting H s₀) (clearDeadCodes r) := by
  refine .ite (fun hdead => ?_) fun _ => .pure _
  intro s hs
  have hput : Starting H s₀
      { s with topPlane := s.topPlane.set r.withoutCodes.id (.reset r.withoutCodes) } := by
    refine ⟨⟨hs.guarded.regular.put (show TopPlaneRecord.Canonical (.reset r.withoutCodes) from hr), hs.guarded.owner⟩,
      hs.phones, hs.chain, fun record hmem hrecord => ?_⟩
    obtain ⟨id, hid⟩ := Store.mem_listTopPlaneRecords.mp hmem
    rw [Dict.get?_set] at hid
    split at hid
    · obtain rfl := Option.some.inj hid
      have : r.state = .registered := hrecord.1
      rw [hdead.1] at this
      cases this
    · exact hs.unfinished record (Store.mem_listTopPlaneRecords.mpr ⟨id, hid⟩) hrecord
  exact .write hput (fun _ => hs) (fun _ => hs) fun _ => hput

theorem clearDeadResetCodes_starting {s₀ : Store} : Keeps F (Starting H s₀) clearDeadResetCodes :=
  fun s hs => .bindGet (Keeps.forEach (fun _ hr =>
    clearDeadCodes_starting (hs.guarded.regular.reset hr)) s hs)

theorem storedState_of_genesisChainState {store : ChainStore} {cs : Option ChainState}
    (h : genesisChainState env.toPrimitives store = .ok cs) :
    storedState env.toPrimitives store.chain = .ok cs := by
  simp only [genesisChainState, Except.bind_eq_ok, Except.pure_eq_ok] at h
  obtain ⟨entries, hentries, state, hstate, _, -, rfl⟩ := h
  exact Except.bind_eq_ok.mpr ⟨entries, hentries, hstate⟩

theorem rollForwardRecord_finishing {chain : ChainStore} {cs : Option ChainState}
    (hchain : genesisChainState env.toPrimitives chain = .ok cs) {records : List TopPlaneRecord}
    {record : TopPlaneRecord}
    (hrecord : ∀ s : Store, s.chain = chain → s.Unfinished record → record ∈ records) :
    Keeps F (Finishing H chain (Spared cs none records)) (rollForwardRecord env record) := by
  have hpost : ∀ s : Store, s.chain = chain → ∀ cs', chainAfter env none s = .ok cs' → cs' = cs := by
    intro s hs cs' h
    simp only [chainAfter, currentChain, hs, hchain] at h
    exact (Except.ok.inj h).symm
  intro s hs
  cases record with
  | reset r =>
    refine .bindGet (.ite (fun hstate => ?_) fun _ => .pure hs)
    refine .bindExcept (fun committed hcommitted => ?_) fun _ _ => hs
    refine .ite (fun htrue => ?_) fun _ => .pure hs
    have hmem := hrecord s hs.chain ⟨hstate, htrue ▸ hcommitted⟩
    exact .bindAlways (finishResetSeat_finishing hmem hpost s hs) fun _ _ h => .pure h
  | act r =>
    refine .bindGet (.ite (fun hact => ?_) fun _ => .pure hs)
    exact finishAct_finishing (hrecord s hs.chain ⟨hact.1, by simpa using hact.2⟩) hpost s hs

theorem rollForwardCommitted_guarded {s₀ s : Store} (hs : Starting H s₀ s)
    (hspared : s₀.OwnerSpared ((storedState env.toPrimitives s₀.chain.chain).mapError .store) none
      s₀.unfinished) :
    (rollForwardCommitted env).Sat F s (.always (Guarded H)) := by
  refine .bindGet ?_
  split
  · exact .pure hs.guarded
  · rename_i cs hcs
    have hstored : (storedState env.toPrimitives s₀.chain.chain).mapError Refusal.store = .ok cs := by
      rw [← hs.chain, storedState_of_genesisChainState hcs]
      rfl
    have hfinishing := hs.guarded.finishing (hspared.congr hs.phones) hstored
    refine (Keeps.forEach (fun record hmem => .handle (rollForwardRecord_finishing hcs ?_)
      fun _ => .pure _) s hfinishing).mono (fun _ _ h => h.guarded) (fun _ _ h => h.guarded)
      fun _ h => h.guarded
    intro s' hchain hrecord
    exact hs.unfinished record hmem (hrecord.congr (congrArg ChainStore.chain hchain))

theorem recardOpenResets_guarded : Keeps F (Guarded H) (recardOpenResets env) := by
  refine fun s hs => .bindGet (Keeps.forEach (fun r hr => ?_) s hs)
  refine .bind .get fun _ => .ite (fun _ => ?_) fun _ => .pure _
  exact .bind (Guarded.of_beside (cardDevices_beside _ _ _ _ _ _)) fun _ =>
    putReset_guarded fun fresh h => hs.regular.reset hr fresh h

theorem decideOwnerGenesis_seats : SeatsAlone F decideOwnerGenesis := by
  refine .bind .get fun _ => ?_
  split
  · exact setOwnerGenesis_seats _
  · exact .ite (.pure _) (setOwnerGenesis_seats _)
  · exact .pure _

theorem start_guarded {s : Store} (hs : Guarded H s) {launch : Launch}
    (hleaves : (Action.start launch).LeavesOwner env s) :
    (start env launch).Sat F s (.always (Guarded H)) := by
  refine .bindModify ((settleIdentity_standing launch).bindSat (fun _ s₁ h₁ => ?_)
    (fun _ _ h => (Starting.of_standing hs h).guarded) fun _ h => (Starting.of_standing hs h).guarded)
  refine .bind ((clearDeadResetCodes_starting s₁ (Starting.of_standing hs h₁)).mono
    (fun _ s₂ h₂ => ?_) (fun _ _ h => h.guarded) fun _ h => h.guarded)
  refine .bindAlways (rollForwardCommitted_guarded h₂ hleaves) fun _ s₃ h₃ => ?_
  have hup : SeatsAlone F (Faulty.modify fun s => { s with up := true } : Served PUnit) :=
    .modify fun _ => rfl
  exact Keeps.bind recardOpenResets_guarded (fun _ =>
    .bind (Guarded.of_seats decideOwnerGenesis_seats) fun _ => Guarded.of_seats hup) s₃ h₃

/-! ## Runs -/

theorem handleRequest_guarded {s : Store} (hs : Guarded H s) {r : Request}
    (hleaves : (Action.request r).LeavesOwner env s) :
    (handleRequest env r).Sat F s (.always (Guarded H)) := by
  have hanswer : ∀ {α : Type} {m : Served α} (wrap : α → Response),
      m.Sat F s (.always (Guarded H)) → (answering wrap m).Sat F s (.always (Guarded H)) :=
    fun _ h => .bindAlways h fun _ _ h' => .pure h'
  cases r with
  | mintCode ttl => exact hanswer _ (Guarded.of_beside (issuePairingCode_beside ttl) s hs)
  | mintMemberCode ttl binding =>
    exact hanswer _ (Guarded.of_beside (issueMemberPairingCode_beside ttl binding) s hs)
  | plainChallenge => exact hanswer _ (Guarded.of_beside issueChallenge_beside s hs)
  | redeemCode code client => exact hanswer _ (redeemCode_guarded code client s hs)
  | register reg => exact hanswer _ (register_guarded reg s hs)
  | respond requestId answer => exact hanswer _ (respond_guarded hs hleaves)
  | openAct draft sig => exact hanswer _ (openAct_guarded draft sig s hs)
  | signEnroll requestId sig => exact hanswer _ (Guarded.of_seats (signEnroll_seats requestId sig) s hs)
  | startReset intent sig => exact hanswer _ (startReset_guarded intent sig s hs)
  | armReset arm sig => exact hanswer _ (armReset_guarded arm sig s hs)
  | completeReset intentId sig => exact hanswer _ (completeReset_guarded hs hleaves)
  | abortReset abort sig => exact hanswer _ (abortReset_guarded hs hleaves)
  | revoke r => exact hanswer _ (revoke_guarded r s hs)

theorem perform_guarded {s : Store} (hs : Guarded H s) {action : Action}
    (hleaves : action.LeavesOwner env s) :
    (perform env action).Sat F s (.always (Guarded H)) := by
  cases action with
  | request r => exact .bindGet (.bindExcept (fun _ _ => handleRequest_guarded hs hleaves) fun _ _ => hs)
  | start launch => exact .bindAlways (start_guarded hs hleaves) fun _ _ h => .pure h
  | enrolMember record =>
    exact .bindExcept (fun _ _ => .bindAlways (onChain_append_guarded record s hs)
      fun _ _ h => .pure h) fun _ _ => hs

theorem serve_guarded {s : Store} (hs : Guarded H s) (event : Event)
    (hleaves : event.action.LeavesOwner env (s.later event.elapsed)) :
    Guarded H (serve env s event).after := by
  have hlater : Guarded H (s.later event.elapsed) := Guarded.congr (s := s) rfl hs
  have hend := Post.always_store
    (perform_guarded (F := Fault.Any) hlater hleaves event.faults fun _ _ => trivial)
  unfold Step.after serve
  dsimp only
  split
  · rename_i s' h
    rw [h] at hend
    exact Guarded.congr (s := s') rfl hend
  · exact hend

theorem guarded_new (clock : ℤ) : Guarded False (Store.new clock) where
  regular := ⟨.empty, nofun⟩
  owner := nofun

/-- The last owner phone is never removed: once some phone is registered in an owner slot, one is
after every further run whose steps each leave an owner, whatever faults its writes meet. -/
theorem owners_ne_nil_of_runEvents (env : Host) (clock : ℤ) (events more : List Event)
    (hleaves : ∀ step ∈ (runEvents env (Store.new clock) (events ++ more)).1,
      step.event.action.LeavesOwner env step.before)
    (howner : (runEvents env (Store.new clock) events).2.owners ≠ []) :
    (runEvents env (Store.new clock) (events ++ more)).2.owners ≠ [] := by
  rw [runEvents_append] at hleaves ⊢
  have hkeeps : ∀ {H : Prop} (t : Store) (event : Event), Guarded H t →
      (serve env t event).event.action.LeavesOwner env (serve env t event).before →
      Guarded H (serve env t event).after := fun t event h hstep => serve_guarded h event hstep
  have hfirst : Guarded False (runEvents env (Store.new clock) events).2 :=
    runEvents_keeps env hkeeps (guarded_new clock) events
      fun step h => hleaves step (List.mem_append_left _ h)
  have hthen : Guarded True (runEvents env (runEvents env (Store.new clock) events).2 more).2 :=
    runEvents_keeps env hkeeps ⟨hfirst.regular, fun _ => hasOwner_iff.mpr howner⟩ more
      fun step h => hleaves step (List.mem_append_right _ h)
  exact hasOwner_iff.mp (hthen.owner trivial)

/-! ## A run to look at -/

/-- Tokens and codes that grow by one character, over the sample primitives. -/
def sampleHost : Host where
  toPrimitives := samplePrimitives
  token n := String.ofList (List.replicate (n + 1) 't')
  code n := String.ofList (List.replicate (n + 1) 'c')
  hmac key message := key ++ message

def quietly (r : Request) : Event := ⟨0, [], .request r⟩

/-- A request from the host itself. -/
def onHost : Client := ⟨false, false, false, false⟩

def sampleLaunch : Launch := ⟨none, some (List.replicate 64 9), 86400, 600, none⟩

/-- A sample phone registers on the challenge of a draw. -/
def sampleRegistration (n : UInt8) (draw : ℕ) (signature poll delegation slot : String) :
    Registration :=
  { challenge := sampleHost.token draw, signature := signature, publicKey := b64u (sampleKey n)
    deviceLabel := none, supportedAlgorithms := ["ed25519"], protocol := 1, pushToken := none
    pushPlatform := none, pollPublicKey := some poll, pollKeyDelegation := some delegation
    slot := some slot, slotReplace := none, memberRebind := none }

/-- The first owner. -/
def sampleGenesis : List Event :=
  [⟨0, [], .start sampleLaunch⟩, quietly (.mintCode 60), quietly (.redeemCode "ccc" onHost),
   quietly (.register (sampleRegistration 2 3 "LWDyBQ"
     "ZmZmZmZmZmZmZmZmZmZmZmZmZmZmZmZmZmZmZmZmZmY" "bK7QvQ" "primary"))]

/-- The other slot, approved by the first owner. -/
def sampleSecondOwner : List Event :=
  [quietly (.mintCode 60), quietly (.redeemCode "ccccc" onHost),
   quietly (.register (sampleRegistration 3 5 "Vrtf4w"
     "Z2dnZ2dnZ2dnZ2dnZ2dnZ2dnZ2dnZ2dnZ2dnZ2dnZ2c" "OjmYSA" "recovery")),
   quietly (.respond (sampleHost.token 7) ⟨true, "UVWMsw", false⟩),
   quietly (.mintCode 60), quietly (.redeemCode "ccccccccc" onHost),
   quietly (.register (sampleRegistration 3 9 "Pt1faw"
     "Z2dnZ2dnZ2dnZ2dnZ2dnZ2dnZ2dnZ2dnZ2dnZ2dnZ2c" "OjmYSA" "recovery"))]

/-- The passphrase and both phones are enrolled, and the id is sealed. -/
def sampleSealing : List Event :=
  [⟨0, [], .enrolMember ⟨0, "add", "passphrase", hex (sampleKey 1), "ed25519", none, [], none⟩⟩,
   ⟨0, [], .enrolMember ⟨1, "add", "primary-phone", hex (sampleKey 2), "ed25519", some "e3765248",
     ["CjGIjQ"], none⟩⟩,
   ⟨0, [], .enrolMember ⟨2, "add", "recovery-phone", hex (sampleKey 3), "ed25519",
     some "b424d9f4", ["Nu-SJw", "Zl3Wig"], none⟩⟩,
   ⟨0, [], .start sampleLaunch⟩,
   quietly (.openAct ⟨"seal-id", "bootloader-id", utf8 "rb1-64ab8b83", "none", 3, some "d4344de0",
     some ("\x7b\"identity_members\":[\"0303030303030303030303030303030303030303030303030303030303" ++
       "030303\"],\"nonce\":\"nnnnnnnnnnnnnnnn\",\"not_after\":300,\"operator_pubkey\":\"090909090909" ++
       "0909090909090909090909090909090909090909090909090909090909090909090909090909090909090909" ++
       "0909090909090909090909090909\"\x7d")⟩ "pjfIzg"),
   quietly (.respond (sampleHost.token 13) ⟨true, "ubMz7A", false⟩)]

/-- The first owner is removed from the chain, approved by the second, while the write of the
registry raises; the second then removes itself, and the start finishes the removal. -/
def sampleRemoval : List Event :=
  [quietly (.openAct ⟨"remove", "primary-phone", sampleKey 2, "ed25519", 4, some "db43cadd",
     some "\x7b\"nonce\":\"mmmmmmmmmmmmmmmm\",\"not_after\":300\x7d"⟩ "B56mig"),
   ⟨0, [.lands, .lands, .lands, .lands, .raises],
     .request (.respond (sampleHost.token 16) ⟨true, "LpV8xg", false⟩)⟩,
   quietly .plainChallenge,
   quietly (.revoke ⟨"pk_d76a1561", "pk_d76a1561", sampleHost.token 17, "bCe3vQ"⟩),
   ⟨0, [], .start sampleLaunch⟩]

theorem owners_ne_nil_of_runEvents_sample :
    (runEvents sampleHost (Store.new 0) (sampleGenesis ++ sampleSecondOwner)).2.owners ≠ [] :=
  owners_ne_nil_of_runEvents sampleHost 0 sampleGenesis sampleSecondOwner (by decide +kernel)
    (by decide +kernel)

/-- A removal that a fault left for the next start removes the last owner there. -/
theorem sampleRemoval_leaves_no_owner :
    (runEvents sampleHost (Store.new 0) sampleGenesis).2.owners ≠ [] ∧
      (runEvents sampleHost (Store.new 0)
        (sampleGenesis ++ (sampleSecondOwner ++ sampleSealing ++ sampleRemoval))).2.owners = [] :=
  ⟨by decide +kernel, by decide +kernel⟩

end Server
end Recto
