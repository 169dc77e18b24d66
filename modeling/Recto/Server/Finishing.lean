import Recto.Server.Seating

/-!
# Finishing and the owner phones

What finishes a committed removal, or a reset whose seat was superseded, counts
nobody: an owner phone stays through it only if some owner phone is not one of
those removed.
-/

namespace Recto
namespace Server

open Genesis Faulty

variable {env : Host} {F : Fault → Prop}

/-! ## Finishing records -/

/-- The slot of a reset whose fresh device is not the chain's member there. -/
def ResetRecord.supersededIn (r : ResetRecord) (cs : Option ChainState) : Option OwnerSlot :=
  match r.answered with
  | .ok (fresh, slot) => if fresh.IsSeated slot cs then none else some slot
  | .error _ => none

theorem ResetRecord.supersededIn_eq {r : ResetRecord} {cs : Option ChainState} {fresh : Fresh}
    {slot : OwnerSlot} (hanswered : r.answered = .ok (fresh, slot))
    (h : ¬fresh.IsSeated slot cs) : r.supersededIn cs = some slot := by
  simp [supersededIn, hanswered, h]

/-- Would finishing the record remove the phone? -/
def TopPlaneRecord.Removes (cs : Option ChainState) (approver : Option String)
    (p : PhoneRegistration) : TopPlaneRecord → Prop
  | .act r => r.draft.op = Op.remove.name ∧ p.publicKey = b64u r.draft.value ∧
      some p.phoneId ≠ approver ∧ ¬IsCurrentMember cs p.publicKey
  | .reset r => ∃ slot ∈ r.supersededIn cs,
      p.slot = .owner slot ∧ p.phoneId ∈ r.intent.lost ∧ ¬IsCurrentMember cs p.publicKey

instance (cs : Option ChainState) (approver : Option String) (p : PhoneRegistration) :
    (record : TopPlaneRecord) → Decidable (record.Removes cs approver p)
  | .act r => inferInstanceAs (Decidable (r.draft.op = Op.remove.name ∧
      p.publicKey = b64u r.draft.value ∧ some p.phoneId ≠ approver ∧ ¬IsCurrentMember cs p.publicKey))
  | .reset r => inferInstanceAs (Decidable (∃ slot ∈ r.supersededIn cs,
      p.slot = .owner slot ∧ p.phoneId ∈ r.intent.lost ∧ ¬IsCurrentMember cs p.publicKey))

/-- No record of the list removes the phone. -/
def Spared (cs : Option ChainState) (approver : Option String) (records : List TopPlaneRecord)
    (p : PhoneRegistration) : Prop :=
  ∀ record ∈ records, ¬record.Removes cs approver p

instance (cs : Option ChainState) (approver : Option String) (records : List TopPlaneRecord)
    (p : PhoneRegistration) : Decidable (Spared cs approver records p) :=
  inferInstanceAs (Decidable (∀ record ∈ records, _))

theorem spared_of_member {cs : Option ChainState} {approver : Option String}
    {records : List TopPlaneRecord} {p : PhoneRegistration} (h : IsCurrentMember cs p.publicKey) :
    Spared cs approver records p := by
  intro record _ hremoves
  cases record with
  | act r => exact hremoves.2.2.2 h
  | reset r =>
    obtain ⟨_, _, _, _, hnot⟩ := hremoves
    exact hnot h

theorem Fresh.IsSeated.isCurrentMember {fresh : Fresh} {slot : OwnerSlot} {cs : Option ChainState}
    (h : fresh.IsSeated slot cs) : IsCurrentMember cs fresh.publicKey := by
  cases cs with
  | none => cases h
  | some cs =>
    obtain ⟨m, hm, hkey⟩ := Option.map_eq_some_iff.mp h
    exact ⟨m, Dict.mem_values_iff.mpr ⟨_, hm⟩, hkey⟩

/-- If there is an owner phone, some owner phone is removed by none of the records. A chain that
cannot be read finishes nothing. -/
def Store.OwnerSpared (s : Store) (chain : Except Refusal (Option ChainState))
    (approver : Option String) (records : List TopPlaneRecord) : Prop :=
  match chain with
  | .ok cs => s.owners = [] ∨ ∃ p ∈ s.owners, Spared cs approver records p
  | .error _ => True

instance (s : Store) (chain : Except Refusal (Option ChainState)) (approver : Option String)
    (records : List TopPlaneRecord) : Decidable (s.OwnerSpared chain approver records) := by
  unfold Store.OwnerSpared
  split <;> infer_instance

theorem Store.OwnerSpared.congr {s s' : Store} {chain : Except Refusal (Option ChainState)}
    {approver : Option String} {records : List TopPlaneRecord}
    (h : s.OwnerSpared chain approver records) (hphones : s'.phones = s.phones) :
    s'.OwnerSpared chain approver records := by
  have howners : s'.owners = s.owners := by
    rw [Store.owners, Store.listPhones, hphones]
    rfl
  simpa only [Store.OwnerSpared, howners] using h

theorem Store.OwnerSpared.of_removes {s : Store} {chain : Except Refusal (Option ChainState)}
    {approver : Option String} {record record' : TopPlaneRecord}
    (h : s.OwnerSpared chain approver [record])
    (hremoves : ∀ cs p, record'.Removes cs approver p → record.Removes cs approver p) :
    s.OwnerSpared chain approver [record'] := by
  cases chain with
  | error e => trivial
  | ok cs =>
    refine h.imp_right ?_
    rintro ⟨p, hp, hspared⟩
    refine ⟨p, hp, fun r hr hr' => hspared record List.mem_cons_self (hremoves cs p ?_)⟩
    exact List.mem_singleton.mp hr ▸ hr'

/-- While records are finished against one chain, some owner is spared by all of them. -/
structure Finishing (H : Prop) (chain : ChainStore) (spared : PhoneRegistration → Prop)
    (s : Store) : Prop where
  regular : s.Regular
  chain : s.chain = chain
  owner : H → ∃ ref p slot, s.phones.get? ref = some p ∧ p.slot = .owner slot ∧ spared p

section Finishing

variable {H : Prop} {chain : ChainStore} {spared : PhoneRegistration → Prop}

theorem Finishing.congr {s s' : Store} (h : s'.seating = s.seating)
    (hs : Finishing H chain spared s) : Finishing H chain spared s' := by
  refine ⟨hs.regular.congr h, ?_, ?_⟩ <;> simp only [Store.seating, Prod.mk.injEq] at h
  · rw [h.2.2, hs.chain]
  · exact h.1 ▸ hs.owner

theorem Finishing.of_seats {α : Type} {m : Served α} (h : SeatsAlone F m) :
    Keeps F (Finishing H chain spared) m := h.keeps fun _ _ => Finishing.congr

theorem Finishing.guarded {s : Store} (h : Finishing H chain spared s) : Guarded H s where
  regular := h.regular
  owner hH := by
    obtain ⟨ref, p, slot, hp, hslot, -⟩ := h.owner hH
    exact ⟨ref, slot, by rw [slotOf, hp, Option.map_some, hslot]⟩

theorem putTopPlaneRecord_finishing {record : TopPlaneRecord} (hr : record.Canonical) :
    Keeps F (Finishing H chain spared) (putTopPlaneRecord record) := by
  intro s hs
  have hput : Finishing H chain spared { s with topPlane := s.topPlane.set record.id record } :=
    ⟨hs.regular.put hr, hs.chain, hs.owner⟩
  exact .write hput (fun _ => hs) (fun _ => hs) fun _ => hput

/-- The fresh device of a seated reset is an owner that no record removes. -/
theorem Finishing.withFresh {s : Store} (hs : Finishing H chain spared s) {fresh : Fresh}
    {slot : OwnerSlot} (hspared : ∀ p : PhoneRegistration, p.publicKey = fresh.publicKey → spared p) :
    Finishing H chain spared
      { s with phones := withPhone s.phones (fresh.registration env slot s.clock) } where
  regular := ⟨hs.regular.registry.withPhone _, hs.regular.canonical⟩
  chain := hs.chain
  owner _ := ⟨_, _, slot, Dict.get?_set_self _ _ _, storedAs_slot _ _,
    hspared _ (storedAs_publicKey _ _)⟩

/-- A phone leaves while some other spared owner is there. -/
theorem Finishing.erase {s : Store} (hs : Finishing H chain spared s) {ref : String}
    (hother : H → ∃ ref' p slot, s.phones.get? ref' = some p ∧ p.slot = .owner slot ∧ spared p ∧
      ref' ≠ ref) : Finishing H chain spared { s with phones := s.phones.erase ref } where
  regular := ⟨hs.regular.registry.erase ref, hs.regular.canonical⟩
  chain := hs.chain
  owner hH := by
    obtain ⟨ref', p, slot, hp, hslot, hspared, hne⟩ := hother hH
    exact ⟨ref', p, slot, by simp [Dict.get?_erase, hne, hp], hslot, hspared⟩

theorem revokeAndVoid_finishing {s : Store} (hs : Finishing H chain spared s) {ref : String}
    (hother : H → ∃ ref' p slot, s.phones.get? ref' = some p ∧ p.slot = .owner slot ∧ spared p ∧
      ref' ≠ ref) : (revokeAndVoid ref).Sat F s (.always fun s' =>
        Finishing H chain spared s' ∧
          (s'.phones = s.phones ∨ s'.phones = s.phones.erase ref)) := by
  have hgone := hs.erase hother
  have hstep : ∀ s' : Store, (s'.seating = s.seating ∨
      s'.seating = (s.phones.erase ref, s.topPlane, s.chain)) →
      Finishing H chain spared s' ∧ (s'.phones = s.phones ∨ s'.phones = s.phones.erase ref) := by
    rintro s' (h | h)
    · exact ⟨hs.congr h, Or.inl (congrArg Prod.fst h)⟩
    · exact ⟨Finishing.congr (by exact h) hgone, Or.inr (congrArg Prod.fst h)⟩
  exact (revokeAndVoid_seats ref s).mono (fun _ => hstep) (fun _ => hstep) hstep

/-- What finishing a reset keeps while its lost phones go: the registry only loses phones, and the
fresh device stays. -/
structure Losing (H : Prop) (chain : ChainStore) (spared : PhoneRegistration → Prop)
    (phones : Dict String PhoneRegistration) (reg : Option PhoneRegistration) (s : Store) : Prop where
  finishing : Finishing H chain spared s
  sub : ∀ {ref p}, s.phones.get? ref = some p → phones.get? ref = some p
  fresh : ∀ stored ∈ reg, s.phones.get? stored.phoneId = some stored

theorem seatFresh_finishing {cs : Option ChainState} {approver : Option String}
    {records : List TopPlaneRecord} (fresh : Fresh) (slot : OwnerSlot) {s : Store}
    (hs : Finishing H chain (Spared cs approver records) s) :
    (seatFresh env fresh slot cs).Sat F s
      ⟨fun reg s' => Losing H chain (Spared cs approver records) s'.phones reg s' ∧
          (fresh.IsSeated slot cs → ∃ stored ∈ reg, stored.slot = .owner slot ∧
            Spared cs approver records stored),
        fun _ s' => Finishing H chain (Spared cs approver records) s',
        fun s' => Finishing H chain (Spared cs approver records) s'⟩ := by
  refine .bindGet ?_
  split
  · rename_i hseated
    have hspared : ∀ p : PhoneRegistration, p.publicKey = fresh.publicKey →
        Spared cs approver records p :=
      fun p hp => spared_of_member (hp ▸ hseated.isCurrentMember)
    have hwith : Finishing H _ _
        { s with phones := withPhone s.phones (fresh.registration env slot s.clock) } :=
      hs.withFresh hspared
    refine .bind ((registerPhone_sat _ s).mono ?done ?raised ?stopped)
    case done =>
      rintro reg _ ⟨rfl, rfl⟩
      refine .pure ⟨⟨hwith, fun h => h, ?_⟩, fun _ => ⟨_, rfl, storedAs_slot _ _,
        hspared _ (storedAs_publicKey _ _)⟩⟩
      rintro stored ⟨⟩
      exact Dict.get?_set_self _ _ _
    case raised =>
      rintro _ _ rfl
      exact hs
    case stopped =>
      rintro _ (rfl | rfl)
      · exact hs
      · exact hwith
  · rename_i hseated
    exact .pure ⟨⟨hs, fun h => h, nofun⟩, fun h => absurd h hseated⟩

/-- One lost phone leaves: it is a member again and stays, or another spared owner is there. -/
theorem revokeLost_finishing {cs : Option ChainState} {approver : Option String}
    {records : List TopPlaneRecord} {phones : Dict String PhoneRegistration}
    {reg : Option PhoneRegistration} {p : PhoneRegistration} {s : Store}
    (hs : Losing H chain (Spared cs approver records) phones reg s)
    (hp : phones.get? p.phoneId = some p) (hreg : ∀ stored ∈ reg, stored.phoneId ≠ p.phoneId)
    (hfresh : Spared cs approver records p → ¬IsCurrentMember cs p.publicKey →
      ∃ stored ∈ reg, ∃ slot, stored.slot = .owner slot ∧ Spared cs approver records stored) :
    (revokeLost cs p).Sat F s ⟨fun _ s' => Losing H chain (Spared cs approver records) phones reg s',
      fun _ s' => Finishing H chain (Spared cs approver records) s',
      fun s' => Finishing H chain (Spared cs approver records) s'⟩ := by
  unfold revokeLost
  split
  · exact .pure hs
  · rename_i hcurrent
    have hother : H → ∃ ref' q slot, s.phones.get? ref' = some q ∧ q.slot = .owner slot ∧
        Spared cs approver records q ∧ ref' ≠ p.phoneId := by
      intro hH
      obtain ⟨ref, q, slot, hq, hslot, hspared⟩ := hs.finishing.owner hH
      by_cases href : ref = p.phoneId
      · -- the spared owner is the phone that leaves, so the reset seated its fresh device
        obtain rfl : q = p := Option.some.inj ((href ▸ hs.sub hq).symm.trans hp)
        obtain ⟨stored, hstored, slot', hslot', hspared'⟩ := hfresh hspared hcurrent
        exact ⟨_, stored, slot', hs.fresh stored hstored, hslot', hspared', hreg stored hstored⟩
      · exact ⟨ref, q, slot, hq, hslot, hspared, href⟩
    refine (revokeAndVoid_finishing hs.finishing hother).mono (fun _ s' h => ⟨h.1, ?_, ?_⟩)
      (fun _ _ h => h.1) fun _ h => h.1
    · intro ref q hq
      rcases h.2 with h' | h' <;> rw [h'] at hq
      · exact hs.sub hq
      · rw [Dict.get?_erase] at hq
        split at hq
        · cases hq
        · exact hs.sub hq
    · intro stored hstored
      rcases h.2 with h' | h' <;> rw [h']
      · exact hs.fresh stored hstored
      · rw [Dict.get?_erase, if_neg (hreg stored hstored), hs.fresh stored hstored]

/-- A reset is finished: its fresh device is an owner before its lost phones leave, and a superseded
one removes no spared owner. -/
theorem finishResetSeat_finishing {cs : Option ChainState} {records : List TopPlaneRecord}
    {r : ResetRecord} {post : Option ChainState} (hr : .reset r ∈ records)
    (hpost : ∀ s : Store, s.chain = chain → ∀ cs', chainAfter env post s = .ok cs' → cs' = cs) :
    Keeps F (Finishing H chain (Spared cs none records)) (finishResetSeat env r post) := by
  intro s hs
  unfold finishResetSeat
  refine .bindExcept (fun ⟨fresh, slot⟩ hanswered => ?_) fun _ _ => hs
  refine .bindGet (.bindExcept (fun cs' hcs => ?_) fun _ _ => hs)
  obtain rfl := hpost s hs.chain cs' hcs
  refine .bind ((seatFresh_finishing fresh slot hs).mono (fun reg s₁ h => ?_) (fun _ _ h => h)
    fun _ h => h)
  obtain ⟨hlosing, hseated⟩ := h
  refine .bindGet (.bind (.forEach
    (fun rest s' => Losing H chain (Spared cs' none records) s₁.phones reg s' ∧
      ∀ p ∈ rest, p ∈ r.lostIn slot (reg.map PhoneRegistration.phoneId) s₁)
    ⟨hlosing, fun _ h => h⟩ (fun p rest s' h => ?_) fun s' h => ?_))
  · obtain ⟨hlosing', hrest⟩ := h
    have hp := hrest p List.mem_cons_self
    simp only [ResetRecord.lostIn, Store.listPhones, List.mem_filter, decide_eq_true_eq] at hp
    obtain ⟨hmem, hslot, hlost, hne⟩ := hp
    refine (revokeLost_finishing hlosing' (hlosing.finishing.regular.registry.get?_of_mem hmem)
      ?_ ?_).mono (fun _ _ h' => ⟨h', fun q hq => hrest q (List.mem_cons_of_mem _ hq)⟩)
      (fun _ _ h' => h') fun _ h' => h'
    · rintro stored hstored heq
      exact hne (by rw [Option.mem_def.mp hstored, Option.map_some, heq])
    · intro hspared hcurrent
      by_cases h : fresh.IsSeated slot cs'
      · obtain ⟨stored, hstored, hslot', hspared'⟩ := hseated h
        exact ⟨stored, hstored, slot, hslot', hspared'⟩
      · exact absurd ⟨slot, r.supersededIn_eq hanswered h, hslot, hlost, hcurrent⟩ (hspared _ hr)
  · refine .bindAlways (putTopPlaneRecord_finishing ?_ s' h.1.finishing) fun _ _ h' => .pure h'
    intro fresh hfresh
    cases hfresh

theorem removeDevice_finishing {cs : Option ChainState} {approver : Option String}
    {records : List TopPlaneRecord} {r : ActRecord} (hr : .act r ∈ records)
    (hop : r.draft.op = Op.remove.name) :
    Keeps F (Finishing H chain (Spared cs approver records)) (removeDevice r.draft cs approver) := by
  intro s hs
  refine .bindGet ?_
  split
  · exact .pure hs
  · rename_i gone hgone
    split
    · exact .pure hs
    · rename_i hnot
      push Not at hnot
      have hmem : gone ∈ s.phones.values := List.mem_of_find?_eq_some hgone
      have hkey : gone.publicKey = b64u r.draft.value := by simpa using List.find?_some hgone
      refine (revokeAndVoid_finishing hs fun hH => ?_).mono (fun _ _ h => h.1) (fun _ _ h => h.1)
        fun _ h => h.1
      obtain ⟨ref, q, slot, hq, hslot, hspared⟩ := hs.owner hH
      refine ⟨ref, q, slot, hq, hslot, hspared, fun href => ?_⟩
      obtain rfl : q = gone :=
        Option.some.inj ((href ▸ hq).symm.trans (hs.regular.registry.get?_of_mem hmem))
      exact hspared _ hr ⟨hop, hkey, hnot.2, hnot.1⟩

theorem finishAct_finishing {cs : Option ChainState} {approver : Option String}
    {records : List TopPlaneRecord} {r : ActRecord} {post : Option ChainState}
    (hr : .act r ∈ records)
    (hpost : ∀ s : Store, s.chain = chain → ∀ cs', chainAfter env post s = .ok cs' → cs' = cs) :
    Keeps F (Finishing H chain (Spared cs approver records)) (finishAct env r approver post) := by
  intro s hs
  unfold finishAct
  refine .bindGet (.bindExcept (fun cs' hcs => ?_) fun _ _ => hs)
  obtain rfl := hpost s hs.chain cs' hcs
  have hput : Keeps F (Finishing H chain (Spared cs' approver records))
      (putTopPlaneRecord (.act { r with state := .appended })) :=
    putTopPlaneRecord_finishing trivial
  have hremove : Keeps F (Finishing H chain (Spared cs' approver records))
      (if r.draft.op = Op.remove.name then (do
        removeDevice r.draft cs' approver
        putTopPlaneRecord (.act { r with state := .appended }))
      else putTopPlaneRecord (.act { r with state := .appended })) :=
    .ite (fun hop => .bind (removeDevice_finishing hr hop) fun _ => hput) fun _ => hput
  have hdrop : Keeps F (Finishing H chain (Spared cs' approver records))
      (if r.draft.op = Op.sealId.name then (do
        let s ← Faulty.get
        Faulty.forEach dropUnsealedEnroll s.listOwnerEnrolls
        if r.draft.op = Op.remove.name then (do
          removeDevice r.draft cs' approver
          putTopPlaneRecord (.act { r with state := .appended }))
        else putTopPlaneRecord (.act { r with state := .appended }))
      else if r.draft.op = Op.remove.name then (do
        removeDevice r.draft cs' approver
        putTopPlaneRecord (.act { r with state := .appended }))
      else putTopPlaneRecord (.act { r with state := .appended })) :=
    .ite (fun _ => .bind .get fun _ =>
      .bind (Finishing.of_seats (.forEach dropUnsealedEnroll_seats _)) fun _ => hremove) fun _ => hremove
  exact (Keeps.ite (fun _ => .bind (Finishing.of_seats (rotateOperator_seats _ _)) fun _ => hdrop)
    fun _ => hdrop) s hs

end Finishing

/-! ## From the guard and back -/

theorem chainAfter_congr {post : Option ChainState} {s s' : Store} (h : s'.chain = s.chain) :
    chainAfter env post s' = chainAfter env post s := by
  unfold chainAfter currentChain
  rw [h]

theorem Guarded.finishing {H : Prop} {s : Store} (hs : Guarded H s)
    {chain : Except Refusal (Option ChainState)} {cs : Option ChainState} {approver : Option String}
    {records : List TopPlaneRecord} (hspared : s.OwnerSpared chain approver records)
    (hchain : chain = .ok cs) : Finishing H s.chain (Spared cs approver records) s := by
  refine ⟨hs.regular, rfl, fun hH => ?_⟩
  simp only [Store.OwnerSpared, hchain] at hspared
  obtain ⟨p, hp, hpspared⟩ := hspared.resolve_left (hasOwner_iff.mp (hs.owner hH))
  obtain ⟨hmem, howner⟩ := mem_owners.mp hp
  obtain ⟨slot, hslot⟩ := PhoneRegistration.isOwner_iff.mp howner
  exact ⟨p.phoneId, p, slot, hs.regular.registry.get?_of_mem hmem, hslot, hpspared⟩

theorem finishAct_guarded {H : Prop} {s : Store} (hs : Guarded H s) {r : ActRecord}
    {approver : Option String} {post : Option ChainState}
    (hspared : s.OwnerSpared (chainAfter env post s) approver [.act r]) :
    (finishAct env r approver post).Sat F s (.always (Guarded H)) := by
  cases hchain : chainAfter env post s with
  | ok cs =>
    refine (finishAct_finishing List.mem_cons_self (fun s' h' cs' hcs' => ?_) s
      (hs.finishing hspared hchain)).mono (fun _ _ h => h.guarded) (fun _ _ h => h.guarded)
      fun _ h => h.guarded
    rw [chainAfter_congr h', hchain] at hcs'
    exact (Except.ok.inj hcs').symm
  | error e =>
    refine .bindGet (.bindExcept (fun cs hcs => ?_) fun _ _ => hs)
    rw [hchain] at hcs
    cases hcs

theorem finishResetSeat_guarded {H : Prop} {s : Store} (hs : Guarded H s) {r : ResetRecord}
    (post : Option ChainState)
    (hspared : s.OwnerSpared (chainAfter env post s) none [.reset r]) :
    (finishResetSeat env r post).Sat F s (.always (Guarded H)) := by
  cases hchain : chainAfter env post s with
  | ok cs =>
    refine (finishResetSeat_finishing List.mem_cons_self (fun s' h' cs' hcs' => ?_) s
      (hs.finishing hspared hchain)).mono (fun _ _ h => h.guarded) (fun _ _ h => h.guarded)
      fun _ h => h.guarded
    rw [chainAfter_congr h', hchain] at hcs'
    exact (Except.ok.inj hcs').symm
  | error e =>
    refine .bindExcept (fun _ _ => .bindGet (.bindExcept (fun cs hcs => ?_) fun _ _ => hs))
      fun _ _ => hs
    rw [hchain] at hcs
    cases hcs

/-! ## When a step leaves an owner -/

/-- The chain an act's registry work follows: the stored one once its entry is there, else the one
its append leaves. -/
def ActRecord.chainAt (env : Host) (s : Store) (r : ActRecord) (signature : String) :
    Except Refusal (Option ChainState) :=
  if actEntryOnChain s r.draft then currentChain env s
  else match checkAppend env.toPrimitives s.chain (recordOf r.draft [r.passphraseSig, signature]) with
    | .ok (_, state, _) => .ok (some state)
    | .error e => .error (.store e)

/-- Is the record committed, with its registry work still to do? -/
def Store.Unfinished (s : Store) : TopPlaneRecord → Prop
  | .act r => r.state ≠ .appended ∧ actEntryOnChain s r.draft = true
  | .reset r => r.state = .registered ∧ resetEntryOnChain s r = .ok true

instance (s : Store) : (record : TopPlaneRecord) → Decidable (s.Unfinished record)
  | .act r => inferInstanceAs (Decidable (r.state ≠ .appended ∧ actEntryOnChain s r.draft = true))
  | .reset r =>
      inferInstanceAs (Decidable (r.state = .registered ∧ resetEntryOnChain s r = .ok true))

/-- What a start finishes. -/
def Store.unfinished (s : Store) : List TopPlaneRecord :=
  s.listTopPlaneRecords.filter fun record => s.Unfinished record

/-- A verified answer to an act's card leaves an owner. -/
def Answer.LeavesOwner (env : Host) (s : Store) (requestId : String) (answer : Answer) : Prop :=
  match s.topPlaneRecordForCard requestId with
  | some (.act r) =>
      match cardSigner env s (.act r) requestId answer.signature with
      | .ok phone => answer.approved = true →
          s.OwnerSpared (r.chainAt env s answer.signature) (some phone.phoneId) [.act r]
      | .error _ => True
  | _ => True

/-- A completion or an abort, once its checks passed, leaves an owner where it finishes a committed
reset. -/
def CommittedLeavesOwner {α : Type} (env : Host) (s : Store) (checked : Except Refusal α)
    (intentId : String) : Prop :=
  match checked, committedNow s intentId with
  | .ok _, .ok (some r) => s.OwnerSpared (currentChain env s) none [.reset r]
  | _, _ => True

/-- What an event finishes removes not every owner phone. Only a verified answer to an act's card, a
completion or an abort of a reset that is committed already, and a start finish anything. -/
def Action.LeavesOwner (env : Host) (s : Store) : Action → Prop
  | .request (.respond requestId answer) => answer.LeavesOwner env s requestId
  | .request (.completeReset intentId _) =>
      CommittedLeavesOwner env s (requireSealed env s false) intentId
  | .request (.abortReset abort sig) =>
      CommittedLeavesOwner env s (checkAbort env s abort sig) abort.intentId
  | .start _ => s.OwnerSpared ((storedState env.toPrimitives s.chain.chain).mapError .store) none
      s.unfinished
  | _ => True

instance (s : Store) (requestId : String) (answer : Answer) :
    Decidable (answer.LeavesOwner env s requestId) := by
  unfold Answer.LeavesOwner
  split
  · split <;> infer_instance
  · exact .isTrue trivial

instance {α : Type} (s : Store) (checked : Except Refusal α) (intentId : String) :
    Decidable (CommittedLeavesOwner env s checked intentId) := by
  unfold CommittedLeavesOwner
  split <;> infer_instance

instance (s : Store) (action : Action) : Decidable (action.LeavesOwner env s) := by
  cases action with
  | request r => cases r <;> unfold Action.LeavesOwner <;> infer_instance
  | start launch => unfold Action.LeavesOwner; infer_instance
  | enrolMember record => unfold Action.LeavesOwner; infer_instance

end Server
end Recto
