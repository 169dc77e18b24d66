import Recto.Profiles.Manage

/-!
# What an operation on a profile leaves alone

An operation appends one profile or replaces one, the first of its id. It is
said here which fields of that profile may differ afterwards, what every
identity satisfies that the operations lead to, and on which calls they keep
to it.
-/

namespace Recto
namespace Profiles

/-- The master of the identity is as it was. -/
def SameMaster (mi mi' : MasterIdentity) : Prop :=
  mi'.masterPubkeyHex = mi.masterPubkeyHex ∧ mi'.masterProfileId = mi.masterProfileId ∧
    mi'.label = mi.label

/-- The first profile of the id has changed by `f`, and no other one. -/
def Replaces (profileId : String) (f : Profile → Profile) (mi mi' : MasterIdentity) : Prop :=
  ∃ pre target post, mi.profiles = pre ++ target :: post ∧ (∀ p ∈ pre, p.profileId ≠ profileId) ∧
    target.profileId = profileId ∧ mi'.profiles = pre ++ f target :: post

/-- The one thing the operation is for. -/
def OwnField : Operation → MasterIdentity → MasterIdentity → Prop
  | .create _ _ _, mi, mi' => ∃ new, mi'.profiles = mi.profiles ++ [new]
  | .addDevice profileId phoneId, mi, mi' =>
      Replaces (strip profileId) (fun p => { p with deviceIds := p.deviceIds ++ [strip phoneId] }) mi mi'
  | .revokeDevice profileId phoneId, mi, mi' =>
      Replaces (strip profileId)
        (fun p => { p with deviceIds := p.deviceIds.filter fun d => d ≠ strip phoneId }) mi mi'
  | .markRevoked profileId, mi, mi' => Replaces profileId (fun p => { p with revoked := true }) mi mi'

/-- The identity on file after the call is the one before, up to the operation's own field. -/
def Touches (op : Operation) (mi : MasterIdentity) : Prop :=
  ∃ mi', loadMasterIdentity (op.next (some mi)) = some mi' ∧ SameMaster mi mi' ∧
    (mi' = mi ∨ OwnField op mi mi')

/-- No profile lists a device twice, and every quorum can be met. -/
def WellFormed (mi : MasterIdentity) : Prop :=
  ∀ p ∈ mi.profiles, p.deviceIds.Nodup ∧
    (p.deviceIds ≠ [] → 1 ≤ p.revokeQuorumK ∧ p.revokeQuorumK ≤ p.deviceIds.length)

/-- A profile that has a device has one afterwards. -/
def KeepsDevices (mi mi' : MasterIdentity) : Prop :=
  ∀ (i : ℕ) (p : Profile), mi.profiles[i]? = some p → p.deviceIds ≠ [] →
    ∃ p' : Profile, mi'.profiles[i]? = some p' ∧ p'.deviceIds ≠ []

/-- The call touches its own field only, and leaves an identity as it should be. -/
def Stays (op : Operation) (mi : MasterIdentity) : Prop :=
  Touches op mi ∧ ∃ mi', loadMasterIdentity (op.next (some mi)) = some mi' ∧ WellFormed mi' ∧
    KeepsDevices mi mi'

/-- The call has something to do on the identity, and passes its checks. -/
def Changes : Operation → MasterIdentity → Prop
  | .create args _ _, mi =>
      args.kind ≠ "" ∧ strip args.displayName ≠ "" ∧ args.kind ≠ personalMaster ∧
        (∀ hex ∈ args.derivedPubkeyHex, (chars (stripPubkey hex)).length = 128 ∧
          (fromHex (stripPubkey hex)).isSome = true) ∧
        1 ≤ args.revokeQuorumK ∧ (∀ entry ∈ args.deviceIds, strip entry ≠ "") ∧
        (dedupe (args.deviceIds.map strip) = [] ∨
          args.revokeQuorumK ≤ (dedupe (args.deviceIds.map strip)).length) ∧
        mi.named? args.kind args.displayName = none ∧
        ∀ id ∈ args.profileIdOverride, ∀ p ∈ mi.profiles, p.profileId ≠ id
  | .addDevice profileId phoneId, mi =>
      strip profileId ≠ "" ∧ strip phoneId ≠ "" ∧ ∃ target ∈ mi.find? (strip profileId),
        target.revoked = false ∧ strip phoneId ∉ target.deviceIds
  | .revokeDevice profileId phoneId, mi =>
      strip profileId ≠ "" ∧ strip phoneId ≠ "" ∧ ∃ target ∈ mi.find? (strip profileId),
        target.revoked = false ∧ strip phoneId ∈ target.deviceIds ∧ target.deviceIds.length ≠ 1
  | .markRevoked profileId, mi => ∃ target ∈ mi.find? profileId,
      target.profileId = mi.masterProfileId →
        ∀ p ∈ mi.profiles, p.profileId ≠ mi.masterProfileId → p.revoked = true

/-- A call that changes something resets no field: the quorum of a profile that gets a device is the
default, and a profile that is revoked has no field that the row built for it leaves out. -/
def ResetsNothing (op : Operation) (mi : MasterIdentity) : Prop :=
  Changes op mi →
    match op with
    | .addDevice profileId _ => ∀ target ∈ mi.find? (strip profileId), target.revokeQuorumK = 1
    | .markRevoked profileId => ∀ target ∈ mi.find? profileId,
        target.derivedPubkeyHex = none ∧ target.deviceIds = [] ∧ target.revokeQuorumK = 1
    | _ => True

/-- A call that takes a device away leaves as many as the quorum. -/
def LeavesQuorum (op : Operation) (mi : MasterIdentity) : Prop :=
  Changes op mi →
    match op with
    | .revokeDevice profileId _ => ∀ target ∈ mi.find? (strip profileId),
        target.revokeQuorumK < target.deviceIds.length
    | _ => True

/-- Every call of a run meets the condition, on the identity it loads. -/
def Along (P : Operation → MasterIdentity → Prop) : Option MasterIdentity → List Operation → Prop
  | _, [] => True
  | file, op :: ops =>
      (∀ mi, loadMasterIdentity file = some mi → P op mi) ∧ Along P (op.next file) ops

instance Along.decidable (P : Operation → MasterIdentity → Prop) [∀ op mi, Decidable (P op mi)] :
    ∀ file ops, Decidable (Along P file ops)
  | _, [] => inferInstanceAs (Decidable True)
  | file, op :: ops =>
      have := Along.decidable P (op.next file) ops
      inferInstanceAs (Decidable ((∀ mi ∈ loadMasterIdentity file, P op mi) ∧
        Along P (op.next file) ops))

/-! ## Reading back -/

section
variable {op : Operation} {mi mi' : MasterIdentity} {profileId : String} {target new : Profile}
  {file : Option MasterIdentity} {ops : List Operation}

theorem find?_mem (h : mi.find? profileId = some target) : target ∈ mi.profiles := by
  obtain ⟨pre, post, hprofiles, -⟩ := find?_eq_some h
  simp [hprofiles]

theorem mem_withProfile (h : mi.find? profileId = some target) {p : Profile}
    (hp : p ∈ (mi.withProfile profileId new).profiles) : p = new ∨ p ∈ mi.profiles := by
  obtain ⟨pre, post, hprofiles, -, -, hnew⟩ := find?_eq_some h
  rw [hnew] at hp
  rw [hprofiles]
  simp only [List.mem_append, List.mem_cons] at hp ⊢
  tauto

theorem readable_withProfile (hmi : mi.Readable) (h : mi.find? profileId = some target)
    (hnew : new.Readable) (hid : new.profileId = target.profileId) :
    (mi.withProfile profileId new).Readable := by
  refine ⟨hmi.pubkey, hmi.masterId, fun p hp => ?_, ?_⟩
  · rcases mem_withProfile h hp with rfl | hp
    · exact hnew
    · exact hmi.profiles p hp
  · obtain ⟨pre, post, hprofiles, -, -, hwith⟩ := find?_eq_some h
    obtain ⟨p, hp, hmaster⟩ := hmi.master
    change ∃ p ∈ (mi.withProfile profileId new).profiles, p.profileId = mi.masterProfileId
    rw [hwith]
    rw [hprofiles] at hp
    simp only [List.mem_append, List.mem_cons] at hp
    rcases hp with hp | rfl | hp
    · exact ⟨p, by simp [hp], hmaster⟩
    · exact ⟨new, by simp, hid.trans hmaster⟩
    · exact ⟨p, by simp [hp], hmaster⟩

theorem saved_eq_some {loaded : Option MasterIdentity} :
    op.saved loaded = some mi' ↔ ∃ answer, op.apply loaded = .ok (answer, some mi') := by
  unfold Operation.saved
  cases op.apply loaded with
  | error e => simp
  | ok outcome =>
    obtain ⟨answer, w⟩ := outcome
    simp

/-- Without an identity every operation raises. -/
theorem saved_none : op.saved none = none := by
  refine Option.eq_none_iff_forall_ne_some.mpr fun mi' h => ?_
  obtain ⟨answer, h⟩ := saved_eq_some.mp h
  cases op with
  | create args now uuid =>
    obtain ⟨mi, pubkey, hload, -⟩ := createChildProfile_saves h
    cases hload
  | addDevice profileId phoneId =>
    obtain ⟨mi, target, hload, -⟩ := profileAddDevice_saves h
    cases hload
  | revokeDevice profileId phoneId =>
    obtain ⟨mi, target, hload, -⟩ := profileRevokeDevice_saves h
    cases hload
  | markRevoked profileId =>
    obtain ⟨mi, target, hload, -⟩ := markProfileRevoked_saves h
    cases hload

theorem saved_isSome_iff : (op.saved (some mi)).isSome = true ↔ Changes op mi := by
  simp only [Option.isSome_iff_exists, saved_eq_some]
  cases op with
  | create args now uuid =>
    constructor
    · rintro ⟨mi', answer, happly⟩
      obtain ⟨mi, pubkey, hload, hpubkey, hquorum, hentries, hbound, hnamed, hfresh, -⟩ :=
        createChildProfile_saves happly
      obtain rfl := Option.some.inj hload
      obtain ⟨hkind, hname, hmaster⟩ := createChildProfile_checks happly
      refine ⟨hkind, hname, hmaster, fun hex hhex => ?_, hquorum, hentries, hbound, hnamed, hfresh⟩
      rw [Option.mem_def.mp hhex] at hpubkey
      exact cleanPubkey_of_mapM hpubkey
    · rintro ⟨hkind, hname, hmaster, hkey, hquorum, hentries, hbound, hnamed, hfresh⟩
      have hpubkey : ∃ pubkey, args.derivedPubkeyHex.mapM cleanPubkey = .ok pubkey := by
        cases hhex : args.derivedPubkeyHex with
        | none => exact ⟨none, rfl⟩
        | some hex => exact ⟨some (stripPubkey hex), mapM_cleanPubkey_some (hkey hex hhex)⟩
      obtain ⟨pubkey, hpubkey⟩ := hpubkey
      refine ⟨_, _, createChildProfile_of_checks hkind hname hmaster hpubkey hquorum hentries hbound
        hnamed hfresh⟩
  | addDevice profileId phoneId =>
    constructor
    · rintro ⟨mi', answer, happly⟩
      obtain ⟨mi, target, hload, htarget, hphone, hactive, hmember, -⟩ :=
        profileAddDevice_saves happly
      obtain rfl := Option.some.inj hload
      refine ⟨?_, hphone, target, htarget, hactive, hmember⟩
      simp only [Operation.apply, profileAddDevice, Except.bind_eq_ok, ensure_eq_ok] at happly
      exact happly.choose_spec.1
    · rintro ⟨hid, hphone, target, htarget, hactive, hmember⟩
      have hfound := findProfile_eq_ok.mpr htarget
      simp [Operation.apply, profileAddDevice, ensure, bootstrapped, bind, Except.bind, hid, hphone,
        hfound, hactive, hmember, pure, Except.pure]
  | revokeDevice profileId phoneId =>
    constructor
    · rintro ⟨mi', answer, happly⟩
      obtain ⟨mi, target, hload, htarget, hactive, hmember, hlast, -⟩ :=
        profileRevokeDevice_saves happly
      obtain rfl := Option.some.inj hload
      simp only [Operation.apply, profileRevokeDevice, Except.bind_eq_ok, ensure_eq_ok] at happly
      obtain ⟨-, hid, -, hphone, -⟩ := happly
      exact ⟨hid, hphone, target, htarget, hactive, hmember, hlast⟩
    · rintro ⟨hid, hphone, target, htarget, hactive, hmember, hlast⟩
      have hfound := findProfile_eq_ok.mpr htarget
      simp [Operation.apply, profileRevokeDevice, ensure, bootstrapped, bind, Except.bind, hid, hphone,
        hfound, hactive, hmember, hlast, pure, Except.pure]
  | markRevoked profileId =>
    constructor
    · rintro ⟨mi', answer, happly⟩
      simp only [Operation.apply, markProfileRevoked, Except.bind_eq_ok, ensure_eq_ok,
        bootstrapped_eq_ok, findProfile_eq_ok] at happly
      obtain ⟨mi, hload, target, htarget, -, hmaster, -⟩ := happly
      obtain rfl := Option.some.inj hload
      exact ⟨target, htarget, hmaster⟩
    · rintro ⟨target, htarget, hmaster⟩
      have hfound := findProfile_eq_ok.mpr htarget
      have hchecked := ensure_eq_ok (e := PyError.valueError) (a := ()) |>.mpr hmaster
      simp [Operation.apply, markProfileRevoked, bootstrapped, bind, Except.bind, hfound, hchecked,
        pure, Except.pure]

/-- What is saved is read back. -/
theorem readable_saved (hmi : mi.Readable) (h : op.saved (some mi) = some mi') : mi'.Readable := by
  obtain ⟨answer, h⟩ := saved_eq_some.mp h
  cases op with
  | create args now uuid =>
    obtain ⟨mi, pubkey, hload, hpubkey, hquorum, hentries, -, -, -, rfl, rfl⟩ :=
      createChildProfile_saves h
    cases hload
    refine ⟨hmi.pubkey, hmi.masterId, fun p hp => ?_, ?_⟩
    · rcases List.mem_append.mp hp with hp | hp
      · exact hmi.profiles p hp
      · rw [List.mem_singleton.mp hp]
        refine ⟨fun key hkey => ?_, hquorum, fun id hid => ?_⟩
        · obtain ⟨hex, -, hclean⟩ := mapM_cleanPubkey hpubkey hkey
          exact (cleanPubkey_eq_ok.mp hclean).2
        · obtain ⟨entry, hentry, rfl⟩ := List.mem_map.mp (mem_dedupe hid)
          exact hentries entry hentry
    · obtain ⟨p, hp, hmaster⟩ := hmi.master
      exact ⟨p, List.mem_append_left _ hp, hmaster⟩
  | addDevice profileId phoneId =>
    obtain ⟨mi, target, hload, htarget, hphone, -, -, rfl, rfl⟩ := profileAddDevice_saves h
    cases hload
    obtain ⟨hkey, -, hids⟩ := hmi.profiles _ (find?_mem htarget)
    refine readable_withProfile hmi htarget ⟨hkey, le_refl 1, fun id hid => ?_⟩ rfl
    rcases List.mem_append.mp hid with hid | hid
    · exact hids id hid
    · rwa [List.mem_singleton.mp hid]
  | revokeDevice profileId phoneId =>
    obtain ⟨mi, target, hload, htarget, -, -, -, rfl, rfl⟩ := profileRevokeDevice_saves h
    cases hload
    obtain ⟨hkey, hquorum, hids⟩ := hmi.profiles _ (find?_mem htarget)
    exact readable_withProfile hmi htarget
      ⟨hkey, hquorum, fun id hid => hids id (List.mem_filter.mp hid).1⟩ rfl
  | markRevoked profileId =>
    obtain ⟨mi, target, hload, htarget, rfl, hwritten⟩ := markProfileRevoked_saves h
    cases hload
    cases hwritten
    exact readable_withProfile hmi htarget ⟨by simp, le_refl 1, by simp⟩ rfl

theorem next_of_saved (hmi : mi.Readable) (h : op.saved (some mi) = some mi') :
    loadMasterIdentity (op.next (some mi)) = some mi' := by
  simp [Operation.next, loadMasterIdentity_of_readable, hmi, h, readable_saved hmi h]

theorem next_of_not_saved (hmi : mi.Readable) (h : op.saved (some mi) = none) :
    loadMasterIdentity (op.next (some mi)) = some mi := by
  simp [Operation.next, loadMasterIdentity_of_readable hmi, h]

/-! ## One call -/

theorem replaces_withProfile_iff {f : Profile → Profile} (h : mi.find? profileId = some target) :
    Replaces profileId f mi (mi.withProfile profileId new) ↔ new = f target := by
  obtain ⟨pre, post, hprofiles, hpre, hid, hnew⟩ := find?_eq_some h
  constructor
  · rintro ⟨pre', target', post', hprofiles', hpre', hid', hnew'⟩
    obtain rfl : target' = target := by
      have hfind : mi.find? profileId = some target' := by
        simp only [MasterIdentity.find?, hprofiles']
        rw [List.find?_append, List.find?_eq_none.mpr (by simpa using hpre'),
          List.find?_cons_of_pos (by simpa using hid')]
        rfl
      exact Option.some.inj (hfind.symm.trans h)
    have hlength : pre.length = pre'.length := by
      have hsplit : pre ++ target' :: post = pre' ++ target' :: post' := hprofiles.symm.trans hprofiles'
      clear hnew' hprofiles hprofiles' hnew h
      induction pre generalizing pre' with
      | nil =>
        cases pre' with
        | nil => rfl
        | cons p pre' =>
          exact absurd hid ((List.cons.inj hsplit).1 ▸ hpre' p List.mem_cons_self)
      | cons p pre ih =>
        cases pre' with
        | nil => exact absurd hid ((List.cons.inj hsplit).1 ▸ hpre p List.mem_cons_self)
        | cons p' pre' =>
          simp only [List.length_cons, Nat.add_right_cancel_iff]
          exact ih (fun q hq => hpre q (List.mem_cons_of_mem _ hq)) pre'
            (fun q hq => hpre' q (List.mem_cons_of_mem _ hq)) (List.cons.inj hsplit).2
    rw [hnew] at hnew'
    exact (List.cons.inj (List.append_inj hnew' hlength).2).1
  · rintro rfl
    exact ⟨pre, target, post, hprofiles, hpre, hid, hnew _⟩

theorem withProfile_ne (h : mi.find? profileId = some target) (hne : new ≠ target) :
    mi.withProfile profileId new ≠ mi := by
  obtain ⟨pre, post, hprofiles, -, -, hnew⟩ := find?_eq_some h
  intro heq
  have hsame := hnew new
  rw [heq, hprofiles] at hsame
  exact hne (List.cons.inj (List.append_cancel_left hsame)).1.symm

/-- A call that replaces a profile touches its own field when the new row is the old one with that
field changed. -/
theorem touches_of_saved (hmi : mi.Readable) (h : mi.find? profileId = some target)
    (hsaved : op.saved (some mi) = some (mi.withProfile profileId new)) {f : Profile → Profile}
    (hown : ∀ mi', OwnField op mi mi' ↔ Replaces profileId f mi mi')
    (hsame : new = target → new = f target) : Touches op mi ↔ new = f target := by
  have hnext := next_of_saved hmi hsaved
  constructor
  · rintro ⟨mi', hload, -, hmi'⟩
    obtain rfl := Option.some.inj (hnext.symm.trans hload)
    rcases hmi' with heq | hfield
    · by_contra hne
      exact withProfile_ne h (fun hnew => hne (hsame hnew)) heq
    · exact (replaces_withProfile_iff h).mp ((hown _).mp hfield)
  · intro hnew
    exact ⟨_, hnext, ⟨rfl, rfl, rfl⟩, .inr ((hown _).mpr ((replaces_withProfile_iff h).mpr hnew))⟩

theorem touches_iff (hmi : mi.Readable) : Touches op mi ↔ ResetsNothing op mi := by
  cases hsaved : op.saved (some mi) with
  | none =>
    refine iff_of_true ⟨mi, next_of_not_saved hmi hsaved, ⟨rfl, rfl, rfl⟩, .inl rfl⟩ fun h => ?_
    rw [← saved_isSome_iff, hsaved] at h
    cases h
  | some mi' =>
    have hsome : Changes op mi := saved_isSome_iff.mp (by simp [hsaved])
    obtain ⟨answer, happly⟩ := saved_eq_some.mp hsaved
    cases op with
    | create args now uuid =>
      obtain ⟨mi, pubkey, hload, -, -, -, -, -, -, -, rfl⟩ := createChildProfile_saves happly
      cases hload
      refine iff_of_true ?_ fun _ => trivial
      exact ⟨_, next_of_saved hmi hsaved, ⟨rfl, rfl, rfl⟩, .inr ⟨answer, rfl⟩⟩
    | addDevice profileId phoneId =>
      obtain ⟨mi, target, hload, htarget, -, -, hmember, rfl, rfl⟩ := profileAddDevice_saves happly
      cases hload
      rw [touches_of_saved hmi htarget hsaved (fun _ => Iff.rfl)
        (fun h => absurd (congrArg Profile.deviceIds h) (by simp))]
      constructor
      · intro hnew _ p hp
        obtain rfl : target = p := Option.some.inj (htarget.symm.trans hp)
        exact (congrArg Profile.revokeQuorumK hnew).symm
      · intro hreset
        have hquorum : target.revokeQuorumK = 1 := hreset hsome target htarget
        cases target
        simpa using hquorum.symm
    | revokeDevice profileId phoneId =>
      obtain ⟨mi, target, hload, htarget, -, hmember, -, rfl, rfl⟩ := profileRevokeDevice_saves happly
      cases hload
      rw [touches_of_saved hmi htarget hsaved (fun _ => Iff.rfl) (fun _ => rfl)]
      exact iff_of_true rfl fun _ => trivial
    | markRevoked profileId =>
      obtain ⟨mi, target, hload, htarget, rfl, hwritten⟩ := markProfileRevoked_saves happly
      cases hload
      cases hwritten
      rw [touches_of_saved hmi htarget hsaved (fun _ => Iff.rfl) (fun h => ?_)]
      · constructor
        · intro hnew _ p hp
          obtain rfl : target = p := Option.some.inj (htarget.symm.trans hp)
          exact ⟨(congrArg Profile.derivedPubkeyHex hnew).symm,
            (congrArg Profile.deviceIds hnew).symm, (congrArg Profile.revokeQuorumK hnew).symm⟩
        · intro hreset
          obtain ⟨hkey, hids, hquorum⟩ := hreset hsome target htarget
          cases target
          simp_all
      · conv_rhs => rw [← h]

/-! ## What every identity is like -/

theorem wellFormed_withProfile_iff (hwell : WellFormed mi) (h : mi.find? profileId = some target) :
    WellFormed (mi.withProfile profileId new) ↔ new.deviceIds.Nodup ∧
      (new.deviceIds ≠ [] → 1 ≤ new.revokeQuorumK ∧ new.revokeQuorumK ≤ new.deviceIds.length) := by
  constructor
  · intro hnew
    obtain ⟨pre, post, -, -, -, hprofiles⟩ := find?_eq_some h
    exact hnew new (by simp [hprofiles])
  · intro hnew p hp
    rcases mem_withProfile h hp with rfl | hp
    · exact hnew
    · exact hwell p hp

theorem keepsDevices_withProfile (h : mi.find? profileId = some target)
    (hdevices : target.deviceIds ≠ [] → new.deviceIds ≠ []) :
    KeepsDevices mi (mi.withProfile profileId new) := by
  obtain ⟨pre, post, hprofiles, -, -, hnew⟩ := find?_eq_some h
  intro i p hp hne
  rw [hprofiles] at hp
  rw [hnew]
  rcases lt_trichotomy i pre.length with hi | rfl | hi
  · rw [List.getElem?_append_left hi] at hp ⊢
    exact ⟨p, hp, hne⟩
  · simp only [List.getElem?_append_right (le_refl _), Nat.sub_self, List.getElem?_cons_zero,
      Option.some.injEq] at hp ⊢
    exact ⟨new, rfl, hdevices (hp ▸ hne)⟩
  · obtain ⟨k, rfl⟩ := Nat.exists_eq_add_of_lt hi
    have hk : pre.length + k + 1 - pre.length = k + 1 := by omega
    simp only [List.getElem?_append_right hi.le, hk, List.getElem?_cons_succ] at hp ⊢
    exact ⟨p, hp, hne⟩

theorem sound_iff (hmi : mi.Readable) (hwell : WellFormed mi) (hreset : ResetsNothing op mi) :
    (∃ mi', loadMasterIdentity (op.next (some mi)) = some mi' ∧ WellFormed mi' ∧
      KeepsDevices mi mi') ↔ LeavesQuorum op mi := by
  cases hsaved : op.saved (some mi) with
  | none =>
    refine iff_of_true ⟨mi, next_of_not_saved hmi hsaved, hwell, fun i p hp hne => ⟨p, hp, hne⟩⟩
      fun h => ?_
    rw [← saved_isSome_iff, hsaved] at h
    cases h
  | some mi' =>
    have hnext := next_of_saved hmi hsaved
    have hsome : Changes op mi := saved_isSome_iff.mp (by simp [hsaved])
    obtain ⟨answer, happly⟩ := saved_eq_some.mp hsaved
    have hafter : (∃ mi'', loadMasterIdentity (op.next (some mi)) = some mi'' ∧ WellFormed mi'' ∧
        KeepsDevices mi mi'') ↔ WellFormed mi' ∧ KeepsDevices mi mi' := by
      simp [hnext]
    rw [hafter]
    cases op with
    | create args now uuid =>
      obtain ⟨mi, pubkey, hload, -, hquorum, -, hbound, -, -, rfl, rfl⟩ :=
        createChildProfile_saves happly
      obtain rfl := Option.some.inj hload
      refine iff_of_true ⟨fun p hp => ?_, fun i p hp hne => ⟨p, ?_, hne⟩⟩ fun _ => trivial
      · rcases List.mem_append.mp hp with hp | hp
        · exact hwell p hp
        · rw [List.mem_singleton.mp hp]
          exact ⟨nodup_dedupe _, fun hne => ⟨hquorum, hbound.resolve_left hne⟩⟩
      · obtain ⟨hlt, -⟩ := List.getElem?_eq_some_iff.mp hp
        exact (List.getElem?_append_left hlt).trans hp
    | addDevice profileId phoneId =>
      obtain ⟨mi, target, hload, htarget, -, -, hmember, rfl, rfl⟩ := profileAddDevice_saves happly
      obtain rfl := Option.some.inj hload
      obtain ⟨hnodup, -⟩ := hwell target (find?_mem htarget)
      rw [wellFormed_withProfile_iff hwell htarget]
      refine iff_of_true ⟨⟨?_, fun _ => ⟨le_refl 1, ?_⟩⟩, ?_⟩ fun _ => trivial
      · exact hnodup.append (List.nodup_singleton _) (by simpa using hmember)
      · simp
      · exact keepsDevices_withProfile htarget fun _ => by simp
    | revokeDevice profileId phoneId =>
      obtain ⟨mi, target, hload, htarget, -, hmember, hlast, rfl, rfl⟩ :=
        profileRevokeDevice_saves happly
      obtain rfl := Option.some.inj hload
      obtain ⟨hnodup, hquorum⟩ := hwell target (find?_mem htarget)
      have hlength : (target.deviceIds.filter fun d => d ≠ strip phoneId).length + 1 =
          target.deviceIds.length := by
        have herase := hnodup.erase_eq_filter (strip phoneId)
        have hpos := List.length_pos_of_mem hmember
        have hdrop := List.length_erase_of_mem hmember
        rw [herase] at hdrop
        simp only [ne_eq, decide_not] at hdrop ⊢
        have : (fun d : String => d != strip phoneId) = fun d => !decide (d = strip phoneId) := by
          funext d
          rw [Bool.eq_iff_iff]
          simp
        rw [this] at hdrop
        omega
      have hleft : (target.deviceIds.filter fun d => d ≠ strip phoneId) ≠ [] := by
        intro hnil
        rw [hnil] at hlength
        exact hlast hlength.symm
      rw [wellFormed_withProfile_iff hwell htarget]
      constructor
      · rintro ⟨⟨-, hbound⟩, -⟩ _ p hp
        obtain rfl : target = p := Option.some.inj (htarget.symm.trans hp)
        have := (hbound hleft).2
        simp only at this
        omega
      · intro hleaves
        have hlt : target.revokeQuorumK < target.deviceIds.length := hleaves hsome target htarget
        refine ⟨⟨hnodup.filter _, fun _ => ⟨?_, ?_⟩⟩, keepsDevices_withProfile htarget fun _ => hleft⟩
        · exact (hquorum (List.ne_nil_of_mem hmember)).1
        · simp only
          omega
    | markRevoked profileId =>
      obtain ⟨mi, target, hload, htarget, rfl, hwritten⟩ := markProfileRevoked_saves happly
      obtain rfl := Option.some.inj hload
      cases hwritten
      obtain ⟨-, hnone, -⟩ : _ ∧ target.deviceIds = [] ∧ _ := hreset hsome target htarget
      rw [wellFormed_withProfile_iff hwell htarget]
      refine iff_of_true ⟨⟨List.nodup_nil, fun h => absurd rfl h⟩, ?_⟩ fun _ => trivial
      exact keepsDevices_withProfile htarget fun hne => absurd hnone hne

theorem stays_iff (hmi : mi.Readable) (hwell : WellFormed mi) :
    Stays op mi ↔ ResetsNothing op mi ∧ LeavesQuorum op mi := by
  unfold Stays
  rw [touches_iff hmi]
  exact and_congr_right fun hreset => sound_iff hmi hwell hreset

/-- The identity a bootstrap saves is one of those. -/
theorem wellFormed_bootstrapMaster {hex displayName uuid : String} {label : Option String}
    {force : Bool} {now : ℤ} {loaded : Option MasterIdentity}
    (h : bootstrapMaster hex displayName label force now uuid loaded = .ok mi) : WellFormed mi := by
  simp only [bootstrapMaster, Except.bind_eq_ok, ensure_eq_ok] at h
  obtain ⟨key, -, -, -, h⟩ := h
  obtain rfl := Except.pure_eq_ok.mp h
  intro p hp
  rw [List.mem_singleton.mp hp]
  exact ⟨List.nodup_nil, fun h => absurd rfl h⟩

/-! ## Every run -/

/-- Two conditions that agree wherever an invariant holds hold along the same runs. -/
theorem along_congr {P R : Operation → MasterIdentity → Prop} (Inv : MasterIdentity → Prop)
    (hiff : ∀ op mi, mi.Readable → Inv mi → (P op mi ↔ R op mi))
    (hstep : ∀ op mi, mi.Readable → Inv mi → P op mi →
      ∀ mi', loadMasterIdentity (op.next (some mi)) = some mi' → Inv mi')
    (hstart : ∀ mi, loadMasterIdentity file = some mi → Inv mi) : Along P file ops ↔ Along R file ops := by
  induction ops generalizing file with
  | nil => exact Iff.rfl
  | cons op ops ih =>
    have hhead : (∀ mi, loadMasterIdentity file = some mi → P op mi) ↔
        ∀ mi, loadMasterIdentity file = some mi → R op mi :=
      forall_congr' fun mi => imp_congr_right fun hmi =>
        hiff op mi (loadMasterIdentity_eq_some.mp hmi).2 (hstart mi hmi)
    simp only [Along]
    rw [← hhead]
    refine and_congr_right fun hop => ih fun mi' hmi' => ?_
    cases hload : loadMasterIdentity file with
    | none =>
      rw [Operation.next, hload, saved_none] at hmi'
      cases hmi'
    | some mi =>
      obtain ⟨hfile, hmi⟩ := loadMasterIdentity_eq_some.mp hload
      subst hfile
      exact hstep op mi hmi (hstart mi hload) (hop mi hload) mi' hmi'

/-- In every run the calls touch their own field only exactly when none resets another, and from a
well-formed identity they lead to well-formed ones exactly when also no device is taken away that
the quorum needs. -/
theorem profile_operations_stay_iff (file : Option MasterIdentity) (ops : List Operation) :
    (Along Touches file ops ↔ Along ResetsNothing file ops) ∧
      ((∀ mi, loadMasterIdentity file = some mi → WellFormed mi) →
        (Along Stays file ops ↔
          Along (fun op mi => ResetsNothing op mi ∧ LeavesQuorum op mi) file ops)) := by
  constructor
  · exact along_congr (fun _ => True) (fun op mi hmi _ => touches_iff hmi)
      (fun _ _ _ _ _ _ _ => trivial) fun _ _ => trivial
  · refine along_congr WellFormed (fun op mi hmi hwell => stays_iff hmi hwell) ?_
    rintro op mi - - ⟨-, mi', hmi', hwell, -⟩ mi'' hmi''
    rwa [Option.some.inj (hmi''.symm.trans hmi')]

end

/-! ## A quorum of two -/

/-- The identity of an operator whose key is the generator of secp256k1. -/
def bootstrapped? : Option MasterIdentity :=
  (bootstrapMaster
    ("79be667ef9dcbbac55a06295ce870b07029bfcdb2dce28d959f2815b16f81798" ++
      "483ada7726a3c4655da4fbfc0e1108a8fd17b448a68554199c47d08ffb10d4b8")
    "Personal (master)" none false 1760000000 "b7c1d0de-2f0e-4a38-9df1-6c5ab1c8a0f2" none).toOption

/-- A work profile with two devices that must both sign, and a third device for it. -/
def quorumOfTwo : List Operation :=
  [.create { kind := "work", displayName := "Work", deviceIds := ["phone-1", "phone-2"]
             revokeQuorumK := 2 } 1760000100 "0d9f3c52-54a8-4b0f-8a53-0c7e1b0f9a11",
    .addDevice "0d9f3c52-54a8-4b0f-8a53-0c7e1b0f9a11" "phone-3"]

instance (op : Operation) (mi : MasterIdentity) : Decidable (Changes op mi) := by
  unfold Changes
  cases op <;> infer_instance

instance (op : Operation) (mi : MasterIdentity) : Decidable (ResetsNothing op mi) := by
  unfold ResetsNothing
  cases op <;> infer_instance

instance (op : Operation) (mi : MasterIdentity) : Decidable (LeavesQuorum op mi) := by
  unfold LeavesQuorum
  cases op <;> infer_instance

instance (mi : MasterIdentity) : Decidable (WellFormed mi) := by
  unfold WellFormed
  infer_instance

/-- The devices of a profile with the default quorum come and go without harm. -/
theorem profile_operations_stay_iff_sample : Along Stays bootstrapped?
    [.create { kind := "work", displayName := "Work", deviceIds := ["phone-1", "phone-2"] }
      1760000100 "0d9f3c52-54a8-4b0f-8a53-0c7e1b0f9a11",
      .revokeDevice "0d9f3c52-54a8-4b0f-8a53-0c7e1b0f9a11" "phone-1"] := by
  refine ((profile_operations_stay_iff bootstrapped? _).2 ?_).mpr ?_
  · have hformed : ∀ mi ∈ loadMasterIdentity bootstrapped?, WellFormed mi := by decide +kernel
    exact hformed
  · decide +kernel

theorem quorumOfTwo_reset : ¬ Along Stays bootstrapped? quorumOfTwo := by
  rintro ⟨-, hadd, -⟩
  set file := (quorumOfTwo.head (by simp [quorumOfTwo])).next bootstrapped? with hfile
  have hloaded : ∃ mi ∈ loadMasterIdentity file, ¬ ResetsNothing (quorumOfTwo.getLast
      (by simp [quorumOfTwo])) mi := by decide +kernel
  obtain ⟨mi, hmi, hreset⟩ := hloaded
  exact hreset ((touches_iff (loadMasterIdentity_eq_some.mp hmi).2).mp (hadd mi hmi).1)

end Profiles
end Recto
