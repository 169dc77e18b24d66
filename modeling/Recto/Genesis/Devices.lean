import Recto.Genesis.Authorisation

/-!
# The set keeps a device

A set that holds the passphrase, once a device was seated, can act again only
while it holds a device. A removal is refused when it would take the last one
away; an `add` of the passphrase is not asked. So a set can lose its devices
under the majority rule and then gain the passphrase, and this is the only way
in which an accepted chain reaches a set that cannot act.
-/

namespace Recto
namespace Genesis

variable {env : Primitives}

/-- The entry adds the passphrase to a set that holds neither it nor an owner device, although a
device was seated. -/
def ChainEntry.Strands (entry : ChainEntry) (before : ChainState) : Prop :=
  entry.op? = some .add ∧ entry.kind = passphraseKind ∧ before.deviceEver = true ∧
    passphraseKind ∉ before.members ∧ ¬HoldsDevice before.members

/-- The loop's variables allow the set to act. -/
def Replay.Kept (r : Replay) : Prop :=
  r.deviceEver = true → passphraseKind ∈ r.members → HoldsDevice r.members

theorem HoldsDevice.set {members : Dict String ChainEntry} (h : HoldsDevice members) (kind : String)
    (entry : ChainEntry) : HoldsDevice (members.set kind entry) := by
  obtain ⟨k, hk, hdev⟩ := h
  exact ⟨k, by simp [hk], hdev⟩

theorem holdsDevice_set {members : Dict String ChainEntry} {kind : String} (entry : ChainEntry)
    (h : kind ∈ deviceKinds) : HoldsDevice (members.set kind entry) :=
  ⟨kind, by simp, h⟩

theorem holdsDevice_of_set {members : Dict String ChainEntry} {kind : String} {entry : ChainEntry}
    (hkind : kind ∉ deviceKinds) (h : HoldsDevice (members.set kind entry)) :
    HoldsDevice members := by
  obtain ⟨k, hk, hdev⟩ := h
  rcases Dict.mem_set.mp hk with rfl | hk
  · exact absurd hdev hkind
  · exact ⟨k, hk, hdev⟩

namespace Replay

theorem kept_start : start.Kept := by
  intro h
  simp [start] at h

theorem kept_seated {r : Replay} {entry : ChainEntry} (h : r.Kept)
    (hstrands : entry.kind = passphraseKind → r.deviceEver = true → passphraseKind ∉ r.members →
      HoldsDevice r.members) : (r.seated entry).Kept := by
  intro hever hpass
  by_cases hdev : entry.kind ∈ deviceKinds
  · exact holdsDevice_set entry hdev
  · have hever' : r.deviceEver = true := by simpa [seated, hdev] using hever
    by_cases hmem : passphraseKind ∈ r.members
    · exact (h hever' hmem).set _ _
    · have hkind : entry.kind = passphraseKind := by
        have : passphraseKind = entry.kind ∨ passphraseKind ∈ r.members := Dict.mem_set.mp hpass
        exact (this.resolve_right hmem).symm
      exact (hstrands hkind hever' hmem).set _ _

/-- A turn that does not strand the set keeps it able to act. -/
theorem Kept.step {r r' : Replay} {entry : ChainEntry} (h : r.Kept)
    (hstrands : ¬entry.Strands (r.finish env)) (hstep : r.step env entry = .ok r') : r'.Kept := by
  obtain ⟨-, -, r₁, hchange, rfl⟩ := step_eq_ok hstep
  suffices hr₁ : r₁.Kept from hr₁
  cases hchange with
  | add hop _ =>
    refine kept_seated h fun hkind hever hmem => ?_
    by_contra hnone
    exact hstrands ⟨hop, hkind, hever, hmem, hnone⟩
  | reset _ _ _ hkind => exact fun _ _ => holdsDevice_set entry hkind
  | remove _ _ _ _ _ _ hdevice => exact hdevice
  | sealId => exact h
  | rotate => exact h
  | unknown => exact h

/-- A turn that strands the set leaves it unable to act. -/
theorem not_kept_of_strands {r r' : Replay} {entry : ChainEntry}
    (hstrands : entry.Strands (r.finish env)) (hstep : r.step env entry = .ok r') : ¬r'.Kept := by
  obtain ⟨-, -, r₁, hchange, rfl⟩ := step_eq_ok hstep
  obtain ⟨hop, hkind, hever, -, hnone⟩ := hstrands
  intro hkept
  cases hchange with
  | add _ _ =>
    have hdev : entry.kind ∉ deviceKinds := hkind ▸ passphraseKind_not_device
    have hholds : HoldsDevice (r.members.set entry.kind entry) :=
      hkept (Bool.or_eq_true_iff.mpr (Or.inl hever)) (by simp [seated, hkind])
    exact hnone (holdsDevice_of_set hdev hholds)
  | reset _ _ hop' => simp [hop] at hop'
  | remove _ hop' => simp [hop] at hop'
  | sealId _ _ hop' => simp [hop] at hop'
  | rotate hop' => simp [hop] at hop'
  | unknown hop' => simp [hop] at hop'

/-- Along a run without such an entry, the set can act after every prefix. -/
theorem kept_of_run {entries : List ChainEntry} {r : Replay} (h : replayLoop env entries = .ok r)
    (hrun : ∀ i entry s, entries[i]? = some entry → replayLoop env (entries.take i) = .ok s →
      ¬entry.Strands (s.finish env)) : r.Kept := by
  induction entries using List.reverseRecOn generalizing r with
  | nil =>
    obtain rfl : start = r := by simpa [replayLoop] using h
    exact kept_start
  | append_singleton entries entry ih =>
    obtain ⟨s, hs, hstep⟩ := foldlM_concat_eq_ok.mp h
    have hlast : ¬entry.Strands (s.finish env) :=
      hrun entries.length entry s (by simp) (by simpa [replayLoop] using hs)
    refine Kept.step (ih hs fun i e m hi hm => ?_) hlast hstep
    have hlt := (List.getElem?_eq_some_iff.mp hi).1
    refine hrun i e m (by rw [List.getElem?_append_left hlt, hi]) ?_
    rwa [List.take_append_of_le_length hlt.le]

end Replay

/-- Every prefix keeps a device exactly when no entry adds the passphrase to a set that has lost
its devices. -/
theorem replayState_keeps_device_iff {entries : List ChainEntry} {state : ChainState}
    (h : replayState env entries = .ok state) :
    (∀ j s, 1 ≤ j → j ≤ entries.length → replayState env (entries.take j) = .ok s →
      DeviceSeated (entries.take j) → passphraseKind ∈ s.members → HoldsDevice s.members) ↔
    ∀ i entry before, entries[i]? = some entry →
      replayState env (entries.take i) = .ok before → ¬entry.Strands before := by
  obtain ⟨r, hr, -⟩ := replayState_eq_ok.mp h
  constructor
  · intro hkept i entry before hi hbefore hstrands
    obtain ⟨m, m', hm, hstep, hm'⟩ := replayLoop_take_step hr hi
    obtain ⟨m₂, hm₂, rfl⟩ := replayState_eq_ok.mp hbefore
    obtain rfl : m = m₂ := Except.ok.inj (hm.symm.trans hm₂)
    refine Replay.not_kept_of_strands hstrands hstep fun hever hpass => ?_
    have hlt := (List.getElem?_eq_some_iff.mp hi).1
    exact hkept (i + 1) (m'.finish env) (by omega) (by omega)
      (replayState_eq_ok.mpr ⟨m', hm', rfl⟩) ((Replay.inv_of_replayLoop hm').device.mp hever) hpass
  · intro hrun j s _ hj hs hseated hpass
    obtain ⟨m, hm, rfl⟩ := replayState_eq_ok.mp hs
    refine Replay.kept_of_run hm (fun i entry s hi hs => ?_)
      ((Replay.inv_of_replayLoop hm).device.mpr hseated) hpass
    have hlt : i < j := by
      have := (List.getElem?_eq_some_iff.mp hi).1
      rw [List.length_take] at this
      omega
    rw [List.getElem?_take_of_lt hlt] at hi
    rw [List.take_take, min_eq_left hlt.le] at hs
    exact hrun i entry _ hi (replayState_eq_ok.mpr ⟨s, hs, rfl⟩)

/-- Two members under the majority rule; the device is removed, and then the passphrase is added:
nobody can sign with it as a device any more. -/
def strandedChain : List ChainEntry :=
  [{ seq := 0, op := "add", kind := "primary-phone", pubkey := sampleKey 1, algorithm := "ed25519"
     prev := none, signatures := [], metaText := none },
   { seq := 1, op := "add", kind := "tablet", pubkey := sampleKey 2, algorithm := "ed25519"
     prev := some "e1919958", signatures := [[230, 203, 131, 215]], metaText := none },
   { seq := 2, op := "remove", kind := "primary-phone", pubkey := sampleKey 1
     algorithm := "ed25519", prev := some "128b3a80"
     signatures := [[212, 168, 215, 88], [37, 3, 208, 193]], metaText := none },
   { seq := 3, op := "add", kind := "passphrase", pubkey := sampleKey 3, algorithm := "ed25519"
     prev := some "b7211d91", signatures := [[149, 44, 180, 245]], metaText := none }]

/-- The chain is accepted, a device was seated, the passphrase is a member, and no device is. -/
theorem strandedChain_loses_device :
    ∃ state, replayState samplePrimitives strandedChain = .ok state ∧
      DeviceSeated strandedChain ∧ passphraseKind ∈ state.members ∧
      ¬HoldsDevice state.members := by
  have h : ((replayState samplePrimitives strandedChain).toOption.elim false fun state =>
      decide (passphraseKind ∈ state.members ∧ ¬HoldsDevice state.members)) = true := by
    decide +kernel
  cases hs : replayState samplePrimitives strandedChain with
  | error e => simp [hs, Except.toOption] at h
  | ok state =>
    rw [hs] at h
    obtain ⟨hpass, hnone⟩ := of_decide_eq_true h
    exact ⟨state, rfl, ⟨strandedChain[0], by simp [strandedChain], Or.inl rfl, by decide⟩, hpass,
      hnone⟩

/-- The sample chain adds the passphrase first, and keeps a device throughout. -/
theorem sampleChain_keeps_device : ∃ s,
    replayState samplePrimitives sampleChain = .ok s ∧ HoldsDevice s.members := by
  obtain ⟨s, h⟩ := sampleChain_accepted
  have hpass : ((replayState samplePrimitives sampleChain).toOption.elim false
      fun s => decide (passphraseKind ∈ s.members)) = true := by decide +kernel
  rw [h] at hpass
  refine ⟨s, h, (replayState_keeps_device_iff h).mpr ?_ 4 s (by decide) (by decide) h ?_
    (of_decide_eq_true hpass)⟩
  case refine_1 =>
    intro i entry before hi hbefore ⟨_, hkind, hever, _⟩
    -- the only add of the passphrase is the first entry, before any device
    have hzero : i = 0 := by
      have hlt : i < 4 := (List.getElem?_eq_some_iff.mp hi).1
      interval_cases i
      · rfl
      all_goals
        obtain rfl := Option.some.inj hi
        exact absurd hkind (by decide)
    subst hzero
    obtain ⟨r, hr, rfl⟩ := replayState_eq_ok.mp hbefore
    obtain ⟨e, he, -⟩ := (Replay.inv_of_replayLoop hr).device.mp hever
    simp at he
  case refine_2 => exact ⟨sampleChain[1], by decide, by decide⟩

end Genesis
end Recto
