import Recto.Genesis.SealMark
import Recto.Genesis.Canonical
import Recto.Genesis.Monotone

/-!
# The seal mark refuses a rollback

The mark holds two hashes. Because every entry carries the hash of the one
before it, they pin the whole chain the mark was taken of: the stored chain
passes exactly when it extends that chain, signatures aside.
-/

namespace Recto
namespace Genesis

variable {env : Primitives}

/-- A sealed chain that replays, with the mark it leaves. -/
structure Marked (env : Primitives) where
  entries : List ChainEntry
  state : ChainState
  mark : SealMark
  accepted : replayState env entries = .ok state
  isMark : sealMarkOf env entries state = .ok (some mark)

namespace Marked

variable (E : Marked env)

/-- The chain extends the marked one: as long at least, under the same seal, and with the same
entries, signatures aside. -/
def Covers (F : List ChainEntry) (state : ChainState) : Prop :=
  E.entries.length ≤ F.length ∧ state.sealedId = E.state.sealedId ∧
    (F.take E.entries.length).map ChainEntry.identity = E.entries.map ChainEntry.identity

theorem sealed : E.state.sealedId = some E.mark.sealedId := by
  obtain ⟨_, -, h, -⟩ := sealMarkOf_eq_some E.isMark
  exact h

theorem loop : ∃ r, replayLoop env E.entries = .ok r ∧ E.state = r.finish env :=
  replayState_eq_ok.mp E.accepted

theorem mark_length : E.mark.length = E.entries.length := by
  obtain ⟨r, hr, hfinish⟩ := E.loop
  obtain ⟨_, -, -, -, -, hlength, -⟩ := sealMarkOf_eq_some E.isMark
  rw [hlength, hfinish]
  exact (Replay.inv_of_replayLoop hr).count

theorem mark_tip : E.mark.tip = (E.entries[E.entries.length - 1]?).map (entryHash env) := by
  obtain ⟨r, hr, hfinish⟩ := E.loop
  obtain ⟨_, -, -, -, -, -, htip⟩ := sealMarkOf_eq_some E.isMark
  rw [htip, hfinish, ← List.getLast?_eq_getElem?, ← (Replay.inv_of_replayLoop hr).previous]
  rfl

/-- The seal entry stands at the position the mark records. -/
theorem mark_seal : ∃ (k : ℕ) (sealing : ChainEntry), E.entries[k]? = some sealing ∧
    E.mark.sealSeq = (k : ℤ) ∧ E.mark.sealHash = entryHash env sealing := by
  obtain ⟨r, hr, -⟩ := E.loop
  obtain ⟨sealing, hmem, -, hseq, hhash, -⟩ := sealMarkOf_eq_some E.isMark
  obtain ⟨k, hk⟩ := List.getElem?_of_mem hmem
  exact ⟨k, sealing, hk, hseq.trans (seq_of_replayLoop hr hk), hhash⟩

theorem mark_id_ne_empty : E.mark.sealedId ≠ "" := by
  obtain ⟨r, hr, hfinish⟩ := E.loop
  have hsealed : r.sealedId = some E.mark.sealedId := by
    have := E.sealed
    rw [hfinish] at this
    exact this
  obtain ⟨_, -, -, hdecode⟩ := (Replay.inv_of_replayLoop hr).sealed _ hsealed
  exact decodeId_ne_empty hdecode

theorem one_le_length : 1 ≤ E.mark.length := by
  rw [E.mark_length]
  obtain ⟨k, sealing, hk, -⟩ := E.mark_seal
  have := (List.getElem?_eq_some_iff.mp hk).1
  omega

end Marked

/-- A sealed chain that replays leaves a mark. -/
theorem exists_sealMark {entries : List ChainEntry} {state : ChainState}
    (h : replayState env entries = .ok state) (hsealed : state.sealedId ≠ none) :
    ∃ mark, sealMarkOf env entries state = .ok (some mark) := by
  obtain ⟨r, hr, rfl⟩ := replayState_eq_ok.mp h
  obtain ⟨sealedId, hid⟩ := Option.ne_none_iff_exists'.mp hsealed
  obtain ⟨sealing, hmem, hop, -⟩ := (Replay.inv_of_replayLoop hr).sealed sealedId hid
  obtain ⟨found, hfound⟩ : ∃ found,
      (entries.find? fun e => decide (e.op? = some .sealId)) = some found :=
    Option.isSome_iff_exists.mp (List.find?_isSome.mpr ⟨sealing, hmem, by simpa using hop⟩)
  unfold sealMarkOf
  simp only [hid, hfound]
  exact ⟨_, rfl⟩

/-- A chain that holds a seal-id replays to a sealed state. -/
theorem sealed_of_mem {entries : List ChainEntry} {state : ChainState}
    (h : replayState env entries = .ok state) {sealing : ChainEntry} (hmem : sealing ∈ entries)
    (hop : sealing.op? = some .sealId) : state.sealedId ≠ none := by
  obtain ⟨r, hr, rfl⟩ := replayState_eq_ok.mp h
  exact fun hnone => (Replay.inv_of_replayLoop hr).unsealed hnone sealing hmem hop

/-- SHA-256 is injective on the identity bytes of these entries. -/
def HashInjective (env : Primitives) (entries : List ChainEntry) : Prop :=
  ∀ a ∈ entries, ∀ b ∈ entries, env.sha256 a.signingBytes = env.sha256 b.signingBytes →
    a.signingBytes = b.signingBytes

theorem HashInjective.mono {xs ys : List ChainEntry} (h : HashInjective env ys) (hsub : xs ⊆ ys) :
    HashInjective env xs :=
  fun a ha b hb => h a (hsub ha) b (hsub hb)

theorem HashInjective.identity_eq {entries : List ChainEntry} (h : HashInjective env entries)
    {a b : ChainEntry} (ha : a ∈ entries) (hb : b ∈ entries)
    (hab : entryHash env a = entryHash env b) : a.identity = b.identity :=
  ChainEntry.identity_eq_of_signingBytes (h a ha b hb (hex_injective hab))

theorem ChainEntry.prev_eq_of_identity {a b : ChainEntry} (h : a.identity = b.identity) :
    a.prev = b.prev :=
  (identity_eq_iff.mp h).2.2.2.2.2.1

/-- A chain matches the mark exactly when it extends the marked chain. -/
theorem Marked.matches_iff (E : Marked env) {F : List ChainEntry} {state : ChainState}
    (hF : replayState env F = .ok state) (hinj : HashInjective env (E.entries ++ F)) :
    E.mark.Matches env F state ↔ E.Covers F state := by
  obtain ⟨r, hr, -⟩ := E.loop
  obtain ⟨s, hs, rfl⟩ := replayState_eq_ok.mp hF
  have hlength : (s.finish env).length = F.length := (Replay.inv_of_replayLoop hs).count
  have hone := E.one_le_length
  rw [E.mark_length] at hone
  constructor
  · rintro ⟨-, hid, hle, htip, -, -⟩
    rw [E.mark_length, hlength] at hle
    rw [E.mark_length, E.mark_tip] at htip
    refine ⟨hle, hid.trans E.sealed.symm, ?_⟩
    have hE := List.getElem?_eq_getElem (l := E.entries) (i := E.entries.length - 1) (by omega)
    have hF := List.getElem?_eq_getElem (l := F) (i := E.entries.length - 1) (by omega)
    rw [hE, hF, Option.map_some, Option.map_some] at htip
    have hsame := Linked.take_map_identity (linked_of_replayLoop hs) (linked_of_replayLoop hr)
      (fun a ha b hb => hinj.identity_eq (List.mem_append_right _ ha) (List.mem_append_left _ hb))
      (fun _ _ => ChainEntry.prev_eq_of_identity) hF hE (Option.some.inj htip)
    rwa [Nat.sub_add_cancel hone, List.take_length] at hsame
  · rintro ⟨hle, hid, hsame⟩
    have hat : ∀ i < E.entries.length,
        (F[i]?).map (entryHash env) = (E.entries[i]?).map (entryHash env) := by
      intro i hi
      have h := congrArg (fun l => l[i]?) hsame
      simp only [List.getElem?_map, List.getElem?_take_of_lt hi] at h
      rw [List.getElem?_eq_getElem (by omega), List.getElem?_eq_getElem hi] at h ⊢
      simp only [Option.map_some, Option.some.injEq] at h ⊢
      exact entryHash_eq_of_identity env h
    obtain ⟨k, sealing, hk, hseq, hhash⟩ := E.mark_seal
    have hklt := (List.getElem?_eq_some_iff.mp hk).1
    refine ⟨E.mark_id_ne_empty, hid.trans E.sealed, ?_, ?_, by omega, ?_⟩
    · rw [E.mark_length, hlength]
      exact hle
    · rw [E.mark_length, hat _ (by omega), E.mark_tip]
    · rw [hseq, Int.toNat_natCast, hat k hklt, hk, Option.map_some, hhash]

/-- The state a reader of the chain passes on: none for an empty chain, the replayed one otherwise
(a replayed empty chain is unsealed as well). -/
def StateOf (F : List ChainEntry) (state : ChainState) (given : Option ChainState) : Prop :=
  given = some state ∨ F = [] ∧ given = none

theorem StateOf.sealed {F : List ChainEntry} {state : ChainState} {given : Option ChainState}
    (h : StateOf F state given) (hF : replayState env F = .ok state) :
    sealedState given = state.sealedId := by
  rcases h with rfl | ⟨rfl, rfl⟩
  · rfl
  · obtain ⟨r, hr, rfl⟩ := replayState_eq_ok.mp hF
    obtain rfl : Replay.start = r := by simpa [replayLoop] using hr
    rfl

section Checks

variable {F : List ChainEntry} {state : ChainState} {given : Option ChainState}

/-- One side of a mark: the chain extends what it was taken of, or the chain's own error. -/
theorem Marked.checkOneMark_iff (E : Marked env) (hF : replayState env F = .ok state)
    (hgiven : StateOf F state given) (hinj : HashInjective env (E.entries ++ F)) :
    (checkOneMark env F given E.mark.toJson = .ok () ↔ E.Covers F state) ∧
      ChainOnly (checkOneMark env F given E.mark.toJson) := by
  rcases hgiven with rfl | ⟨rfl, rfl⟩
  · obtain ⟨r, hr, rfl⟩ := replayState_eq_ok.mp hF
    have hlength : (r.finish env).length = F.length := (Replay.inv_of_replayLoop hr).count
    obtain ⟨hiff, honly⟩ := checkOneMark_toJson env E.one_le_length hlength
    exact ⟨hiff.trans (E.matches_iff hF hinj), honly⟩
  · obtain ⟨c, hc⟩ := checkOneMark_unsealed env [] E.mark (show sealedState none = none from rfl)
    rw [hc]
    refine ⟨?_, .error c⟩
    have hone := E.one_le_length
    rw [E.mark_length] at hone
    simp only [reduceCtorEq, Covers, List.length_nil, false_iff, not_and]
    omega

/-- A plain mark, a mark in flight and an absent mark, against every chain that replays. -/
theorem checkSealMark_iff (E : Marked env) (P : Option (Marked env))
    (hF : replayState env F = .ok state) (hgiven : StateOf F state given)
    (hinj : HashInjective env (E.entries ++ P.elim [] Marked.entries ++ F)) :
    (checkSealMark env F given E.mark.toJson = .ok () ↔ E.Covers F state) ∧
    (checkSealMark env F given
        (inFlight (P.elim .null fun Q => Q.mark.toJson) E.mark.toJson) = .ok () ↔
      E.Covers F state ∨ (∃ Q, P = some Q ∧ Q.Covers F state) ∨
        P = none ∧ state.sealedId = none) ∧
    (checkSealMark env F given .null = .ok () ↔ state.sealedId = none) := by
  have hE : HashInjective env (E.entries ++ F) :=
    hinj.mono (List.append_subset.mpr
      ⟨fun _ h => by simp [h], fun _ h => by simp [h]⟩)
  obtain ⟨hnext, hnextOnly⟩ := E.checkOneMark_iff hF hgiven hE
  have hsealed := hgiven.sealed hF
  refine ⟨hnext, ?flight, ?absent⟩
  case flight =>
    rw [checkSealMark_inFlight, checkSides_mark E.mark.toJson_ne_null hnextOnly, hnext]
    refine or_congr_right ?_
    cases P with
    | none =>
      rw [Option.elim_none, checkSides_null, hsealed]
      simp [checkSides]
    | some Q =>
      have hQ : HashInjective env (Q.entries ++ F) :=
        hinj.mono (List.append_subset.mpr
          ⟨fun _ h => by simp [h], fun _ h => by simp [h]⟩)
      obtain ⟨hprev, hprevOnly⟩ := Q.checkOneMark_iff hF hgiven hQ
      rw [Option.elim_some, checkSides_mark Q.mark.toJson_ne_null hprevOnly, hprev]
      simp [checkSides]
  case absent =>
    simp [checkSealMark, hsealed]

end Checks

/-- The mark of the sealed sample accepts the sample after its reset, and the sealed sample alone is
refused by the mark of the longer one. -/
theorem checkSealMark_sample : ∃ E L : Marked samplePrimitives,
    E.entries = sampleChain.take 3 ∧ L.entries = sampleChain ∧
    checkSealMark samplePrimitives sampleChain (some L.state) E.mark.toJson = .ok () ∧
    checkSealMark samplePrimitives (sampleChain.take 3) (some E.state) L.mark.toJson ≠ .ok () := by
  have hinj : HashInjective samplePrimitives sampleChain := by
    unfold HashInjective
    decide +kernel
  obtain ⟨state, h⟩ := sampleChain_accepted
  obtain ⟨before, hbefore, -⟩ := (replayState_monotone h).1 3 (by decide) (by decide)
  have hmem : ∀ n : ℕ, 3 ≤ n → sampleChain[2] ∈ sampleChain.take n := fun n hn =>
    List.mem_of_getElem? (i := 2) (by rw [List.getElem?_take_of_lt (by omega)]; rfl)
  obtain ⟨markE, hmarkE⟩ := exists_sealMark hbefore (sealed_of_mem hbefore (hmem 3 le_rfl) rfl)
  obtain ⟨markL, hmarkL⟩ := exists_sealMark h (sealed_of_mem h (hmem 4 (by decide)) rfl)
  let E : Marked samplePrimitives := ⟨_, before, markE, hbefore, hmarkE⟩
  let L : Marked samplePrimitives := ⟨_, state, markL, h, hmarkL⟩
  have hpre : sampleChain.take 3 ⊆ sampleChain := List.take_subset 3 sampleChain
  refine ⟨E, L, rfl, rfl, ?longer, ?shorter⟩
  case longer =>
    refine (checkSealMark_iff E none h (Or.inl rfl) (hinj.mono ?_)).1.mpr
      ⟨by simp [E, sampleChain], ?_, rfl⟩
    · simpa [E] using hpre
    · have hext := (replayState_monotone h).2.1 3 4 _ _ (by decide) (by decide) hbefore h
      rw [E.sealed]
      exact hext.sealed _ E.sealed
  case shorter =>
    rw [ne_eq, (checkSealMark_iff L none hbefore (Or.inl rfl) (hinj.mono ?_)).1]
    · rintro ⟨hle, -⟩
      simp [L, sampleChain] at hle
    · simpa [L] using hpre

end Genesis
end Recto
