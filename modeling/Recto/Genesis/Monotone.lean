import Recto.Genesis.Authorisation

/-!
# What a chain never takes back

A longer prefix of an accepted chain keeps what a shorter one established: the
passphrase stays a member, the seal and the device flag stand, the recorded
resets grow at the end. The operator key moves only with the entries that name
one, and a reset intent seats each of its slots once.
-/

namespace Recto
namespace Genesis

variable {env : Primitives}

/-- What the later state keeps of the earlier one. -/
structure ChainState.Extends (earlier later : ChainState) : Prop where
  passphrase : passphraseKind ∈ earlier.members → passphraseKind ∈ later.members
  device : earlier.deviceEver = true → later.deviceEver = true
  sealed : ∀ id, earlier.sealedId = some id → later.sealedId = some id
  resets : earlier.resets <+: later.resets

namespace ChainState.Extends

theorem refl (s : ChainState) : s.Extends s :=
  ⟨id, id, fun _ h => h, List.prefix_rfl⟩

theorem trans {a b c : ChainState} (hab : a.Extends b) (hbc : b.Extends c) : a.Extends c where
  passphrase h := hbc.passphrase (hab.passphrase h)
  device h := hbc.device (hab.device h)
  sealed id h := hbc.sealed id (hab.sealed id h)
  resets := hab.resets.trans hbc.resets

end ChainState.Extends

namespace Replay

section Step

variable {r r' : Replay} {entry : ChainEntry}

theorem Change.passphrase (h : Change env r entry r') (hpass : passphraseKind ∈ r.members) :
    passphraseKind ∈ r'.members := by
  cases h with
  | add => exact Dict.mem_set.mpr (Or.inr hpass)
  | reset => exact Dict.mem_set.mpr (Or.inr hpass)
  | remove _ _ _ _ hkind => exact Dict.mem_erase.mpr ⟨hkind.symm, hpass⟩
  | sealId => exact hpass
  | rotate => exact hpass
  | unknown => exact hpass

theorem Change.resets (h : Change env r entry r') : r.resets <+: r'.resets := by
  cases h with
  | add => exact List.prefix_rfl
  | reset _ named => exact List.prefix_append r.resets named
  | remove => exact List.prefix_rfl
  | sealId => exact List.prefix_rfl
  | rotate => exact List.prefix_rfl
  | unknown => exact List.prefix_rfl

/-- The operator key the loop holds moves with a rotation or the seal only. -/
theorem Change.operator (h : Change env r entry r')
    (hne : r'.operatorPubkey ≠ r.operatorPubkey ∨
      r'.sealedOperatorPubkey ≠ r.sealedOperatorPubkey) :
    entry.op? = some .rotateOperator ∨ entry.op? = some .sealId := by
  cases h with
  | add => simp [seated] at hne
  | reset => simp [seated, recorded] at hne
  | remove => simp at hne
  | sealId _ _ hop => exact Or.inr hop
  | rotate hop => exact Or.inl hop
  | unknown => simp at hne

/-- The seats taken grow by the seat of a reset, which is new. -/
theorem Change.seats (h : Change env r entry r') :
    (entry.op? = some .reset ∧ ∃ pair, entry.seatPair? = some pair ∧ pair ∉ r.seats ∧
      r'.seats = r.seats ++ [pair]) ∨
    entry.op? ≠ some .reset ∧ r'.seats = r.seats := by
  cases h with
  | add hop => exact Or.inr ⟨by simp [hop], rfl⟩
  | reset pair _ hop _ hpair hseat => exact Or.inl ⟨hop, pair, hpair, hseat, rfl⟩
  | remove _ hop => exact Or.inr ⟨by simp [hop], rfl⟩
  | sealId _ _ hop => exact Or.inr ⟨by simp [hop], rfl⟩
  | rotate hop => exact Or.inr ⟨by simp [hop], rfl⟩
  | unknown hop => exact Or.inr ⟨by simp [hop], rfl⟩

theorem extends_of_step (h : r.step env entry = .ok r') :
    (r.finish env).Extends (r'.finish env) := by
  obtain ⟨-, hauth, r₁, hchange, rfl⟩ := step_eq_ok h
  refine ⟨hchange.passphrase, fun hever => hchange.device.mpr (Or.inl hever), fun id hid => ?_,
    hchange.resets⟩
  rcases hchange.sealed_eq with ⟨hop, -⟩ | ⟨-, hsame⟩
  · have hnone := (authorise_sealId hop hauth).2.1
    exact absurd (hnone.symm.trans hid) (by simp)
  · exact hsame.trans hid

theorem operator_of_step (h : r.step env entry = .ok r')
    (hne : (r'.finish env).currentOperatorPubkey ≠ (r.finish env).currentOperatorPubkey) :
    entry.op? = some .rotateOperator ∨ entry.op? = some .sealId := by
  obtain ⟨-, -, r₁, hchange, rfl⟩ := step_eq_ok h
  refine hchange.operator ?_
  by_contra hsame
  obtain ⟨hoperator, hsealed⟩ := not_or.mp hsame
  apply hne
  simp only [ChainState.currentOperatorPubkey, finish, not_not.mp hoperator, not_not.mp hsealed]

end Step

/-- The seats after a run: those of its resets, each once. -/
structure Seats (entries : List ChainEntry) (r : Replay) : Prop where
  seat : ∀ entry ∈ entries, entry.op? = some .reset →
    ∃ pair ∈ r.seats, entry.seatPair? = some pair
  once : ∀ (i j : ℕ) (e f : ChainEntry), i < j → entries[i]? = some e → entries[j]? = some f →
    e.op? = some .reset → f.op? = some .reset → e.seatPair? ≠ f.seatPair?

theorem seats_start : Seats [] start := ⟨by simp, by simp⟩

theorem Seats.step {entries : List ChainEntry} {r r' : Replay} {entry : ChainEntry}
    (hinv : Seats entries r) (h : r.step env entry = .ok r') : Seats (entries ++ [entry]) r' := by
  obtain ⟨-, -, r₁, hchange, rfl⟩ := step_eq_ok h
  rcases hchange.seats with ⟨hop, pair, hpair, hnew, hseats⟩ | ⟨hop, hseats⟩
  · refine ⟨fun e he hreset => ?_, fun i j e f hij hi hj he hf => ?_⟩
    · rcases List.mem_append.mp he with he | he
      · obtain ⟨p, hp, hep⟩ := hinv.seat e he hreset
        exact ⟨p, by simp [hseats, hp], hep⟩
      · obtain rfl := List.mem_singleton.mp he
        exact ⟨pair, by simp [hseats], hpair⟩
    · have hjlt : j < entries.length + 1 := by
        simpa using (List.getElem?_eq_some_iff.mp hj).1
      rw [List.getElem?_append_left (by omega)] at hi
      obtain ⟨p, hp, hep⟩ := hinv.seat e (List.mem_of_getElem? hi) he
      by_cases hlast : j < entries.length
      · rw [List.getElem?_append_left hlast] at hj
        exact hinv.once i j e f hij hi hj he hf
      · obtain rfl : j = entries.length := by omega
        obtain rfl : entry = f := by simpa using hj
        rw [hep, hpair]
        rintro ⟨rfl⟩
        exact hnew hp
  · refine ⟨fun e he hreset => ?_, fun i j e f hij hi hj he hf => ?_⟩
    · rcases List.mem_append.mp he with he | he
      · obtain ⟨p, hp, hep⟩ := hinv.seat e he hreset
        exact ⟨p, by simp [hseats, hp], hep⟩
      · obtain rfl := List.mem_singleton.mp he
        exact absurd hreset hop
    · have hjlt : j < entries.length + 1 := by
        simpa using (List.getElem?_eq_some_iff.mp hj).1
      by_cases hlast : j < entries.length
      · rw [List.getElem?_append_left (by omega)] at hi
        rw [List.getElem?_append_left hlast] at hj
        exact hinv.once i j e f hij hi hj he hf
      · obtain rfl : j = entries.length := by omega
        obtain rfl : entry = f := by simpa using hj
        exact absurd hf hop

theorem seats_of_replayLoop {entries : List ChainEntry} {r : Replay}
    (h : replayLoop env entries = .ok r) : Seats entries r :=
  foldlM_invariant seats_start (fun _ _ _ _ hinv hstep => hinv.step hstep) h

/-- A later prefix extends an earlier one. -/
theorem extends_of_prefix {entries : List ChainEntry} {i j : ℕ} (hij : i ≤ j) {r s : Replay}
    (hr : replayLoop env (entries.take i) = .ok r) (hs : replayLoop env (entries.take j) = .ok s) :
    (r.finish env).Extends (s.finish env) := by
  obtain ⟨m, hm, hrest⟩ := foldlM_take hs i
  rw [List.take_take, min_eq_left hij] at hm
  obtain rfl : r = m := Except.ok.inj (hr.symm.trans hm)
  exact foldlM_related (R := fun a b => (finish env a).Extends (finish env b))
    (fun _ => .refl _) (fun hab hbc => hab.trans hbc) (fun _ _ _ => extends_of_step) hrest

end Replay

/-- The facts of an accepted chain that hold along its prefixes. -/
theorem replayState_monotone {entries : List ChainEntry} {state : ChainState}
    (h : replayState env entries = .ok state) :
    (∀ j, 1 ≤ j → j ≤ entries.length → ∃ s, replayState env (entries.take j) = .ok s ∧
      s.members.items ≠ [] ∧ DistinctKeys s.members) ∧
    (∀ i j s t, i < j → j ≤ entries.length → replayState env (entries.take i) = .ok s →
      replayState env (entries.take j) = .ok t → s.Extends t) ∧
    (∀ (i j : ℕ) (e f : ChainEntry), entries[i]? = some e → entries[j]? = some f →
      e.op? = some .sealId →
      f.op? = some .sealId → i = j ∧ i ≠ 0) ∧
    (∀ (j : ℕ) (e : ChainEntry) (s t : ChainState), entries[j]? = some e →
      replayState env (entries.take j) = .ok s →
      replayState env (entries.take (j + 1)) = .ok t →
      t.currentOperatorPubkey ≠ s.currentOperatorPubkey →
      e.op? = some .rotateOperator ∨ e.op? = some .sealId) ∧
    (∀ (i j : ℕ) (e f : ChainEntry), i < j → entries[i]? = some e → entries[j]? = some f →
      e.op? = some .reset → f.op? = some .reset → ∃ p q, e.seatPair? = some p ∧ f.seatPair? = some q ∧ p ≠ q) := by
  obtain ⟨r, hr, -⟩ := replayState_eq_ok.mp h
  have hseal : ∀ (i j : ℕ) (e f : ChainEntry), i < j → entries[i]? = some e →
      entries[j]? = some f → e.op? = some .sealId → f.op? ≠ some .sealId := by
    intro i j e f hij hi hj he hf
    obtain ⟨m, m', hm, hstep, -⟩ := replayLoop_take_step hr hj
    obtain ⟨-, hauth, -⟩ := Replay.step_eq_ok hstep
    have hnone := (Replay.authorise_sealId hf hauth).2.1
    refine (Replay.inv_of_replayLoop hm).unsealed hnone e ?_ he
    exact List.mem_of_getElem? (by rw [List.getElem?_take_of_lt hij, hi])
  refine ⟨fun j hj hjlen => ?accepted, fun i j s t hij _ hs ht => ?extend,
    fun i j e f hi hj he hf => ⟨?once, ?later⟩, fun j e s t hj hs ht hne => ?operator,
    fun i j e f hij hi hj he hf => ?seats⟩
  case accepted =>
    obtain ⟨m, hm⟩ := replayLoop_take hr j
    have hinv := Replay.inv_of_replayLoop hm
    refine ⟨m.finish env, replayState_eq_ok.mpr ⟨m, hm, rfl⟩, hinv.nonempty ?_, hinv.distinct⟩
    intro hnil
    have := congrArg List.length hnil
    simp only [List.length_take, List.length_nil] at this
    omega
  case extend =>
    obtain ⟨a, ha, rfl⟩ := replayState_eq_ok.mp hs
    obtain ⟨b, hb, rfl⟩ := replayState_eq_ok.mp ht
    exact Replay.extends_of_prefix hij.le ha hb
  case once =>
    rcases lt_trichotomy i j with hij | hij | hij
    · exact absurd hf (hseal i j e f hij hi hj he)
    · exact hij
    · exact absurd he (hseal j i f e hij hj hi hf)
  case later =>
    rintro rfl
    obtain ⟨m, m', hm, hstep, -⟩ := replayLoop_take_step hr hi
    obtain ⟨⟨hseq, -⟩, hauth, -⟩ := Replay.step_eq_ok hstep
    have hzero := (Replay.authorise_sealId he hauth).1
    rw [hseq, (Replay.inv_of_replayLoop hm).count] at hzero
    simp at hzero
  case operator =>
    obtain ⟨m, m', hm, hstep, hm'⟩ := replayLoop_take_step hr hj
    obtain ⟨a, ha, rfl⟩ := replayState_eq_ok.mp hs
    obtain ⟨b, hb, rfl⟩ := replayState_eq_ok.mp ht
    obtain rfl : m = a := Except.ok.inj (hm.symm.trans ha)
    obtain rfl : m' = b := Except.ok.inj (hm'.symm.trans hb)
    exact Replay.operator_of_step hstep hne
  case seats =>
    have hinv := Replay.seats_of_replayLoop hr
    obtain ⟨p, -, hp⟩ := hinv.seat e (List.mem_of_getElem? hi) he
    obtain ⟨q, -, hq⟩ := hinv.seat f (List.mem_of_getElem? hj) hf
    refine ⟨p, q, hp, hq, fun hpq => hinv.once i j e f hij hi hj he hf ?_⟩
    rw [hp, hq, hpq]

/-- After the seal of the sample chain, its reset leaves the seal as it is. -/
theorem replayState_monotone_sample : ∃ s t,
    replayState samplePrimitives (sampleChain.take 3) = .ok s ∧
      replayState samplePrimitives (sampleChain.take 4) = .ok t ∧ s.Extends t := by
  obtain ⟨t, h⟩ := sampleChain_accepted
  obtain ⟨r, hr, -⟩ := replayState_eq_ok.mp h
  obtain ⟨m, hm⟩ := replayLoop_take hr 3
  have hs := replayState_eq_ok.mpr ⟨m, hm, rfl⟩
  exact ⟨_, t, hs, h, (replayState_monotone h).2.1 3 4 _ t (by decide) (by decide) hs h⟩

end Genesis
end Recto
