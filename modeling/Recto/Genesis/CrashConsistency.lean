import Recto.Genesis.ChainStore
import Recto.Genesis.Rollback

/-!
# The chain writer under faults

Whatever write of an append or of a settlement fails, the mark on disk is one
the stored chain answers to: a plain mark it extends, or a mark in flight of
which it answers to one side. `Sound` is that invariant; every ending of every
call keeps it, and the answers of a sound store depend on its chain alone.
-/

namespace Recto
namespace Genesis

variable {env : Primitives}

/-! ## Marks the chain answers to -/

/-- A mark with no mark inside. -/
def PlainMark (m : Json) : Prop := m = .null ∨ ∃ mark : SealMark, m = mark.toJson

/-- A mark on disk: plain, or two plain ones in flight. -/
def FlatMark (m : Json) : Prop :=
  PlainMark m ∨ ∃ prev next, PlainMark prev ∧ PlainMark next ∧ m = inFlight prev next

/-- A plain mark the chain answers to. -/
def PlainFits (env : Primitives) (entries : List ChainEntry) (state : Option ChainState) (m : Json) :
    Prop :=
  (m = .null ∧ sealedState state = none) ∨
    ∃ mark : SealMark, m = mark.toJson ∧ 1 ≤ mark.length ∧
      checkOneMark env entries state mark.toJson = .ok ()

/-- A mark on disk the chain answers to. -/
inductive MarkFits (env : Primitives) (entries : List ChainEntry) (state : Option ChainState) :
    Json → Prop
  | plain {m : Json} (h : PlainFits env entries state m) : MarkFits env entries state m
  | behind {prev : Json} (next : SealMark) (hprev : PlainFits env entries state prev)
      (hnext : ∃ c, checkOneMark env entries state next.toJson = .error (.chain c)) :
      MarkFits env entries state (inFlight prev next.toJson)
  | ahead {prev : Json} (next : SealMark) (hprev : PlainMark prev)
      (hnext : PlainFits env entries state next.toJson) :
      MarkFits env entries state (inFlight prev next.toJson)

section Fits

variable {entries : List ChainEntry} {state : Option ChainState} {m : Json}

theorem PlainFits.plainMark (h : PlainFits env entries state m) : PlainMark m := by
  rcases h with ⟨rfl, -⟩ | ⟨mark, rfl, -⟩
  · exact Or.inl rfl
  · exact Or.inr ⟨mark, rfl⟩

theorem MarkFits.flat (h : MarkFits env entries state m) : FlatMark m := by
  cases h with
  | plain h => exact Or.inl h.plainMark
  | behind next hprev _ => exact Or.inr ⟨_, _, hprev.plainMark, Or.inr ⟨next, rfl⟩, rfl⟩
  | ahead next hprev _ => exact Or.inr ⟨_, _, hprev, Or.inr ⟨next, rfl⟩, rfl⟩

theorem PlainFits.checkSealMark_eq_ok (h : PlainFits env entries state m) :
    checkSealMark env entries state m = .ok () := by
  rcases h with ⟨rfl, hsealed⟩ | ⟨mark, rfl, -, hok⟩
  · exact ensure_eq_ok.mpr hsealed
  · rwa [checkSealMark_toJson]

theorem PlainFits.resolve_eq_ok (h : PlainFits env entries state m) :
    resolveSealMark env entries state m = .ok m := by
  have hcheck := h.checkSealMark_eq_ok
  rcases h with ⟨rfl, -⟩ | ⟨mark, rfl, -⟩ <;>
    exact Except.bind_eq_ok.mpr ⟨(), hcheck, rfl⟩

/-- A side the chain answers to passes, and is the side the mark resolves to. -/
theorem PlainFits.sides (h : PlainFits env entries state m) (sides : List Json)
    (reasons : List String) :
    checkSides env entries state (m :: sides) reasons = .ok () ∧
      resolveSides env entries state (m :: sides) = .ok m := by
  rcases h with ⟨rfl, hsealed⟩ | ⟨mark, rfl, -, hok⟩
  · simp [checkSides, resolveSides, hsealed]
  · simp [checkSides, resolveSides, mark.toJson_ne_null, hok]

/-- A side refused with the chain's own error is passed over. -/
theorem sides_refused {next : SealMark} {c : ChainError}
    (h : checkOneMark env entries state next.toJson = .error (.chain c)) (sides : List Json)
    (reasons : List String) :
    (checkSides env entries state (next.toJson :: sides) reasons = .ok () ↔
      checkSides env entries state sides reasons = .ok ()) ∧
      resolveSides env entries state (next.toJson :: sides) =
        resolveSides env entries state sides := by
  constructor
  · have honly : ChainOnly (checkOneMark env entries state next.toJson) := h ▸ .error c
    rw [checkSides_mark next.toJson_ne_null honly, h]
    simp
  · simp [resolveSides, next.toJson_ne_null, h]

/-- The chain passes a mark that fits, and the mark resolves to a plain one that fits. -/
theorem MarkFits.spec (h : MarkFits env entries state m) :
    checkSealMark env entries state m = .ok () ∧
      ∃ plain, resolveSealMark env entries state m = .ok plain ∧
        PlainFits env entries state plain := by
  cases h with
  | plain h => exact ⟨h.checkSealMark_eq_ok, _, h.resolve_eq_ok, h⟩
  | @behind prev next hprev hnext =>
    obtain ⟨c, hc⟩ := hnext
    obtain ⟨hcheck, hresolve⟩ := hprev.sides [] []
    obtain ⟨hpass, hskip⟩ := sides_refused hc [prev] []
    have hok := hpass.mpr hcheck
    exact ⟨hok, prev, Except.bind_eq_ok.mpr ⟨(), hok, hskip.trans hresolve⟩, hprev⟩
  | @ahead prev next hprev hnext =>
    obtain ⟨hcheck, hresolve⟩ := hnext.sides [prev] []
    exact ⟨hcheck, next.toJson, Except.bind_eq_ok.mpr ⟨(), hcheck, hresolve⟩, hnext⟩

end Fits

/-! ## Chains that grow by one entry -/

theorem replayStored_eq_ok {entries : List ChainEntry} {state : Option ChainState}
    (h : replayStored env entries = .ok state) :
    entries = [] ∧ state = none ∨
      ∃ s, replayState env entries = .ok s ∧ state = some s := by
  unfold replayStored at h
  split_ifs at h with hnil
  · exact Or.inl ⟨hnil, (Except.ok.inj h).symm⟩
  · obtain ⟨s, hs, rfl⟩ := Except.map_eq_ok.mp h
    exact Or.inr ⟨s, hs, rfl⟩

theorem replayStored_of_replayState {entries : List ChainEntry} {s : ChainState}
    (h : replayState env entries = .ok s) (hne : entries ≠ []) :
    replayStored env entries = .ok (some s) := by
  simp [replayStored, hne, h, Except.map]

section Grow

variable {entries : List ChainEntry} {entry : ChainEntry} {state : Option ChainState}
  {new : ChainState}

theorem extends_of_concat {old : ChainState} (hold : replayState env entries = .ok old)
    (hnew : replayState env (entries ++ [entry]) = .ok new) : old.Extends new := by
  obtain ⟨r, hr, rfl⟩ := replayState_eq_ok.mp hold
  obtain ⟨r', hr', rfl⟩ := replayState_eq_ok.mp hnew
  obtain ⟨m, hm, hstep⟩ := foldlM_concat_eq_ok.mp hr'
  obtain rfl : m = r := Except.ok.inj (hm.symm.trans hr)
  exact Replay.extends_of_step hstep

theorem length_of_replayState {s : ChainState} (h : replayState env entries = .ok s) :
    s.length = entries.length := by
  obtain ⟨r, hr, rfl⟩ := replayState_eq_ok.mp h
  exact (Replay.inv_of_replayLoop hr).count

/-- An append seals once for all: a sealed chain stays sealed. -/
theorem sealedState_of_concat (hold : replayStored env entries = .ok state)
    (hnew : replayState env (entries ++ [entry]) = .ok new) (h : new.sealedId = none) :
    sealedState state = none := by
  rcases replayStored_eq_ok hold with ⟨-, rfl⟩ | ⟨s, hs, rfl⟩
  · rfl
  · cases hid : s.sealedId with
    | none => exact hid
    | some id =>
      have := (extends_of_concat hs hnew).sealed id hid
      rw [h] at this
      cases this

/-- A mark the chain matches is matched by the longer chain. -/
theorem SealMark.Matches.concat {mark : SealMark} {old : ChainState}
    (h : mark.Matches env entries old) (hlength : 1 ≤ mark.length)
    (hold : replayState env entries = .ok old)
    (hnew : replayState env (entries ++ [entry]) = .ok new) :
    mark.Matches env (entries ++ [entry]) new := by
  obtain ⟨hid, hsealed, hle, htip, hseq, hseal⟩ := h
  have hold' := length_of_replayState hold
  have hnew' := length_of_replayState hnew
  rw [List.length_append] at hnew'
  have hlt : mark.sealSeq.toNat < entries.length := by
    cases hget : entries[mark.sealSeq.toNat]? with
    | none =>
      rw [hget] at hseal
      cases hseal
    | some e => exact (List.getElem?_eq_some_iff.mp hget).1
  refine ⟨hid, (extends_of_concat hold hnew).sealed _ hsealed, by omega, ?_, hseq, ?_⟩
  · rw [List.getElem?_append_left (by omega), htip]
  · rw [List.getElem?_append_left hlt, hseal]

theorem PlainFits.concat {m : Json} (h : PlainFits env entries state m)
    (hold : replayStored env entries = .ok state)
    (hnew : replayState env (entries ++ [entry]) = .ok new) (hm : m ≠ .null) :
    PlainFits env (entries ++ [entry]) (some new) m := by
  rcases h with ⟨rfl, -⟩ | ⟨mark, rfl, hlength, hok⟩
  · exact absurd rfl hm
  · rcases replayStored_eq_ok hold with ⟨-, rfl⟩ | ⟨old, hs, rfl⟩
    · obtain ⟨c, hc⟩ := checkOneMark_unsealed env entries mark
        (show sealedState none = none from rfl)
      rw [hc] at hok
      cases hok
    · have hmatch := (checkOneMark_toJson env hlength (length_of_replayState hs)).1.mp hok
      exact Or.inr ⟨mark, rfl, hlength,
        (checkOneMark_toJson env hlength (length_of_replayState hnew)).1.mpr
          (hmatch.concat hlength hs hnew)⟩

theorem PlainFits.eq_null {m : Json} (h : PlainFits env entries state m)
    (hsealed : sealedState state = none) : m = .null := by
  rcases h with ⟨rfl, -⟩ | ⟨mark, rfl, -, hok⟩
  · rfl
  · obtain ⟨c, hc⟩ := checkOneMark_unsealed env entries mark hsealed
    rw [hc] at hok
    cases hok

/-- Between unsealed chains the mark does not matter. -/
theorem MarkFits.unsealed {m : Json} (h : MarkFits env entries state m)
    (hsealed : sealedState state = none) {entries' : List ChainEntry} {state' : Option ChainState}
    (hsealed' : sealedState state' = none) : MarkFits env entries' state' m := by
  cases h with
  | plain h =>
    obtain rfl := h.eq_null hsealed
    exact .plain (Or.inl ⟨rfl, hsealed'⟩)
  | behind next hprev _ =>
    obtain rfl := hprev.eq_null hsealed
    exact .behind next (Or.inl ⟨rfl, hsealed'⟩) (checkOneMark_unsealed env _ next hsealed')
  | ahead next _ hnext => exact absurd (hnext.eq_null hsealed) next.toJson_ne_null

/-- A chain matches its own mark. -/
theorem Marked.plainFits (E : Marked env) :
    PlainFits env E.entries (some E.state) E.mark.toJson := by
  have hlength := length_of_replayState E.accepted
  refine Or.inr ⟨E.mark, rfl, E.one_le_length,
    (checkOneMark_toJson env E.one_le_length hlength).1.mpr ?_⟩
  obtain ⟨k, sealing, hk, hseq, hhash⟩ := E.mark_seal
  refine ⟨E.mark_id_ne_empty, E.sealed, by rw [E.mark_length, hlength], ?_, by omega, ?_⟩
  · rw [E.mark_length, E.mark_tip]
  · rw [hseq, Int.toNat_natCast, hk, Option.map_some, hhash]

/-- The chain before an append is refused by the mark of the chain after it. -/
theorem Marked.refused_before (E : Marked env) (hE : E.entries = entries ++ [entry])
    (hold : replayStored env entries = .ok state) :
    ∃ c, checkOneMark env entries state E.mark.toJson = .error (.chain c) := by
  rcases replayStored_eq_ok hold with ⟨-, rfl⟩ | ⟨old, hs, rfl⟩
  · exact checkOneMark_unsealed env _ _ rfl
  · have hlength := length_of_replayState hs
    obtain ⟨hiff, honly⟩ := checkOneMark_toJson env E.one_le_length hlength
    cases hcheck : checkOneMark env entries (some old) E.mark.toJson with
    | error e =>
      obtain ⟨c, rfl⟩ := honly e hcheck
      exact ⟨c, rfl⟩
    | ok u =>
      obtain ⟨-, -, hle, -⟩ := hiff.mp hcheck
      rw [E.mark_length, hE, List.length_append, List.length_singleton] at hle
      omega

/-- An accepted chain is marked exactly when it is sealed. -/
theorem sealMarkOf_spec {s : ChainState} (h : replayState env entries = .ok s) :
    (s.sealedId = none ∧ sealMarkOf env entries s = .ok none) ∨
      ∃ mark, sealMarkOf env entries s = .ok (some mark) := by
  by_cases hsealed : s.sealedId = none
  · exact Or.inl ⟨hsealed, by simp [sealMarkOf, hsealed]⟩
  · exact Or.inr (exists_sealMark h hsealed)

end Grow

/-! ## Sound stores -/

/-- The stored chain replays, and the mark is one it answers to. -/
def Sound (env : Primitives) (store : ChainStore) : Prop :=
  ∃ entries state, entriesFromRecords env store.chain = .ok entries ∧
    replayStored env entries = .ok state ∧ MarkFits env entries state store.mark

theorem sound_empty : Sound env ChainStore.empty :=
  ⟨[], none, rfl, rfl, .plain (Or.inl ⟨rfl, rfl⟩)⟩

theorem genesisChainState_eq {store : ChainStore} {entries : List ChainEntry}
    {state : Option ChainState} (hentries : entriesFromRecords env store.chain = .ok entries)
    (hstate : replayStored env entries = .ok state)
    (hfits : MarkFits env entries state store.mark) :
    genesisChainState env store = .ok state := by
  simp only [genesisChainState, Except.bind_eq_ok, Except.pure_eq_ok]
  exact ⟨entries, hentries, state, hstate, (), hfits.spec.1, rfl⟩

theorem asChainError_eq_ok {α : Type} {x : Except Failure α} {a : α} :
    asChainError x = .ok a ↔ x = .ok a := by
  cases x with
  | ok b => rfl
  | error e => cases e <;> simp [asChainError]

theorem candidate_eq_ok {chain : List Record} {record : Record} {entries : List ChainEntry}
    {new : ChainState} (h : candidate env chain record = .ok (entries, new)) :
    ∃ old entry, entriesFromRecords env chain = .ok old ∧
      entriesFromRecords env (chain ++ [record]) = .ok (old ++ [entry]) ∧
      entries = old ++ [entry] ∧ replayState env (old ++ [entry]) = .ok new := by
  simp only [candidate, Except.bind_eq_ok, Except.pure_eq_ok, asChainError_eq_ok,
    Prod.mk.injEq] at h
  obtain ⟨es, hes, s, hs, rfl, rfl⟩ := h
  have hall := hes
  unfold entriesFromRecords at hes
  rw [List.mapM_append, Except.bind_eq_ok] at hes
  obtain ⟨old, hold, hrest⟩ := hes
  simp only [List.mapM_cons, List.mapM_nil, Except.bind_eq_ok, Except.pure_eq_ok] at hrest
  obtain ⟨_, ⟨entry, -, _, rfl, rfl⟩, rfl⟩ := hrest
  exact ⟨old, entry, hold, hall, rfl, hs⟩

/-- On a sound store the checks of an append are those of its chain. -/
theorem checkAppend_eq {store : ChainStore} (h : Sound env store) (record : Record) :
    (∃ e, candidate env store.chain record = .error e ∧
        checkAppend env store record = .error e) ∨
    ∃ old entry new state mark,
      candidate env store.chain record = .ok (old ++ [entry], new) ∧
      entriesFromRecords env store.chain = .ok old ∧
      entriesFromRecords env (store.chain ++ [record]) = .ok (old ++ [entry]) ∧
      replayState env (old ++ [entry]) = .ok new ∧ replayStored env old = .ok state ∧
      MarkFits env old state store.mark ∧ PlainFits env old state mark ∧
      checkAppend env store record = .ok (old ++ [entry], new, mark) := by
  cases hcandidate : candidate env store.chain record with
  | error e =>
    refine Or.inl ⟨e, rfl, ?_⟩
    simp only [checkAppend, hcandidate]
    rfl
  | ok pair =>
    obtain ⟨entries, new⟩ := pair
    obtain ⟨old, entry, hold, hall, rfl, hnew⟩ := candidate_eq_ok hcandidate
    obtain ⟨old', state, hold', hstate, hfits⟩ := h
    obtain rfl : old' = old := Except.ok.inj (hold'.symm.trans hold)
    obtain ⟨-, mark, hresolve, hplain⟩ := hfits.spec
    refine Or.inr ⟨old', entry, new, state, mark, rfl, hold, hall, hnew, hstate, hfits, hplain, ?_⟩
    simp only [checkAppend, Except.bind_eq_ok, Except.pure_eq_ok]
    exact ⟨_, hcandidate, state, by simpa using hstate, mark, by simpa using hresolve, rfl⟩

/-- The state of a store after its chain grew by the record, or stayed. -/
def Before (store s : ChainStore) : Prop := s.chain = store.chain

def After (env : Primitives) (store : ChainStore) (record : Record) (s : ChainStore) : Prop :=
  ∃ entries new, candidate env store.chain record = .ok (entries, new) ∧
    s.chain = store.chain ++ [record] ∧ genesisChainState env s = .ok (some new)

/-- Every ending of an append leaves a sound store, with the chain as it was or with the record
appended. -/
theorem append_sat {store : ChainStore} (h : Sound env store) (record : Record) :
    (appendGenesisChainEntry env record).Sat Fault.Any store (.always fun s =>
      Sound env s ∧ (Before store s ∨ After env store record s)) := by
  have hsame : Sound env store ∧ (Before store store ∨ After env store record store) :=
    ⟨h, Or.inl rfl⟩
  unfold appendGenesisChainEntry
  refine .bind (.get ?_)
  refine .bind (.ofExcept (fun checked hchecked => ?_) fun e _ => hsame)
  rcases checkAppend_eq h record with ⟨e, -, he⟩ |
      ⟨old, entry, new, state, mark, hcandidate, hold, hall, hnew, hstate, hfits, hplain, hok⟩
  · rw [he] at hchecked
    cases hchecked
  obtain rfl := Except.ok.inj (hok.symm.trans hchecked)
  have hgrown : replayStored env (old ++ [entry]) = .ok (some new) :=
    replayStored_of_replayState hnew (by simp)
  have hafter : ∀ m, MarkFits env (old ++ [entry]) (some new) m →
      Sound env ⟨store.chain ++ [record], m⟩ ∧
        (Before store ⟨store.chain ++ [record], m⟩ ∨
          After env store record ⟨store.chain ++ [record], m⟩) := fun m hm =>
    ⟨⟨_, _, hall, hgrown, hm⟩, Or.inr ⟨_, _, hcandidate, rfl, genesisChainState_eq hall hgrown hm⟩⟩
  refine .bind (.ofExcept (fun newMark hnewMark => ?_) fun e _ => hsame)
  rcases sealMarkOf_spec hnew with ⟨hunsealed, hmark⟩ | ⟨next, hmark⟩
  · -- An unsealed chain: the mark on disk stays, and is still one the chain answers to.
    obtain rfl := Except.ok.inj (hmark.symm.trans hnewMark)
    have hsealed : sealedState (some new) = none := hunsealed
    have hdone := hafter store.mark (hfits.unsealed
      (sealedState_of_concat hstate hnew hunsealed) hsealed)
    exact .bind (.write (.pure hdone) (fun _ => hsame) (fun _ => hsame) fun _ => hdone)
  · -- A sealed chain: the mark in flight fits the chain on either side of its write.
    obtain rfl := Except.ok.inj (hmark.symm.trans hnewMark)
    let E : Marked env := ⟨_, new, next, hnew, hmark⟩
    have hflight : Sound env ⟨store.chain, inFlight mark next.toJson⟩ ∧
        (Before store ⟨store.chain, inFlight mark next.toJson⟩ ∨
          After env store record ⟨store.chain, inFlight mark next.toJson⟩) :=
      ⟨⟨old, state, hold, hstate, .behind next hplain (E.refused_before rfl hstate)⟩, Or.inl rfl⟩
    have hahead := hafter _ (.ahead next hplain.plainMark E.plainFits)
    have hplainNext := hafter _ (.plain E.plainFits)
    refine .bind (.write ?_ (fun _ => hsame) (fun _ => hsame) fun _ => hflight)
    refine .bind (.write ?_ (fun _ => hflight) (fun _ => hflight) fun _ => hahead)
    exact .bind (.handle (.write (.pure hplainNext) (fun _ => .pure (.pure hahead))
      (fun _ => hahead) fun _ => hplainNext))

/-- Every ending of a settlement leaves a sound store with the same chain. -/
theorem settle_sat {store : ChainStore} (h : Sound env store) :
    (settleSealMark env).Sat Fault.Any store (.always fun s => Sound env s ∧ s.chain = store.chain) := by
  unfold settleSealMark
  refine .bind (.get ?_)
  refine .bind (.ofExcept (fun plain hplain => ?_) fun e _ => ⟨h, rfl⟩)
  cases plain with
  | none => exact .pure ⟨h, rfl⟩
  | some plain =>
    obtain ⟨entries, state, hentries, hstate, hfits⟩ := h
    obtain ⟨-, resolved, hresolve, hresolved⟩ := hfits.spec
    have hset : plain = resolved := by
      unfold markToSettle at hplain
      split at hplain
      · split_ifs at hplain
        · cases hplain
        · simp only [Except.bind_eq_ok, Except.pure_eq_ok, Option.some.injEq] at hplain
          obtain ⟨es, hes, st, hst, p, hp, rfl⟩ := hplain
          obtain rfl := Except.ok.inj (hentries.symm.trans hes)
          obtain rfl := Except.ok.inj (hstate.symm.trans hst)
          exact Except.ok.inj (hp.symm.trans hresolve)
      · cases hplain
    subst hset
    have hbefore : Sound env store ∧ store.chain = store.chain :=
      ⟨⟨entries, state, hentries, hstate, hfits⟩, rfl⟩
    have hafter : Sound env ⟨store.chain, plain⟩ ∧ store.chain = store.chain :=
      ⟨⟨entries, state, hentries, hstate, .plain hresolved⟩, rfl⟩
    exact .write hafter (fun _ => hbefore) (fun _ => hbefore) fun _ => hafter

theorem sound_run {store : ChainStore} (h : Sound env store) (call : ChainCall) :
    Sound env (call.run env store) := by
  cases call with
  | append record faults => exact (Faulty.Post.always_store (append_sat h record faults fun _ _ => trivial)).1
  | settle faults => exact (Faulty.Post.always_store (settle_sat h faults fun _ _ => trivial)).1

variable (env) in
theorem sound_runCalls (calls : List ChainCall) : Sound env (runCalls env calls) := by
  unfold runCalls
  induction calls using List.reverseRecOn with
  | nil => exact sound_empty
  | append_singleton calls call ih =>
    rw [List.foldl_append]
    exact sound_run ih call

/-- Without a fault, an append to a sound store answers as its chain alone decides. -/
theorem append_nil {store : ChainStore} (h : Sound env store) (record : Record) :
    ((appendGenesisChainEntry env record).run [] store).result? =
        some ((candidate env store.chain record).map Prod.snd) ∧
      ((candidate env store.chain record).isOk = true →
        ((appendGenesisChainEntry env record).run [] store).store.chain = store.chain ++ [record]) := by
  rcases checkAppend_eq h record with ⟨e, hcandidate, he⟩ |
      ⟨old, entry, new, state, mark, hcandidate, -, -, hnew, -, -, -, hok⟩
  · rw [hcandidate]
    constructor
    · simp only [appendGenesisChainEntry, Faulty.run_bind, Faulty.run_get, he]
      rfl
    · intro hfalse
      cases hfalse
  · rw [hcandidate]
    simp only [appendGenesisChainEntry, Faulty.run_bind, Faulty.run_get, hok, Faulty.ofExcept_ok,
      Faulty.run_pure]
    rcases sealMarkOf_spec hnew with ⟨-, hmark⟩ | ⟨next, hmark⟩ <;> rw [hmark] <;>
      exact ⟨rfl, fun _ => rfl⟩

/-- The store of fault-free appends only. -/
def uninterrupted (env : Primitives) (records : List Record) : ChainStore :=
  runCalls env (records.map fun record => .append record [])

/-- The stored chain is one that fault-free appends store. -/
def Uninterruptible (env : Primitives) (store : ChainStore) : Prop :=
  ∃ records, (uninterrupted env records).chain = store.chain

theorem uninterruptible_run {store : ChainStore} (h : Sound env store)
    (hu : Uninterruptible env store) (call : ChainCall) :
    Uninterruptible env (call.run env store) := by
  obtain ⟨records, hrecords⟩ := hu
  cases call with
  | settle faults =>
    have := (Faulty.Post.always_store (settle_sat h faults fun _ _ => trivial)).2
    exact ⟨records, hrecords.trans this.symm⟩
  | append record faults =>
    rcases (Faulty.Post.always_store (append_sat h record faults fun _ _ => trivial)).2 with
      hbefore | ⟨entries, new, hcandidate, hafter, -⟩
    · exact ⟨records, hrecords.trans hbefore.symm⟩
    · refine ⟨records ++ [record], ?_⟩
      have hsame : candidate env (uninterrupted env records).chain record =
          .ok (entries, new) := by
        rw [hrecords]
        exact hcandidate
      have hchain := (append_nil (sound_runCalls env
        (records.map fun record => .append record [])) record).2
      unfold uninterrupted at hsame
      rw [hsame] at hchain
      have hgrown := hchain rfl
      unfold uninterrupted at hrecords ⊢
      rw [List.map_append, runCalls, List.foldl_append]
      exact hgrown.trans (by rw [hrecords]; exact hafter.symm)

theorem uninterruptible_runCalls (calls : List ChainCall) :
    Uninterruptible env (runCalls env calls) := by
  induction calls using List.reverseRecOn with
  | nil => exact ⟨[], rfl⟩
  | append_singleton calls call ih =>
    have := uninterruptible_run (sound_runCalls env calls) ih call
    rw [runCalls, List.foldl_append]
    exact this

/-- The chain writer is crash consistent: in every store a run reaches, the state reads; an append,
however it ends, leaves the state as it was or the one an uninterrupted append answers with; no mark
nests in another; and a later append answers as on an uninterrupted store of the same chain. -/
theorem chainStore_crash_consistent (env : Primitives) (calls : List ChainCall) :
    (∃ state, genesisChainState env (runCalls env calls) = .ok state) ∧
    (∀ record faults,
      let after := ((appendGenesisChainEntry env record).run faults (runCalls env calls)).store
      genesisChainState env after = genesisChainState env (runCalls env calls) ∨
        ∃ state, ((appendGenesisChainEntry env record).run [] (runCalls env calls)).result? =
            some (.ok state) ∧ genesisChainState env after = .ok (some state)) ∧
    FlatMark (runCalls env calls).mark ∧
    (∃ records, (uninterrupted env records).chain = (runCalls env calls).chain) ∧
    ∀ records, (uninterrupted env records).chain = (runCalls env calls).chain → ∀ record,
      ((appendGenesisChainEntry env record).run [] (runCalls env calls)).result? =
        ((appendGenesisChainEntry env record).run [] (uninterrupted env records)).result? := by
  have hsound := sound_runCalls env calls
  obtain ⟨entries, state, hentries, hstate, hfits⟩ := hsound
  have hsound : Sound env (runCalls env calls) := ⟨entries, state, hentries, hstate, hfits⟩
  refine ⟨⟨state, genesisChainState_eq hentries hstate hfits⟩, ?crash, hfits.flat,
    uninterruptible_runCalls calls, ?later⟩
  case crash =>
    intro record faults
    obtain ⟨hsound', hchain⟩ :=
      Faulty.Post.always_store (append_sat hsound record faults fun _ _ => trivial)
    rcases hchain with hbefore | ⟨grown, new, hcandidate, -, hread⟩
    · left
      obtain ⟨entries', state', hentries', hstate', hfits'⟩ := hsound'
      have hsame : entries' = entries := by
        rw [hbefore] at hentries'
        exact Except.ok.inj (hentries'.symm.trans hentries)
      subst hsame
      obtain rfl := Except.ok.inj (hstate'.symm.trans hstate)
      rw [genesisChainState_eq hentries hstate hfits]
      exact genesisChainState_eq hentries' hstate' hfits'
    · right
      refine ⟨new, ?_, hread⟩
      rw [(append_nil hsound record).1, hcandidate]
      rfl
  case later =>
    intro records hrecords record
    rw [(append_nil hsound record).1, uninterrupted, (append_nil (sound_runCalls env _) record).1]
    exact congrArg (fun chain => some ((candidate env chain record).map Prod.snd)) hrecords.symm

end Genesis
end Recto
