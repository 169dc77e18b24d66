import Recto.Genesis.CrashConsistency

/-!
# What an append does to the members

An accepted record seats its key under its kind, removes its kind, or leaves the
members alone. However the append ends, the chain grew by the record or stayed.
-/

namespace Recto
namespace Genesis

variable {env : Primitives}

/-- The members of a chain that may be empty. -/
def membersOf (state : Option ChainState) : Dict String ChainEntry :=
  state.elim Dict.empty ChainState.members

variable (env) in
/-- The state of the stored records, their mark not asked. -/
def storedState (chain : List Record) : Except Failure (Option ChainState) := do
  let entries ← entriesFromRecords env chain
  replayStored env entries

/-- The members after an entry. -/
inductive ChainEntry.Moves (entry : ChainEntry) (M : Dict String ChainEntry) :
    Dict String ChainEntry → Prop
  | seats (hop : entry.op? = some .add ∨ entry.op? = some .reset) :
      Moves entry M (M.set entry.kind entry)
  | removes (hop : entry.op? = some .remove) : Moves entry M (M.erase entry.kind)
  | keeps (hop : entry.op? ≠ some .add ∧ entry.op? ≠ some .reset ∧ entry.op? ≠ some .remove) :
      Moves entry M M

theorem Replay.Change.moves {r r' : Replay} {entry : ChainEntry}
    (h : Replay.Change env r entry r') : entry.Moves r.members r'.members := by
  cases h with
  | add hop => exact .seats (Or.inl hop)
  | reset _ _ hop => exact .seats (Or.inr hop)
  | remove _ hop => exact .removes hop
  | sealId _ _ hop => exact .keeps (by simp [hop])
  | rotate hop => exact .keeps (by simp [hop])
  | unknown hop => exact .keeps (by simp [hop])

theorem moves_of_concat {entries : List ChainEntry} {entry : ChainEntry} {new : ChainState}
    (h : replayState env (entries ++ [entry]) = .ok new) :
    ∃ state, replayStored env entries = .ok state ∧ entry.Moves (membersOf state) new.members := by
  obtain ⟨r, hr, rfl⟩ := replayState_eq_ok.mp h
  obtain ⟨m, hm, hstep⟩ := foldlM_concat_eq_ok.mp hr
  obtain ⟨-, -, r₁, hchange, rfl⟩ := Replay.step_eq_ok hstep
  have hmoves := hchange.moves
  by_cases hnil : entries = []
  · subst hnil
    obtain rfl : Replay.start = m := Except.ok.inj hm
    exact ⟨none, by simp [replayStored], hmoves⟩
  · exact ⟨some (m.finish env),
      replayStored_of_replayState (replayState_eq_ok.mpr ⟨m, hm, rfl⟩) hnil, hmoves⟩

/-- What an entry read from a record says. -/
theorem entryFromRecord_eq_ok {record : Record} {entry : ChainEntry}
    (h : entryFromRecord env record = .ok entry) :
    fromHex record.pubkey = some entry.pubkey ∧ entry.op = record.op ∧ entry.kind = record.kind ∧
      entry.algorithm = record.algorithm ∧ entry.metaText = record.metaText := by
  simp only [entryFromRecord, Except.bind_eq_ok] at h
  obtain ⟨pubkey, hpubkey, signatures, -, hbuild⟩ := h
  obtain rfl := buildEntry_eq hbuild
  unfold decoded at hpubkey
  split at hpubkey
  · rename_i a ha
    rw [ha, Except.ok.inj hpubkey]
    exact ⟨rfl, rfl, rfl, rfl, rfl⟩
  · cases hpubkey

theorem entriesFromRecords_concat {chain : List Record} {record : Record}
    {entries : List ChainEntry} {entry : ChainEntry}
    (hold : entriesFromRecords env chain = .ok entries)
    (hall : entriesFromRecords env (chain ++ [record]) = .ok (entries ++ [entry])) :
    entryFromRecord env record = .ok entry := by
  unfold entriesFromRecords at hold hall
  rw [List.mapM_append, Except.bind_eq_ok] at hall
  obtain ⟨old, hold', hrest⟩ := hall
  obtain rfl := Except.ok.inj (hold.symm.trans hold')
  simp only [List.mapM_cons, List.mapM_nil, Except.bind_eq_ok, Except.pure_eq_ok] at hrest
  obtain ⟨_, ⟨e, he, _, rfl, rfl⟩, heq⟩ := hrest
  obtain rfl : e = entry := by simpa using heq
  exact he

theorem candidate_moves {chain : List Record} {record : Record} {entries : List ChainEntry}
    {new : ChainState} (h : candidate env chain record = .ok (entries, new)) :
    ∃ entry state, entryFromRecord env record = .ok entry ∧ storedState env chain = .ok state ∧
      storedState env (chain ++ [record]) = .ok (some new) ∧
      entry.Moves (membersOf state) new.members := by
  obtain ⟨old, entry, hold, hall, rfl, hnew⟩ := candidate_eq_ok h
  obtain ⟨state, hstate, hmoves⟩ := moves_of_concat hnew
  refine ⟨entry, state, entriesFromRecords_concat hold hall, ?_, ?_, hmoves⟩
  · exact Except.bind_eq_ok.mpr ⟨old, hold, hstate⟩
  · exact Except.bind_eq_ok.mpr ⟨_, hall, replayStored_of_replayState hnew (by simp)⟩

/-- A record that seats a key leaves it the member of its kind. -/
theorem candidate_seats {chain : List Record} {record : Record} {entries : List ChainEntry}
    {new : ChainState} (h : candidate env chain record = .ok (entries, new))
    (hop : record.op = Op.add.name ∨ record.op = Op.reset.name) :
    ∃ entry, new.members.get? record.kind = some entry ∧
      fromHex record.pubkey = some entry.pubkey := by
  obtain ⟨entry, state, hentry, -, -, hmoves⟩ := candidate_moves h
  obtain ⟨hpubkey, hsame, hkind, -⟩ := entryFromRecord_eq_ok hentry
  have hop' : entry.op? = some .add ∨ entry.op? = some .reset := by
    rw [ChainEntry.op?_eq_some_iff, ChainEntry.op?_eq_some_iff, hsame]
    exact hop
  refine ⟨entry, ?_, hpubkey⟩
  generalize membersOf state = M at hmoves
  generalize new.members = M' at hmoves ⊢
  cases hmoves with
  | seats => rw [← hkind]; exact Dict.get?_set_self _ _ _
  | removes hremove => rw [hremove] at hop'; simp at hop'
  | keeps hkeep => exact absurd hop' (by tauto)

theorem checkAppend_candidate {store : ChainStore} {record : Record} {entries : List ChainEntry}
    {new : ChainState} {mark : Json} (h : checkAppend env store record = .ok (entries, new, mark)) :
    candidate env store.chain record = .ok (entries, new) := by
  simp only [checkAppend, Except.bind_eq_ok, Except.pure_eq_ok] at h
  obtain ⟨⟨es, s⟩, hcandidate, _, -, m, -, heq⟩ := h
  simp only [Prod.mk.injEq] at heq
  obtain ⟨rfl, rfl, -⟩ := heq
  exact hcandidate

/-- An append that is done answers with the state it checked, and its record is on the chain; one
that raised left the chain alone. -/
theorem append_chain (F : Fault → Prop) (store : ChainStore) (record : Record) :
    (appendGenesisChainEntry env record).Sat F store
      ⟨fun new s => (∃ entries mark, checkAppend env store record = .ok (entries, new, mark)) ∧
          s.chain = store.chain ++ [record],
        fun _ s => s.chain = store.chain,
        fun s => s.chain = store.chain ∨
          (∃ x, checkAppend env store record = .ok x) ∧ s.chain = store.chain ++ [record]⟩ := by
  unfold appendGenesisChainEntry
  refine .bind (.get ?_)
  refine .bind (.ofExcept (fun checked hchecked => ?_) fun _ _ => rfl)
  obtain ⟨entries, new, mark⟩ := checked
  refine .bind (.ofExcept (fun newMark hnewMark => ?_) fun _ _ => rfl)
  have hdone : ∀ m, (∃ entries mark, checkAppend env store record = .ok (entries, new, mark)) ∧
      (ChainStore.mk (store.chain ++ [record]) m).chain = store.chain ++ [record] :=
    fun m => ⟨⟨entries, mark, hchecked⟩, rfl⟩
  cases newMark with
  | none =>
    exact .bind (.write (.pure (hdone _)) (fun _ => rfl) (fun _ => Or.inl rfl)
      fun _ => Or.inr ⟨⟨_, hchecked⟩, rfl⟩)
  | some newMark =>
    refine .bind (.write ?_ (fun _ => rfl) (fun _ => Or.inl rfl) fun _ => Or.inl rfl)
    refine .bind (.write ?_ (fun _ => rfl) (fun _ => Or.inl rfl)
      fun _ => Or.inr ⟨⟨_, hchecked⟩, rfl⟩)
    exact .bind (.handle (.write (.pure (hdone _)) (fun _ => .pure (.pure (hdone _)))
      (fun _ => Or.inr ⟨⟨_, hchecked⟩, rfl⟩) fun _ => Or.inr ⟨⟨_, hchecked⟩, rfl⟩))

end Genesis
end Recto
