import Recto.Grants.Service

/-!
# What a revocation list does, on either backend

The laws the handlers rely on: a jti counts as revoked exactly while an entry of
it has not expired, a call leaves the entries of other jtis that count, and an
added entry is there afterwards unless one that counts stood in its place.
-/

namespace Recto
namespace Grants

open State

/-- The two backends: the file, or a table with the collation of its database. -/
def IsBackend (backend : RevocationBackend) : Prop :=
  backend = StateStore.revocations ∨ ∃ collation, backend = PostgresStateStore.revocations collation

/-- The call puts the entry on the list. -/
def Adds (q : Query) (entry : RevocationEntry) : Prop :=
  q = .addRevocation entry ∨ q = .consumeSingleUse entry

structure Lawful (backend : RevocationBackend) : Prop where
  revoked_iff : ∀ now jti s, (isRevoked backend now jti s).1 = true ↔ HeldPast s jti now
  isRevoked_get? : ∀ now jti s j e, (isRevoked backend now jti s).2.get? j = some e ↔
    s.get? j = some e ∧ now < e.originalExp
  add_other : ∀ now entry s j e, j ≠ entry.jti →
    ((addRevocation backend now entry s).2.get? j = some e → s.get? j = some e) ∧
    (s.get? j = some e → now < e.originalExp →
      (addRevocation backend now entry s).2.get? j = some e)
  add_self : ∀ now entry s, (addRevocation backend now entry s).1 = some () →
    ∃ e, (addRevocation backend now entry s).2.get? entry.jti = some e ∧
      (e = entry ∨ s.get? entry.jti = some e ∧ now < e.originalExp)
  add_raised : ∀ now entry s, (addRevocation backend now entry s).1 = none →
    (addRevocation backend now entry s).2 = s

section
variable {now : ℤ} {jti j : String} {s : Revocations} {e entry : RevocationEntry}

theorem mem_purge_iff : jti ∈ purgeExpiredRevocations s now ↔ HeldPast s jti now := by
  rw [Dict.mem_iff]
  simp [HeldPast, get?_purge]

theorem isRevoked_file :
    isRevoked StateStore.revocations now jti s =
      (decide (jti ∈ purgeExpiredRevocations s now), purgeExpiredRevocations s now) := rfl

theorem isRevoked_postgres {collation : LinearOrder String} :
    isRevoked (PostgresStateStore.revocations collation) now jti s =
      (decide (jti ∈ purgeExpiredRevocations s now), purgeExpiredRevocations s now) := rfl

theorem addRevocation_file :
    addRevocation StateStore.revocations now entry s =
      (some (), StateStore.addRevocation s now entry) := rfl

theorem addRevocation_postgres {collation : LinearOrder String} :
    addRevocation (PostgresStateStore.revocations collation) now entry s =
      if PostgresStateStore.FitsBigint entry.originalExp then (some (), s.set entry.jti entry)
      else (none, s) := by
  by_cases h : PostgresStateStore.FitsBigint entry.originalExp <;>
    simp [addRevocation, PostgresStateStore.revocations, PostgresStateStore.addRevocation, h]

theorem lawful_file : Lawful StateStore.revocations where
  revoked_iff now jti s := by simp [isRevoked_file, mem_purge_iff]
  isRevoked_get? now jti s j e := by simp [isRevoked_file, get?_purge]
  add_other now entry s j e hj := by
    have hget : (StateStore.addRevocation s now entry).get? j =
        (purgeExpiredRevocations s now).get? j := by
      unfold StateStore.addRevocation
      dsimp only
      split_ifs with hmem
      · rfl
      · exact Dict.get?_set_of_ne _ hj _
    simp only [addRevocation_file, hget, get?_purge]
    exact ⟨fun h => h.1, fun h hnow => ⟨h, hnow⟩⟩
  add_self now entry s _ := by
    simp only [addRevocation_file, StateStore.addRevocation]
    split_ifs with hmem
    · obtain ⟨e, he⟩ := Dict.mem_iff.mp hmem
      exact ⟨e, he, .inr (get?_purge.mp he)⟩
    · exact ⟨entry, Dict.get?_set_self _ _ _, .inl rfl⟩
  add_raised now entry s h := by cases h

theorem lawful_postgres (collation : LinearOrder String) :
    Lawful (PostgresStateStore.revocations collation) where
  revoked_iff now jti s := by simp [isRevoked_postgres, mem_purge_iff]
  isRevoked_get? now jti s j e := by simp [isRevoked_postgres, get?_purge]
  add_other now entry s j e hj := by
    rw [addRevocation_postgres]
    split_ifs with hfits
    · simp only [Dict.get?_set_of_ne _ hj]
      exact ⟨id, fun h _ => h⟩
    · exact ⟨id, fun h _ => h⟩
  add_self now entry s h := by
    rw [addRevocation_postgres] at h ⊢
    split_ifs at h ⊢ with hfits
    exact ⟨entry, Dict.get?_set_self _ _ _, .inl rfl⟩
  add_raised now entry s h := by
    rw [addRevocation_postgres] at h ⊢
    split_ifs at h ⊢ with hfits
    rfl

theorem IsBackend.lawful {backend : RevocationBackend} (h : IsBackend backend) :
    Lawful backend := by
  rcases h with rfl | ⟨collation, rfl⟩
  · exact lawful_file
  · exact lawful_postgres collation

end

/-! ## Holding past a time -/

namespace Lawful

variable {backend : RevocationBackend} (law : Lawful backend) {now time : ℤ} {jti : String}
  {s : Revocations} {entry : RevocationEntry}
include law

theorem isRevoked_keeps (h : HeldPast s jti time) (hnow : now ≤ time) (j : String) :
    HeldPast (isRevoked backend now j s).2 jti time := by
  obtain ⟨e, hget, hexp⟩ := h
  exact ⟨e, (law.isRevoked_get? _ _ _ _ _).mpr ⟨hget, by omega⟩, hexp⟩

theorem revoked_of_heldPast (h : HeldPast s jti time) (hnow : now ≤ time) :
    (isRevoked backend now jti s).1 = true := by
  obtain ⟨e, hget, hexp⟩ := h
  exact (law.revoked_iff _ _ _).mpr ⟨e, hget, by omega⟩

theorem add_keeps (h : HeldPast s jti time) (hnow : now ≤ time)
    (hexp : entry.jti = jti → time < entry.originalExp) :
    HeldPast (addRevocation backend now entry s).2 jti time := by
  obtain ⟨e, hget, he⟩ := h
  by_cases hj : jti = entry.jti
  · subst hj
    cases hadd : (addRevocation backend now entry s).1 with
    | none =>
      rw [law.add_raised _ _ _ hadd]
      exact ⟨e, hget, he⟩
    | some _ =>
      obtain ⟨e', hget', rfl | ⟨hold, -⟩⟩ := law.add_self _ _ _ hadd
      · exact ⟨e', hget', hexp rfl⟩
      · rw [hget, Option.some.injEq] at hold
        exact ⟨e', hget', hold ▸ he⟩
  · exact ⟨e, (law.add_other _ _ _ _ _ hj).2 hget (by omega), he⟩

/-- An entry added where none counts is there as it was added. -/
theorem add_fresh (h : ¬ HeldPast s entry.jti now)
    (hadd : (addRevocation backend now entry s).1 = some ()) :
    (addRevocation backend now entry s).2.get? entry.jti = some entry := by
  obtain ⟨e, hget, rfl | ⟨hold, hexp⟩⟩ := law.add_self _ _ _ hadd
  · exact hget
  · exact absurd ⟨e, hold, hexp⟩ h

theorem consume_keeps (h : HeldPast s jti time) (hnow : now ≤ time)
    (hexp : entry.jti = jti → time < entry.originalExp) :
    HeldPast (consumeSingleUse backend now entry s).2 jti time := by
  have hchecked := law.isRevoked_keeps h hnow entry.jti
  unfold consumeSingleUse
  rcases hr : isRevoked backend now entry.jti s with ⟨b, s'⟩
  rw [hr] at hchecked
  cases b with
  | true => exact hchecked
  | false =>
    have hadded := law.add_keeps hchecked hnow hexp
    rcases ha : addRevocation backend now entry s' with ⟨r, s''⟩
    rw [ha] at hadded
    cases r <;> simpa [ha] using hadded

/-- A successful consumption found no entry that counts, and leaves its own. -/
theorem consume_eq_true (h : (consumeSingleUse backend now entry s).1 = some true) :
    ¬ HeldPast s entry.jti now ∧
      (consumeSingleUse backend now entry s).2.get? entry.jti = some entry := by
  unfold consumeSingleUse at h ⊢
  rcases hr : isRevoked backend now entry.jti s with ⟨b, s'⟩
  rw [hr] at h
  cases b with
  | true => simp at h
  | false =>
    have hfree : ¬ HeldPast s entry.jti now := by
      rw [← law.revoked_iff, hr]
      simp
    have hfree' : ¬ HeldPast s' entry.jti now := by
      rintro ⟨e, hget, hexp⟩
      have hget' : (isRevoked backend now entry.jti s).2.get? entry.jti = some e := by rw [hr]; exact hget
      exact hfree ⟨e, ((law.isRevoked_get? _ _ _ _ _).mp hget').1, hexp⟩
    rcases ha : addRevocation backend now entry s' with ⟨r, s''⟩
    cases r with
    | none => simp [ha] at h
    | some u =>
      have hget : (addRevocation backend now entry s').2.get? entry.jti = some entry :=
        law.add_fresh hfree' (by rw [ha])
      rw [ha] at hget
      exact ⟨hfree, by simpa [ha] using hget⟩

/-- A call keeps a jti held past a time when every entry it adds for the jti lasts as long. -/
theorem exec_keeps {q : Query} {m : Moment} {shared : Shared}
    (h : HeldPast shared.revocations jti time) (hnow : m.now ≤ time)
    (hexp : ∀ entry, q = .addRevocation entry ∨ q = .consumeSingleUse entry → entry.jti = jti →
      time < entry.originalExp) :
    HeldPast (exec backend q m shared).2.revocations jti time := by
  cases q with
  | isRevoked j => exact law.isRevoked_keeps h hnow j
  | addRevocation entry => exact law.add_keeps h hnow (hexp entry (.inl rfl))
  | consumeSingleUse entry => exact law.consume_keeps h hnow (hexp entry (.inr rfl))
  | carryOut record value =>
    simp only [exec]
    split <;> exact h
  | _ => exact h

/-! ## Entries across a call -/

theorem add_get? {e : RevocationEntry}
    (h : (addRevocation backend now entry s).2.get? jti = some e) :
    s.get? jti = some e ∨ e = entry ∧ entry.jti = jti := by
  by_cases hj : jti = entry.jti
  · subst hj
    cases hadd : (addRevocation backend now entry s).1 with
    | none =>
      rw [law.add_raised _ _ _ hadd] at h
      exact .inl h
    | some _ =>
      obtain ⟨e', hget, hcase⟩ := law.add_self _ _ _ hadd
      rw [hget, Option.some.injEq] at h
      subst h
      exact hcase.symm.imp (fun hold => hold.1) fun heq => ⟨heq, rfl⟩
  · exact .inl ((law.add_other _ _ _ _ _ hj).1 h)

theorem add_get?_kept (entry : RevocationEntry) {e : RevocationEntry} (h : s.get? jti = some e) (hnow : now < e.originalExp) :
    ∃ e', (addRevocation backend now entry s).2.get? jti = some e' ∧
      (e' = e ∨ e' = entry ∧ entry.jti = jti) := by
  by_cases hj : jti = entry.jti
  · subst hj
    cases hadd : (addRevocation backend now entry s).1 with
    | none =>
      rw [law.add_raised _ _ _ hadd]
      exact ⟨e, h, .inl rfl⟩
    | some _ =>
      obtain ⟨e', hget, rfl | ⟨hold, -⟩⟩ := law.add_self _ _ _ hadd
      · exact ⟨e', hget, .inr ⟨rfl, rfl⟩⟩
      · rw [h, Option.some.injEq] at hold
        exact ⟨e', hget, .inl hold.symm⟩
  · exact ⟨e, (law.add_other _ _ _ _ _ hj).2 h hnow, .inl rfl⟩

/-- Every entry after a call was there before it, or the call added it. -/
theorem exec_get? {q : Query} {m : Moment} {shared : Shared} {e : RevocationEntry}
    (h : (exec backend q m shared).2.revocations.get? jti = some e) :
    shared.revocations.get? jti = some e ∨ Adds q e ∧ e.jti = jti := by
  cases q with
  | isRevoked j => exact .inl ((law.isRevoked_get? _ _ _ _ _).mp h).1
  | addRevocation entry =>
    rcases law.add_get? h with h | ⟨rfl, hj⟩
    · exact .inl h
    · exact .inr ⟨.inl rfl, hj⟩
  | consumeSingleUse entry =>
    have hchecked := law.isRevoked_get? m.now entry.jti shared.revocations jti
    simp only [exec, consumeSingleUse] at h
    rcases hr : isRevoked backend m.now entry.jti shared.revocations with ⟨b, s'⟩
    rw [hr] at h hchecked
    cases b with
    | true => exact .inl ((hchecked e).mp h).1
    | false =>
      have hadded : (addRevocation backend m.now entry s').2.get? jti = some e := by
        rcases ha : addRevocation backend m.now entry s' with ⟨r, s''⟩
        cases r <;> simpa [ha] using h
      rcases law.add_get? hadded with h | ⟨rfl, hj⟩
      · exact .inl ((hchecked e).mp h).1
      · exact .inr ⟨.inr rfl, hj⟩
  | carryOut record value =>
    simp only [exec] at h
    split at h <;> exact .inl h
  | _ => exact .inl h

/-- An entry that has not expired stays across a call, or the call puts one of its jti in its
place. -/
theorem exec_get?_kept {q : Query} {m : Moment} {shared : Shared} {e : RevocationEntry}
    (h : shared.revocations.get? jti = some e) (hnow : m.now < e.originalExp) :
    ∃ e', (exec backend q m shared).2.revocations.get? jti = some e' ∧
      (e' = e ∨ Adds q e' ∧ e'.jti = jti) := by
  cases q with
  | isRevoked j => exact ⟨e, (law.isRevoked_get? _ _ _ _ _).mpr ⟨h, hnow⟩, .inl rfl⟩
  | addRevocation entry =>
    obtain ⟨e', hget, rfl | ⟨rfl, hj⟩⟩ := law.add_get?_kept entry h hnow
    · exact ⟨e', hget, .inl rfl⟩
    · exact ⟨e', hget, .inr ⟨.inl rfl, hj⟩⟩
  | consumeSingleUse entry =>
    have hchecked := (law.isRevoked_get? m.now entry.jti _ _ _).mpr ⟨h, hnow⟩
    simp only [exec, consumeSingleUse]
    rcases hr : isRevoked backend m.now entry.jti shared.revocations with ⟨b, s'⟩
    rw [hr] at hchecked
    cases b with
    | true => exact ⟨e, hchecked, .inl rfl⟩
    | false =>
      obtain ⟨e', hget, hcase⟩ := law.add_get?_kept entry hchecked hnow
      refine ⟨e', ?_, hcase.imp_right ?_⟩
      · rcases ha : addRevocation backend m.now entry s' with ⟨r, s''⟩
        cases r <;> simpa [ha] using hget
      · rintro ⟨rfl, hj⟩
        exact ⟨.inr rfl, hj⟩
  | carryOut record value =>
    simp only [exec]
    split <;> exact ⟨e, h, .inl rfl⟩
  | _ => exact ⟨e, h, .inl rfl⟩

end Lawful
end Grants
end Recto
