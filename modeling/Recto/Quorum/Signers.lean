import Recto.Quorum.VerifyQuorum

/-!
# The members that signed

What `verify_quorum` counts: each satisfied member has a signature of the list
for itself, at a position no other member has. Where no signature verifies for
two members, they are all the members that signed, in whatever order signatures
and members are listed.
-/

namespace Recto
namespace Quorum

variable {message : Bytes} {signatures : List Bytes} {members : Dict String Verifier} {k : Json}

/-- The member signed: its verifier accepts the signature, which is not empty, and does not
raise. -/
def Signed (message : Bytes) (members : Dict String Verifier) (signature : Bytes)
    (identity : String) : Prop :=
  signature ≠ [] ∧
    ∃ verifier, members.get? identity = some verifier ∧ verifier signature message = some true

theorem signed_iff {signature : Bytes} {identity : String} :
    Signed message members signature identity ↔
      ∃ member ∈ members.items, member.1 = identity ∧ accepts message signature member = true := by
  have hverify : ∀ verifier : Verifier,
      safeVerify verifier signature message = true ↔ verifier signature message = some true := by
    intro verifier
    unfold safeVerify
    cases verifier signature message <;> simp
  constructor
  · rintro ⟨hne, verifier, hget, htrue⟩
    refine ⟨(identity, verifier), Dict.get?_eq_some_iff.mp hget, rfl, ?_⟩
    simp [accepts, hne, (hverify verifier).mpr htrue]
  · rintro ⟨⟨_, verifier⟩, hmem, rfl, haccepts⟩
    simp only [accepts, Bool.and_eq_true, decide_eq_true_eq] at haccepts
    exact ⟨haccepts.1, verifier, Dict.get?_eq_some_iff.mpr hmem, (hverify verifier).mp haccepts.2⟩

/-- No member but one signed with the signature. -/
def OneSigner (message : Bytes) (members : Dict String Verifier) (signature : Bytes) : Prop :=
  ∀ a b, Signed message members signature a → Signed message members signature b → a = b

theorem OneSigner.fitsOne {signature : Bytes} (h : OneSigner message members signature) :
    FitsOne members.items Prod.fst (accepts message) signature := by
  intro a ha b hb hsa hsb
  exact h a.1 b.1 (signed_iff.mpr ⟨a, ha, rfl, hsa⟩) (signed_iff.mpr ⟨b, hb, rfl, hsb⟩)

theorem OneSigner.of_perm {members' : Dict String Verifier} {signature : Bytes}
    (h : OneSigner message members signature) (hperm : members'.items.Perm members.items) :
    OneSigner message members' signature := by
  have hsigned : ∀ identity, Signed message members' signature identity →
      Signed message members signature identity := by
    intro identity hid
    obtain ⟨member, hmem, hrest⟩ := signed_iff.mp hid
    exact signed_iff.mpr ⟨member, hperm.mem_iff.mp hmem, hrest⟩
  exact fun a b ha hb => h a b (hsigned a ha) (hsigned b hb)

/-! ## What one signature adds -/

theorem credited_concat (before : List Bytes) (signature : Bytes) :
    credited message members (before ++ [signature]) = credited message members before ∨
      ∃ identity, identity ∉ credited message members before ∧
        Signed message members signature identity ∧
        credited message members (before ++ [signature]) =
          credited message members before ++ [identity] := by
  unfold credited
  rw [attribution_concat]
  rcases credit_eq members.items Prod.fst (accepts message)
      (attribution members.items Prod.fst (accepts message) before) signature with
    h | ⟨member, hmem, hnew, haccepts, h⟩
  · exact Or.inl h
  · exact Or.inr ⟨member.1, hnew, signed_iff.mpr ⟨member, hmem, rfl, haccepts⟩, h⟩

theorem toFinset_credited_concat (before : List Bytes) (signature : Bytes) :
    (credited message members before).toFinset ⊆
        (credited message members (before ++ [signature])).toFinset ∧
      ∀ identity ∈ (credited message members (before ++ [signature])).toFinset,
        identity ∉ (credited message members before).toFinset →
          Signed message members signature identity := by
  rcases @credited_concat message members before signature with heq | ⟨added, -, hsigned, heq⟩
  · rw [heq]
    exact ⟨subset_rfl, fun identity hid hnew => absurd hid hnew⟩
  · rw [heq, List.toFinset_append]
    refine ⟨Finset.subset_union_left, ?_⟩
    intro identity hid hnew
    rcases Finset.mem_union.mp hid with hid | hid
    · exact absurd hid hnew
    · have hadded : identity = added := by simpa using hid
      exact hadded ▸ hsigned

/-- One turn of the loop satisfies a member or counts the signature unmatched. -/
theorem tally_total (t : Tally) (signature : Bytes) :
    (tally message members t signature).unmatched +
        (tally message members t signature).satisfied.length =
      t.unmatched + t.satisfied.length + 1 := by
  unfold tally
  split
  · simp only
    omega
  · split
    · simp only [List.length_append, List.length_singleton]
      omega
    · simp only
      omega

theorem foldl_tally_total (t : Tally) :
    (signatures.foldl (tally message members) t).unmatched +
        (signatures.foldl (tally message members) t).satisfied.length =
      t.unmatched + t.satisfied.length + signatures.length := by
  induction signatures generalizing t with
  | nil => simp
  | cons signature rest ih =>
    rw [List.foldl_cons, ih, tally_total, List.length_cons]
    omega

/-! ## The result -/

/-- What a result says of the members and the signatures it was computed from. -/
structure Counts (message : Bytes) (signatures : List Bytes) (members : Dict String Verifier)
    (k : Json) (r : QuorumResult) : Prop where
  placed : ∃ position : String → ℕ, Set.InjOn position r.satisfiedBy ∧
    ∀ identity ∈ r.satisfiedBy, ∃ signature, signatures[position identity]? = some signature ∧
      Signed message members signature identity
  met_iff : r.met = true ↔ r.k ≤ r.count
  threshold : k = .int r.k ∧ 1 ≤ r.k
  added : ∀ before signature after r₁ r₂, signatures = before ++ signature :: after →
    verifyQuorum message before members k = .ok r₁ →
    verifyQuorum message (before ++ [signature]) members k = .ok r₂ →
    r₁.satisfiedBy ⊆ r₂.satisfiedBy ∧ ∀ identity ∈ r₂.satisfiedBy, identity ∉ r₁.satisfiedBy →
      Signed message members signature identity
  total : r.unmatchedSignatures + r.count = signatures.length
  exact : (∀ s ∈ signatures, OneSigner message members s) →
    ∀ identity, identity ∈ r.satisfiedBy ↔ ∃ s ∈ signatures, Signed message members s identity
  anyOrder : (∀ s ∈ signatures, OneSigner message members s) →
    ∀ signatures' members', signatures'.Perm signatures → members'.items.Perm members.items →
      verifyQuorum message signatures' members' k = .ok r

theorem satisfiedBy_eq {r : QuorumResult} (h : verifyQuorum message signatures members k = .ok r) :
    r.satisfiedBy = (credited message members signatures).toFinset := by
  obtain ⟨n, -, -, -, rfl⟩ := verifyQuorum_eq_ok.mp h
  rfl

theorem count_eq {r : QuorumResult} (h : verifyQuorum message signatures members k = .ok r) :
    r.count = (credited message members signatures).length := by
  rw [QuorumResult.count, satisfiedBy_eq h]
  exact List.toFinset_card_of_nodup (nodup_attribution ..)

theorem total_eq {r : QuorumResult} (h : verifyQuorum message signatures members k = .ok r) :
    r.unmatchedSignatures + r.count = signatures.length := by
  have hcount := count_eq h
  obtain ⟨n, -, -, -, rfl⟩ := verifyQuorum_eq_ok.mp h
  have htotal := @foldl_tally_total message signatures members ⟨[], 0⟩
  rw [satisfied_foldl] at htotal
  rw [hcount]
  simpa [credited, attribution] using htotal

theorem mem_satisfiedBy_iff {r : QuorumResult}
    (h : verifyQuorum message signatures members k = .ok r)
    (hone : ∀ s ∈ signatures, OneSigner message members s) (identity : String) :
    identity ∈ r.satisfiedBy ↔ ∃ s ∈ signatures, Signed message members s identity := by
  rw [satisfiedBy_eq h, List.mem_toFinset, credited,
    mem_attribution_iff fun s hs => (hone s hs).fitsOne]
  simp only [signed_iff]

theorem Counts.of_eq_ok {r : QuorumResult}
    (h : verifyQuorum message signatures members k = .ok r) :
    Counts message signatures members k r := by
  obtain ⟨n, hk, hn, hle, hr⟩ := verifyQuorum_eq_ok.mp h
  refine ⟨?_, ?_, ?_, ?_, total_eq h, mem_satisfiedBy_iff h, ?_⟩
  · obtain ⟨position, hposition⟩ :=
      exists_placement members.items Prod.fst (accepts message) signatures
    have hmem : ∀ identity ∈ r.satisfiedBy,
        identity ∈ attribution members.items Prod.fst (accepts message) signatures := by
      intro identity hid
      rw [satisfiedBy_eq h] at hid
      exact List.mem_toFinset.mp hid
    refine ⟨position, ?_, ?_⟩
    · intro a ha b hb hab
      exact hposition.injective a (hmem a ha) b (hmem b hb) hab
    · intro identity hid
      obtain ⟨member, hmember, rfl, signature, hat, haccepts⟩ :=
        hposition.fits identity (hmem identity hid)
      exact ⟨signature, hat, signed_iff.mpr ⟨member, hmember, rfl, haccepts⟩⟩
  · rw [count_eq h, hr]
    simp
  · subst hr
    exact ⟨hk, hn⟩
  · intro before signature after r₁ r₂ _ h₁ h₂
    rw [satisfiedBy_eq h₁, satisfiedBy_eq h₂]
    exact toFinset_credited_concat before signature
  · intro hone signatures' members' hsignatures hmembers
    have hlength : members'.length = members.length := hmembers.length_eq
    have hone' : ∀ s ∈ signatures', OneSigner message members' s := fun s hs =>
      (hone s (hsignatures.mem_iff.mp hs)).of_perm hmembers
    obtain ⟨r', hr'⟩ : ∃ r', verifyQuorum message signatures' members' k = .ok r' :=
      ⟨_, verifyQuorum_eq_ok.mpr ⟨n, hk, hn, by rw [hlength]; exact hle, rfl⟩⟩
    have hset : r'.satisfiedBy = r.satisfiedBy := by
      ext identity
      rw [mem_satisfiedBy_iff hr' hone', mem_satisfiedBy_iff h hone]
      simp only [signed_iff, hsignatures.mem_iff, hmembers.mem_iff]
    have hcount : r'.count = r.count := by simp only [QuorumResult.count, hset]
    have htotal := total_eq hr'
    rw [hsignatures.length_eq, hcount, ← total_eq h] at htotal
    obtain ⟨m, hm, -, -, hr₂⟩ := verifyQuorum_eq_ok.mp hr'
    obtain rfl := Json.int.inj (hk.symm.trans hm)
    have hmet : r'.met = r.met := by
      rw [hr₂, hr]
      simp only [← count_eq hr', ← count_eq h, hcount]
    rw [hr']
    congr 1
    have hk' : r'.k = r.k := by rw [hr₂, hr]
    cases r
    cases r'
    simp_all

/-- A threshold the members can meet is always answered, and every answer counts the members that
signed. -/
theorem verify_quorum_counts_signers (message : Bytes) (signatures : List Bytes)
    (members : Dict String Verifier) (k : Json) :
    (Possible members k ↔ ∃ r, verifyQuorum message signatures members k = .ok r) ∧
      ∀ r, verifyQuorum message signatures members k = .ok r →
        Counts message signatures members k r := by
  refine ⟨⟨?_, ?_⟩, fun r h => Counts.of_eq_ok h⟩
  · rintro ⟨n, rfl, hone, hle⟩
    exact ⟨_, verifyQuorum_eq_ok.mpr ⟨n, rfl, hone, hle, rfl⟩⟩
  · rintro ⟨r, h⟩
    obtain ⟨n, hk, hone, hle, -⟩ := verifyQuorum_eq_ok.mp h
    exact ⟨n, hk, hone, hle⟩

end Quorum
end Recto
