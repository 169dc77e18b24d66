import Recto.Data.Attribution
import Recto.Data.Checked
import Recto.Json.Value

/-!
# A quorum of signatures

`verify_quorum` credits each signature to the first member, in the order of the
map, that it verifies for and that is not satisfied yet, and counts the members
satisfied. A signature presented twice is tried again against the members left.
-/

namespace Recto
namespace Quorum

/-- A verifier of a signature over a message; `none` when it raises. -/
abbrev Verifier := Bytes → Bytes → Option Bool

/-- The quorum itself is impossible. -/
inductive QuorumConfigError where
  | notAnInt (k : Json)
  | belowOne (k : ℤ)
  | noMembers
  | exceedsMembers (k : ℤ) (size : ℕ)
  deriving Repr

structure QuorumResult where
  met : Bool
  k : ℤ
  satisfiedBy : Finset String
  unmatchedSignatures : ℕ
  deriving DecidableEq

/-- Distinct members satisfied. -/
def QuorumResult.count (r : QuorumResult) : ℕ := r.satisfiedBy.card

/-- `_safe_verify`: any failure is a rejection. -/
def safeVerify (verifier : Verifier) (signature message : Bytes) : Bool :=
  (verifier signature message).getD false

/-- The variables of the loop over the signatures. -/
structure Tally where
  satisfied : List String
  unmatched : ℕ

/-- One turn of the loop. -/
def tally (message : Bytes) (members : Dict String Verifier) (t : Tally) (signature : Bytes) :
    Tally :=
  if signature = [] then { t with unmatched := t.unmatched + 1 }
  else
    match members.items.find? fun member =>
        decide (member.1 ∉ t.satisfied) && safeVerify member.2 signature message with
    | some member => { t with satisfied := t.satisfied ++ [member.1] }
    | none => { t with unmatched := t.unmatched + 1 }

def verifyQuorum (message : Bytes) (signatures : List Bytes) (members : Dict String Verifier)
    (k : Json) : Except QuorumConfigError QuorumResult :=
  match k with
  | .int k => do
      ensure (1 ≤ k) (.belowOne k)
      ensure (members.items ≠ []) .noMembers
      ensure (k ≤ members.length) (.exceedsMembers k members.length)
      let t := signatures.foldl (tally message members) ⟨[], 0⟩
      pure { met := decide (k ≤ t.satisfied.toFinset.card), k := k
             satisfiedBy := t.satisfied.toFinset, unmatchedSignatures := t.unmatched }
  -- `True` is an int in Python, and refused.
  | k => .error (.notAnInt k)

variable {message : Bytes} {signatures : List Bytes} {members : Dict String Verifier} {k : Json}

/-! ## The loop as an attribution -/

/-- Does the signature verify for the member? -/
def accepts (message : Bytes) (signature : Bytes) (member : String × Verifier) : Bool :=
  decide (signature ≠ []) && safeVerify member.2 signature message

/-- The members the signatures of the list are credited to. -/
def credited (message : Bytes) (members : Dict String Verifier) (signatures : List Bytes) :
    List String :=
  attribution members.items Prod.fst (accepts message) signatures

theorem satisfied_tally (t : Tally) (signature : Bytes) :
    (tally message members t signature).satisfied =
      credit members.items Prod.fst (accepts message) t.satisfied signature := by
  unfold tally credit
  by_cases h : signature = []
  · have hnone : (members.items.find? fun member =>
        decide (member.1 ∉ t.satisfied) && accepts message signature member) = none := by
      simp [accepts, h]
    rw [if_pos h, hnone]
  · have haccepts : ∀ member : String × Verifier,
        accepts message signature member = safeVerify member.2 signature message := by
      simp [accepts, h]
    simp only [if_neg h, haccepts]
    cases members.items.find? fun member =>
      decide (member.1 ∉ t.satisfied) && safeVerify member.2 signature message <;> rfl

theorem satisfied_foldl (t : Tally) :
    (signatures.foldl (tally message members) t).satisfied =
      signatures.foldl (credit members.items Prod.fst (accepts message)) t.satisfied := by
  induction signatures generalizing t with
  | nil => rfl
  | cons signature rest ih => rw [List.foldl_cons, List.foldl_cons, ih, satisfied_tally]

/-- Can the threshold be met by some signatures? -/
def Possible (members : Dict String Verifier) (k : Json) : Prop :=
  ∃ n : ℤ, k = .int n ∧ 1 ≤ n ∧ n ≤ members.length

theorem items_ne_nil {n : ℤ} (hone : 1 ≤ n) (hle : n ≤ members.length) : members.items ≠ [] := by
  intro h
  rw [Dict.length, h, List.length_nil] at hle
  omega

/-- What an accepted call answers. -/
theorem verifyQuorum_eq_ok {r : QuorumResult} :
    verifyQuorum message signatures members k = .ok r ↔
      ∃ n : ℤ, k = .int n ∧ 1 ≤ n ∧ n ≤ members.length ∧
        r = { met := decide (n ≤ (credited message members signatures).length), k := n
              satisfiedBy := (credited message members signatures).toFinset
              unmatchedSignatures :=
                (signatures.foldl (tally message members) ⟨[], 0⟩).unmatched } := by
  have hcard : (credited message members signatures).toFinset.card =
      (credited message members signatures).length :=
    List.toFinset_card_of_nodup (nodup_attribution ..)
  cases k with
  | int n =>
    simp only [verifyQuorum, Except.bind_eq_ok, ensure_eq_ok, Except.pure_eq_ok, satisfied_foldl]
    constructor
    · rintro ⟨-, hone, -, -, -, hle, rfl⟩
      refine ⟨n, rfl, hone, hle, ?_⟩
      rw [← hcard]
      rfl
    · rintro ⟨m, hm, hone, hle, rfl⟩
      obtain rfl := Json.int.inj hm
      refine ⟨⟨⟩, hone, ⟨⟩, items_ne_nil hone hle, ⟨⟩, hle, ?_⟩
      rw [← hcard]
      rfl
  | _ => simp [verifyQuorum]

/-! ## Copies of a signature -/

/-- A further copy of a signature of the list, at any place in it, changes neither answer. -/
def CopiesHarmless (message : Bytes) (members : Dict String Verifier) (k : Json) : Prop :=
  ∀ before after r, verifyQuorum message (before ++ after) members k = .ok r →
    ∀ s ∈ before ++ after, ∃ r', verifyQuorum message (before ++ s :: after) members k = .ok r' ∧
      r'.met = r.met ∧ r'.count = r.count

/-- No signature verifies for two members. -/
def OneMemberEach (message : Bytes) (members : Dict String Verifier) : Prop :=
  ∀ signature, FitsOne members.items Prod.fst (accepts message) signature

/-- Two members that one signature verifies for count twice when it is presented twice. -/
theorem credited_twice {s : Bytes} {a b : String × Verifier} (ha : a ∈ members.items)
    (hb : b ∈ members.items) (hsa : accepts message s a = true) (hsb : accepts message s b = true)
    (hne : a.1 ≠ b.1) :
    (credited message members [s]).length = 1 ∧ (credited message members [s, s]).length = 2 := by
  obtain ⟨first, hfirst⟩ : ∃ first, credited message members [s] = [first] := by
    rcases credit_eq members.items Prod.fst (accepts message) [] s with h | ⟨c, -, -, -, h⟩
    · unfold credit at h
      split at h
      · simp at h
      · rename_i hnone
        have := List.find?_eq_none.mp hnone a ha
        simp [hsa] at this
    · exact ⟨c.1, h⟩
  refine ⟨by rw [hfirst]; rfl, ?_⟩
  have htwo : credited message members [s, s] =
      credit members.items Prod.fst (accepts message) [first] s := by
    rw [← hfirst]
    exact attribution_concat members.items Prod.fst (accepts message) [s] s
  rw [htwo]
  unfold credit
  split
  · rfl
  · rename_i hnone
    have hnone := List.find?_eq_none.mp hnone
    have hfa : a.1 = first := by simpa [hsa] using hnone a ha
    have hfb : b.1 = first := by simpa [hsb] using hnone b hb
    exact absurd (hfa.trans hfb.symm) hne

theorem OneMemberEach.copiesHarmless (h : OneMemberEach message members) :
    CopiesHarmless message members k := by
  intro before after r hr s hs
  obtain ⟨n, rfl, hone, hle, rfl⟩ := verifyQuorum_eq_ok.mp hr
  have hperm : (credited message members (before ++ s :: after)).Perm
      (credited message members (before ++ after)) := by
    refine attribution_perm (fun t _ => h t) fun t => ?_
    simp only [List.mem_append, List.mem_cons] at hs ⊢
    constructor
    · rintro (ht | rfl | ht)
      · exact Or.inl ht
      · exact hs
      · exact Or.inr ht
    · rintro (ht | ht)
      · exact Or.inl ht
      · exact Or.inr (Or.inr ht)
  refine ⟨_, verifyQuorum_eq_ok.mpr ⟨n, rfl, hone, hle, rfl⟩, ?_, ?_⟩
  · simp only [hperm.length_eq]
  · simp only [QuorumResult.count, List.toFinset_eq_of_perm _ _ hperm]

/-- Copies of a signature are harmless exactly when no signature verifies for two members. -/
theorem copies_harmless_iff (h : Possible members k) :
    CopiesHarmless message members k ↔ OneMemberEach message members := by
  refine ⟨?_, OneMemberEach.copiesHarmless⟩
  intro hcopies s a ha b hb hsa hsb
  by_contra hne
  obtain ⟨n, rfl, hone, hle⟩ := h
  obtain ⟨r, hr, -, hcount⟩ := hcopies [s] [] _
    (verifyQuorum_eq_ok.mpr ⟨n, rfl, hone, hle, rfl⟩) s (by simp)
  obtain ⟨m, -, -, -, rfl⟩ := verifyQuorum_eq_ok.mp hr
  obtain ⟨h1, h2⟩ := credited_twice ha hb hsa hsb hne
  simp only [QuorumResult.count, List.toFinset_card_of_nodup (nodup_attribution ..), credited,
    List.singleton_append, List.append_nil] at hcount h1 h2
  omega

/-- Accepts the signature `[1]` only, over whatever message. -/
def sampleVerifier : Verifier := fun signature _ => some (signature == [1])

/-- A key under two identities, and another key. -/
def sampleRoster : Dict String Verifier :=
  ⟨[("passphrase", sampleVerifier), ("primary-phone", sampleVerifier),
    ("recovery-phone", fun signature _ => some (signature == [2]))], by decide⟩

theorem copies_harmless_iff_sample :
    Possible sampleRoster (.int 2) ∧
      (CopiesHarmless [0] sampleRoster (.int 2) ↔ OneMemberEach [0] sampleRoster) :=
  ⟨⟨2, rfl, by decide, by decide⟩,
    copies_harmless_iff ⟨2, rfl, by decide, by decide⟩⟩

/-- One signature misses the quorum of two; the same signature twice meets it. -/
theorem copy_meets_quorum :
    (verifyQuorum [0] [[1]] sampleRoster (.int 2)).toOption.map (fun r => (r.met, r.count)) =
        some (false, 1) ∧
      (verifyQuorum [0] [[1], [1]] sampleRoster (.int 2)).toOption.map (fun r => (r.met, r.count)) =
        some (true, 2) := by
  decide +kernel

end Quorum
end Recto
