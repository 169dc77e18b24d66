import Recto.Text.Encoding

/-!
# What a lenient base64 decoder keeps

`binascii.a2b_base64` reads the characters of the alphabet up to a complete
padding and discards the others. Two texts decode to the same bytes exactly
when the digits it reads of them are the same, the bits that a short last group
leaves over apart.
-/

namespace Recto

/-- The digits that are read: `quad` of the current group so far, `pads` since the last one. -/
def b64Digits : List Char → ℕ → ℕ → Option (List ℕ)
  | [], quad, _ => if quad = 0 then some [] else none
  | c :: cs, quad, pads =>
      if c = '=' then
        if 2 ≤ quad then
          if 4 ≤ quad + (pads + 1) then some [] else b64Digits cs quad (pads + 1)
        else b64Digits cs quad pads
      else
        match b64Value c with
        | none => b64Digits cs quad pads
        | some n => (b64Digits cs ((quad + 1) % 4) 0).map (n :: ·)

/-- The bytes of some digits, with the bits left of the digit before them. -/
def packDigits : ℕ → ℕ → List ℕ → Bytes
  | _, _, [] => []
  | 0, _, n :: ns => packDigits 1 n ns
  | 1, left, n :: ns => UInt8.ofNat (left * 4 + n / 16) :: packDigits 2 (n % 16) ns
  | 2, left, n :: ns => UInt8.ofNat (left * 16 + n / 4) :: packDigits 3 (n % 4) ns
  | _, left, n :: ns => UInt8.ofNat (left * 64 + n) :: packDigits 0 0 ns

/-- The same digits, the bits that a last group of two or three leaves over apart. -/
inductive SameDigits : List ℕ → List ℕ → Prop
  | nil : SameDigits [] []
  | two (a : ℕ) {b b' : ℕ} (h : b / 16 = b' / 16) : SameDigits [a, b] [a, b']
  | three (a b : ℕ) {c c' : ℕ} (h : c / 4 = c' / 4) : SameDigits [a, b, c] [a, b, c']
  | group (a b c d : ℕ) {ns ms : List ℕ} (h : SameDigits ns ms) :
      SameDigits (a :: b :: c :: d :: ns) (a :: b :: c :: d :: ms)

theorem a2bBase64_eq_map (cs : List Char) : ∀ quad left pads, quad < 4 →
    a2bBase64 cs quad left pads = (b64Digits cs quad pads).map (packDigits quad left) := by
  induction cs with
  | nil =>
    intro quad left pads _
    by_cases hquad : quad = 0 <;> simp [a2bBase64, b64Digits, hquad, packDigits]
  | cons c cs ih =>
    intro quad left pads hquad
    unfold a2bBase64 b64Digits
    by_cases hpad : c = '='
    · simp only [if_pos hpad]
      split_ifs
      · simp [packDigits]
      · exact ih quad left (pads + 1) hquad
      · exact ih quad left pads hquad
    · simp only [if_neg hpad]
      cases hvalue : b64Value c with
      | none => exact ih quad left pads hquad
      | some n =>
        interval_cases quad
        · simp only [ih 1 n 0 (by omega), Nat.zero_add, Nat.one_mod, Option.map_map]
          rfl
        · simp only [ih 2 (n % 16) 0 (by omega), Nat.reduceAdd, Nat.reduceMod, Option.map_map]
          rfl
        · simp only [ih 3 (n % 4) 0 (by omega), Nat.reduceAdd, Nat.reduceMod, Option.map_map]
          rfl
        · simp only [ih 0 0 0 (by omega), Nat.reduceAdd, Nat.reduceMod, Option.map_map]
          rfl

theorem b64Value_lt {c : Char} {n : ℕ} (h : b64Value c = some n) : n < 64 := by
  have htoNat : ∀ {a b : Char}, a ≤ b → a.toNat ≤ b.toNat := fun h => h
  unfold b64Value at h
  split_ifs at h with h₁ h₂ h₃
  · have := htoNat h₁.2
    obtain rfl := Option.some.inj h
    simp at this
    omega
  · have := htoNat h₂.2
    obtain rfl := Option.some.inj h
    simp at this
    omega
  · have := htoNat h₃.2
    obtain rfl := Option.some.inj h
    simp at this
    omega
  · obtain rfl := Option.some.inj h
    omega
  · obtain rfl := Option.some.inj h
    omega

/-- Complete groups of digits. -/
structure Groups (quad : ℕ) (ns : List ℕ) : Prop where
  lt : ∀ n ∈ ns, n < 64
  complete : (quad + ns.length) % 4 ≠ 1

theorem groups_of_b64Digits (cs : List Char) : ∀ quad pads ns, quad < 4 →
    b64Digits cs quad pads = some ns → Groups quad ns := by
  induction cs with
  | nil =>
    intro quad pads ns _ h
    unfold b64Digits at h
    split_ifs at h with hquad
    obtain rfl := Option.some.inj h
    exact ⟨by simp, by simp [hquad]⟩
  | cons c cs ih =>
    intro quad pads ns hlt h
    unfold b64Digits at h
    by_cases hpad : c = '='
    · simp only [if_pos hpad] at h
      split_ifs at h with htwo
      · obtain rfl := Option.some.inj h
        exact ⟨by simp, by simp only [List.length_nil]; omega⟩
      · exact ih quad (pads + 1) ns hlt h
      · exact ih quad pads ns hlt h
    · simp only [if_neg hpad] at h
      cases hvalue : b64Value c with
      | none =>
        rw [hvalue] at h
        exact ih quad pads ns hlt h
      | some n =>
        rw [hvalue] at h
        obtain ⟨ms, hms, rfl⟩ := Option.map_eq_some_iff.mp h
        obtain ⟨hdigits, hcomplete⟩ := ih _ 0 ms (Nat.mod_lt _ (by norm_num)) hms
        refine ⟨List.forall_mem_cons.mpr ⟨b64Value_lt hvalue, hdigits⟩, ?_⟩
        rw [List.length_cons]
        omega

theorem Groups.tail {a b c d : ℕ} {ns : List ℕ} (h : Groups 0 (a :: b :: c :: d :: ns)) :
    Groups 0 ns where
  lt n hn := h.lt n (by simp [hn])
  complete := by
    have hcomplete := h.complete
    simp only [List.length_cons] at hcomplete
    omega

theorem length_packDigits : ∀ ns : List ℕ, Groups 0 ns →
    (packDigits 0 0 ns).length = 3 * ns.length / 4
  | [], _ => rfl
  | [_], h => absurd rfl h.complete
  | [_, _], _ => by simp [packDigits]
  | [_, _, _], _ => by simp [packDigits]
  | a :: b :: c :: d :: ns, h => by
      have ih := length_packDigits ns h.tail
      have hpack : packDigits 0 0 (a :: b :: c :: d :: ns) = UInt8.ofNat (a * 4 + b / 16) ::
          UInt8.ofNat (b % 16 * 16 + c / 4) :: UInt8.ofNat (c % 4 * 64 + d) ::
            packDigits 0 0 ns := rfl
      simp only [hpack, List.length_cons, ih]
      omega

theorem ofNat_inj_of_lt {n m : ℕ} (hn : n < 256) (hm : m < 256) (h : UInt8.ofNat n = UInt8.ofNat m) :
    n = m := by
  have heq := congrArg UInt8.toNat h
  rwa [toNat_ofNat_small hn, toNat_ofNat_small hm] at heq

/-- The bytes say the digits, the bits left over apart. -/
theorem SameDigits.of_packDigits : ∀ ns ms : List ℕ, Groups 0 ns → Groups 0 ms →
    ns.length = ms.length → packDigits 0 0 ns = packDigits 0 0 ms → SameDigits ns ms
  | [], [], _, _, _, _ => .nil
  | [_], _, hn, _, _, _ => absurd rfl hn.complete
  | [a, b], [a', b'], hn, hm, _, h => by
      have ha := hn.lt a (by simp)
      have hb := hn.lt b (by simp)
      have ha' := hm.lt a' (by simp)
      have hb' := hm.lt b' (by simp)
      have hfirst := ofNat_inj_of_lt (by omega) (by omega) (List.cons.inj h).1
      obtain rfl : a = a' := by omega
      exact .two a (by omega)
  | [a, b, c], [a', b', c'], hn, hm, _, h => by
      have ha := hn.lt a (by simp)
      have hb := hn.lt b (by simp)
      have hc := hn.lt c (by simp)
      have ha' := hm.lt a' (by simp)
      have hb' := hm.lt b' (by simp)
      have hc' := hm.lt c' (by simp)
      obtain ⟨hfirst, hrest⟩ := List.cons.inj h
      have hfirst := ofNat_inj_of_lt (by omega) (by omega) hfirst
      have hsecond := ofNat_inj_of_lt (by omega) (by omega) (List.cons.inj hrest).1
      obtain rfl : a = a' := by omega
      obtain rfl : b = b' := by omega
      exact .three a b (by omega)
  | a :: b :: c :: d :: ns, a' :: b' :: c' :: d' :: ms, hn, hm, hlength, h => by
      have ha := hn.lt a (by simp)
      have hb := hn.lt b (by simp)
      have hc := hn.lt c (by simp)
      have hd := hn.lt d (by simp)
      have ha' := hm.lt a' (by simp)
      have hb' := hm.lt b' (by simp)
      have hc' := hm.lt c' (by simp)
      have hd' := hm.lt d' (by simp)
      obtain ⟨hfirst, h⟩ := List.cons.inj h
      obtain ⟨hsecond, h⟩ := List.cons.inj h
      obtain ⟨hthird, hrest⟩ := List.cons.inj h
      clear h
      have hfirst := ofNat_inj_of_lt (by omega) (by omega) hfirst
      have hsecond := ofNat_inj_of_lt (by omega) (by omega) hsecond
      have hthird := ofNat_inj_of_lt (by omega) (by omega) hthird
      obtain rfl : a = a' := by omega
      obtain rfl : b = b' := by omega
      obtain rfl : c = c' := by omega
      obtain rfl : d = d' := by omega
      exact .group a b c d (of_packDigits ns ms hn.tail hm.tail
        (by simpa only [List.length_cons, Nat.add_right_cancel_iff] using hlength) hrest)

theorem SameDigits.packDigits_eq {ns ms : List ℕ} (h : SameDigits ns ms) :
    packDigits 0 0 ns = packDigits 0 0 ms := by
  induction h with
  | nil => rfl
  | two a h => simp only [packDigits, h]
  | three a b h => simp only [packDigits, h]
  | group a b c d _ ih => simp only [packDigits, ih]

theorem sameDigits_iff {ns ms : List ℕ} (hn : Groups 0 ns) (hm : Groups 0 ms) :
    packDigits 0 0 ns = packDigits 0 0 ms ↔ SameDigits ns ms := by
  refine ⟨fun h => SameDigits.of_packDigits ns ms hn hm ?_ h, SameDigits.packDigits_eq⟩
  have hlength := congrArg List.length h
  rw [length_packDigits ns hn, length_packDigits ms hm] at hlength
  have hnmod : ns.length % 4 = 0 ∨ ns.length % 4 = 2 ∨ ns.length % 4 = 3 := by
    have := hn.complete
    omega
  have hmmod : ms.length % 4 = 0 ∨ ms.length % 4 = 2 ∨ ms.length % 4 = 3 := by
    have := hm.complete
    omega
  rcases hnmod with hn' | hn' | hn' <;> rcases hmmod with hm' | hm' | hm' <;> omega

end Recto
