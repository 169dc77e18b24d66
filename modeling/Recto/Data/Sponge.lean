import Mathlib.Tactic

/-!
# Absorbing a message in blocks

A sponge mixes one block after the other into its state and permutes the state
after each. A loop that reads the whole blocks at an offset, and mixes a block
made of what is left over, absorbs the padded message.
-/

namespace Recto

universe u v
variable {α : Type u} {σ : Type v}

/-- The first `count` blocks of `rate` elements. -/
def blocksOf (rate : ℕ) : ℕ → List α → List (List α)
  | 0, _ => []
  | count + 1, xs => xs.take rate :: blocksOf rate count (xs.drop rate)

/-- The blocks of a message that a whole number of them makes up. -/
def blocks (rate : ℕ) (xs : List α) : List (List α) := blocksOf rate (xs.length / rate) xs

/-- The state after the blocks, each mixed in and then permuted. -/
def absorb (permute : σ → σ) (mix : σ → List α → σ) (s : σ) (bs : List (List α)) : σ :=
  bs.foldl (fun s b => permute (mix s b)) s

/-- The loop over the whole blocks from `offset` on: the state, and where it stops. -/
def absorbLoop (permute : σ → σ) (mix : σ → List α → σ) (rate : ℕ) (data : List α) :
    ℕ → σ → ℕ → σ × ℕ
  | 0, s, offset => (s, offset)
  | fuel + 1, s, offset =>
      if offset + rate ≤ data.length then
        absorbLoop permute mix rate data fuel (permute (mix s ((data.drop offset).take rate)))
          (offset + rate)
      else (s, offset)

variable {permute : σ → σ} {mix : σ → List α → σ} {rate : ℕ}

@[simp] theorem blocksOf_zero {xs : List α} : blocksOf rate 0 xs = [] := rfl

theorem blocksOf_succ {count : ℕ} {xs : List α} :
    blocksOf rate (count + 1) xs = xs.take rate :: blocksOf rate count (xs.drop rate) := rfl

theorem blocksOf_append {xs ys : List α} : ∀ {count : ℕ}, count * rate ≤ xs.length →
    blocksOf rate (count + 1) (xs ++ ys) =
      blocksOf rate count xs ++ [(xs.drop (count * rate) ++ ys).take rate] := by
  intro count
  induction count generalizing xs with
  | zero => simp [blocksOf_succ]
  | succ count ih =>
    intro hle
    rw [Nat.add_mul, Nat.one_mul] at hle
    have hrate : rate ≤ xs.length := by omega
    have hrest : count * rate ≤ (xs.drop rate).length := by
      rw [List.length_drop]
      omega
    rw [blocksOf_succ, List.take_append_of_le_length hrate, List.drop_append_of_le_length hrate, ih hrest,
      List.drop_drop, Nat.add_mul, Nat.one_mul, Nat.add_comm rate]
    rfl

/-- The blocks of a message, the last of them short, are the message. -/
theorem flatten_blocksOf : ∀ {count : ℕ} {xs : List α}, xs.length ≤ count * rate →
    (blocksOf rate count xs).flatten = xs := by
  intro count
  induction count with
  | zero =>
    intro xs hle
    rw [Nat.zero_mul] at hle
    exact (List.eq_nil_of_length_eq_zero (Nat.le_zero.mp hle)).symm
  | succ count ih =>
    intro xs hle
    rw [Nat.add_mul, Nat.one_mul] at hle
    rw [blocksOf_succ, List.flatten_cons, ih (by rw [List.length_drop]; omega), List.take_append_drop]

theorem mem_of_mem_blocksOf {b : List α} {x : α} : ∀ {count : ℕ} {xs : List α},
    b ∈ blocksOf rate count xs → x ∈ b → x ∈ xs := by
  intro count
  induction count with
  | zero => exact fun hb => absurd hb List.not_mem_nil
  | succ count ih =>
    intro xs hb hx
    rw [blocksOf_succ] at hb
    rcases List.mem_cons.mp hb with rfl | hb
    · exact List.mem_of_mem_take hx
    · exact List.mem_of_mem_drop (ih hb hx)

theorem map_blocksOf {β : Type v} (f : α → β) : ∀ (count : ℕ) (xs : List α),
    blocksOf rate count (xs.map f) = (blocksOf rate count xs).map (List.map f) := by
  intro count
  induction count with
  | zero => exact fun _ => rfl
  | succ count ih =>
    intro xs
    rw [blocksOf_succ, ← List.map_take, ← List.map_drop, ih, blocksOf_succ, List.map_cons]

theorem length_of_mem_blocksOf {b : List α} : ∀ {count : ℕ} {xs : List α},
    count * rate ≤ xs.length → b ∈ blocksOf rate count xs → b.length = rate := by
  intro count
  induction count with
  | zero =>
    intro xs _ hb
    exact absurd hb List.not_mem_nil
  | succ count ih =>
    intro xs hle hb
    rw [Nat.add_mul, Nat.one_mul] at hle
    rw [blocksOf_succ] at hb
    rcases List.mem_cons.mp hb with rfl | hb
    · rw [List.length_take]
      omega
    · refine ih ?_ hb
      rw [List.length_drop]
      omega

theorem length_of_mem_blocks {b xs : List α} (hb : b ∈ blocks rate xs) : b.length = rate :=
  length_of_mem_blocksOf (Nat.div_mul_le_self _ _) hb

theorem absorb_congr {mix' : σ → List α → σ} {bs : List (List α)}
    (h : ∀ b ∈ bs, ∀ s, mix s b = mix' s b) (s : σ) :
    absorb permute mix s bs = absorb permute mix' s bs := by
  induction bs generalizing s with
  | nil => rfl
  | cons b bs ih =>
    obtain ⟨hb, hbs⟩ := List.forall_mem_cons.mp h
    rw [absorb, List.foldl_cons, hb]
    exact ih hbs _

/-- With fuel enough the loop absorbs the whole blocks and stops behind them. -/
theorem absorbLoop_eq (hrate : 0 < rate) (data : List α) : ∀ (fuel : ℕ) (s : σ) (offset : ℕ),
    offset ≤ data.length → (data.length - offset) / rate ≤ fuel →
    absorbLoop permute mix rate data fuel s offset =
      (absorb permute mix s (blocksOf rate ((data.length - offset) / rate) (data.drop offset)),
        offset + (data.length - offset) / rate * rate) := by
  intro fuel
  induction fuel with
  | zero =>
    intro s offset _ hfuel
    rw [Nat.le_zero.mp hfuel, Nat.zero_mul, Nat.add_zero]
    rfl
  | succ fuel ih =>
    intro s offset hoffset hfuel
    rw [absorbLoop]
    split_ifs with hwhole
    · have hcount : (data.length - offset) / rate = (data.length - (offset + rate)) / rate + 1 := by
        rw [← Nat.sub_sub]
        exact (Nat.div_eq_sub_div hrate (by omega))
      rw [ih _ _ hwhole (by omega), hcount, blocksOf_succ, List.drop_drop, Nat.add_mul, Nat.one_mul,
        Nat.add_assoc, Nat.add_comm rate]
      rfl
    · have hcount : (data.length - offset) / rate = 0 := Nat.div_eq_of_lt (by omega)
      rw [hcount, Nat.zero_mul, Nat.add_zero]
      rfl

/-- The loop and the block of what is left over absorb the padded message. -/
theorem absorb_padded (hrate : 0 < rate) (data padding : List α) (s : σ)
    (hpadding : data.length % rate + padding.length = rate) :
    permute (mix (absorbLoop permute mix rate data (data.length / rate) s 0).1
        (data.drop (absorbLoop permute mix rate data (data.length / rate) s 0).2 ++ padding)) =
      absorb permute mix s (blocks rate (data ++ padding)) := by
  have hdiv := Nat.div_add_mod data.length rate
  rw [Nat.mul_comm] at hdiv
  have hcount : (data ++ padding).length / rate = data.length / rate + 1 := by
    rw [List.length_append]
    have htotal : data.length + padding.length = (data.length / rate + 1) * rate := by
      rw [Nat.add_mul, Nat.one_mul]
      omega
    rw [htotal, Nat.mul_div_cancel _ hrate]
  have hlast : (data.drop (data.length / rate * rate) ++ padding).length = rate := by
    rw [List.length_append, List.length_drop]
    omega
  rw [absorbLoop_eq hrate data _ s 0 (Nat.zero_le _) (by simp), blocks, hcount,
    blocksOf_append (by omega)]
  simp only [Nat.sub_zero, List.drop_zero, Nat.zero_add]
  rw [absorb, absorb, List.foldl_append, List.take_of_length_le hlast.le]
  rfl

end Recto
