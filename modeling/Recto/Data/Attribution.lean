import Mathlib.Data.List.Basic
import Mathlib.Tactic

/-!
# Greedy attribution

Tokens are read in order, and each is credited to the first holder, in a fixed
order, that it fits and that has no token yet. Every credited holder then has a
token of its own: no token is credited twice. Nothing is claimed about how many
holders could be credited by a better assignment.
-/

namespace Recto

universe u v w
variable {α : Type u} {κ : Type v} {σ : Type w} [DecidableEq κ]
variable (holders : List α) (key : α → κ) (fits : σ → α → Bool)

/-- Credit one token to the first holder it fits that is not credited yet. -/
def credit (credited : List κ) (token : σ) : List κ :=
  match holders.find? fun a => decide (key a ∉ credited) && fits token a with
  | some a => credited ++ [key a]
  | none => credited

/-- The keys of the holders credited with one of the tokens. -/
def attribution (tokens : List σ) : List κ := tokens.foldl (credit holders key fits) []

@[simp] theorem attribution_nil : attribution holders key fits [] = [] := rfl

theorem attribution_concat (tokens : List σ) (token : σ) :
    attribution holders key fits (tokens ++ [token]) =
      credit holders key fits (attribution holders key fits tokens) token := by
  simp [attribution]

theorem credit_eq (credited : List κ) (token : σ) :
    credit holders key fits credited token = credited ∨
      ∃ a ∈ holders, key a ∉ credited ∧ fits token a = true ∧
        credit holders key fits credited token = credited ++ [key a] := by
  unfold credit
  split
  · rename_i a ha
    have hfits := List.find?_some ha
    simp only [Bool.and_eq_true, decide_eq_true_eq] at hfits
    exact Or.inr ⟨a, List.mem_of_find?_eq_some ha, hfits.1, hfits.2, rfl⟩
  · exact Or.inl rfl

theorem nodup_attribution (tokens : List σ) : (attribution holders key fits tokens).Nodup := by
  induction tokens using List.reverseRecOn with
  | nil => exact List.nodup_nil
  | append_singleton tokens token ih =>
    rw [attribution_concat]
    rcases credit_eq holders key fits (attribution holders key fits tokens) token with
      h | ⟨a, -, hnew, -, h⟩
    · rwa [h]
    · rw [h]
      exact ih.append (List.nodup_singleton _) (by simpa using hnew)

/-- Holders that are told by something else of theirs. -/
theorem attribution_map {β : Type u} (g : β → α) (xs : List β) (tokens : List σ) :
    attribution (xs.map g) key fits tokens =
      attribution xs (fun b => key (g b)) (fun t b => fits t (g b)) tokens := by
  have hcredit : ∀ (credited : List κ) (token : σ), credit (xs.map g) key fits credited token =
      credit xs (fun b => key (g b)) (fun t b => fits t (g b)) credited token := by
    intro credited token
    simp only [credit, List.find?_map]
    have hpred : ((fun a => decide (key a ∉ credited) && fits token a) ∘ g) =
        fun b => decide (key (g b) ∉ credited) && fits token (g b) := rfl
    rw [hpred]
    cases xs.find? fun b => decide (key (g b) ∉ credited) && fits token (g b) <;> rfl
  simp only [attribution]
  congr 1
  exact funext₂ hcredit

/-! ## Tokens that fit one holder -/

/-- The holders a token fits have one key. -/
def FitsOne (token : σ) : Prop :=
  ∀ a ∈ holders, ∀ b ∈ holders, fits token a = true → fits token b = true → key a = key b

variable {holders key fits}

theorem mem_credit_iff {token : σ} (h : FitsOne holders key fits token) {credited : List κ} {k : κ} :
    k ∈ credit holders key fits credited token ↔
      k ∈ credited ∨ ∃ a ∈ holders, key a = k ∧ fits token a = true := by
  unfold credit
  split
  · rename_i a hfind
    have hfits := List.find?_some hfind
    simp only [Bool.and_eq_true, decide_eq_true_eq] at hfits
    have ha := List.mem_of_find?_eq_some hfind
    rw [List.mem_append, List.mem_singleton]
    refine or_congr_right ⟨?_, ?_⟩
    · rintro rfl
      exact ⟨a, ha, rfl, hfits.2⟩
    · rintro ⟨b, hb, rfl, hbfits⟩
      exact h b hb a ha hbfits hfits.2
  · rename_i hnone
    refine ⟨Or.inl, ?_⟩
    rintro (hk | ⟨a, ha, rfl, hfits⟩)
    · exact hk
    · have hcredited := List.find?_eq_none.mp hnone a ha
      simpa [hfits] using hcredited

/-- Where every token fits one holder, the credited holders are those some token fits. -/
theorem mem_attribution_iff {tokens : List σ} (h : ∀ t ∈ tokens, FitsOne holders key fits t)
    {k : κ} : k ∈ attribution holders key fits tokens ↔
      ∃ t ∈ tokens, ∃ a ∈ holders, key a = k ∧ fits t a = true := by
  induction tokens using List.reverseRecOn with
  | nil => simp
  | append_singleton tokens token ih =>
    rw [attribution_concat, mem_credit_iff (h token (by simp)),
      ih fun t ht => h t (List.mem_append_left _ ht)]
    simp [or_and_right, exists_or]

/-- There the order of the tokens does not matter, and neither does a token twice. -/
theorem attribution_perm {tokens tokens' : List σ} (h : ∀ t ∈ tokens, FitsOne holders key fits t)
    (hsame : ∀ t, t ∈ tokens' ↔ t ∈ tokens) :
    (attribution holders key fits tokens').Perm (attribution holders key fits tokens) := by
  refine (List.perm_ext_iff_of_nodup (nodup_attribution ..) (nodup_attribution ..)).mpr fun k => ?_
  rw [mem_attribution_iff h, mem_attribution_iff fun t ht => h t ((hsame t).mp ht)]
  simp only [hsame]

/-! ## Tokens that fit the same holders -/

theorem find?_not_mem_take {s : α → Bool} (hnodup : (holders.map key).Nodup) (n : ℕ) :
    (holders.find? fun a => decide (key a ∉ ((holders.filter s).map key).take n) && s a) =
      (holders.filter s)[n]? := by
  induction holders generalizing n with
  | nil => rfl
  | cons a rest ih =>
    obtain ⟨hfresh, hrest⟩ := List.nodup_cons.mp hnodup
    by_cases hs : s a = true
    · rw [List.filter_cons_of_pos hs]
      cases n with
      | zero => simp [hs]
      | succ n =>
        have hskip : ∀ b ∈ rest, (key b ∉ key a :: ((rest.filter s).map key).take n) =
            (key b ∉ ((rest.filter s).map key).take n) := by
          intro b hb
          have hne : key b ≠ key a := fun h => hfresh (h ▸ List.mem_map_of_mem hb)
          simp [hne]
        rw [List.getElem?_cons_succ, ← ih hrest n]
        simp only [List.map_cons, List.take_succ_cons, List.find?_cons, List.mem_cons, true_or,
          not_true_eq_false, decide_false, Bool.false_and]
        refine List.find?_congr fun b hb => ?_
        simp only [← List.mem_cons, hskip b hb]
    · rw [List.filter_cons_of_neg hs, List.find?_cons_of_neg (by simp [hs]), ih hrest n]

/-- Where every token fits the same holders or none, the first of them are credited, one for each
token that fits. -/
theorem attribution_of_same {tokens : List σ} {f : σ → Bool} {s : α → Bool}
    (hnodup : (holders.map key).Nodup)
    (h : ∀ t ∈ tokens, ∀ a ∈ holders, fits t a = (f t && s a)) :
    attribution holders key fits tokens = ((holders.filter s).map key).take (tokens.countP f) := by
  induction tokens using List.reverseRecOn with
  | nil => simp
  | append_singleton tokens token ih =>
    rw [attribution_concat, ih fun t ht => h t (List.mem_append_left _ ht), List.countP_append,
      credit]
    have hfits : ∀ a ∈ holders, (decide (key a ∉ ((holders.filter s).map key).take
        (tokens.countP f)) && fits token a) = (f token && (decide (key a ∉
          ((holders.filter s).map key).take (tokens.countP f)) && s a)) := by
      intro a ha
      rw [h token (by simp) a ha, Bool.and_left_comm]
    rw [List.find?_congr hfits]
    cases hf : f token with
    | false =>
      have hnone : (holders.find? fun _ => false) = none := by simp
      simp [hf, hnone]
    | true =>
      simp only [Bool.true_and, find?_not_mem_take hnodup]
      rw [List.countP_singleton, hf, if_pos rfl, List.take_add_one, List.getElem?_map]
      cases (holders.filter s)[tokens.countP f]? <;> simp

/-! ## A token for each credited holder -/

variable (holders key fits) in
/-- Where each credited holder's own token stands. -/
structure Placement (tokens : List σ) (credited : List κ) (position : κ → ℕ) : Prop where
  fits : ∀ k ∈ credited, ∃ a ∈ holders, key a = k ∧
    ∃ token, tokens[position k]? = some token ∧ fits token a = true
  injective : ∀ k ∈ credited, ∀ l ∈ credited, position k = position l → k = l

omit [DecidableEq κ] in
theorem Placement.lt_length {tokens : List σ} {credited : List κ} {position : κ → ℕ}
    (h : Placement holders key fits tokens credited position) {k : κ} (hk : k ∈ credited) :
    position k < tokens.length := by
  obtain ⟨_, _, _, _, htoken, _⟩ := h.fits k hk
  exact (List.getElem?_eq_some_iff.mp htoken).1

omit [DecidableEq κ] in
theorem Placement.concat {tokens : List σ} {credited : List κ} {position : κ → ℕ}
    (h : Placement holders key fits tokens credited position) (token : σ) :
    Placement holders key fits (tokens ++ [token]) credited position where
  fits k hk := by
    obtain ⟨a, ha, hkey, t, ht, hfits⟩ := h.fits k hk
    exact ⟨a, ha, hkey, t, by rw [List.getElem?_append_left (h.lt_length hk), ht], hfits⟩
  injective := h.injective

theorem Placement.credit {tokens : List σ} {credited : List κ} {position : κ → ℕ}
    (h : Placement holders key fits tokens credited position) {a : α} (ha : a ∈ holders)
    (hnew : key a ∉ credited) {token : σ} (hfits : fits token a = true) :
    Placement holders key fits (tokens ++ [token]) (credited ++ [key a])
      (Function.update position (key a) tokens.length) where
  fits k hk := by
    rcases List.mem_append.mp hk with hk | hk
    · have hne : k ≠ key a := fun e => hnew (e ▸ hk)
      rw [Function.update_of_ne hne]
      exact (h.concat token).fits k hk
    · obtain rfl := List.mem_singleton.mp hk
      exact ⟨a, ha, rfl, token, by simp, hfits⟩
  injective k hk l hl hpos := by
    have hold : ∀ m ∈ credited ++ [key a], m ≠ key a →
        m ∈ credited ∧ Function.update position (key a) tokens.length m < tokens.length := by
      intro m hm hne
      have hmem : m ∈ credited := by simpa [hne] using hm
      exact ⟨hmem, by rw [Function.update_of_ne hne]; exact h.lt_length hmem⟩
    by_cases hka : k = key a <;> by_cases hla : l = key a
    · rw [hka, hla]
    · have := (hold l hl hla).2
      rw [← hpos, hka, Function.update_self] at this
      omega
    · have := (hold k hk hka).2
      rw [hpos, hla, Function.update_self] at this
      omega
    · rw [Function.update_of_ne hka, Function.update_of_ne hla] at hpos
      exact h.injective k (hold k hk hka).1 l (hold l hl hla).1 hpos

variable (holders key fits) in
/-- The credited holders have distinct tokens that fit them. -/
theorem exists_placement (tokens : List σ) :
    ∃ position, Placement holders key fits tokens (attribution holders key fits tokens) position := by
  induction tokens using List.reverseRecOn with
  | nil => exact ⟨fun _ => 0, by simp, by simp⟩
  | append_singleton tokens token ih =>
    obtain ⟨position, ih⟩ := ih
    rw [attribution_concat]
    rcases credit_eq holders key fits (attribution holders key fits tokens) token with
      h | ⟨a, ha, hnew, hfits, h⟩
    · rw [h]
      exact ⟨position, ih.concat token⟩
    · rw [h]
      exact ⟨_, ih.credit ha hnew hfits⟩

end Recto
