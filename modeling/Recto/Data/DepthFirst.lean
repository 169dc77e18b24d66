import Mathlib.Data.List.Nodup
import Mathlib.Logic.Relation
import Mathlib.Tactic

/-!
# A walk with one set of what was found

The walk enters a node once, and hands what it has found from one edge to the
next. It ends because every node it enters leaves one fewer to enter, and finds
the nodes that can be reached: what it adds is closed under the edges.
-/

namespace Recto

universe u
variable {α : Type u} [DecidableEq α]

/-- The walk from `a`; `succ` gives the edges of a node, and nothing for what is no node. `none` when
`fuel` turns are not enough. -/
def visit (succ : α → Option (List α)) : ℕ → α → List α → Option (List α)
  | 0, _, _ => none
  | fuel + 1, a, found =>
      if a ∈ found then some found
      else
        match succ a with
        | none => some found
        | some bs => bs.foldlM (fun found b => visit succ fuel b found) (a :: found)

/-- An edge. -/
def Edge (succ : α → Option (List α)) (a b : α) : Prop := ∃ bs, succ a = some bs ∧ b ∈ bs

/-- The nodes that can be reached. -/
def Reaches (succ : α → Option (List α)) (a b : α) : Prop :=
  Relation.ReflTransGen (Edge succ) a b ∧ ∃ bs, succ b = some bs

/-- What a walk from `as` has added to `found`. -/
structure Extends (succ : α → Option (List α)) (as found r : List α) : Prop where
  subset : ∀ x ∈ found, x ∈ r
  sound : ∀ x ∈ r, x ∉ found → ∃ a ∈ as, Reaches succ a x
  starts : ∀ a ∈ as, (∃ bs, succ a = some bs) → a ∈ r
  closed : ∀ x ∈ r, x ∉ found → ∀ y, Edge succ x y → (∃ bs, succ y = some bs) → y ∈ r
  nodup : found.Nodup → r.Nodup

variable {succ : α → Option (List α)} {nodes as found m r : List α} {a b : α}

omit [DecidableEq α] in
theorem Extends.nil : Extends succ [] found found :=
  ⟨fun _ h => h, fun _ h hnot => absurd h hnot, by simp, fun _ h hnot => absurd h hnot, fun h => h⟩

/-- One walk after another. -/
theorem Extends.trans (h : Extends succ [a] found m) (h' : Extends succ as m r) :
    Extends succ (a :: as) found r where
  subset x hx := h'.subset x (h.subset x hx)
  sound x hx hnot := by
    by_cases hm : x ∈ m
    · obtain ⟨a', ha', hreach⟩ := h.sound x hm hnot
      exact ⟨a', by simpa using Or.inl (List.mem_singleton.mp ha'), hreach⟩
    · obtain ⟨a', ha', hreach⟩ := h'.sound x hx hm
      exact ⟨a', List.mem_cons_of_mem a ha', hreach⟩
  starts a' ha' hnode := by
    rcases List.mem_cons.mp ha' with rfl | ha'
    · exact h'.subset _ (h.starts _ (by simp) hnode)
    · exact h'.starts a' ha' hnode
  closed x hx hnot y hedge hnode := by
    by_cases hm : x ∈ m
    · exact h'.subset y (h.closed x hm hnot y hedge hnode)
    · exact h'.closed x hx hm y hedge hnode
  nodup hn := h'.nodup (h.nodup hn)

/-- A node entered, and then its edges. -/
theorem Extends.enter {bs : List α} (hnot : a ∉ found) (hnode : succ a = some bs)
    (h : Extends succ bs (a :: found) r) : Extends succ [a] found r where
  subset x hx := h.subset x (List.mem_cons_of_mem a hx)
  sound x hx hfound := by
    refine ⟨a, by simp, ?_⟩
    by_cases hxa : x = a
    · exact ⟨hxa ▸ .refl, bs, hxa ▸ hnode⟩
    · obtain ⟨b, hb, hreach⟩ := h.sound x hx (by simp [hxa, hfound])
      exact ⟨.head ⟨bs, hnode, hb⟩ hreach.1, hreach.2⟩
  starts a' ha' _ := by
    rw [List.mem_singleton.mp ha']
    exact h.subset a (by simp)
  closed x hx hfound y hedge hy := by
    by_cases hxa : x = a
    · obtain ⟨bs', hbs, hmem⟩ := hedge
      rw [hxa, hnode] at hbs
      obtain rfl := Option.some.inj hbs
      exact h.starts y hmem hy
    · exact h.closed x hx (by simp [hxa, hfound]) y hedge hy
  nodup hn := h.nodup (List.nodup_cons.mpr ⟨hnot, hn⟩)

/-! ## The walk ends -/

/-- How many nodes are not found yet. -/
def unfound (nodes found : List α) : ℕ := (nodes.filter (· ∉ found)).length

theorem unfound_le (h : ∀ x ∈ found, x ∈ m) : unfound nodes m ≤ unfound nodes found := by
  refine List.Sublist.length_le (List.monotone_filter_right nodes fun x hx => ?_)
  have : x ∉ m := by simpa using hx
  simpa using fun hmem => this (h x hmem)

theorem unfound_cons_lt (ha : a ∈ nodes) (hnot : a ∉ found) :
    unfound nodes (a :: found) < unfound nodes found := by
  have hfilter : nodes.filter (· ∉ a :: found) = (nodes.filter (· ∉ found)).filter (· ≠ a) := by
    rw [List.filter_filter]
    refine List.filter_congr fun x _ => ?_
    by_cases hx : x = a <;> by_cases hf : x ∈ found <;> simp [hx, hf]
  rw [unfound, unfound, hfilter]
  exact List.length_filter_lt_length_iff_exists.mpr ⟨a, by simp [ha, hnot], by simp⟩

/-- With more turns than nodes to enter, the walk ends, and has added what can be reached. -/
theorem visit_extends (hnodes : ∀ x bs, succ x = some bs → x ∈ nodes) :
    ∀ fuel a found, unfound nodes found < fuel →
      ∃ r, visit succ fuel a found = some r ∧ Extends succ [a] found r := by
  intro fuel
  induction fuel with
  | zero =>
    intro a found hfuel
    omega
  | succ fuel ih =>
    intro a found hfuel
    have hedges : ∀ (bs m : List α), unfound nodes m < fuel →
        ∃ r, bs.foldlM (fun found b => visit succ fuel b found) m = some r ∧
          Extends succ bs m r := by
      intro bs
      induction bs with
      | nil => exact fun m _ => ⟨m, rfl, .nil⟩
      | cons b bs ihs =>
        intro m hm
        obtain ⟨m', hvisit, hone⟩ := ih b m hm
        obtain ⟨r, hfold, hrest⟩ := ihs m' ((unfound_le hone.subset).trans_lt hm)
        exact ⟨r, by rw [List.foldlM_cons, hvisit]; exact hfold, hone.trans hrest⟩
    rw [visit]
    by_cases ha : a ∈ found
    · refine ⟨found, if_pos ha, ⟨fun _ h => h, fun _ h hnot => absurd h hnot, ?_,
        fun _ h hnot => absurd h hnot, fun h => h⟩⟩
      intro a' ha' _
      rwa [List.mem_singleton.mp ha']
    · rw [if_neg ha]
      cases hnode : succ a with
      | none =>
        refine ⟨found, rfl, ⟨fun _ h => h, fun _ h hnot => absurd h hnot, ?_,
          fun _ h hnot => absurd h hnot, fun h => h⟩⟩
        rintro a' ha' ⟨bs, hbs⟩
        rw [List.mem_singleton.mp ha', hnode] at hbs
        cases hbs
      | some bs =>
        have hless := unfound_cons_lt (hnodes a bs hnode) ha
        obtain ⟨r, hfold, hrest⟩ := hedges bs (a :: found) (by omega)
        exact ⟨r, hfold, hrest.enter ha hnode⟩

theorem visit_succ {fuel : ℕ} (h : visit succ fuel a found = some r) :
    visit succ (fuel + 1) a found = some r := by
  induction fuel generalizing a found r with
  | zero => cases h
  | succ fuel ih =>
    have hedges : ∀ (bs m : List α),
        bs.foldlM (fun found b => visit succ fuel b found) m = some r →
          bs.foldlM (fun found b => visit succ (fuel + 1) b found) m = some r := by
      intro bs
      induction bs with
      | nil => exact fun _ h => h
      | cons b bs ihs =>
        intro m hm
        rw [List.foldlM_cons, Option.bind_eq_bind, Option.bind_eq_some_iff] at hm ⊢
        obtain ⟨m', hvisit, hfold⟩ := hm
        exact ⟨m', ih hvisit, ihs m' hfold⟩
    rw [visit] at h ⊢
    by_cases ha : a ∈ found
    · rwa [if_pos ha] at h ⊢
    · rw [if_neg ha] at h ⊢
      cases hnode : succ a with
      | none => simpa only [hnode] using h
      | some bs =>
        simp only [hnode] at h ⊢
        exact hedges bs _ h

theorem visit_mono {fuel more : ℕ} (hle : fuel ≤ more) (h : visit succ fuel a found = some r) :
    visit succ more a found = some r := by
  induction more, hle using Nat.le_induction with
  | base => exact h
  | succ more _ ih => exact visit_succ ih

omit [DecidableEq α] in
theorem Extends.mem_of_reaches (h : Extends succ [a] [] r) (hreach : Reaches succ a b) : b ∈ r := by
  obtain ⟨hpath, hb⟩ := hreach
  induction hpath with
  | refl => exact h.starts a (by simp) hb
  | tail _ hedge ih =>
    have hnode := hedge
    obtain ⟨bs, hbs, -⟩ := hnode
    exact h.closed _ (ih ⟨bs, hbs⟩) (by simp) _ hedge hb

/-- From nothing, the walk finds exactly the nodes that can be reached, each once. -/
theorem exists_visit (hnodes : ∀ x bs, succ x = some bs → x ∈ nodes) (a : α) :
    ∃ r, (∀ fuel, nodes.length < fuel → visit succ fuel a [] = some r) ∧ r.Nodup ∧
      ∀ x, x ∈ r ↔ Reaches succ a x := by
  have hall : unfound nodes [] < nodes.length + 1 :=
    Nat.lt_succ_of_le (List.length_filter_le _ nodes)
  obtain ⟨r, hvisit, hextends⟩ := visit_extends hnodes _ a [] hall
  refine ⟨r, fun fuel hfuel => visit_mono hfuel hvisit, hextends.nodup List.nodup_nil, fun x => ?_⟩
  refine ⟨fun hx => ?_, hextends.mem_of_reaches⟩
  obtain ⟨a', ha', hreach⟩ := hextends.sound x hx (by simp)
  rwa [List.mem_singleton.mp ha'] at hreach

end Recto
