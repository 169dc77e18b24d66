import Recto.Data.Checked
import Recto.Data.Separated
import Recto.Text.CharTables

/-!
# The identity of a cluster

`register` checks the region, the ordinal and the colour one by one and joins
them with hyphens, which each of them may hold itself.
-/

namespace Recto
namespace Clusters

/-- The three names a cluster is registered under. -/
structure Names where
  region : String
  ordinal : String
  color : String
  deriving DecidableEq, Repr

variable {t : CharTables}

/-- `not value or not value.replace("-", "").isalnum()`, the other way round. -/
def nameOk (t : CharTables) (value : String) : Bool :=
  !(chars value).isEmpty && t.allAlnum ((chars value).filter (· ≠ '-'))

/-- The first name refused, with its value. -/
def Names.invalid (t : CharTables) (n : Names) : Option (String × String) :=
  [("region", n.region), ("ordinal", n.ordinal), ("color", n.color)].find? fun named =>
    !nameOk t named.2

/-- `f"{region}-{ordinal}-{color}".lower()` -/
def Names.clusterId (t : CharTables) (n : Names) : List Char :=
  t.lower (chars n.region ++ '-' :: (chars n.ordinal ++ '-' :: chars n.color))

/-- Names that `register` accepts. -/
structure ValidNames (t : CharTables) extends Names where
  valid : toNames.invalid t = none

/-- The same names, but for the case of their letters. -/
def Names.SameUpToCase (t : CharTables) (m n : Names) : Prop :=
  t.lower (chars m.region) = t.lower (chars n.region) ∧
    t.lower (chars m.ordinal) = t.lower (chars n.ordinal) ∧
    t.lower (chars m.color) = t.lower (chars n.color)

/-- Hyphens stand before the region and after the colour only:
`"-" not in region.lstrip("-")`, `"-" not in ordinal` and `"-" not in color.rstrip("-")`. -/
def Names.HyphensOutside (n : Names) : Prop :=
  '-' ∉ (chars n.region).dropWhile (· = '-') ∧ '-' ∉ chars n.ordinal ∧
    '-' ∉ (chars n.color).reverse.dropWhile (· = '-')

instance (n : Names) : Decidable n.HyphensOutside :=
  inferInstanceAs (Decidable (_ ∧ _ ∧ _))

/-! ## Parts -/

/-- A name is a part in the sense of `Recto.Data.Separated`, of letters and digits otherwise. -/
def Part (t : CharTables) (p : List Char) : Prop :=
  Solid '-' p ∧ ∀ c ∈ p, c ≠ '-' → t.isAlnum c = true

theorem nameOk_iff {value : String} : nameOk t value = true ↔ Part t (chars value) := by
  have hkept : (chars value).filter (· ≠ '-') ≠ [] ↔ Solid '-' (chars value) := by
    simp [Solid, List.filter_eq_nil_iff]
  simp only [nameOk, CharTables.allAlnum, Bool.and_eq_true, Bool.not_eq_true', List.isEmpty_eq_false_iff,
    List.all_filter, List.all_eq_true]
  rw [hkept]
  constructor
  · rintro ⟨-, hsolid, hall⟩
    exact ⟨hsolid, fun c hc hne => by simpa [hne] using hall c hc⟩
  · rintro ⟨hsolid, hall⟩
    obtain ⟨c, hc, -⟩ := id hsolid
    refine ⟨List.ne_nil_of_mem hc, hsolid, fun d hd => ?_⟩
    by_cases hne : d = '-'
    · simp [hne]
    · simp [hne, hall d hd hne]

theorem invalid_eq_none_iff {n : Names} :
    n.invalid t = none ↔
      Part t (chars n.region) ∧ Part t (chars n.ordinal) ∧ Part t (chars n.color) := by
  simp [Names.invalid, nameOk_iff]

/-- A part on its own. -/
theorem Part.of_cut {a b : List Char} (h : Part t (a ++ '-' :: b)) :
    (Solid '-' a → Part t a) ∧ (Solid '-' b → Part t b) := by
  constructor
  · exact fun ha => ⟨ha, fun c hc => h.2 c (List.mem_append_left _ hc)⟩
  · exact fun hb => ⟨hb, fun c hc => h.2 c (List.mem_append_right _ (List.mem_cons_of_mem _ hc))⟩

/-- Two pieces with a hyphen between them. -/
theorem Part.join {a b : List Char} (h : Solid '-' a ∨ Solid '-' b)
    (ha : ∀ c ∈ a, c ≠ '-' → t.isAlnum c = true) (hb : ∀ c ∈ b, c ≠ '-' → t.isAlnum c = true) :
    Part t (a ++ '-' :: b) := by
  refine ⟨solid_append_cons.mpr h, ?_⟩
  intro c hc hne
  rcases List.mem_append.mp hc with hc | hc
  · exact ha c hc hne
  · rcases List.mem_cons.mp hc with rfl | hc
    · exact absurd rfl hne
    · exact hb c hc hne

theorem leadingOnly_iff {p : List Char} :
    LeadingOnly '-' p ↔ '-' ∉ p.dropWhile (· = '-') := by
  induction p with
  | nil => simp [LeadingOnly]
  | cons c p ih =>
    by_cases hc : c = '-'
    · rw [List.dropWhile_cons_of_pos (by simpa using hc), ← ih, hc]
      constructor
      · rintro h a b rfl
        exact fun ha => h ('-' :: a) b rfl (ha.append_left ['-'])
      · intro h a b hab
        cases a with
        | nil => simp [Solid]
        | cons d a =>
          simp only [List.cons_append, List.cons.injEq] at hab
          rintro ⟨e, he, hne⟩
          rcases List.mem_cons.mp he with rfl | he
          · exact hne hab.1.symm
          · exact h a b hab.2 ⟨e, he, hne⟩
    · rw [List.dropWhile_cons_of_neg (by simpa using hc)]
      constructor
      · intro h hmem
        obtain ⟨a, b, hab⟩ := List.append_of_mem hmem
        cases a with
        | nil =>
          rw [List.nil_append] at hab
          exact hc (List.cons.inj hab).1
        | cons d a =>
          refine h (d :: a) b hab ⟨d, by simp, ?_⟩
          rw [← (List.cons.inj hab).1]
          exact hc
      · intro h a b hab
        exact absurd (by rw [hab]; simp) h

theorem trailingOnly_iff {p : List Char} :
    TrailingOnly '-' p ↔ '-' ∉ p.reverse.dropWhile (· = '-') := by
  rw [← leadingOnly_iff]
  have hsolid : ∀ a : List Char, Solid '-' a.reverse ↔ Solid '-' a := by simp [Solid]
  constructor
  · intro h a b hab
    rw [← hsolid]
    exact h b.reverse a.reverse (by rw [← List.reverse_reverse p, hab]; simp)
  · rintro h a b rfl
    rw [← hsolid]
    exact h b.reverse a.reverse (by simp)

/-! ## Lowered parts -/

theorem solid_lower {p : List Char} : Solid '-' (t.lower p) ↔ Solid '-' p := by
  constructor
  · rintro ⟨d, hd, hne⟩
    exact CharTables.exists_of_mem_lowerFrom hd hne
  · rintro ⟨c, hc, hne⟩
    exact CharTables.exists_mem_lowerFrom hc hne

theorem leadingOnly_lower {p : List Char} (h : LeadingOnly '-' p) :
    LeadingOnly '-' (t.lower p) := by
  intro a b hab
  obtain ⟨x, y, rfl, rfl, -⟩ := CharTables.exists_cut_of_lower hab
  rw [solid_lower]
  exact h x y rfl

theorem trailingOnly_lower {p : List Char} (h : TrailingOnly '-' p) :
    TrailingOnly '-' (t.lower p) := by
  intro a b hab
  obtain ⟨x, y, rfl, -, rfl⟩ := CharTables.exists_cut_of_lower hab
  rw [solid_lower]
  exact h x y rfl

/-- A part that goes on past a hyphen is another part, whatever the case. -/
theorem lower_ne_of_cut (a b : List Char) :
    t.lower a ≠ t.lower (a ++ '-' :: b) ∧ t.lower b ≠ t.lower (a ++ '-' :: b) := by
  rw [CharTables.lower_append_hyphen]
  constructor
  · intro h
    simpa using congrArg List.length h
  · intro h
    have hlength := congrArg List.length h
    simp only [List.length_append, List.length_cons] at hlength
    omega

theorem clusterId_eq (n : Names) :
    n.clusterId t = joined '-' (t.lower (chars n.region)) (t.lower (chars n.ordinal))
      (t.lower (chars n.color)) := by
  simp only [Names.clusterId, joined, CharTables.lower_append_hyphen]

/-! ## Which ids name one cluster -/

/-- The names have the id to themselves. -/
def ValidNames.Unique (n : ValidNames t) : Prop :=
  ∀ m : ValidNames t, m.clusterId t = n.clusterId t → m.SameUpToCase t n.toNames

/-- Valid names given by their characters. -/
def ValidNames.ofParts {x y z : List Char} (hx : Part t x) (hy : Part t y) (hz : Part t z) :
    ValidNames t where
  region := String.ofList x
  ordinal := String.ofList y
  color := String.ofList z
  valid := by simpa [invalid_eq_none_iff] using ⟨hx, hy, hz⟩

/-- What an id of its own rules out: other parts of the same text. -/
theorem ValidNames.Unique.parts {n : ValidNames t} (h : n.Unique) {x y z : List Char}
    (hx : Part t x) (hy : Part t y) (hz : Part t z)
    (hjoined : joined '-' x y z =
      joined '-' (chars n.region) (chars n.ordinal) (chars n.color)) :
    t.lower x = t.lower (chars n.region) ∧ t.lower y = t.lower (chars n.ordinal) ∧
      t.lower z = t.lower (chars n.color) := by
  have hid : (ValidNames.ofParts hx hy hz).clusterId t = n.clusterId t := by
    simp only [Names.clusterId, ofParts, chars_ofList]
    exact congrArg t.lower hjoined
  simpa only [Names.SameUpToCase, ofParts, chars_ofList] using h _ hid

theorem ValidNames.Unique.hyphensOutside {n : ValidNames t} (h : n.Unique) :
    n.HyphensOutside := by
  obtain ⟨hregion, hordinal, hcolor⟩ := invalid_eq_none_iff.mp n.valid
  refine ⟨leadingOnly_iff.mp ?_, ?_, trailingOnly_iff.mp ?_⟩
  · intro a b hab ha
    rw [hab] at hregion
    have hsame := h.parts (hregion.of_cut.1 ha)
      (Part.join (a := b) (Or.inr hordinal.1)
        (fun c hc => hregion.2 c (by simp [hc])) hordinal.2) hcolor (by rw [hab]; simp [joined])
    rw [hab] at hsame
    exact (lower_ne_of_cut a b).1 hsame.1
  · intro hmem
    obtain ⟨a, b, hab⟩ := List.append_of_mem hmem
    rw [hab] at hordinal
    rcases solid_append_cons.mp hordinal.1 with ha | hb
    · have hsame := h.parts hregion (hordinal.of_cut.1 ha)
        (Part.join (a := b) (Or.inr hcolor.1)
          (fun c hc => hordinal.2 c (by simp [hc])) hcolor.2) (by rw [hab]; simp [joined])
      rw [hab] at hsame
      exact (lower_ne_of_cut a b).1 hsame.2.1
    · have hsame := h.parts (Part.join (b := a) (Or.inl hregion.1) hregion.2
          (fun c hc => hordinal.2 c (by simp [hc]))) (hordinal.of_cut.2 hb) hcolor
          (by rw [hab]; simp [joined])
      rw [hab] at hsame
      exact (lower_ne_of_cut a b).2 hsame.2.1
  · intro a b hab hb
    rw [hab] at hcolor
    have hsame := h.parts hregion (Part.join (b := a) (Or.inl hordinal.1) hordinal.2
        (fun c hc => hcolor.2 c (by simp [hc]))) (hcolor.of_cut.2 hb) (by rw [hab]; simp [joined])
    rw [hab] at hsame
    exact (lower_ne_of_cut a b).2 hsame.2.2

theorem ValidNames.unique_of_hyphensOutside {n : ValidNames t} (h : n.HyphensOutside) :
    n.Unique := by
  intro m hid
  obtain ⟨hregion, -, hcolor⟩ := invalid_eq_none_iff.mp m.valid
  obtain ⟨hfirst, hmiddle, hlast⟩ := h
  rw [clusterId_eq, clusterId_eq] at hid
  exact joined_unique (leadingOnly_lower (leadingOnly_iff.mpr hfirst))
    (fun hmem => hmiddle (CharTables.hyphen_mem_lower.mp hmem))
    (trailingOnly_lower (trailingOnly_iff.mpr hlast))
    (solid_lower.mpr hregion.1) (solid_lower.mpr hcolor.1) hid

/-- A cluster id names one cluster exactly when hyphens stand outside its three names. -/
theorem cluster_id_unique_iff (n : ValidNames t) :
    (∀ m : ValidNames t, m.clusterId t = n.clusterId t → m.SameUpToCase t n.toNames) ↔
      n.HyphensOutside :=
  ⟨fun h => ValidNames.Unique.hyphensOutside h, ValidNames.unique_of_hyphensOutside⟩

/-- The region takes the hyphen, or the ordinal does. -/
theorem cluster_id_shared :
    ∃ m n : ValidNames CharTables.ascii, m.toNames = ⟨"us-east", "1", "blue"⟩ ∧
      n.toNames = ⟨"us", "east-1", "blue"⟩ ∧
      m.clusterId CharTables.ascii = n.clusterId CharTables.ascii ∧
      ¬m.SameUpToCase CharTables.ascii n.toNames :=
  ⟨⟨⟨"us-east", "1", "blue"⟩, by decide⟩, ⟨⟨"us", "east-1", "blue"⟩, by decide⟩, rfl, rfl,
    by decide, by
      rintro ⟨h, -⟩
      exact absurd h (by decide)⟩

end Clusters
end Recto
