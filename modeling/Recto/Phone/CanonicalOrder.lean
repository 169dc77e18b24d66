import Recto.Phone.CanonicalJson

/-!
# When the phone and the host write the same bytes

The phone sorts keys by UTF-16 code units and the host by code points. Both write
the rendering of a tree whose fields are sorted, so their bytes agree exactly when
no object has two keys that the two orders put differently. The phone's bytes
determine the tree either way.
-/

namespace Recto
namespace Phone

open Capability

/-! ## Code units determine a string -/

theorem utf16Units_append_inj {c d : Char} {us vs : List ℕ}
    (h : utf16Units c ++ us = utf16Units d ++ vs) : c = d ∧ us = vs := by
  have hc := Json.toNat_not_surrogate c
  have hd := Json.toNat_not_surrogate d
  unfold utf16Units at h
  split_ifs at h with hcbasic hdbasic hdbasic
  · obtain ⟨hunit, hrest⟩ := List.cons.inj h
    exact ⟨Char.toNat_inj.mp hunit, hrest⟩
  · have hunit := (List.cons.inj h).1
    omega
  · have hunit := (List.cons.inj h).1
    omega
  · obtain ⟨hhigh, hrest⟩ := List.cons.inj h
    obtain ⟨hlow, hrest⟩ := List.cons.inj hrest
    exact ⟨Char.toNat_inj.mp (by omega), hrest⟩

theorem utf16Units_ne_nil (c : Char) : utf16Units c ≠ [] := by
  unfold utf16Units
  split_ifs <;> simp

theorem flatMap_utf16Units_inj (cs ds : List Char)
    (h : cs.flatMap utf16Units = ds.flatMap utf16Units) : cs = ds := by
  induction cs generalizing ds with
  | nil =>
    cases ds with
    | nil => rfl
    | cons d ds => exact absurd (List.append_eq_nil_iff.mp h.symm).1 (utf16Units_ne_nil d)
  | cons c cs ih =>
    cases ds with
    | nil => exact absurd (List.append_eq_nil_iff.mp h).1 (utf16Units_ne_nil c)
    | cons d ds =>
      rw [List.flatMap_cons, List.flatMap_cons] at h
      obtain ⟨rfl, hrest⟩ := utf16Units_append_inj h
      rw [ih ds hrest]

theorem utf16_injective : Function.Injective utf16 := by
  intro s t h
  have hchars := flatMap_utf16Units_inj _ _ h
  rw [chars_eq_toList, chars_eq_toList] at hchars
  exact String.toList_inj.mp hchars

/-! ## The phone's canonical tree -/

/-- `StringComparer.Ordinal` on the keys of fields. -/
def phoneLE (f g : String × Json) : Prop := utf16 f.1 ≤ utf16 g.1

instance : DecidableRel phoneLE := fun f g => inferInstanceAs (Decidable (utf16 f.1 ≤ utf16 g.1))

instance : Std.Total phoneLE := ⟨fun f g => le_total (utf16 f.1) (utf16 g.1)⟩

instance : IsTrans (String × Json) phoneLE := ⟨fun _ _ _ => le_trans⟩

instance : Std.Total Json.fieldLE := ⟨fun f g => String.le_total f.1 g.1⟩

instance : IsTrans (String × Json) Json.fieldLE := ⟨fun _ _ _ => String.le_trans⟩

mutual
/-- The tree with the fields of every object in the phone's order. -/
def phoneCanon : Json → Json
  | .arr xs => .arr (phoneCanonElements xs)
  | .obj fields => .obj ((phoneCanonFields fields).insertionSort phoneLE)
  | x => x
def phoneCanonElements : List Json → List Json
  | [] => []
  | x :: xs => phoneCanon x :: phoneCanonElements xs
def phoneCanonFields : List (String × Json) → List (String × Json)
  | [] => []
  | (k, x) :: fs => (k, phoneCanon x) :: phoneCanonFields fs
end

theorem phoneCanonFields_eq_map (fs : List (String × Json)) :
    phoneCanonFields fs = fs.map fun f => (f.1, phoneCanon f.2) := by
  induction fs with
  | nil => rfl
  | cons f fs ih => rw [phoneCanonFields, ih, List.map_cons]

theorem canonFields_eq_map (fs : List (String × Json)) :
    Json.canonFields fs = fs.map fun f => (f.1, Json.canon f.2) := by
  induction fs with
  | nil => rfl
  | cons f fs ih => rw [Json.canonFields, ih, List.map_cons]

theorem map_fst_phoneCanonFields (fs : List (String × Json)) :
    (phoneCanonFields fs).map Prod.fst = fs.map Prod.fst := by
  rw [phoneCanonFields_eq_map, List.map_map]
  rfl

theorem insertionSort_rendered (fs : List (String × Json)) :
    (fs.map fun f => (f.1, Json.render f.2)).insertionSort ordinalLE =
      (fs.insertionSort phoneLE).map fun f => (f.1, Json.render f.2) :=
  (List.map_insertionSort phoneLE ordinalLE (fun f => (f.1, Json.render f.2)) fs
    fun _ _ _ _ => Iff.rfl).symm

mutual
theorem writeValue_plain : ∀ {x : Json}, Json.Plain x →
    writeValue x = .ok (Json.render (phoneCanon x))
  | .null, _ => rfl
  | .bool b, _ => by cases b <;> rfl
  | .int _, _ => rfl
  | .str s, _ => by
      rw [writeValue, writeString_eq_quote]
      rfl
  | .float _, h => h.elim
  | .arr xs, h => by
      rw [writeValue, writeElements_plain h, phoneCanon, Json.render, ← joinElements_render]
      rfl
  | .obj fields, h => by
      rw [writeValue, writeFields_plain h.2, phoneCanon, Json.render, ← joinFields_render,
        ← insertionSort_rendered]
      rfl
theorem writeElements_plain : ∀ {xs : List Json}, Json.PlainElements xs →
    writeElements xs = .ok ((phoneCanonElements xs).map Json.render)
  | [], _ => rfl
  | x :: xs, h => by
      rw [writeElements, writeValue_plain h.1, writeElements_plain h.2]
      rfl
theorem writeFields_plain : ∀ {fs : List (String × Json)}, Json.PlainFields fs →
    writeFields fs = .ok ((phoneCanonFields fs).map fun f => (f.1, Json.render f.2))
  | [], _ => rfl
  | (k, x) :: fs, h => by
      rw [writeFields, writeValue_plain h.1, writeFields_plain h.2]
      rfl
end

theorem encode_plain {x : Json} (h : Json.Plain x) :
    encode x = .ok (encodeUtf8 (Json.render (phoneCanon x))) := by
  rw [encode, writeValue_plain h]
  rfl

mutual
theorem proper_phoneCanon : ∀ {x : Json}, Json.Plain x → Json.Proper (phoneCanon x)
  | .null, _ => trivial
  | .bool _, _ => trivial
  | .int _, _ => trivial
  | .float _, h => h.elim
  | .str _, _ => trivial
  | .arr _, h => properElements_phoneCanon h
  | .obj fs, h => by
      have hperm := List.perm_insertionSort phoneLE (phoneCanonFields fs)
      refine ⟨?_, Json.properFields_iff.mpr fun f hf => ?_⟩
      · rw [(hperm.map Prod.fst).nodup_iff, map_fst_phoneCanonFields]
        exact h.1
      · exact Json.properFields_iff.mp (properFields_phoneCanon h.2) f (hperm.mem_iff.mp hf)
theorem properElements_phoneCanon : ∀ {xs : List Json}, Json.PlainElements xs →
    Json.ProperElements (phoneCanonElements xs)
  | [], _ => trivial
  | _ :: _, h => ⟨proper_phoneCanon h.1, properElements_phoneCanon h.2⟩
theorem properFields_phoneCanon : ∀ {fs : List (String × Json)}, Json.PlainFields fs →
    Json.ProperFields (phoneCanonFields fs)
  | [], _ => trivial
  | _ :: _, h => ⟨proper_phoneCanon h.1, properFields_phoneCanon h.2⟩
end

/-! ## One tree, two orders -/

/-- Two sortings of fields with distinct keys are one when they sort the same fields. -/
theorem sortFields_congr {fs gs : List (String × Json)} (hperm : fs.Perm gs)
    (hnodup : (fs.map Prod.fst).Nodup) : Json.sortFields fs = Json.sortFields gs := by
  have hsorted := (List.perm_insertionSort Json.fieldLE fs).trans
    (hperm.trans (List.perm_insertionSort Json.fieldLE gs).symm)
  refine hsorted.eq_of_pairwise (fun f g hf hg hfg hgf => ?_)
    (List.pairwise_insertionSort Json.fieldLE fs) (List.pairwise_insertionSort Json.fieldLE gs)
  have hkey : f.1 = g.1 := String.le_antisymm hfg hgf
  have hf := (List.perm_insertionSort Json.fieldLE fs).mem_iff.mp hf
  have hg := hperm.mem_iff.mpr ((List.perm_insertionSort Json.fieldLE gs).mem_iff.mp hg)
  exact List.inj_on_of_nodup_map hnodup hf hg hkey

mutual
/-- The host's form of the phone's tree is the host's form of the tree. -/
theorem canon_phoneCanon : ∀ {x : Json}, Json.Plain x → Json.canon (phoneCanon x) = Json.canon x
  | .null, _ => rfl
  | .bool _, _ => rfl
  | .int _, _ => rfl
  | .float _, h => h.elim
  | .str _, _ => rfl
  | .arr _, h => congrArg Json.arr (canonElements_phoneCanon h)
  | .obj fs, h => by
      have hperm := (List.perm_insertionSort phoneLE (phoneCanonFields fs)).map
        fun f : String × Json => (f.1, Json.canon f.2)
      rw [← canonFields_eq_map, ← canonFields_eq_map, canonFields_phoneCanon h.2] at hperm
      refine congrArg Json.obj (sortFields_congr hperm ?_)
      rw [(hperm.map Prod.fst).nodup_iff, Json.map_fst_canonFields]
      exact h.1
theorem canonElements_phoneCanon : ∀ {xs : List Json}, Json.PlainElements xs →
    Json.canonElements (phoneCanonElements xs) = Json.canonElements xs
  | [], _ => rfl
  | _ :: _, h => by
      rw [phoneCanonElements, Json.canonElements, Json.canonElements, canon_phoneCanon h.1,
        canonElements_phoneCanon h.2]
theorem canonFields_phoneCanon : ∀ {fs : List (String × Json)}, Json.PlainFields fs →
    Json.canonFields (phoneCanonFields fs) = Json.canonFields fs
  | [], _ => rfl
  | _ :: _, h => by
      rw [phoneCanonFields, Json.canonFields, Json.canonFields, canon_phoneCanon h.1,
        canonFields_phoneCanon h.2]
end

mutual
/-- No object has two keys that code points and code units order differently. -/
def Aligned : Json → Prop
  | .arr xs => AlignedElements xs
  | .obj fields => (∀ f ∈ fields, ∀ g ∈ fields, f.1 ≤ g.1 → utf16 f.1 ≤ utf16 g.1) ∧
      AlignedFields fields
  | _ => True
def AlignedElements : List Json → Prop
  | [] => True
  | x :: xs => Aligned x ∧ AlignedElements xs
def AlignedFields : List (String × Json) → Prop
  | [] => True
  | (_, x) :: fs => Aligned x ∧ AlignedFields fs
end

/-- Fields with the same keys that are among fields with distinct keys are the same. -/
theorem fields_eq_of_keys {fs gs all : List (String × Json)}
    (hkeys : fs.map Prod.fst = gs.map Prod.fst) (hfs : ∀ f ∈ fs, f ∈ all) (hgs : ∀ g ∈ gs, g ∈ all)
    (hnodup : (all.map Prod.fst).Nodup) : fs = gs := by
  induction fs generalizing gs with
  | nil => exact (List.map_eq_nil_iff.mp hkeys.symm).symm
  | cons f fs ih =>
    cases gs with
    | nil => cases hkeys
    | cons g gs =>
      obtain ⟨hkey, hkeys⟩ := List.cons.inj hkeys
      have hhead : f = g :=
        List.inj_on_of_nodup_map hnodup (hfs f List.mem_cons_self) (hgs g List.mem_cons_self) hkey
      rw [hhead, ih hkeys (fun f hf => hfs f (List.mem_cons_of_mem _ hf))
        fun g hg => hgs g (List.mem_cons_of_mem _ hg)]

/-- Two sortings are equal when they sort equal fields, and sort them alike. -/
theorem insertionSort_eq_iff {fs gs : List (String × Json)}
    (hkeys : fs.map Prod.fst = gs.map Prod.fst) (hnodup : (gs.map Prod.fst).Nodup) :
    fs.insertionSort phoneLE = Json.sortFields gs ↔
      fs = gs ∧ ∀ f ∈ gs, ∀ g ∈ gs, f.1 ≤ g.1 → utf16 f.1 ≤ utf16 g.1 := by
  have hsorted : (Json.sortFields gs).Pairwise Json.fieldLE :=
    List.pairwise_insertionSort Json.fieldLE gs
  have hmem : ∀ {f}, f ∈ Json.sortFields gs ↔ f ∈ gs := (Json.sortFields_perm gs).mem_iff
  constructor
  · intro h
    have hperm : fs.Perm gs :=
      (List.perm_insertionSort phoneLE fs).symm.trans (h ▸ Json.sortFields_perm gs)
    refine ⟨fields_eq_of_keys hkeys (fun f hf => hperm.mem_iff.mp hf) (fun _ hg => hg) hnodup,
      fun f hf g hg hle => ?_⟩
    have hphone : (Json.sortFields gs).Pairwise phoneLE := h ▸ List.pairwise_insertionSort phoneLE fs
    obtain ⟨i, hi, rfl⟩ := List.mem_iff_getElem.mp (hmem.mpr hf)
    obtain ⟨j, hj, rfl⟩ := List.mem_iff_getElem.mp (hmem.mpr hg)
    rcases lt_trichotomy i j with hij | rfl | hij
    · exact List.pairwise_iff_getElem.mp hphone i j hi hj hij
    · exact le_rfl
    · have hge := List.pairwise_iff_getElem.mp hsorted j i hj hi hij
      exact (congrArg utf16 (String.le_antisymm hle hge)).le
  · rintro ⟨rfl, haligned⟩
    refine ((List.perm_insertionSort phoneLE fs).trans
      (Json.sortFields_perm fs).symm).eq_of_pairwise (fun f g hf hg hfg hgf => ?_)
      (List.pairwise_insertionSort phoneLE fs) ?_
    · have hf := (List.perm_insertionSort phoneLE fs).mem_iff.mp hf
      exact List.inj_on_of_nodup_map hnodup hf (hmem.mp hg) (utf16_injective (le_antisymm hfg hgf))
    · exact hsorted.imp_of_mem fun hf hg hle => haligned _ (hmem.mp hf) _ (hmem.mp hg) hle

mutual
theorem phoneCanon_eq_canon_iff : ∀ {x : Json}, Json.Plain x →
    (phoneCanon x = Json.canon x ↔ Aligned x)
  | .null, _ => ⟨fun _ => trivial, fun _ => rfl⟩
  | .bool _, _ => ⟨fun _ => trivial, fun _ => rfl⟩
  | .int _, _ => ⟨fun _ => trivial, fun _ => rfl⟩
  | .float _, h => h.elim
  | .str _, _ => ⟨fun _ => trivial, fun _ => rfl⟩
  | .arr xs, h => by
      rw [phoneCanon, Json.canon, Json.arr.injEq, phoneCanonElements_eq_iff h, Aligned]
  | .obj fs, h => by
      have hkeys : (phoneCanonFields fs).map Prod.fst = (Json.canonFields fs).map Prod.fst := by
        rw [map_fst_phoneCanonFields, Json.map_fst_canonFields]
      have hnodup : ((Json.canonFields fs).map Prod.fst).Nodup := by
        rw [Json.map_fst_canonFields]
        exact h.1
      rw [phoneCanon, Json.canon, Json.obj.injEq, insertionSort_eq_iff hkeys hnodup,
        phoneCanonFields_eq_iff h.2, Aligned, and_comm, canonFields_eq_map]
      simp only [List.forall_mem_map]
theorem phoneCanonElements_eq_iff : ∀ {xs : List Json}, Json.PlainElements xs →
    (phoneCanonElements xs = Json.canonElements xs ↔ AlignedElements xs)
  | [], _ => ⟨fun _ => trivial, fun _ => rfl⟩
  | x :: xs, h => by
      rw [phoneCanonElements, Json.canonElements, List.cons.injEq, phoneCanon_eq_canon_iff h.1,
        phoneCanonElements_eq_iff h.2, AlignedElements]
theorem phoneCanonFields_eq_iff : ∀ {fs : List (String × Json)}, Json.PlainFields fs →
    (phoneCanonFields fs = Json.canonFields fs ↔ AlignedFields fs)
  | [], _ => ⟨fun _ => trivial, fun _ => rfl⟩
  | (k, x) :: fs, h => by
      rw [phoneCanonFields, Json.canonFields, List.cons.injEq, Prod.mk.injEq, eq_self, true_and,
        phoneCanon_eq_canon_iff h.1, phoneCanonFields_eq_iff h.2, AlignedFields]
end

/-! ## The bytes -/

/-- The phone writes every tree without floats, and its bytes determine the tree. They are the
host's exactly when no object has two keys that the two orders put differently. -/
theorem encode_eq_canonicalJson_iff (x : Json) (hx : Json.Plain x) :
    (∃ written, encode x = .ok written) ∧ (encode x = .ok (canonicalJson x) ↔ Aligned x) ∧
      ∀ y, Json.Plain y → encode x = encode y → Json.canon x = Json.canon y := by
  refine ⟨⟨_, encode_plain hx⟩, ?_, fun y hy h => ?_⟩
  · rw [← phoneCanon_eq_canon_iff hx, encode_plain hx, canonicalJson, Json.dumps, Except.ok.injEq]
    constructor
    · intro h
      exact Json.render_injective (proper_phoneCanon hx) hx.proper.canon (encodeUtf8_injective h)
    · intro h
      rw [h]
  · rw [encode_plain hx, encode_plain hy, Except.ok.injEq] at h
    have htree := Json.render_injective (proper_phoneCanon hx) (proper_phoneCanon hy)
      (encodeUtf8_injective h)
    rw [← canon_phoneCanon hx, htree, canon_phoneCanon hy]

/-- One key at the top of the basic plane, and one just beyond it. -/
def sampleKeys : Json :=
  .obj [(String.ofList [Char.ofNat 0xE000], .int 1), (String.ofList [Char.ofNat 0x10000], .int 2)]

theorem encode_eq_canonicalJson_iff_sample :
    (∃ written, encode sampleKeys = .ok written) ∧
      (encode sampleKeys = .ok (canonicalJson sampleKeys) ↔ Aligned sampleKeys) ∧
      ∀ y, Json.Plain y → encode sampleKeys = encode y → Json.canon sampleKeys = Json.canon y :=
  encode_eq_canonicalJson_iff sampleKeys ⟨by decide, trivial, trivial, trivial⟩

/-- The host puts the basic key first, and the phone the other. -/
theorem encode_sampleKeys_ne :
    Json.Plain sampleKeys ∧ encode sampleKeys ≠ .ok (canonicalJson sampleKeys) :=
  ⟨⟨by decide, trivial, trivial, trivial⟩, by decide +kernel⟩

end Phone
end Recto
