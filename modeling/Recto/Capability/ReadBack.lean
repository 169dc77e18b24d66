import Recto.Capability.Jwt
import Recto.Json.RoundTrip

/-!
# A segment read back

What is written as the segment of a token, canonical JSON in base64, is what is
read back from it.
-/

namespace Recto

namespace Json

theorem lookup_canonFields (fs : List (String × Json)) (k : String) :
    (canonFields fs).lookup k = (fs.lookup k).map canon := by
  induction fs with
  | nil => rfl
  | cons f fs ih =>
    obtain ⟨l, x⟩ := f
    simp only [canonFields, List.lookup_cons, ih]
    cases k == l <;> rfl

/-- The canonical form has the same fields. -/
theorem lookup_sortFields_canonFields {fs : List (String × Json)} (h : (fs.map Prod.fst).Nodup)
    (k : String) : (sortFields (canonFields fs)).lookup k = (fs.lookup k).map canon := by
  have hnodup : ((canonFields fs).map Prod.fst).Nodup := by
    rw [map_fst_canonFields]
    exact h
  rw [← lookup_canonFields]
  exact (lookup_eq_of_perm (sortFields_perm _).symm hnodup k).symm

end Json

namespace Capability

/-- An object written as a segment is read back as the reader reads its text. -/
theorem segmentJson_b64u {fields : List (String × Json)} {x : Json}
    (h : Json.parse (Json.dumps (.obj fields)) = some x) :
    segmentJson (chars (b64u (canonicalJson (.obj fields)))) = .ok x := by
  have hraw : unb64uChars (chars (b64u (canonicalJson (.obj fields)))) =
      some (canonicalJson (.obj fields)) := by
    rw [← unb64u_eq]
    exact unb64u_b64u _
  have hhead : ∃ rest, canonicalJson (.obj fields) = 0x7B :: rest := ⟨_, rfl⟩
  have hmark : ¬ [0xEF, 0xBB, 0xBF] <+: canonicalJson (.obj fields) := by
    obtain ⟨rest, hrest⟩ := hhead
    rw [hrest, List.cons_prefix_cons]
    rintro ⟨hne, -⟩
    exact absurd hne (by decide)
  have hload : loadsBytes (canonicalJson (.obj fields)) = .ok x := by
    simp only [loadsBytes, if_neg hmark]
    simp only [canonicalJson, decodeStrict, decodeUtf8_encodeUtf8, if_true, Option.bind_some, h]
  simp only [segmentJson, hraw, hload]

end Capability
end Recto
