import Recto.Ethereum.RlpRoundTrip

/-!
# Which encodings the decoder may accept

A header can be written longer than it has to be: one byte below 0x80 with a
header of its own, a length below 56 in the long form, a length with leading
zeros. The decoder takes all of these, at any depth, and the encoder writes none.
-/

namespace Recto
namespace Rlp

variable {data d header payload post raw : Bytes} {offset start stop n lead : ℕ}

mutual
/-- A decoded item, as an argument of the encoder. -/
def Decoded.toItem : Decoded → Item
  | .bytes data => .bytes data
  | .list items => .list (toItems items)
def toItems : List Decoded → List Item
  | [] => []
  | x :: xs => x.toItem :: toItems xs
end

/-! ## The headers of a buffer -/

def firstAt (data : Bytes) (offset : ℕ) : ℕ := (data.getD offset 0).toNat

/-- Where the payload of the item at `offset` begins and ends, as its header says. -/
def extent (data : Bytes) (offset : ℕ) : ℕ × ℕ :=
  let first := firstAt data offset
  let long (nlen : ℕ) :=
    let start := offset + 1 + nlen
    (start, start + fromBytesBig (slice data (offset + 1) start))
  if first < 0x80 then (offset, offset + 1)
  else if first < 0xB8 then (offset + 1, offset + 1 + (first - 0x80))
  else if first < 0xC0 then long (first - 0xB7)
  else if first < 0xF8 then (offset + 1, offset + 1 + (first - 0xC0))
  else long (first - 0xF7)

def IsList (data : Bytes) (offset : ℕ) : Prop := 0xC0 ≤ firstAt data offset

def IsLong (data : Bytes) (offset : ℕ) : Prop :=
  0xB8 ≤ firstAt data offset ∧ firstAt data offset < 0xC0 ∨ 0xF8 ≤ firstAt data offset

/-- The header at `offset` is no longer than it has to be. -/
def MinimalHeader (data : Bytes) (offset : ℕ) : Prop :=
  (firstAt data offset = 0x81 → 0x80 ≤ firstAt data (offset + 1)) ∧
    (IsLong data offset →
      firstAt data (offset + 1) ≠ 0 ∧ 56 ≤ (extent data offset).2 - (extent data offset).1)

/-- An item begins at `place`, among those that stand from `start` to `stop` or inside them. -/
inductive Begins (data : Bytes) : ℕ → ℕ → ℕ → Prop
  | here {start stop : ℕ} : Begins data start stop start
  | inner {start stop place : ℕ} : IsList data start → (extent data start).1 < (extent data start).2 →
      Begins data (extent data start).1 (extent data start).2 place → Begins data start stop place
  | next {start stop place : ℕ} : (extent data start).2 < stop →
      Begins data (extent data start).2 stop place → Begins data start stop place

def AllMinimal (data : Bytes) (start stop : ℕ) : Prop :=
  ∀ place, Begins data start stop place → MinimalHeader data place

theorem allMinimal_iff :
    AllMinimal data start stop ↔ MinimalHeader data start ∧
      (IsList data start → (extent data start).1 < (extent data start).2 →
        AllMinimal data (extent data start).1 (extent data start).2) ∧
      ((extent data start).2 < stop → AllMinimal data (extent data start).2 stop) := by
  constructor
  · intro h
    exact ⟨h start .here, fun hlist hlt place hplace => h place (.inner hlist hlt hplace),
      fun hlt place hplace => h place (.next hlt hplace)⟩
  · rintro ⟨hhere, hinner, hnext⟩ place hplace
    cases hplace with
    | here => exact hhere
    | inner hlist hlt hplace => exact hinner hlist hlt place hplace
    | next hlt hplace => exact hnext hlt place hplace

/-! ## Big-endian numbers, minimal or not -/

theorem fromBytesBig_lt (raw : Bytes) : fromBytesBig raw < 256 ^ raw.length := by
  induction raw using List.reverseRecOn with
  | nil => simp [fromBytesBig]
  | append_singleton raw b ih =>
    rw [fromBytesBig_concat, List.length_append, List.length_singleton, pow_succ]
    have := b.toNat_lt
    omega

theorem toBytesBig_fromBytesBig (raw : Bytes) : toBytesBig raw.length (fromBytesBig raw) = raw := by
  induction raw using List.reverseRecOn with
  | nil => rfl
  | append_singleton raw b ih =>
    have hb := b.toNat_lt
    have hdiv : (fromBytesBig raw * 256 + b.toNat) / 256 = fromBytesBig raw := by omega
    have hmod : (fromBytesBig raw * 256 + b.toNat) % 256 = b.toNat := by omega
    rw [fromBytesBig_concat, List.length_append, List.length_singleton, toBytesBig, hdiv, hmod, ih]
    simp

theorem fromBytesBig_cons (b : UInt8) (raw : Bytes) :
    fromBytesBig (b :: raw) = b.toNat * 256 ^ raw.length + fromBytesBig raw := by
  induction raw using List.reverseRecOn with
  | nil => simp [fromBytesBig]
  | append_singleton raw c ih =>
    rw [← List.cons_append, fromBytesBig_concat, ih, fromBytesBig_concat, List.length_append,
      List.length_singleton, pow_succ]
    ring

theorem byteLength_le_iff {n k : ℕ} : byteLength n ≤ k ↔ n < 256 ^ k := by
  have hpow : (256 : ℕ) ^ k = 2 ^ (8 * k) := (pow_mul 2 8 k).symm
  have hbits : bitLength n ≤ 8 * k ↔ n < 2 ^ (8 * k) := by
    unfold bitLength
    split_ifs with h
    · simp [h]
    · rw [← Nat.log2_lt h, Nat.lt_iff_add_one_le]
  rw [hpow, ← hbits]
  unfold byteLength
  omega

/-- A number has as few bytes as it can exactly when the first of them is not zero. -/
theorem byteLength_fromBytesBig (b : UInt8) (raw : Bytes) :
    byteLength (fromBytesBig (b :: raw)) = (b :: raw).length ↔ b.toNat ≠ 0 := by
  have hle : byteLength (fromBytesBig (b :: raw)) ≤ (b :: raw).length :=
    byteLength_le_iff.mpr (fromBytesBig_lt _)
  have hless := byteLength_le_iff (n := fromBytesBig (b :: raw)) (k := raw.length)
  have htail := fromBytesBig_lt raw
  rw [fromBytesBig_cons] at hle hless ⊢
  rw [List.length_cons] at hle ⊢
  constructor
  · intro heq hzero
    rw [hzero] at heq hless
    simp only [Nat.zero_mul, Nat.zero_add] at heq hless
    have := hless.mpr htail
    omega
  · intro hpos
    have hlarge : ¬b.toNat * 256 ^ raw.length + fromBytesBig raw < 256 ^ raw.length := by
      have := Nat.le_mul_of_pos_left (256 ^ raw.length) (Nat.pos_of_ne_zero hpos)
      omega
    have := hless.not.mpr hlarge
    omega

/-! ## Headers, minimal or not -/

/-- The header announces `n` bytes, in one of the ways the decoder takes. -/
inductive Headed (lead n : ℕ) : Bytes → Prop
  | short : n < 56 → Headed lead n [UInt8.ofNat (lead + n)]
  | long {raw : Bytes} : 1 ≤ raw.length → raw.length ≤ 8 → n = fromBytesBig raw →
      Headed lead n (UInt8.ofNat (lead + 55 + raw.length) :: raw)

theorem Headed.lt (h : Headed lead n header) : n < 2 ^ 64 := by
  cases h with
  | short hn => omega
  | @long raw _ hle hn =>
    calc n = fromBytesBig raw := hn
      _ < 256 ^ raw.length := fromBytesBig_lt raw
      _ ≤ 256 ^ 8 := Nat.pow_le_pow_right (by norm_num) hle
      _ = 2 ^ 64 := by norm_num

theorem Headed.length_pos (h : Headed lead n header) : 0 < header.length := by
  cases h <;> simp

/-- A header and its payload are found in what they make together. -/
theorem Headed.inj {m : ℕ} {other rest : Bytes} (hlead : lead ≤ 0xC0) (h : Headed lead n header)
    (hother : Headed lead m other) (hpayload : payload.length = n) (hrest : rest.length = m)
    (heq : header ++ payload = other ++ rest) : header = other ∧ payload = rest := by
  have hfirst : ∀ {k l : ℕ}, k < 256 → l < 256 → UInt8.ofNat k = UInt8.ofNat l → k = l := by
    intro k l hk hl hkl
    rw [← toNat_first hk, hkl, toNat_first hl]
  suffices header = other from ⟨this, List.append_cancel_left (this ▸ heq)⟩
  cases h with
  | short hn =>
    cases hother with
    | short hm =>
      have := hfirst (by omega) (by omega) (List.cons.inj heq).1
      rw [show n = m by omega]
    | long hpos hle hm =>
      have := hfirst (by omega) (by omega) (List.cons.inj heq).1
      omega
  | long hpos hle hn =>
    cases hother with
    | short hm =>
      have := hfirst (by omega) (by omega) (List.cons.inj heq).1
      omega
    | long hpos' hle' hm =>
      have hsame := hfirst (by omega) (by omega) (List.cons.inj heq).1
      have := (List.append_inj (List.cons.inj heq).2 (by omega)).1
      rw [this]

/-- A header is the one the encoder writes exactly when it is no longer than it has to be. -/
theorem encodeLength_short (hlead : lead ≤ 0xC0) (hn : n < 56) :
    encodeLength n lead = .ok [UInt8.ofNat (lead + n)] := by
  rw [encodeLength, if_pos hn, oneByte, if_pos (by omega)]

theorem encodeLength_long_iff {b : UInt8} (hlead : lead ≤ 0xC0) (hle : (b :: raw).length ≤ 8) :
    encodeLength (fromBytesBig (b :: raw)) lead =
        .ok (UInt8.ofNat (lead + 55 + (b :: raw).length) :: b :: raw) ↔
      b.toNat ≠ 0 ∧ 56 ≤ fromBytesBig (b :: raw) := by
  have hbytes := toBytesBig_fromBytesBig (b :: raw)
  have hbound : byteLength (fromBytesBig (b :: raw)) ≤ (b :: raw).length :=
    byteLength_le_iff.mpr (fromBytesBig_lt _)
  rw [← byteLength_fromBytesBig b raw]
  generalize fromBytesBig (b :: raw) = n at hbytes hbound ⊢
  by_cases hn : n < 56
  · have hshort := encodeLength_short hlead hn
    constructor
    · intro h
      rw [hshort] at h
      simp at h
    · omega
  · simp only [encodeLength, if_neg hn, oneByte,
      if_pos (show lead + 55 + byteLength n < 256 by omega)]
    constructor
    · intro h
      have hlength := congrArg List.length (Except.ok.inj h)
      exact ⟨by simpa using hlength, by omega⟩
    · rintro ⟨hlength, -⟩
      rw [hlength, hbytes]
      rfl

/-! ## What the decoder has read -/

theorem drop_eq_slice (h : start ≤ stop) : data.drop start = slice data start stop ++ data.drop stop := by
  have hstop : stop = start + (stop - start) := by omega
  conv_rhs => rw [hstop, ← List.drop_drop]
  rw [slice, ← hstop, List.take_append_drop]

theorem length_slice (h : stop ≤ data.length) : (slice data start stop).length = stop - start := by
  rw [slice, List.length_take, List.length_drop]
  omega

theorem eq_ofNat_of_toNat {b : UInt8} (h : b.toNat = n) : b = UInt8.ofNat n := by
  rw [← h]
  simp

/-- A short header and what it announces. -/
theorem split_short (hlt : offset < data.length)
    (hfirst : data[offset].toNat = lead + n) (hn : n < 56) (hstop : offset + 1 + n ≤ data.length) :
    ∃ header d post, Headed lead d.length header ∧ data.drop offset = header ++ (d ++ post) ∧
      header.length = 1 ∧ d.length = n ∧ d = slice data (offset + 1) (offset + 1 + n) := by
  have hlength : (slice data (offset + 1) (offset + 1 + n)).length = n := by
    rw [length_slice hstop]
    omega
  refine ⟨[UInt8.ofNat (lead + n)], slice data (offset + 1) (offset + 1 + n),
    data.drop (offset + 1 + n), ?_, ?_, rfl, hlength, rfl⟩
  · rw [hlength]
    exact .short hn
  · rw [List.drop_eq_getElem_cons hlt, eq_ofNat_of_toNat hfirst,
      drop_eq_slice (show offset + 1 ≤ offset + 1 + n by omega)]
    rfl

/-- A long header and what it announces. -/
theorem split_long {nlen : ℕ} (hlt : offset < data.length)
    (hfirst : data[offset].toNat = lead + 55 + nlen) (hpos : 1 ≤ nlen) (hle : nlen ≤ 8)
    (hstart : offset + 1 + nlen ≤ data.length)
    (hn : n = fromBytesBig (slice data (offset + 1) (offset + 1 + nlen)))
    (hstop : offset + 1 + nlen + n ≤ data.length) :
    ∃ header d post, Headed lead d.length header ∧ data.drop offset = header ++ (d ++ post) ∧
      header.length = 1 + nlen ∧ d.length = n ∧
      d = slice data (offset + 1 + nlen) (offset + 1 + nlen + n) := by
  have hlength : (slice data (offset + 1 + nlen) (offset + 1 + nlen + n)).length = n := by
    rw [length_slice hstop]
    omega
  have hraw : (slice data (offset + 1) (offset + 1 + nlen)).length = nlen := by
    rw [length_slice hstart]
    omega
  refine ⟨UInt8.ofNat (lead + 55 + nlen) :: slice data (offset + 1) (offset + 1 + nlen),
    slice data (offset + 1 + nlen) (offset + 1 + nlen + n), data.drop (offset + 1 + nlen + n), ?_, ?_,
    ?_, hlength, rfl⟩
  · rw [hlength]
    conv in UInt8.ofNat _ => rw [← hraw]
    exact .long (by omega) (by omega) hn
  · rw [List.drop_eq_getElem_cons hlt, eq_ofNat_of_toNat hfirst,
      drop_eq_slice (show offset + 1 ≤ offset + 1 + nlen by omega),
      drop_eq_slice (show offset + 1 + nlen ≤ offset + 1 + nlen + n by omega)]
    rfl
  · rw [List.length_cons, hraw, Nat.add_comm]

/-- What stands at the offset of an item that is decoded. -/
theorem of_decodeOne {item : Decoded} {after : After data offset}
    (h : decodeOne data offset = .ok (item, after)) :
    (∃ b post, b.toNat < 0x80 ∧ data.drop offset = b :: post ∧ item = .bytes [b] ∧
        after.1 = offset + 1) ∨
      (∃ header d post, Headed 0x80 d.length header ∧ data.drop offset = header ++ (d ++ post) ∧
        item = .bytes d ∧ after.1 = offset + header.length + d.length) ∨
      ∃ header payload post items, Headed 0xC0 payload.length header ∧
        data.drop offset = header ++ (payload ++ post) ∧
        decodeList data (offset + header.length) (offset + header.length + payload.length) =
          .ok items ∧ item = .list items ∧ after.1 = offset + header.length + payload.length := by
  rw [decodeOne] at h
  split at h
  case isFalse => cases h
  rename_i hlt
  have hbyte : data[offset].toNat < 256 := data[offset].toNat_lt
  simp only at h
  split_ifs at h with h1 h2 h3 h4 h5 h6 h7 h8 h9 h10
  · obtain ⟨rfl, rfl⟩ := Prod.mk.inj (Except.ok.inj h)
    exact Or.inl ⟨_, _, h1, List.drop_eq_getElem_cons hlt, rfl, rfl⟩
  · obtain ⟨rfl, rfl⟩ := Prod.mk.inj (Except.ok.inj h)
    obtain ⟨header, d, post, hheaded, hdrop, hone, hlength, hd⟩ := split_short hlt
      (show data[offset].toNat = 0x80 + (data[offset].toNat - 0x80) by omega) (by omega) (by omega)
    exact Or.inr (Or.inl ⟨header, d, post, hheaded, hdrop, by rw [hd], by rw [hone, hlength]⟩)
  · obtain ⟨rfl, rfl⟩ := Prod.mk.inj (Except.ok.inj h)
    obtain ⟨header, d, post, hheaded, hdrop, hone, hlength, hd⟩ := split_long hlt
      (show data[offset].toNat = 0x80 + 55 + (data[offset].toNat - 0xB7) by omega) (by omega)
      (by omega) (by omega) rfl (by omega)
    exact Or.inr (Or.inl ⟨header, d, post, hheaded, hdrop, by rw [hd],
      by rw [hone, hlength, ← Nat.add_assoc]⟩)
  · split at h
    · cases h
    rename_i items hitems
    obtain ⟨rfl, rfl⟩ := Prod.mk.inj (Except.ok.inj h)
    obtain ⟨header, d, post, hheaded, hdrop, hone, hlength, -⟩ := split_short hlt
      (show data[offset].toNat = 0xC0 + (data[offset].toNat - 0xC0) by omega) (by omega) (by omega)
    exact Or.inr (Or.inr ⟨header, d, post, items, hheaded, hdrop, by rw [hone, hlength, hitems], rfl,
      by rw [hone, hlength]⟩)
  · split at h
    · cases h
    rename_i items hitems
    obtain ⟨rfl, rfl⟩ := Prod.mk.inj (Except.ok.inj h)
    obtain ⟨header, d, post, hheaded, hdrop, hone, hlength, -⟩ := split_long hlt
      (show data[offset].toNat = 0xC0 + 55 + (data[offset].toNat - 0xF7) by omega) (by omega)
      (by omega) (by omega) rfl (by omega)
    exact Or.inr (Or.inr ⟨header, d, post, items, hheaded, hdrop,
      by rw [hone, hlength, ← Nat.add_assoc, hitems], rfl, by rw [hone, hlength, ← Nat.add_assoc]⟩)

theorem decodeList_le {items : List Decoded} (h : decodeList data start stop = .ok items) :
    start ≤ stop := by
  by_contra hlt
  rw [decodeList, if_neg (by omega), if_pos (by omega)] at h
  cases h

/-! ## The headers of what was read -/

theorem firstAt_add (data : Bytes) (offset k : ℕ) :
    firstAt data (offset + k) = ((data.drop offset).getD k 0).toNat := by
  rw [firstAt, List.getD_eq_getElem?_getD, List.getD_eq_getElem?_getD, List.getElem?_drop]

theorem firstAt_of_drop {b : UInt8} {rest : Bytes} (h : data.drop offset = b :: rest) :
    firstAt data offset = b.toNat ∧ firstAt data (offset + 1) = (rest.getD 0 0).toNat := by
  have hzero := firstAt_add data offset 0
  have hone := firstAt_add data offset 1
  rw [h] at hzero hone
  exact ⟨hzero, hone⟩

theorem extent_eq (hlead : lead = 0x80 ∨ lead = 0xC0) (h : Headed lead d.length header)
    (hdrop : data.drop offset = header ++ (d ++ post)) :
    extent data offset = (offset + header.length, offset + header.length + d.length) ∧
      (IsList data offset ↔ lead = 0xC0) := by
  cases h with
  | short hn =>
    obtain ⟨hfirst, -⟩ := firstAt_of_drop hdrop
    rw [toNat_first (by omega)] at hfirst
    simp only [extent, IsList, hfirst, List.length_singleton]
    rcases hlead with rfl | rfl
    · refine ⟨?_, by omega⟩
      rw [if_neg (by omega), if_pos (by omega), Nat.add_sub_cancel_left]
    · refine ⟨?_, by omega⟩
      rw [if_neg (by omega), if_neg (by omega), if_neg (by omega), if_pos (by omega),
        Nat.add_sub_cancel_left]
  | @long raw hpos hle hn =>
    obtain ⟨hfirst, -⟩ := firstAt_of_drop hdrop
    rw [toNat_first (by omega)] at hfirst
    obtain ⟨-, -, hrest⟩ := drop_cons hdrop
    have hraw : slice data (offset + 1) (offset + 1 + raw.length) = raw := slice_eq hrest
    simp only [extent, IsList, hfirst, List.length_cons]
    rcases hlead with rfl | rfl
    · have hsub : 0x80 + 55 + raw.length - 0xB7 = raw.length := by omega
      refine ⟨?_, by omega⟩
      rw [if_neg (by omega), if_neg (by omega), if_pos (by omega), hsub, hraw, ← hn,
        Nat.add_comm raw.length 1, ← Nat.add_assoc]
    · have hsub : 0xC0 + 55 + raw.length - 0xF7 = raw.length := by omega
      refine ⟨?_, by omega⟩
      rw [if_neg (by omega), if_neg (by omega), if_neg (by omega), if_neg (by omega), hsub, hraw,
        ← hn, Nat.add_comm raw.length 1, ← Nat.add_assoc]

/-- A header is minimal exactly when the encoder writes it, and no byte below 0x80 is under it. -/
theorem minimalHeader_iff (hlead : lead = 0x80 ∨ lead = 0xC0) (h : Headed lead d.length header)
    (hdrop : data.drop offset = header ++ (d ++ post)) :
    MinimalHeader data offset ↔ (lead = 0x80 → ∀ b, d = [b] → 0x80 ≤ b.toNat) ∧
      encodeLength d.length lead = .ok header := by
  have hextent := (extent_eq hlead h hdrop).1
  have hle : lead ≤ 0xC0 := by omega
  unfold MinimalHeader IsLong
  rw [hextent, Nat.add_sub_cancel_left]
  cases h with
  | short hn =>
    obtain ⟨hfirst, hnext⟩ := firstAt_of_drop hdrop
    rw [toNat_first (by omega)] at hfirst
    rw [hfirst, hnext]
    simp only [encodeLength_short hle hn, and_true]
    constructor
    · rintro ⟨hwrapped, -⟩ rfl b rfl
      simpa using hwrapped rfl
    · intro hwrapped
      refine ⟨fun hone => ?_, fun hlong => by omega⟩
      have hsingle : d.length = 1 := by omega
      obtain ⟨b, rfl⟩ := List.length_eq_one_iff.mp hsingle
      simpa using hwrapped (by omega) b rfl
  | @long raw hpos hbytes hn =>
    obtain ⟨hfirst, hnext⟩ := firstAt_of_drop hdrop
    rw [toNat_first (by omega)] at hfirst
    obtain ⟨b, raw, rfl⟩ := List.exists_cons_of_length_pos (show 0 < raw.length by omega)
    have hiff := encodeLength_long_iff hle hbytes
    rw [← hn] at hiff
    rw [hfirst, hnext, hiff]
    constructor
    · rintro ⟨-, hlong⟩
      obtain ⟨hzero, hlarge⟩ := hlong (by simp only [List.length_cons] at hbytes ⊢; omega)
      refine ⟨fun _ c hc => ?_, by simpa using hzero, hlarge⟩
      simp [hc] at hlarge
    · rintro ⟨-, hzero, hlarge⟩
      refine ⟨fun hone => ?_, fun _ => ⟨by simpa using hzero, hlarge⟩⟩
      simp only [List.length_cons] at hone
      omega

/-! ## Items -/

theorem encodeString_iff (h : Headed 0x80 d.length header) :
    encodeString d = .ok (header ++ d) ↔
      (∀ b, d = [b] → 0x80 ≤ b.toNat) ∧ encodeLength d.length 0x80 = .ok header := by
  have hheaded : ((encodeLength d.length 0x80).bind fun first => .ok (first ++ d)) =
      .ok (header ++ d) ↔ encodeLength d.length 0x80 = .ok header := by
    cases encodeLength d.length 0x80 with
    | error e => simp [Except.bind]
    | ok first => simp [Except.bind]
  unfold encodeString
  split
  · rename_i b
    by_cases hsmall : b.toNat < 0x80
    · rw [if_pos hsmall]
      constructor
      · intro heq
        have hlength := congrArg List.length (Except.ok.inj heq)
        have := h.length_pos
        simp only [List.length_append, List.length_singleton] at hlength
        omega
      · rintro ⟨hlarge, -⟩
        have := hlarge b rfl
        omega
    · rw [if_neg hsmall]
      refine hheaded.trans ⟨fun heq => ⟨?_, heq⟩, fun heq => heq.2⟩
      rintro c hc
      rw [← (List.cons.inj hc).1]
      omega
  · rename_i hsingle
    exact hheaded.trans ⟨fun heq => ⟨fun b hb => absurd hb (hsingle b), heq⟩, fun heq => heq.2⟩

mutual
theorem decoded_toItem : ∀ item : Decoded, item.toItem.decoded = item
  | .bytes data => rfl
  | .list items => by rw [Decoded.toItem, Item.decoded, decodedAll_toItems items]
theorem decodedAll_toItems : ∀ items : List Decoded, decodedAll (toItems items) = items
  | [] => rfl
  | x :: xs => by rw [toItems, decodedAll, decoded_toItem x, decodedAll_toItems xs]
end

theorem slice_append {middle : ℕ} (h : start ≤ middle) (h' : middle ≤ stop) :
    slice data start stop = slice data start middle ++ slice data middle stop := by
  have hsum : stop - start = (middle - start) + (stop - middle) := by omega
  rw [slice, hsum, List.take_add, List.drop_drop, show start + (middle - start) = middle by omega]
  rfl

/-- The extent of a decoded item ends where the item does. -/
theorem extent_snd {item : Decoded} {after : After data offset}
    (h : decodeOne data offset = .ok (item, after)) : (extent data offset).2 = after.1 := by
  rcases of_decodeOne h with ⟨b, post, hb, hdrop, -, hstop⟩ |
      ⟨header, d, post, hheaded, hdrop, -, hstop⟩ |
      ⟨header, payload, post, items, hheaded, hdrop, -, -, hstop⟩
  · obtain ⟨hfirst, -⟩ := firstAt_of_drop hdrop
    rw [hstop, extent, hfirst]
    simp only [if_pos hb]
  · rw [hstop, (extent_eq (Or.inl rfl) hheaded hdrop).1]
  · rw [hstop, (extent_eq (Or.inr rfl) hheaded hdrop).1]

/-- The items of a run are minimal when the first is and those after it are. -/
theorem allMinimal_cons {item : Decoded} {after : After data start}
    (h : decodeOne data start = .ok (item, after)) :
    AllMinimal data start stop ↔ AllMinimal data start after.1 ∧
      (after.1 < stop → AllMinimal data after.1 stop) := by
  rw [allMinimal_iff, @allMinimal_iff _ _ after.1, extent_snd h]
  constructor
  · rintro ⟨hhere, hinner, hnext⟩
    exact ⟨⟨hhere, hinner, fun hlt => absurd hlt (lt_irrefl _)⟩, hnext⟩
  · rintro ⟨⟨hhere, hinner, -⟩, hnext⟩
    exact ⟨hhere, hinner, hnext⟩

/-- The encoder's headers are among those the decoder takes. -/
theorem encodeLength_headed (h : encodeLength n 0xC0 = .ok header) : Headed 0xC0 n header := by
  have hsize : n < 2 ^ 64 := by
    by_contra hlarge
    have hbytes : ¬byteLength n ≤ 8 := by
      rw [byteLength_le_iff]
      norm_num at hlarge ⊢
      exact hlarge
    simp only [encodeLength, if_neg (show ¬n < 56 by omega), oneByte,
      if_neg (show ¬0xC0 + 55 + byteLength n < 256 by omega)] at h
    cases h
  rcases encodeLength_eq_ok le_rfl hsize h with ⟨hshort, rfl⟩ | ⟨nbytes, hpos, hle, hfits, rfl⟩
  · exact .short hshort
  · have hlength := length_toBytesBig nbytes n
    conv in UInt8.ofNat _ => rw [← hlength]
    exact .long (by omega) (by omega) (fromBytesBig_toBytesBig hfits).symm

/-- What a header and its payload are in the buffer. -/
theorem slice_headed (hdrop : data.drop offset = header ++ (d ++ post)) :
    slice data offset (offset + header.length + d.length) = header ++ d ∧
      slice data (offset + header.length) (offset + header.length + d.length) = d := by
  have hwhole : data.drop offset = (header ++ d) ++ post := by rw [hdrop, List.append_assoc]
  refine ⟨?_, slice_eq (drop_add hdrop)⟩
  have hslice := slice_eq hwhole
  rwa [List.length_append, ← Nat.add_assoc] at hslice

theorem encode_bytes_iff {after : After data offset}
    (h : decodeOne data offset = .ok (.bytes d, after)) :
    encodeString d = .ok (slice data offset after.1) ↔ AllMinimal data offset after.1 := by
  have hleaf : ¬IsList data offset →
      (AllMinimal data offset after.1 ↔ MinimalHeader data offset) := by
    intro hlist
    rw [allMinimal_iff, extent_snd h]
    simp [hlist]
  rcases of_decodeOne h with ⟨b, post, hb, hdrop, hitem, hstop⟩ |
      ⟨header, d', post, hheaded, hdrop, hitem, hstop⟩ |
      ⟨header, payload, post, items, -, -, -, hitem, -⟩
  · obtain rfl := Decoded.bytes.inj hitem
    obtain ⟨hfirst, -⟩ := firstAt_of_drop hdrop
    have hslice : slice data offset after.1 = [b] := by
      rw [hstop]
      exact slice_eq (d := [b]) hdrop
    rw [hleaf (by unfold IsList; omega), hslice]
    simp only [encodeString, if_pos hb, true_iff]
    unfold MinimalHeader IsLong
    exact ⟨fun _ => by omega, fun _ => by omega⟩
  · obtain rfl := Decoded.bytes.inj hitem
    have hlist := (extent_eq (Or.inl rfl) hheaded hdrop).2
    rw [hleaf (by rw [hlist]; omega), hstop, (slice_headed hdrop).1, encodeString_iff hheaded,
      minimalHeader_iff (Or.inl rfl) hheaded hdrop]
    simp
  · cases hitem

theorem encode_list_iff {items : List Decoded} {encoded : Except EncodeError Bytes}
    {after : After data offset} (h : decodeOne data offset = .ok (.list items, after))
    (hencoded : ∀ start stop, decodeList data start stop = .ok items → stop < start + 2 ^ 64 →
      (encoded = .ok (slice data start stop) ↔ (start < stop → AllMinimal data start stop))) :
    (do let encoded ← encoded; pure ((← encodeLength encoded.length 0xC0) ++ encoded)) =
        Except.ok (slice data offset after.1) ↔ AllMinimal data offset after.1 := by
  rcases of_decodeOne h with ⟨b, post, -, -, hitem, -⟩ | ⟨header, d, post, -, -, hitem, -⟩ |
      ⟨header, payload, post, items, hheaded, hdrop, hitems, hitem, hstop⟩
  · cases hitem
  · cases hitem
  obtain rfl := Decoded.list.inj hitem
  obtain ⟨hextent, hlist⟩ := extent_eq (Or.inr rfl) hheaded hdrop
  obtain ⟨hwhole, hpayload⟩ := slice_headed hdrop
  have hiff := hencoded _ _ hitems (by have := hheaded.lt; omega)
  have hminimal := minimalHeader_iff (Or.inr rfl) hheaded hdrop
  rw [hpayload] at hiff
  rw [allMinimal_iff, hextent, hlist, hstop, hwhole, hminimal]
  simp only [true_imp_iff, lt_irrefl, false_imp_iff, and_true]
  rw [← hiff]
  constructor
  · intro heq
    obtain ⟨body, hbody, heq⟩ := Except.bind_eq_ok.mp heq
    obtain ⟨first, hfirst, heq⟩ := Except.bind_eq_ok.mp heq
    obtain ⟨rfl, rfl⟩ := (encodeLength_headed hfirst).inj le_rfl hheaded rfl rfl
      (Except.pure_eq_ok.mp heq)
    exact ⟨⟨fun hlead => by omega, hfirst⟩, hbody⟩
  · rintro ⟨⟨-, hfirst⟩, rfl⟩
    exact Except.bind_eq_ok.mpr ⟨_, rfl, Except.bind_eq_ok.mpr ⟨_, hfirst, rfl⟩⟩

mutual
/-- A decoded item is encoded to what it was read from exactly when all headers there are minimal. -/
theorem encode_toItem_iff : ∀ (item : Decoded) {data : Bytes} {offset : ℕ}
    {after : After data offset}, decodeOne data offset = .ok (item, after) →
      (encode item.toItem = .ok (slice data offset after.1) ↔ AllMinimal data offset after.1)
  | .bytes d, data, offset, after, h => by
    rw [Decoded.toItem, encode]
    exact encode_bytes_iff h
  | .list items, data, offset, after, h => by
    rw [Decoded.toItem, encode]
    exact encode_list_iff h fun start stop hitems hsize => encodeAll_toItems_iff items hitems hsize
theorem encodeAll_toItems_iff : ∀ (items : List Decoded) {data : Bytes} {start stop : ℕ},
    decodeList data start stop = .ok items → stop < start + 2 ^ 64 →
      (encodeAll (toItems items) = .ok (slice data start stop) ↔
        (start < stop → AllMinimal data start stop))
  | [], data, start, stop, h, hsize => by
    have hdone : ¬start < stop := by
      intro hlt
      rw [decodeList, if_pos hlt] at h
      split at h
      · cases h
      · split at h <;> cases h
    have hslice : slice data start stop = [] := by
      rw [slice, show stop - start = 0 by omega, List.take_zero]
    rw [toItems, encodeAll, hslice]
    simp [hdone]
  | x :: xs, data, start, stop, h, hsize => by
    rw [decodeList] at h
    by_cases hlt : start < stop
    case neg =>
      rw [if_neg hlt] at h
      split_ifs at h
      cases Except.ok.inj h
    rw [if_pos hlt] at h
    split at h
    · cases h
    rename_i item cursor hcursor hone
    split at h
    · cases h
    rename_i items hrest
    obtain ⟨rfl, rfl⟩ := List.cons.inj (Except.ok.inj h)
    have hle := decodeList_le hrest
    have hx := encode_toItem_iff item hone
    have hxs := encodeAll_toItems_iff items hrest (by omega)
    have hsplit := @slice_append data _ _ _ hcursor.1.le hle
    have hcons := @allMinimal_cons _ _ stop _ _ hone
    rw [hcons, toItems, encodeAll]
    simp only [hlt, true_imp_iff]
    rw [← hx, ← hxs]
    constructor
    · intro heq
      obtain ⟨first, hfirst, heq⟩ := Except.bind_eq_ok.mp heq
      obtain ⟨rest, hrest', heq⟩ := Except.bind_eq_ok.mp heq
      have hjoin : first ++ rest = slice data start stop := Except.pure_eq_ok.mp heq
      have hdrop : data.drop start = first ++ (rest ++ data.drop stop) := by
        rw [drop_eq_slice hlt.le, ← hjoin, List.append_assoc]
      have hshort : first.length < 2 ^ 64 := by
        have hlength := congrArg List.length hjoin
        rw [List.length_append, slice, List.length_take] at hlength
        omega
      -- The encoding is read as the item again, so it ends where the item did.
      obtain ⟨hstop, hread⟩ := decodeOne_encode item.toItem hfirst hshort hdrop
      rw [hone] at hread
      have hend : cursor = start + first.length :=
        congrArg (fun r : Decoded × After data start => r.2.1) (Except.ok.inj hread)
      have hhere : slice data start cursor = first := by
        rw [hend]
        exact slice_eq hdrop
      rw [hsplit, hhere] at hjoin
      exact ⟨by rw [hhere, hfirst], by rw [hrest', List.append_cancel_left hjoin]⟩
    · rintro ⟨hfirst, hrest'⟩
      rw [hsplit]
      exact Except.bind_eq_ok.mpr ⟨_, hfirst, Except.bind_eq_ok.mpr ⟨_, hrest', rfl⟩⟩
end

end Rlp
end Recto
