import Recto.Data.Checked
import Recto.Ethereum.Rlp

/-!
# RLP read back

Decoding an encoding gives the item and consumes the encoding, whatever follows
it in the buffer. The induction over the item carries the offset: an inner item
is read from the buffer of the outermost one. An encoding says its own length
first, so that a truncation is refused wherever it cuts.
-/

namespace Recto
namespace Rlp

variable {data d enc header payload post : Bytes} {offset length : ℕ}

/-! ## Numbers -/

@[simp] theorem length_toBytesBig (size n : ℕ) : (toBytesBig size n).length = size := by
  induction size generalizing n with
  | zero => rfl
  | succ size ih => simp [toBytesBig, ih]

theorem fromBytesBig_concat (raw : Bytes) (b : UInt8) :
    fromBytesBig (raw ++ [b]) = fromBytesBig raw * 256 + b.toNat := by
  simp [fromBytesBig]

theorem fromBytesBig_toBytesBig {size n : ℕ} (h : n < 256 ^ size) :
    fromBytesBig (toBytesBig size n) = n := by
  induction size generalizing n with
  | zero =>
    simp only [pow_zero, Nat.lt_one_iff] at h
    subst h
    rfl
  | succ size ih =>
    have hdiv : n / 256 < 256 ^ size := by
      rw [pow_succ] at h
      exact Nat.div_lt_of_lt_mul (by omega)
    rw [toBytesBig, fromBytesBig_concat, ih hdiv, toNat_ofNat_small (Nat.mod_lt _ (by omega))]
    omega

theorem lt_pow_byteLength (n : ℕ) : n < 256 ^ byteLength n := by
  have hbits : n < 2 ^ bitLength n := by
    unfold bitLength
    split_ifs with h
    · simp [h]
    · exact Nat.lt_log2_self
  have hle : bitLength n ≤ 8 * byteLength n := by
    unfold byteLength
    omega
  calc n < 2 ^ bitLength n := hbits
    _ ≤ 2 ^ (8 * byteLength n) := Nat.pow_le_pow_right (by omega) hle
    _ = 256 ^ byteLength n := pow_mul 2 8 _

theorem byteLength_pos {n : ℕ} (h : n ≠ 0) : 1 ≤ byteLength n := by
  simp only [byteLength, bitLength, if_neg h]
  omega

theorem byteLength_le_eight {n : ℕ} (h : n < 2 ^ 64) : byteLength n ≤ 8 := by
  have hbits : bitLength n ≤ 64 := by
    unfold bitLength
    split_ifs with hn
    · omega
    · have := (Nat.log2_lt hn).mpr h
      omega
  unfold byteLength
  omega

/-! ## Headers -/

/-- How a length below `2 ^ 64` is written before its payload. -/
theorem encodeLength_eq_ok (hoffset : offset ≤ 0xC0) (hlength : length < 2 ^ 64)
    (h : encodeLength length offset = .ok header) :
    (length < 56 ∧ header = [UInt8.ofNat (offset + length)]) ∨
      ∃ nbytes, 1 ≤ nbytes ∧ nbytes ≤ 8 ∧ length < 256 ^ nbytes ∧
        header = UInt8.ofNat (offset + 55 + nbytes) :: toBytesBig nbytes length := by
  have hnbytes := byteLength_le_eight hlength
  unfold encodeLength at h
  split_ifs at h with hshort
  · rw [oneByte, if_pos (by omega)] at h
    exact Or.inl ⟨hshort, (Except.ok.inj h).symm⟩
  · simp only [oneByte, if_pos (show offset + 55 + byteLength length < 256 by omega)] at h
    exact Or.inr ⟨byteLength length, byteLength_pos (by omega), hnbytes, lt_pow_byteLength length,
      (Except.ok.inj h).symm⟩

/-- The first byte of a header, as a number. -/
theorem toNat_first {n : ℕ} (h : n < 256) : (UInt8.ofNat n).toNat = n := toNat_ofNat_small h

/-! ## The buffer -/

theorem drop_cons {b : UInt8} {rest : Bytes} (h : data.drop offset = b :: rest) :
    ∃ hlt : offset < data.length, data[offset] = b ∧ data.drop (offset + 1) = rest := by
  have hlt : offset < data.length := by
    by_contra hge
    rw [List.drop_eq_nil_of_le (by omega)] at h
    simp at h
  rw [List.drop_eq_getElem_cons hlt] at h
  exact ⟨hlt, (List.cons.inj h).1, (List.cons.inj h).2⟩

theorem drop_add (h : data.drop offset = d ++ post) : data.drop (offset + d.length) = post := by
  rw [← List.drop_drop, h, List.drop_left]

theorem slice_eq (h : data.drop offset = d ++ post) :
    slice data offset (offset + d.length) = d := by
  rw [slice, h, Nat.add_sub_cancel_left, List.take_left]

/-! ## Strings -/

theorem decodeOne_short (hlength : d.length < 56)
    (hdrop : data.drop offset = UInt8.ofNat (0x80 + d.length) :: (d ++ post)) :
    ∃ h, decodeOne data offset = .ok (.bytes d, ⟨offset + 1 + d.length, h⟩) := by
  obtain ⟨hlt, hfirst, hrest⟩ := drop_cons hdrop
  have hstop : offset + 1 + d.length ≤ data.length := by
    have := congrArg List.length hdrop
    simp only [List.length_drop, List.length_cons, List.length_append] at this
    omega
  refine ⟨by omega, ?_⟩
  have hsub : 0x80 + d.length - 0x80 = d.length := by omega
  rw [decodeOne, dif_pos hlt]
  simp only [hfirst, toNat_first (show 0x80 + d.length < 256 by omega)]
  rw [if_neg (by omega), if_pos (by omega)]
  simp only [hsub]
  rw [if_neg (by omega), slice_eq hrest]

theorem decodeOne_long {nbytes : ℕ} (hpos : 1 ≤ nbytes) (hle : nbytes ≤ 8)
    (hlength : d.length < 256 ^ nbytes)
    (hdrop : data.drop offset =
      UInt8.ofNat (0x80 + 55 + nbytes) :: (toBytesBig nbytes d.length ++ (d ++ post))) :
    ∃ h, decodeOne data offset = .ok (.bytes d, ⟨offset + 1 + nbytes + d.length, h⟩) := by
  obtain ⟨hlt, hfirst, hrest⟩ := drop_cons hdrop
  have hstop : offset + 1 + nbytes + d.length ≤ data.length := by
    have := congrArg List.length hdrop
    simp only [List.length_drop, List.length_cons, List.length_append, length_toBytesBig] at this
    omega
  refine ⟨by omega, ?_⟩
  have hsub : 0x80 + 55 + nbytes - 0xB7 = nbytes := by omega
  have hsize : slice data (offset + 1) (offset + 1 + nbytes) = toBytesBig nbytes d.length := by
    simpa using slice_eq hrest
  have hbody : data.drop (offset + 1 + nbytes) = d ++ post := by simpa using drop_add hrest
  rw [decodeOne, dif_pos hlt]
  simp only [hfirst, toNat_first (show 0x80 + 55 + nbytes < 256 by omega)]
  rw [if_neg (by omega), if_neg (by omega), if_pos (by omega)]
  simp only [hsub, hsize, fromBytesBig_toBytesBig hlength]
  rw [if_neg (by omega), if_neg (by omega), slice_eq hbody]

theorem decodeOne_string (hlength : d.length < 2 ^ 64) (h : encodeString d = .ok enc)
    (hdrop : data.drop offset = enc ++ post) :
    ∃ h, decodeOne data offset = .ok (.bytes d, ⟨offset + enc.length, h⟩) := by
  have hheaded : ∀ header, encodeLength d.length 0x80 = .ok header → enc = header ++ d →
      ∃ h, decodeOne data offset = .ok (.bytes d, ⟨offset + enc.length, h⟩) := by
    rintro header hheader rfl
    rcases encodeLength_eq_ok (by omega) hlength hheader with
      ⟨hshort, rfl⟩ | ⟨nbytes, hpos, hle, hfits, rfl⟩
    · have hhere : data.drop offset = UInt8.ofNat (0x80 + d.length) :: (d ++ post) := by
        simpa using hdrop
      have hread := decodeOne_short hshort hhere
      simpa [Nat.add_assoc, Nat.add_comm 1] using hread
    · have hhere : data.drop offset =
          UInt8.ofNat (0x80 + 55 + nbytes) :: (toBytesBig nbytes d.length ++ (d ++ post)) := by
        simpa using hdrop
      have hread := decodeOne_long hpos hle hfits hhere
      simpa [Nat.add_assoc, Nat.add_comm, Nat.add_left_comm] using hread
  have hsplit : ∀ data' : Bytes, data' = d → (do pure ((← encodeLength d.length 0x80) ++ data') :
      Except EncodeError Bytes) = .ok enc →
      ∃ h, decodeOne data offset = .ok (.bytes d, ⟨offset + enc.length, h⟩) := by
    rintro data' rfl hdo
    obtain ⟨header, hheader, henc⟩ := Except.bind_eq_ok.mp hdo
    exact hheaded header hheader (Except.pure_eq_ok.mp henc).symm
  unfold encodeString at h
  split at h
  · rename_i b
    split_ifs at h with hsmall
    · -- A byte below 0x80 stands for itself.
      obtain rfl := Except.ok.inj h
      obtain ⟨hlt, hfirst, -⟩ := drop_cons hdrop
      refine ⟨⟨by simp, hlt⟩, ?_⟩
      rw [decodeOne, dif_pos hlt]
      simp only [hfirst, if_pos hsmall, List.length_singleton]
    · exact hsplit _ rfl h
  · exact hsplit _ rfl h

/-! ## Lists -/

theorem decodeOne_list {items : List Decoded} (hlength : payload.length < 2 ^ 64)
    (h : encodeLength payload.length 0xC0 = .ok header)
    (hdrop : data.drop offset = header ++ (payload ++ post))
    (hitems : decodeList data (offset + header.length) (offset + header.length + payload.length) =
      .ok items) :
    ∃ h, decodeOne data offset = .ok (.list items, ⟨offset + (header.length + payload.length), h⟩) := by
  rcases encodeLength_eq_ok (by omega) hlength h with
    ⟨hshort, rfl⟩ | ⟨nbytes, hpos, hle, hfits, rfl⟩
  · obtain ⟨hlt, hfirst, hrest⟩ := drop_cons hdrop
    have hstop : offset + 1 + payload.length ≤ data.length := by
      have := congrArg List.length hdrop
      simp only [List.length_drop, List.length_cons, List.length_append, List.length_nil] at this
      omega
    refine ⟨⟨by simp, hlt⟩, ?_⟩
    have hsub : 0xC0 + payload.length - 0xC0 = payload.length := by omega
    rw [decodeOne, dif_pos hlt]
    simp only [hfirst, toNat_first (show 0xC0 + payload.length < 256 by omega)]
    rw [if_neg (by omega), if_neg (by omega), if_neg (by omega), if_pos (by omega)]
    simp only [hsub]
    rw [if_neg (by omega)]
    simp only [List.length_singleton] at hitems
    simp only [hitems, List.length_singleton, ← Nat.add_assoc]
  · obtain ⟨hlt, hfirst, hrest⟩ := drop_cons hdrop
    have hstop : offset + 1 + nbytes + payload.length ≤ data.length := by
      have := congrArg List.length hdrop
      simp only [List.length_drop, List.length_cons, List.length_append, length_toBytesBig] at this
      omega
    refine ⟨⟨by simp, hlt⟩, ?_⟩
    have hsub : 0xC0 + 55 + nbytes - 0xF7 = nbytes := by omega
    have hsize : slice data (offset + 1) (offset + 1 + nbytes) =
        toBytesBig nbytes payload.length := by
      simpa using slice_eq hrest
    rw [decodeOne, dif_pos hlt]
    simp only [hfirst, toNat_first (show 0xC0 + 55 + nbytes < 256 by omega)]
    rw [if_neg (by omega), if_neg (by omega), if_neg (by omega), if_neg (by omega)]
    simp only [hsub, hsize, fromBytesBig_toBytesBig hfits]
    rw [if_neg (by omega), if_neg (by omega)]
    have hlen : (UInt8.ofNat (0xC0 + 55 + nbytes) :: toBytesBig nbytes payload.length).length =
        1 + nbytes := by simp [Nat.add_comm]
    rw [hlen] at hitems
    simp only [← Nat.add_assoc] at hitems
    simp only [hitems, hlen, ← Nat.add_assoc]

/-! ## Items -/

theorem length_le_of_encodeString (h : encodeString d = .ok enc) : d.length ≤ enc.length := by
  have hsplit : ∀ n, (do pure ((← encodeLength n 0x80) ++ d) : Except EncodeError Bytes) = .ok enc →
      d.length ≤ enc.length := by
    intro n hdo
    obtain ⟨header, -, henc⟩ := Except.bind_eq_ok.mp hdo
    obtain rfl := Except.pure_eq_ok.mp henc
    simp
  unfold encodeString at h
  split at h
  · split_ifs at h
    · obtain rfl := Except.ok.inj h
      exact le_rfl
    · exact hsplit _ h
  · exact hsplit _ h

theorem decodeOne_encodeString (h : encodeString d = .ok enc) (hlength : enc.length < 2 ^ 64)
    (hdrop : data.drop offset = enc ++ post) :
    ∃ h, decodeOne data offset = .ok (.bytes d, ⟨offset + enc.length, h⟩) :=
  decodeOne_string ((length_le_of_encodeString h).trans_lt hlength) h hdrop

mutual
/-- An item is read back wherever its encoding stands in the buffer. -/
theorem decodeOne_encode : ∀ (item : Item) {enc data post : Bytes} {offset : ℕ},
    encode item = .ok enc → enc.length < 2 ^ 64 → data.drop offset = enc ++ post →
      ∃ h, decodeOne data offset = .ok (item.decoded, ⟨offset + enc.length, h⟩)
  | .bytes d, enc, data, post, offset, h, hlength, hdrop => by
    rw [encode] at h
    exact decodeOne_encodeString h hlength hdrop
  | .int n, enc, data, post, offset, h, hlength, hdrop => by
    rw [encode] at h
    split_ifs at h with hneg hzero
    · rw [hzero]
      exact decodeOne_encodeString h hlength hdrop
    · exact decodeOne_encodeString h hlength hdrop
  | .str s, enc, data, post, offset, h, hlength, hdrop => by
    rw [encode] at h
    exact decodeOne_encodeString h hlength hdrop
  | .other type, _, _, _, _, h, _, _ => by
    rw [encode] at h
    simp at h
  | .list items, enc, data, post, offset, h, hlength, hdrop => by
    rw [encode] at h
    obtain ⟨payload, hpayload, h⟩ := Except.bind_eq_ok.mp h
    obtain ⟨header, hheader, h⟩ := Except.bind_eq_ok.mp h
    obtain rfl := Except.pure_eq_ok.mp h
    rw [List.length_append] at hlength
    rw [List.append_assoc] at hdrop
    have hitems := decodeList_encodeAll items hpayload (by omega) (drop_add hdrop)
    simpa [Item.decoded] using decodeOne_list (by omega) hheader hdrop hitems
theorem decodeList_encodeAll : ∀ (items : List Item) {enc data post : Bytes} {offset : ℕ},
    encodeAll items = .ok enc → enc.length < 2 ^ 64 → data.drop offset = enc ++ post →
      decodeList data offset (offset + enc.length) = .ok (decodedAll items)
  | [], enc, data, post, offset, h, _, _ => by
    rw [encodeAll] at h
    obtain rfl := Except.ok.inj h
    rw [decodeList]
    simp [decodedAll]
  | x :: xs, enc, data, post, offset, h, hlength, hdrop => by
    rw [encodeAll] at h
    obtain ⟨first, hfirst, h⟩ := Except.bind_eq_ok.mp h
    obtain ⟨rest, hrest, h⟩ := Except.bind_eq_ok.mp h
    obtain rfl := Except.pure_eq_ok.mp h
    rw [List.length_append] at hlength ⊢
    rw [List.append_assoc] at hdrop
    obtain ⟨hx, hreadx⟩ := decodeOne_encode x hfirst (by omega) hdrop
    have hreadxs := decodeList_encodeAll xs hrest (by omega) (drop_add hdrop)
    rw [decodeList, if_pos (by omega), hreadx]
    simp only [← Nat.add_assoc, hreadxs, decodedAll]
end

/-! ## Truncations -/

theorem decode_error_of_decodeOne {e : DecodeError} (h : decodeOne data 0 = .error e) :
    ∃ e, decode data = .error e := ⟨e, by rw [decode, h]⟩

theorem truncated_short (hoffset : offset = 0x80 ∨ offset = 0xC0) {length : ℕ}
    (hsmall : length < 56) (hcut : data.length < length) :
    ∃ e, decode (UInt8.ofNat (offset + length) :: data) = .error e := by
  rcases hoffset with rfl | rfl
  · refine decode_error_of_decodeOne (e := .shortStringTruncated) ?_
    rw [decodeOne, dif_pos (by simp)]
    simp only [List.getElem_cons_zero, toNat_first (show 0x80 + length < 256 by omega)]
    rw [if_neg (by omega), if_pos (by omega), if_pos (by simp only [List.length_cons]; omega)]
  · refine decode_error_of_decodeOne (e := .shortListTruncated) ?_
    rw [decodeOne, dif_pos (by simp)]
    simp only [List.getElem_cons_zero, toNat_first (show 0xC0 + length < 256 by omega)]
    rw [if_neg (by omega), if_neg (by omega), if_neg (by omega), if_pos (by omega),
      if_pos (by simp only [List.length_cons]; omega)]

/-- The cut is in the length itself. -/
theorem truncated_length (hoffset : offset = 0x80 ∨ offset = 0xC0) {nbytes : ℕ}
    (hpos : 1 ≤ nbytes) (hle : nbytes ≤ 8) (hcut : data.length < nbytes) :
    ∃ e, decode (UInt8.ofNat (offset + 55 + nbytes) :: data) = .error e := by
  rcases hoffset with rfl | rfl
  · refine decode_error_of_decodeOne (e := .longStringLengthTruncated) ?_
    rw [decodeOne, dif_pos (by simp)]
    simp only [List.getElem_cons_zero, toNat_first (show 0x80 + 55 + nbytes < 256 by omega)]
    rw [if_neg (by omega), if_neg (by omega), if_pos (by omega),
      if_pos (by simp only [List.length_cons]; omega)]
  · refine decode_error_of_decodeOne (e := .longListLengthTruncated) ?_
    rw [decodeOne, dif_pos (by simp)]
    simp only [List.getElem_cons_zero, toNat_first (show 0xC0 + 55 + nbytes < 256 by omega)]
    rw [if_neg (by omega), if_neg (by omega), if_neg (by omega), if_neg (by omega),
      if_pos (by simp only [List.length_cons]; omega)]

/-- The cut is in the payload. -/
theorem truncated_body (hoffset : offset = 0x80 ∨ offset = 0xC0) {nbytes length : ℕ}
    (hpos : 1 ≤ nbytes) (hle : nbytes ≤ 8) (hfits : length < 256 ^ nbytes)
    (hsize : data.take nbytes = toBytesBig nbytes length) (hread : nbytes ≤ data.length)
    (hcut : data.length < nbytes + length) :
    ∃ e, decode (UInt8.ofNat (offset + 55 + nbytes) :: data) = .error e := by
  have hslice : fromBytesBig (slice (UInt8.ofNat (offset + 55 + nbytes) :: data) (0 + 1)
      (0 + 1 + nbytes)) = length := by
    simp only [slice, Nat.zero_add, List.drop_succ_cons, List.drop_zero, Nat.add_sub_cancel_left,
      hsize, fromBytesBig_toBytesBig hfits]
  rcases hoffset with rfl | rfl
  · refine decode_error_of_decodeOne (e := .longStringBodyTruncated) ?_
    rw [decodeOne, dif_pos (by simp)]
    simp only [List.getElem_cons_zero, toNat_first (show 0x80 + 55 + nbytes < 256 by omega)]
    rw [if_neg (by omega), if_neg (by omega), if_pos (by omega)]
    simp only [show 0x80 + 55 + nbytes - 0xB7 = nbytes by omega, hslice]
    rw [if_neg (by simp only [List.length_cons]; omega),
      if_pos (by simp only [List.length_cons]; omega)]
  · refine decode_error_of_decodeOne (e := .longListBodyTruncated) ?_
    rw [decodeOne, dif_pos (by simp)]
    simp only [List.getElem_cons_zero, toNat_first (show 0xC0 + 55 + nbytes < 256 by omega)]
    rw [if_neg (by omega), if_neg (by omega), if_neg (by omega), if_neg (by omega)]
    simp only [show 0xC0 + 55 + nbytes - 0xF7 = nbytes by omega, hslice]
    rw [if_neg (by simp only [List.length_cons]; omega),
      if_pos (by simp only [List.length_cons]; omega)]

/-- A buffer that ends before the payload its header announces is refused. -/
theorem decode_truncated (hoffset : offset = 0x80 ∨ offset = 0xC0)
    (hlength : payload.length < 2 ^ 64) (h : encodeLength payload.length offset = .ok header)
    (hcut : data <+: header ++ payload) (hne : data ≠ header ++ payload) :
    ∃ e, decode data = .error e := by
  have hshort : data.length < (header ++ payload).length :=
    lt_of_le_of_ne hcut.length_le fun heq => hne (hcut.eq_of_length heq)
  obtain ⟨missing, hmissing⟩ := hcut
  cases data with
  | nil => exact decode_error_of_decodeOne (e := .pastEnd) (by rw [decodeOne, dif_neg (by simp)])
  | cons b data =>
    rcases encodeLength_eq_ok (by omega) hlength h with
      ⟨hsmall, rfl⟩ | ⟨nbytes, hpos, hle, hfits, rfl⟩
    · simp only [List.cons_append, List.nil_append, List.cons.injEq] at hmissing
      simp only [List.cons_append, List.nil_append, List.length_cons] at hshort
      rw [hmissing.1]
      exact truncated_short hoffset hsmall (by omega)
    · simp only [List.cons_append, List.cons.injEq] at hmissing
      simp only [List.length_append, List.length_cons, length_toBytesBig] at hshort
      rw [hmissing.1]
      by_cases hread : nbytes ≤ data.length
      · have hsize : data.take nbytes = toBytesBig nbytes payload.length := by
          have htake := congrArg (List.take nbytes) hmissing.2
          rw [List.take_append_of_le_length hread] at htake
          rw [htake]
          exact List.take_left' (by simp)
        exact truncated_body hoffset hpos hle hfits hsize hread (by omega)
      · exact truncated_length hoffset hpos hle (by omega)

theorem truncated_string (h : encodeString d = .ok enc) (hlength : enc.length < 2 ^ 64)
    (hcut : data <+: enc) (hne : data ≠ enc) : ∃ e, decode data = .error e := by
  have hbody := (length_le_of_encodeString h).trans_lt hlength
  have hsplit : ∀ n, n = d.length →
      (do pure ((← encodeLength n 0x80) ++ d) : Except EncodeError Bytes) = .ok enc →
      ∃ e, decode data = .error e := by
    rintro n rfl hdo
    obtain ⟨header, hheader, henc⟩ := Except.bind_eq_ok.mp hdo
    obtain rfl := Except.pure_eq_ok.mp henc
    exact decode_truncated (Or.inl rfl) hbody hheader hcut hne
  unfold encodeString at h
  split at h
  · split_ifs at h
    · obtain rfl := Except.ok.inj h
      rcases List.prefix_cons_iff.mp hcut with rfl | ⟨rest, rfl, hrest⟩
      · exact decode_error_of_decodeOne (e := .pastEnd) (by rw [decodeOne, dif_neg (by simp)])
      · rw [List.prefix_nil.mp hrest] at hne
        exact absurd rfl hne
    · exact hsplit _ rfl h
  · exact hsplit _ rfl h

/-- No proper beginning of an encoding is accepted. -/
theorem truncated_encode {item : Item} (h : encode item = .ok enc) (hlength : enc.length < 2 ^ 64)
    (hcut : data <+: enc) (hne : data ≠ enc) : ∃ e, decode data = .error e := by
  cases item with
  | bytes d =>
    rw [encode] at h
    exact truncated_string h hlength hcut hne
  | int n =>
    rw [encode] at h
    split_ifs at h
    · exact truncated_string h hlength hcut hne
    · exact truncated_string h hlength hcut hne
  | str s =>
    rw [encode] at h
    exact truncated_string h hlength hcut hne
  | list items =>
    rw [encode] at h
    obtain ⟨payload, -, h⟩ := Except.bind_eq_ok.mp h
    obtain ⟨header, hheader, h⟩ := Except.bind_eq_ok.mp h
    obtain rfl := Except.pure_eq_ok.mp h
    rw [List.length_append] at hlength
    exact decode_truncated (Or.inr rfl) (by omega) hheader hcut hne
  | other type =>
    rw [encode] at h
    simp at h

/-! ## The round trip -/

theorem decode_append {item : Item} (h : encode item = .ok enc) (hlength : enc.length < 2 ^ 64)
    (hne : post ≠ []) : decode (enc ++ post) = .error (.trailing post.length) := by
  obtain ⟨hstop, hread⟩ := decodeOne_encode item h hlength
    (show (enc ++ post).drop 0 = enc ++ post from rfl)
  have hpost : 0 < post.length := List.length_pos_of_ne_nil hne
  rw [decode, hread]
  simp only [Nat.zero_add, List.length_append]
  rw [if_pos (by omega), Nat.add_sub_cancel_left]

/-- A number, a text and a list in a list. -/
def sampleItem : Item := .list [.int 1024, .list [.str "cat", .bytes []], .bytes [5]]

end Rlp
end Recto
