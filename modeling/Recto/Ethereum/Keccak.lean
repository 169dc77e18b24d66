import Recto.Data.Sponge
import Recto.Text.Chars

/-!
# Keccak-256

`keccak256` of `recto.ethereum` over its grid of lanes, and the sponge it is: a
message with its padding, in blocks of 136 bytes whose lanes are little-endian,
absorbed between permutations of the state. As a string of 200 bytes, the lanes
one after the other, the state has a block added to its front, and the code's
loop over single bytes does this a lane at a time.
-/

namespace Recto
namespace Keccak

/-! ## The grid -/

/-- `state[x][y]` -/
abbrev Grid := Vector (Vector (BitVec 64) 5) 5

namespace Grid

def lane (s : Grid) (x y : Fin 5) : BitVec 64 := s[x][y]

def setLane (s : Grid) (x y : Fin 5) (v : BitVec 64) : Grid := s.set x (s[x].set y v)

def ofLanes (f : Fin 5 → Fin 5 → BitVec 64) : Grid := .ofFn fun x => .ofFn fun y => f x y

def zero : Grid := ofLanes fun _ _ => 0

@[simp] theorem lane_ofLanes (f : Fin 5 → Fin 5 → BitVec 64) (x y : Fin 5) :
    (ofLanes f).lane x y = f x y := by
  simp [lane, ofLanes]

theorem row_setLane (s : Grid) (x y x' : Fin 5) (v : BitVec 64) :
    (s.setLane x y v)[x'] = if x' = x then s[x].set y v else s[x'] := by
  by_cases hx : x' = x
  · subst hx
    rw [if_pos rfl]
    exact Vector.getElem_set_self _
  · rw [if_neg hx]
    exact Vector.getElem_set_ne _ _ fun h => hx (Fin.ext h.symm)

theorem lane_setLane (s : Grid) (x y x' y' : Fin 5) (v : BitVec 64) :
    (s.setLane x y v).lane x' y' = if x' = x ∧ y' = y then v else s.lane x' y' := by
  rw [lane, row_setLane]
  by_cases hx : x' = x
  · subst hx
    rw [if_pos rfl]
    simp only [true_and]
    by_cases hy : y' = y
    · subst hy
      rw [if_pos rfl]
      exact Vector.getElem_set_self _
    · rw [if_neg hy]
      exact Vector.getElem_set_ne _ _ fun h => hy (Fin.ext h.symm)
  · rw [if_neg hx, if_neg fun h => hx h.1]
    rfl

theorem ext_lanes {s t : Grid} (h : ∀ x y, s.lane x y = t.lane x y) : s = t := by
  refine Vector.ext fun x hx => Vector.ext fun y hy => ?_
  exact h ⟨x, hx⟩ ⟨y, hy⟩

end Grid

/-- `lane_idx % 5, lane_idx // 5` -/
def column (i : ℕ) : Fin 5 := Fin.ofNat 5 (i % 5)

def row (i : ℕ) : Fin 5 := Fin.ofNat 5 (i / 5)

/-! ## The permutation -/

/-- `_RHO_OFFSETS` -/
def rhoOffsets : List (List ℕ) :=
  [[0, 36, 3, 41, 18], [1, 44, 10, 45, 2], [62, 6, 43, 15, 61], [28, 55, 25, 21, 56],
    [27, 20, 39, 8, 14]]

/-- `_ROUND_CONSTANTS` -/
def roundConstants : List (BitVec 64) :=
  [0x0000000000000001#64, 0x0000000000008082#64, 0x800000000000808A#64, 0x8000000080008000#64,
    0x000000000000808B#64, 0x0000000080000001#64, 0x8000000080008081#64, 0x8000000000008009#64,
    0x000000000000008A#64, 0x0000000000000088#64, 0x0000000080008009#64, 0x000000008000000A#64,
    0x000000008000808B#64, 0x800000000000008B#64, 0x8000000000008089#64, 0x8000000000008003#64,
    0x8000000000008002#64, 0x8000000000000080#64, 0x000000000000800A#64, 0x800000008000000A#64,
    0x8000000080008081#64, 0x8000000000008080#64, 0x0000000080000001#64, 0x8000000080008008#64]

/-- `_rotl64` -/
def rotl64 (x : BitVec 64) (n : ℕ) : BitVec 64 := x.rotateLeft (n % 64)

/-- One round of `_keccak_f_1600`. -/
def keccakRound (state : Grid) (constant : BitVec 64) : Grid :=
  -- θ
  let parity : Vector (BitVec 64) 5 := .ofFn fun x =>
    state.lane x 0 ^^^ state.lane x 1 ^^^ state.lane x 2 ^^^ state.lane x 3 ^^^ state.lane x 4
  let d : Vector (BitVec 64) 5 := .ofFn fun x => parity[x - 1] ^^^ rotl64 parity[x + 1] 1
  let state := Grid.ofLanes fun x y => state.lane x y ^^^ d[x]
  -- ρ and π
  let b := (List.finRange 5).foldl (fun b x => (List.finRange 5).foldl (fun b y =>
    b.setLane y (2 * x + 3 * y) (rotl64 (state.lane x y) ((rhoOffsets.getD x []).getD y 0))) b)
    Grid.zero
  -- χ
  let state := Grid.ofLanes fun x y => b.lane x y ^^^ (~~~b.lane (x + 1) y &&& b.lane (x + 2) y)
  -- ι
  state.setLane 0 0 (state.lane 0 0 ^^^ constant)

/-- `_keccak_f_1600` -/
def keccakF1600 (state : Grid) : Grid := roundConstants.foldl keccakRound state

/-! ## The hash -/

/-- `_absorb_block` -/
def absorbBlock (rateBytes : ℕ) (state : Grid) (block : Bytes) : Grid :=
  (List.range rateBytes).foldl (fun state i =>
    let x := column (i / 8)
    let y := row (i / 8)
    state.setLane x y
      (state.lane x y ^^^ (BitVec.ofNat 64 (block.getD i 0).toNat <<< (8 * (i % 8))))) state

/-- The bitrate in bytes. -/
def rateBytes : ℕ := 136

/-- The block of the bytes left over: `block[:k] = data[offset:]`, `block[k] |= 0x01` and
`block[rate_bytes - 1] |= 0x80`. -/
def lastBlock (tail : Bytes) : Bytes :=
  ((tail ++ List.replicate (rateBytes - tail.length) 0).modify tail.length (· ||| 0x01)).modify
    (rateBytes - 1) (· ||| 0x80)

/-- `out[i]` -/
def outByte (state : Grid) (i : ℕ) : UInt8 :=
  UInt8.ofNat (state.lane (column (i / 8)) (row (i / 8)) >>> (8 * (i % 8))).toNat

/-- `keccak256`, over the permutation. -/
def keccak256With (permute : Grid → Grid) (data : Bytes) : Bytes :=
  let absorbed := absorbLoop permute (absorbBlock rateBytes) rateBytes data
    (data.length / rateBytes) Grid.zero 0
  let state := permute (absorbBlock rateBytes absorbed.1 (lastBlock (data.drop absorbed.2)))
  (List.range 32).map (outByte state)

/-- `keccak256` -/
def keccak256 : Bytes → Bytes := keccak256With keccakF1600

/-! ## The sponge -/

/-- A lane from its bytes, the first of them the lowest. -/
def laneOf (bytes : Bytes) : BitVec 64 := BitVec.ofNat 64 (Nat.ofDigits 256 (bytes.map (·.toNat)))

/-- The eight bytes of a lane. -/
def laneBytes (v : BitVec 64) : Bytes :=
  (List.range 8).map fun j => UInt8.ofNat (v.toNat / 256 ^ j)

/-- The bytes of a block that fall on the lane `(x, y)`. -/
def laneBlock (block : Bytes) (x y : Fin 5) : Bytes := (block.drop (8 * (x + 5 * y))).take 8

/-- The block added to the state, lane by lane in the order `x + 5y`. -/
def mixBlock (state : Grid) (block : Bytes) : Grid :=
  Grid.ofLanes fun x y => state.lane x y ^^^ laneOf (laneBlock block x y)

/-- The state as a string of bytes. -/
def stateBytes (state : Grid) : Bytes :=
  (List.range 25).flatMap fun i => laneBytes (state.lane (column i) (row i))

/-- `0x01 0x00* 0x80` in the bytes that are free, and `0x81` when it is one. -/
def padding : ℕ → Bytes
  | 0 => []
  | 1 => [0x81]
  | free + 2 => 0x01 :: (List.replicate free 0 ++ [0x80])

def padded (data : Bytes) : Bytes := data ++ padding (rateBytes - data.length % rateBytes)

@[simp] theorem length_padding (free : ℕ) : (padding free).length = free := by
  match free with
  | 0 => rfl
  | 1 => rfl
  | free + 2 => simp [padding]

/-! ## A block, byte by byte -/

theorem ofNat_add_mul_two_pow {a k : ℕ} (ha : a < 2 ^ k) (b : ℕ) :
    BitVec.ofNat 64 (a + 2 ^ k * b) = BitVec.ofNat 64 a ^^^ (BitVec.ofNat 64 b <<< k) := by
  refine BitVec.eq_of_getLsbD_eq fun i hi => ?_
  rw [BitVec.getLsbD_xor, BitVec.getLsbD_shiftLeft, Nat.add_comm]
  simp only [BitVec.getLsbD_ofNat, hi, decide_true, Bool.true_and, Nat.testBit_two_pow_mul_add b ha]
  by_cases hik : i < k
  · simp [hik]
  · have hzero : a.testBit i = false :=
      Nat.testBit_lt_two_pow (lt_of_lt_of_le ha (Nat.pow_le_pow_right (by omega) (by omega)))
    have hsub : i - k < 64 := by omega
    simp [hik, hzero, hsub]

theorem laneOf_concat (bytes : Bytes) (b : UInt8) :
    laneOf (bytes ++ [b]) =
      laneOf bytes ^^^ (BitVec.ofNat 64 b.toNat <<< (8 * bytes.length)) := by
  have hbase : (256 : ℕ) ^ bytes.length = 2 ^ (8 * bytes.length) := by
    rw [Nat.pow_mul]
  have hlt : Nat.ofDigits 256 (bytes.map (·.toNat)) < 2 ^ (8 * bytes.length) := by
    have h := Nat.ofDigits_lt_base_pow_length (b := 256) (l := bytes.map (·.toNat)) (by omega)
      (fun d hd => by
        obtain ⟨b, -, rfl⟩ := List.mem_map.mp hd
        exact b.toNat_lt)
    rwa [List.length_map, hbase] at h
  rw [laneOf, List.map_append, Nat.ofDigits_append, List.length_map, hbase, List.map_singleton,
    Nat.ofDigits_singleton, ofNat_add_mul_two_pow hlt]
  rfl

theorem column_eq_iff {i : ℕ} (hi : i < 25) (x y : Fin 5) :
    x = column i ∧ y = row i ↔ (x : ℕ) + 5 * y = i := by
  rw [Fin.ext_iff, Fin.ext_iff]
  simp only [column, row, Fin.ofNat]
  omega

/-- After `n` bytes a lane has taken up those of its own among them. -/
theorem lane_absorbBlock {block : Bytes} (hblock : block.length ≤ 200) (state : Grid) (x y : Fin 5) :
    ∀ {n : ℕ}, n ≤ block.length → (absorbBlock n state block).lane x y =
      state.lane x y ^^^
        laneOf ((block.drop (8 * (x + 5 * y))).take (min 8 (n - 8 * (x + 5 * y)))) := by
  intro n
  induction n with
  | zero => simp [absorbBlock, laneOf]
  | succ n ih =>
    intro hn
    have hlane := column_eq_iff (i := n / 8) (by omega) x y
    have hstep : absorbBlock (n + 1) state block =
        (absorbBlock n state block).setLane (column (n / 8)) (row (n / 8))
          ((absorbBlock n state block).lane (column (n / 8)) (row (n / 8)) ^^^
            (BitVec.ofNat 64 (block.getD n 0).toNat <<< (8 * (n % 8)))) := by
      rw [absorbBlock, List.range_succ, List.foldl_append]
      rfl
    rw [hstep, Grid.lane_setLane]
    split_ifs with hxy
    · have hi := hlane.mp hxy
      rw [← hxy.1, ← hxy.2, ih (by omega)]
      have hbyte : (block.drop (8 * (x + 5 * y)))[n % 8]? = some (block.getD n 0) := by
        rw [List.getElem?_drop, hi, Nat.div_add_mod, List.getD_eq_getElem?_getD,
          List.getElem?_eq_getElem (by omega)]
        rfl
      have hbefore : min 8 (n - 8 * (x + 5 * y)) = n % 8 := by omega
      have hafter : min 8 (n + 1 - 8 * (x + 5 * y)) = n % 8 + 1 := by omega
      have hlength : ((block.drop (8 * (x + 5 * y))).take (n % 8)).length = n % 8 := by
        rw [List.length_take, List.length_drop]
        omega
      rw [hbefore, hafter, List.take_add_one, hbyte, Option.toList_some, laneOf_concat, hlength,
        BitVec.xor_assoc]
    · have hother : min 8 (n + 1 - 8 * (x + 5 * y)) = min 8 (n - 8 * (x + 5 * y)) := by
        have hi := mt hlane.mpr hxy
        omega
      rw [ih (by omega), hother]

/-- `_absorb_block` adds the block to the state. -/
theorem absorbBlock_eq {block : Bytes} (hblock : block.length ≤ 200) (state : Grid) :
    absorbBlock block.length state block = mixBlock state block := by
  refine Grid.ext_lanes fun x y => ?_
  rw [lane_absorbBlock hblock state x y le_rfl, mixBlock, Grid.lane_ofLanes, laneBlock]
  congr 2
  rw [List.take_eq_take_iff, List.length_drop]
  omega

/-! ## The last block -/

theorem modify_append {α : Type} (f : α → α) (xs ys : List α) (i : ℕ) :
    (xs ++ ys).modify (xs.length + i) f = xs ++ ys.modify i f := by
  induction xs with
  | nil => simp
  | cons x xs ih =>
    rw [List.cons_append, List.length_cons, Nat.add_right_comm, List.modify_succ_cons, ih]
    rfl

/-- The last block is what is left over and the padding. -/
theorem lastBlock_eq {tail : Bytes} (htail : tail.length < rateBytes) :
    lastBlock tail = tail ++ padding (rateBytes - tail.length) := by
  obtain ⟨free, hfree⟩ : ∃ free, rateBytes = tail.length + (free + 1) :=
    ⟨rateBytes - tail.length - 1, by omega⟩
  have hsub : rateBytes - tail.length = free + 1 := by omega
  have hend : rateBytes - 1 = tail.length + free := by omega
  have hfirst : (tail ++ List.replicate (free + 1) 0).modify tail.length (· ||| 0x01) =
      tail ++ (List.replicate (free + 1) 0).modify 0 (· ||| 0x01) := modify_append _ tail _ 0
  rw [lastBlock, hsub, hend, hfirst, modify_append]
  congr 1
  match free with
  | 0 => decide
  | free + 1 =>
    have hlast : (List.replicate free (0 : UInt8) ++ [0]).modify free (· ||| 0x80) =
        List.replicate free 0 ++ [0x80] := by
      have h := modify_append (· ||| (0x80 : UInt8)) (List.replicate free 0) [0] 0
      rw [List.length_replicate] at h
      exact h
    rw [List.replicate_succ, List.modify_zero_cons, List.modify_succ_cons, List.replicate_succ', hlast]
    rfl

/-! ## The output -/

theorem flatMap_range_map {α : Type} (f : ℕ → ℕ → α) (width : ℕ) : ∀ count : ℕ,
    ((List.range count).flatMap fun i => (List.range width).map (f i)) =
      (List.range (count * width)).map fun k => f (k / width) (k % width) := by
  intro count
  induction count with
  | zero => simp
  | succ count ih =>
    rw [List.range_succ, List.flatMap_append, ih, Nat.add_mul, Nat.one_mul, List.range_add,
      List.map_append, List.flatMap_singleton, List.map_map]
    congr 1
    refine List.map_congr_left fun j hj => ?_
    have hj := List.mem_range.mp hj
    simp only [Function.comp_apply]
    rw [Nat.mul_comm, Nat.mul_add_div (by omega), Nat.mul_add_mod, Nat.div_eq_of_lt hj,
      Nat.mod_eq_of_lt hj, Nat.add_zero]

theorem outByte_eq (state : Grid) (i : ℕ) :
    outByte state i =
      UInt8.ofNat ((state.lane (column (i / 8)) (row (i / 8))).toNat / 256 ^ (i % 8)) := by
  rw [outByte, BitVec.toNat_ushiftRight, Nat.shiftRight_eq_div_pow, Nat.pow_mul]

/-- The digest is the front of the state. -/
theorem map_outByte (state : Grid) : (List.range 32).map (outByte state) = (stateBytes state).take 32 := by
  rw [stateBytes]
  simp only [laneBytes]
  rw [flatMap_range_map (fun i j => UInt8.ofNat ((state.lane (column i) (row i)).toNat / 256 ^ j)),
    ← List.map_take, List.take_range]
  exact List.map_congr_left fun i _ => outByte_eq state i

/-! ## The hash is the sponge -/

/-- Keccak-256 is the sponge: for any permutation and any bytes the digest is the first 32
bytes squeezed from the state that has absorbed the padded message. -/
theorem keccak256With_eq_sponge (permute : Grid → Grid) (data : Bytes) :
    keccak256With permute data =
      (stateBytes (absorb permute mixBlock Grid.zero (blocks rateBytes (padded data)))).take 32 := by
  have hrest : data.length % rateBytes < rateBytes := Nat.mod_lt _ (by decide)
  have hpadding : data.length % rateBytes +
      (padding (rateBytes - data.length % rateBytes)).length = rateBytes := by
    rw [length_padding]
    omega
  have hloop := @absorbLoop_eq _ _ permute (absorbBlock rateBytes) rateBytes (by decide) data
    (data.length / rateBytes) Grid.zero 0 (Nat.zero_le _) le_rfl
  have hstop := congrArg Prod.snd hloop
  have htail : (data.drop (absorbLoop permute (absorbBlock rateBytes) rateBytes data
      (data.length / rateBytes) Grid.zero 0).2).length = data.length % rateBytes := by
    rw [hstop, List.length_drop, Nat.sub_zero, Nat.zero_add, Nat.mod_eq_sub_div_mul]
  have hmix : ∀ b ∈ blocks rateBytes (padded data), ∀ s, absorbBlock rateBytes s b = mixBlock s b := by
    intro b hb s
    have hlength := length_of_mem_blocks hb
    rw [← absorbBlock_eq (by rw [hlength]; decide), hlength]
  rw [← absorb_congr hmix, padded, ← absorb_padded (by decide) data _ Grid.zero hpadding,
    ← map_outByte, keccak256With, lastBlock_eq (by rw [htail]; exact hrest), htail]

end Keccak
end Recto
