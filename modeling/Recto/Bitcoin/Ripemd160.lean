import Recto.Chains.SignedMessages

/-!
# RIPEMD-160

`ripemd160` of `recto.bitcoin`: two lines of eighty steps over each block of 64
bytes, added into the state.
-/

namespace Recto
namespace Bitcoin

/-- `_RIPEMD160_K_LEFT` and `_RIPEMD160_K_RIGHT` -/
def kLeft : List (BitVec 32) := [0x00000000#32, 0x5A827999#32, 0x6ED9EBA1#32, 0x8F1BBCDC#32, 0xA953FD4E#32]

def kRight : List (BitVec 32) := [0x50A28BE6#32, 0x5C4DD124#32, 0x6D703EF3#32, 0x7A6D76E9#32, 0x00000000#32]

/-- `_RIPEMD160_R_LEFT` and `_RIPEMD160_R_RIGHT` -/
def rLeft : List ℕ :=
  [0, 1, 2, 3, 4, 5, 6, 7, 8, 9, 10, 11, 12, 13, 14, 15,
    7, 4, 13, 1, 10, 6, 15, 3, 12, 0, 9, 5, 2, 14, 11, 8,
    3, 10, 14, 4, 9, 15, 8, 1, 2, 7, 0, 6, 13, 11, 5, 12,
    1, 9, 11, 10, 0, 8, 12, 4, 13, 3, 7, 15, 14, 5, 6, 2,
    4, 0, 5, 9, 7, 12, 2, 10, 14, 1, 3, 8, 11, 6, 15, 13]

def rRight : List ℕ :=
  [5, 14, 7, 0, 9, 2, 11, 4, 13, 6, 15, 8, 1, 10, 3, 12,
    6, 11, 3, 7, 0, 13, 5, 10, 14, 15, 8, 12, 4, 9, 1, 2,
    15, 5, 1, 3, 7, 14, 6, 9, 11, 8, 12, 2, 10, 0, 4, 13,
    8, 6, 4, 1, 3, 11, 15, 0, 5, 12, 2, 13, 9, 7, 10, 14,
    12, 15, 10, 4, 1, 5, 8, 7, 6, 2, 13, 14, 0, 3, 9, 11]

/-- `_RIPEMD160_S_LEFT` and `_RIPEMD160_S_RIGHT` -/
def sLeft : List ℕ :=
  [11, 14, 15, 12, 5, 8, 7, 9, 11, 13, 14, 15, 6, 7, 9, 8,
    7, 6, 8, 13, 11, 9, 7, 15, 7, 12, 15, 9, 11, 7, 13, 12,
    11, 13, 6, 7, 14, 9, 13, 15, 14, 8, 13, 6, 5, 12, 7, 5,
    11, 12, 14, 15, 14, 15, 9, 8, 9, 14, 5, 6, 8, 6, 5, 12,
    9, 15, 5, 11, 6, 8, 13, 12, 5, 12, 13, 14, 11, 8, 5, 6]

def sRight : List ℕ :=
  [8, 9, 9, 11, 13, 15, 15, 5, 7, 7, 8, 11, 14, 14, 12, 6,
    9, 13, 15, 7, 12, 8, 9, 11, 7, 7, 12, 7, 6, 15, 13, 11,
    9, 7, 15, 11, 8, 6, 6, 14, 12, 13, 5, 14, 13, 13, 7, 5,
    15, 5, 8, 11, 14, 14, 6, 14, 6, 9, 12, 9, 12, 5, 15, 8,
    8, 5, 12, 9, 12, 5, 14, 6, 8, 13, 6, 5, 15, 13, 11, 11]

/-- `_rotl32` -/
def rotl32 (x : BitVec 32) (n : ℕ) : BitVec 32 := x.rotateLeft (n % 32)

/-- `_ripemd160_f` -/
def ripemd160F (j : ℕ) (x y z : BitVec 32) : BitVec 32 :=
  if j < 16 then x ^^^ y ^^^ z
  else if j < 32 then (x &&& y) ||| (~~~x &&& z)
  else if j < 48 then (x ||| ~~~y) ^^^ z
  else if j < 64 then (x &&& z) ||| (y &&& ~~~z)
  else x ^^^ (y ||| ~~~z)

/-- The five registers. -/
structure Registers where
  a : BitVec 32
  b : BitVec 32
  c : BitVec 32
  d : BitVec 32
  e : BitVec 32

/-- A step of a line: the left one takes the functions in order, the right one backwards. -/
def lineStep (k : List (BitVec 32)) (r s : List ℕ) (f : ℕ → ℕ) (w : List (BitVec 32)) (l : Registers)
    (j : ℕ) : Registers :=
  let t := l.a + ripemd160F (f j) l.b l.c l.d + w.getD (r.getD j 0) 0 + k.getD (j / 16) 0
  let t := rotl32 t (s.getD j 0) + l.e
  ⟨l.e, t, l.b, rotl32 l.c 10, l.d⟩

/-- The words of a block, little-endian. -/
def wordsOf (block : Bytes) : List (BitVec 32) :=
  (List.range 16).map fun i =>
    BitVec.ofNat 32 (Rlp.fromBytesBig ((block.drop (4 * i)).take 4).reverse)

/-- The two lines over a block, and the state after it. -/
def ripemd160Block (h : Registers) (block : Bytes) : Registers :=
  let w := wordsOf block
  let l := (List.range 80).foldl (lineStep kLeft rLeft sLeft id w) h
  let r := (List.range 80).foldl (lineStep kRight rRight sRight (79 - ·) w) h
  ⟨h.b + l.c + r.d, h.c + l.d + r.e, h.d + l.e + r.a, h.e + l.a + r.b, h.a + l.b + r.c⟩

/-- The message with its padding and its length in bits. -/
def ripemd160Padded (data : Bytes) : Bytes :=
  let msg := data ++ [0x80]
  msg ++ List.replicate ((120 - msg.length % 64) % 64) 0 ++
    toBytesLittle 8 (data.length * 8 % 2 ^ 64)

/-- `ripemd160` -/
def ripemd160 (data : Bytes) : Bytes :=
  let msg := ripemd160Padded data
  let h := (List.range (msg.length / 64)).foldl
    (fun h i => ripemd160Block h ((msg.drop (64 * i)).take 64))
    ⟨0x67452301#32, 0xEFCDAB89#32, 0x98BADCFE#32, 0x10325476#32, 0xC3D2E1F0#32⟩
  [h.a, h.b, h.c, h.d, h.e].flatMap fun word => toBytesLittle 4 word.toNat

/-- `hash160` -/
def hash160 (sha256 : Bytes → Bytes) (data : Bytes) : Bytes := ripemd160 (sha256 data)

@[simp] theorem length_ripemd160 (data : Bytes) : (ripemd160 data).length = 20 := by
  simp [ripemd160, toBytesLittle]

end Bitcoin
end Recto
