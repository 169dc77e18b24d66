import Mathlib.Tactic
import Recto.Bitcoin.Coins
import Recto.Data.Framing
import Recto.Ethereum.RlpRoundTrip

/-!
# Signed messages of the chains

What the chains hash when a message is signed: EIP-191, TIP-191, BIP-137 for the
four coins of the Bitcoin family, and the preambles for Solana, Stellar and XRP.
The hash functions are parameters; the bytes that are hashed are compared.
-/

namespace Recto

/-- `hashlib.sha256` and `keccak256` -/
structure MessageHashes where
  sha256 : Bytes → Bytes
  keccak256 : Bytes → Bytes

/-- `str(n).encode("ascii")` -/
def decimalBytes (n : ℕ) : Bytes := (Nat.toDigits 10 n).map fun c => UInt8.ofNat c.toNat

namespace Ethereum

/-- What `personal_sign_hash` hashes. -/
def personalSignPreimage (message : Bytes) : Bytes :=
  (utf8 "\x19Ethereum Signed Message:\n" ++ decimalBytes message.length) ++ message

/-- `personal_sign_hash` -/
def personalSignHash (hashes : MessageHashes) (message : Bytes) : Bytes :=
  hashes.keccak256 (personalSignPreimage message)

end Ethereum

namespace Tron

/-- `MESSAGE_PREAMBLE` -/
def messagePreamble : Bytes := utf8 "TRON Signed Message:\n"

def signedMessagePreimage (message : Bytes) : Bytes :=
  (0x19 :: messagePreamble ++ decimalBytes message.length) ++ message

/-- `signed_message_hash` of `recto.tron` -/
def signedMessageHash (hashes : MessageHashes) (message : Bytes) : Bytes :=
  hashes.keccak256 (signedMessagePreimage message)

end Tron

namespace Bitcoin

/-- `n.to_bytes(size, "little")` -/
def toBytesLittle (size n : ℕ) : Bytes := (Rlp.toBytesBig size n).reverse

/-- `_varint_encode`, of what is not negative. -/
def varintEncode (n : ℕ) : Except PyError Bytes :=
  if n < 0xFD then .ok [UInt8.ofNat n]
  else if n ≤ 0xFFFF then .ok (0xFD :: toBytesLittle 2 n)
  else if n ≤ 0xFFFFFFFF then .ok (0xFE :: toBytesLittle 4 n)
  else if n ≤ 0xFFFFFFFFFFFFFFFF then .ok (0xFF :: toBytesLittle 8 n)
  else .error .valueError

/-- `bytes([len(prefix_str)]) + prefix_str` -/
def messagePrefix (cfg : CoinConfig) : Bytes := UInt8.ofNat cfg.preamble.length :: cfg.preamble

def signedMessagePreimage (lower : String → String) (message : Bytes) (coin : String) :
    Except PyError Bytes := do
  let cfg ← coinCfg lower coin
  let length ← varintEncode message.length
  pure (messagePrefix cfg ++ (length ++ message))

/-- `double_sha256` -/
def doubleSha256 (hashes : MessageHashes) (data : Bytes) : Bytes :=
  hashes.sha256 (hashes.sha256 data)

/-- `signed_message_hash` of `recto.bitcoin` -/
def signedMessageHash (hashes : MessageHashes) (lower : String → String) (message : Bytes)
    (coin : String) : Except PyError Bytes := do
  pure (doubleSha256 hashes (← signedMessagePreimage lower message coin))

end Bitcoin

/-- `MESSAGE_PREAMBLE` of `recto.solana` -/
def Solana.messagePreamble : Bytes := utf8 "Solana signed message:\n"

/-- `MESSAGE_PREAMBLE` of `recto.stellar` -/
def Stellar.messagePreamble : Bytes := utf8 "Stellar signed message:\n"

/-- `MESSAGE_PREAMBLE` of `recto.ripple` -/
def Ripple.messagePreamble : Bytes := utf8 "XRP signed message:\n"

/-- `signed_message_hash` of `recto.solana` -/
def Solana.signedMessageHash (hashes : MessageHashes) (message : Bytes) : Bytes :=
  hashes.sha256 (Solana.messagePreamble ++ message)

/-- `signed_message_hash` of `recto.stellar` -/
def Stellar.signedMessageHash (hashes : MessageHashes) (message : Bytes) : Bytes :=
  hashes.sha256 (Stellar.messagePreamble ++ message)

/-- `signed_message_hash` of `recto.ripple` -/
def Ripple.signedMessageHash (hashes : MessageHashes) (message : Bytes) : Bytes :=
  hashes.sha256 (Ripple.messagePreamble ++ message)

/-! ## The chains together -/

/-- A chain that messages are signed for; the Bitcoin family by the name of the coin. -/
inductive Chain where
  | ethereum
  | tron
  | bitcoin (coin : String)
  | solana
  | stellar
  | ripple
  deriving DecidableEq, Repr

namespace Chain

variable (hashes : MessageHashes) (lower : String → String)

/-- The signed-message hash of a chain. -/
def signedMessageHash : Chain → Bytes → Except PyError Bytes
  | ethereum, message => .ok (Ethereum.personalSignHash hashes message)
  | tron, message => .ok (Tron.signedMessageHash hashes message)
  | bitcoin coin, message => Bitcoin.signedMessageHash hashes lower message coin
  | solana, message => .ok (Solana.signedMessageHash hashes message)
  | stellar, message => .ok (Stellar.signedMessageHash hashes message)
  | ripple, message => .ok (Ripple.signedMessageHash hashes message)

/-- The hash function of a chain. -/
def hash : Chain → Bytes → Bytes
  | ethereum => hashes.keccak256
  | tron => hashes.keccak256
  | bitcoin _ => Bitcoin.doubleSha256 hashes
  | _ => hashes.sha256

/-- The bytes that are hashed. -/
def preimage : Chain → Bytes → Except PyError Bytes
  | ethereum, message => .ok (Ethereum.personalSignPreimage message)
  | tron, message => .ok (Tron.signedMessagePreimage message)
  | bitcoin coin, message => Bitcoin.signedMessagePreimage lower message coin
  | solana, message => .ok (Solana.messagePreamble ++ message)
  | stellar, message => .ok (Stellar.messagePreamble ++ message)
  | ripple, message => .ok (Ripple.messagePreamble ++ message)

/-- What the bytes of a chain begin with, whatever the message. -/
def preamble : Chain → Except PyError Bytes
  | ethereum => .ok (utf8 "\x19Ethereum Signed Message:\n")
  | tron => .ok (0x19 :: Tron.messagePreamble)
  | bitcoin coin => (Bitcoin.coinCfg lower coin).map Bitcoin.messagePrefix
  | solana => .ok Solana.messagePreamble
  | stellar => .ok Stellar.messagePreamble
  | ripple => .ok Ripple.messagePreamble

end Chain

/-! ## Headers of a length -/

/-- The length in decimal. -/
def decimalFraming : Framing UInt8 where
  header := decimalBytes
  mono := by
    intro n m h
    have hpos : 0 < (Nat.toDigits 10 m).length := Nat.length_toDigits_pos
    have hm : m < 10 ^ (Nat.toDigits 10 m).length :=
      (Nat.length_toDigits_le_iff (by norm_num) hpos).mp le_rfl
    simp only [decimalBytes, List.length_map]
    exact (Nat.length_toDigits_le_iff (by norm_num) hpos).mpr (h.trans_lt hm)

/-- The bytes that a compact integer takes. -/
def varintSize (n : ℕ) : ℕ :=
  if n < 0xFD then 1 else if n ≤ 0xFFFF then 3 else if n ≤ 0xFFFFFFFF then 5 else 9

/-- The length as a compact integer; what is too long for one is never framed. -/
def varintFraming : Framing UInt8 where
  header n := (Bitcoin.varintEncode n).toOption.getD (List.replicate 9 0)
  mono := by
    have hsize : ∀ n, ((Bitcoin.varintEncode n).toOption.getD (List.replicate 9 0)).length =
        varintSize n := by
      intro n
      unfold Bitcoin.varintEncode varintSize
      split_ifs <;> simp [Except.toOption, Bitcoin.toBytesLittle]
    intro n m h
    simp only [hsize, varintSize]
    split_ifs <;> omega

namespace Chain

/-- How a chain says how long the message is. -/
def framing : Chain → Framing UInt8
  | ethereum => decimalFraming
  | tron => decimalFraming
  | bitcoin _ => varintFraming
  | _ => .bare

/-- The preambles of all chains. -/
def preambles : List Bytes :=
  [utf8 "\x19Ethereum Signed Message:\n", 0x19 :: Tron.messagePreamble] ++
    (Bitcoin.coinConfig.map Prod.snd).map Bitcoin.messagePrefix ++
      [Solana.messagePreamble, Stellar.messagePreamble, Ripple.messagePreamble]

theorem preambles_apart : StartsApart preambles := by
  unfold StartsApart
  decide +kernel

variable {hashes : MessageHashes} {lower : String → String} {chain a b : Chain} {message : Bytes}

theorem mem_preambles {start : Bytes} (h : chain.preamble lower = .ok start) : start ∈ preambles := by
  cases chain with
  | bitcoin coin =>
    obtain ⟨cfg, hcfg, rfl⟩ := Except.map_eq_ok.mp h
    refine List.mem_append_left _ (List.mem_append_right _ ?_)
    exact List.mem_map_of_mem (Bitcoin.mem_of_coinCfg hcfg)
  | _ =>
    obtain rfl := Except.ok.inj h
    simp [preambles]

/-- The bytes hashed are a preamble and the framed message. -/
theorem preimage_eq {bytes : Bytes} (h : chain.preimage lower message = .ok bytes) :
    ∃ start, chain.preamble lower = .ok start ∧ bytes = start ++ chain.framing.frame message := by
  cases chain with
  | bitcoin coin =>
    simp only [preimage, Bitcoin.signedMessagePreimage, Except.bind_eq_ok] at h
    obtain ⟨cfg, hcfg, length, hlength, h⟩ := h
    obtain rfl := Except.pure_eq_ok.mp h
    refine ⟨_, Except.map_eq_ok.mpr ⟨cfg, hcfg, rfl⟩, ?_⟩
    simp [framing, Framing.frame, varintFraming, hlength, Except.toOption]
  | _ =>
    obtain rfl := Except.ok.inj h
    refine ⟨_, rfl, ?_⟩
    simp [framing, Framing.frame, Framing.bare, decimalFraming, Ethereum.personalSignPreimage,
      Tron.signedMessagePreimage]

/-- No coin signs under the preamble of a chain outside the family. -/
theorem coins_apart : ∀ cfg ∈ Bitcoin.coinConfig.map Prod.snd, Bitcoin.messagePrefix cfg ∉
    [utf8 "\x19Ethereum Signed Message:\n", 0x19 :: Tron.messagePreamble, Solana.messagePreamble,
      Stellar.messagePreamble, Ripple.messagePreamble] := by
  decide +kernel

/-- One preamble is that of one chain, or of two coins of the Bitcoin family. -/
theorem eq_or_coins_of_preamble {start : Bytes} (ha : a.preamble lower = .ok start)
    (hb : b.preamble lower = .ok start) :
    a = b ∨ ∃ coin coin', a = bitcoin coin ∧ b = bitcoin coin' := by
  have hcoin : ∀ coin, (bitcoin coin).preamble lower = .ok start → start ∉
      [utf8 "\x19Ethereum Signed Message:\n", 0x19 :: Tron.messagePreamble, Solana.messagePreamble,
        Stellar.messagePreamble, Ripple.messagePreamble] := by
    intro coin h
    obtain ⟨cfg, hcfg, rfl⟩ := Except.map_eq_ok.mp h
    exact coins_apart cfg (Bitcoin.mem_of_coinCfg hcfg)
  cases a with
  | bitcoin coin =>
    cases b with
    | bitcoin coin' => exact Or.inr ⟨coin, coin', rfl, rfl⟩
    | _ => exact absurd (by simp [← Except.ok.inj hb]) (hcoin coin ha)
  | _ =>
    cases b with
    | bitcoin coin => exact absurd (by simp [← Except.ok.inj ha]) (hcoin coin hb)
    | _ =>
      -- Two chains outside the family: the same one, or two constants that differ.
      first
        | exact Or.inl rfl
        | exact absurd ((Except.ok.inj ha).trans (Except.ok.inj hb).symm) (by decide +kernel)

/-- Each chain hashes its preimage, and preimages that are equal have one preamble and one message:
those of one chain, or of two coins of the Bitcoin family that share theirs. -/
theorem preimages_injective (hashes : MessageHashes) (lower : String → String) (a b : Chain) :
    (∀ message, a.signedMessageHash hashes lower message =
      (a.preimage lower message).map (a.hash hashes)) ∧
      ∀ m m' bytes, a.preimage lower m = .ok bytes → b.preimage lower m' = .ok bytes →
        m = m' ∧ (∃ start, a.preamble lower = .ok start ∧ b.preamble lower = .ok start) ∧
          (a = b ∨ ∃ coin coin', a = bitcoin coin ∧ b = bitcoin coin') := by
  refine ⟨fun message => ?_, fun m m' bytes ha hb => ?_⟩
  · cases a with
    | bitcoin coin =>
      simp only [signedMessageHash, Bitcoin.signedMessageHash, preimage]
      cases Bitcoin.signedMessagePreimage lower message coin <;> rfl
    | _ => rfl
  · obtain ⟨start, hstart, rfl⟩ := preimage_eq ha
    obtain ⟨start', hstart', heq⟩ := preimage_eq hb
    obtain ⟨rfl, hframed⟩ := preambles_apart.eq_of_append (mem_preambles hstart)
      (mem_preambles hstart') heq
    have hchain := eq_or_coins_of_preamble hstart hstart'
    have hframing : a.framing = b.framing := by
      rcases hchain with rfl | ⟨coin, coin', rfl, rfl⟩
      · rfl
      · rfl
    rw [hframing] at hframed
    exact ⟨b.framing.frame_injective hframed, ⟨_, hstart, hstart'⟩, hchain⟩

end Chain
end Recto
