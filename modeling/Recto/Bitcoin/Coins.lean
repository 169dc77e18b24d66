import Recto.Text.Chars
import Recto.Json.Value

/-!
# The coins of the Bitcoin family

`COIN_CONFIG` of `recto.bitcoin`: what a coin signs its messages under, and the
version bytes and the human-readable parts of its addresses. `str.lower` is a
parameter.
-/

namespace Recto
namespace Bitcoin

/-- An entry of `COIN_CONFIG`, as far as messages and addresses read it. -/
structure CoinConfig where
  name : String
  preamble : Bytes
  p2pkhVersionMainnet : UInt8
  p2pkhVersionTestnet : UInt8
  p2shVersionMainnet : UInt8
  p2shVersionTestnet : UInt8
  bech32HrpMainnet : Option String
  bech32HrpTestnet : Option String
  bech32HrpRegtest : Option String
  defaultAddressKind : String

/-- `COIN_CONFIG` -/
def coinConfig : List (String × CoinConfig) :=
  [("btc",
      { name := "Bitcoin"
        preamble := utf8 "Bitcoin Signed Message:\n"
        p2pkhVersionMainnet := 0x00
        p2pkhVersionTestnet := 0x6F
        p2shVersionMainnet := 0x05
        p2shVersionTestnet := 0xC4
        bech32HrpMainnet := some "bc"
        bech32HrpTestnet := some "tb"
        bech32HrpRegtest := some "bcrt"
        defaultAddressKind := "p2wpkh" }),
    ("ltc",
      { name := "Litecoin"
        preamble := utf8 "Litecoin Signed Message:\n"
        p2pkhVersionMainnet := 0x30
        p2pkhVersionTestnet := 0x6F
        p2shVersionMainnet := 0x32
        p2shVersionTestnet := 0x3A
        bech32HrpMainnet := some "ltc"
        bech32HrpTestnet := some "tltc"
        bech32HrpRegtest := some "rltc"
        defaultAddressKind := "p2wpkh" }),
    ("doge",
      { name := "Dogecoin"
        preamble := utf8 "Dogecoin Signed Message:\n"
        p2pkhVersionMainnet := 0x1E
        p2pkhVersionTestnet := 0x71
        p2shVersionMainnet := 0x16
        p2shVersionTestnet := 0xC4
        bech32HrpMainnet := none
        bech32HrpTestnet := none
        bech32HrpRegtest := none
        defaultAddressKind := "p2pkh" }),
    ("bch",
      { name := "Bitcoin Cash"
        preamble := utf8 "Bitcoin Signed Message:\n"
        p2pkhVersionMainnet := 0x00
        p2pkhVersionTestnet := 0x6F
        p2shVersionMainnet := 0x05
        p2shVersionTestnet := 0xC4
        bech32HrpMainnet := none
        bech32HrpTestnet := none
        bech32HrpRegtest := none
        defaultAddressKind := "p2pkh" })]

/-- `_coin_cfg` -/
def coinCfg (lower : String → String) (coin : String) : Except PyError CoinConfig :=
  match coinConfig.lookup (lower coin) with
  | some cfg => .ok cfg
  | none => .error .valueError

theorem mem_of_coinCfg {lower : String → String} {coin : String} {cfg : CoinConfig}
    (h : coinCfg lower coin = .ok cfg) : cfg ∈ coinConfig.map Prod.snd := by
  unfold coinCfg at h
  split at h
  · rename_i found hfound
    obtain rfl := Except.ok.inj h
    obtain ⟨before, after, heq, -⟩ := List.lookup_eq_some_iff.mp hfound
    exact List.mem_map.mpr ⟨_, heq ▸ List.mem_append_right _ List.mem_cons_self, rfl⟩
  · cases h

end Bitcoin
end Recto
