/-
  Onion addresses in the relay: `hs_build_address`, `hs_parse_address` and `hs_address_is_valid`
  in `feature/hs/hs_common.c`.

  A public key is its 32 bytes.  SHA3-256 and the check of a key are parameters
  (`OnionCrypto`).
-/
import P4.Hs.Binascii

namespace P4

/-- What the relay takes from its cryptographic library. -/
structure OnionCrypto where
  /-- `crypto_digest256` with `DIGEST_SHA3_256` -/
  sha3 : List UInt8 → List UInt8
  /-- `ed25519_validate_pubkey` -/
  validPubkey : List UInt8 → Bool

/-- `HS_VERSION_THREE` -/
def hsVersionThree : UInt8 := 3

section

variable (crypto : OnionCrypto)

/-- `build_hs_checksum` -/
def buildHsChecksum (key : List UInt8) (version : UInt8) : List UInt8 :=
  crypto.sha3 (ascii ".onion checksum" ++ key ++ [version])

/-- `hs_build_address` with `build_hs_address` -/
def hsBuildAddress (key : List UInt8) (version : UInt8) : List UInt8 :=
  base32Encode (key ++ (buildHsChecksum crypto key version).take 2 ++ [version])

/-- `hs_parse_address`: the key, the checksum and the version. -/
def hsParseAddress (address : List UInt8) : Option (List UInt8 × List UInt8 × UInt8) :=
  -- `HS_SERVICE_ADDR_LEN_BASE32` and `HS_SERVICE_ADDR_LEN`
  if address.length ≠ 56 then none
  else (base32Decode address).bind fun decoded =>
    if decoded.length = 35 then
      some (decoded.take 32, (decoded.drop 32).take 2, decoded.getD 34 0)
    else none

/-- `hs_address_is_valid` -/
def hsAddressIsValid (address : List UInt8) : Bool :=
  match hsParseAddress address with
  | none => false
  | some (key, checksum, version) =>
    checksum = (buildHsChecksum crypto key version).take 2 && crypto.validPubkey key

end

end P4
