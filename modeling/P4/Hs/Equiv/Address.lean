/-
  The valid onion addresses are those of the valid keys (`hsAddressIsValid_iff`).
-/
import P4.Hs.Address
import P4.Hs.Equiv.Binascii

namespace P4

section

variable {crypto : OnionCrypto}

/-- Parsing an address gives what it was built from. -/
theorem hsParseAddress_build (hsha : ∀ data, (crypto.sha3 data).length = 32) {key : List UInt8}
    (hkey : key.length = 32) (version : UInt8) :
    hsParseAddress (hsBuildAddress crypto key version) =
      some (key, (buildHsChecksum crypto key version).take 2, version) := by
  have hchecksum : ((buildHsChecksum crypto key version).take 2).length = 2 := by
    rw [List.length_take, buildHsChecksum, hsha]
    rfl
  generalize hsum : (buildHsChecksum crypto key version).take 2 = checksum at hchecksum
  have hbytes : (key ++ checksum ++ [version]).length = 35 := by
    simp only [List.length_append, List.length_cons, List.length_nil, hkey, hchecksum]
  have hlength : (base32Encode (key ++ checksum ++ [version])).length = 56 := by
    rw [length_base32Encode, hbytes]
  rw [hsBuildAddress, hsum, hsParseAddress, if_neg (not_not.mpr hlength), base32Decode_encode,
    Option.bind_some, if_pos hbytes]
  have htake : (key ++ checksum ++ [version]).take 32 = key := by
    rw [List.append_assoc, ← hkey, List.take_left]
  have hdrop : ((key ++ checksum ++ [version]).drop 32).take 2 = checksum := by
    rw [List.append_assoc, ← hkey, List.drop_left, ← hchecksum, List.take_left]
  have hlast : (key ++ checksum ++ [version]).getD 34 0 = version := by
    rw [List.getD_eq_getElem?_getD, List.getElem?_append_right (by simp [hkey, hchecksum])]
    simp [hkey, hchecksum]
  rw [htake, hdrop, hlast]

/-- An address that can be parsed is built, up to the case of its letters, from its parts. -/
theorem base32Encode_of_parse {address key checksum : List UInt8} {version : UInt8}
    (h : hsParseAddress address = some (key, checksum, version)) :
    key.length = 32 ∧ base32Encode (key ++ checksum ++ [version]) = address.map torToLower := by
  rw [hsParseAddress] at h
  split_ifs at h with hlength
  obtain ⟨decoded, hdecoded, h⟩ := Option.bind_eq_some_iff.mp h
  split_ifs at h with hbytes
  cases h
  have hparts : decoded.take 32 ++ (decoded.drop 32).take 2 ++ [decoded.getD 34 0] = decoded := by
    obtain ⟨x, y, z, hdrop⟩ : ∃ x y z, decoded.drop 32 = [x, y, z] := by
      apply List.length_eq_three.mp
      rw [List.length_drop, hbytes]
    have hlast : decoded.getD 34 0 = z := by
      rw [List.getD_eq_getElem?_getD, show 34 = 32 + 2 from rfl, ← List.getElem?_drop, hdrop]
      rfl
    rw [hlast, hdrop, List.append_assoc]
    show decoded.take 32 ++ [x, y, z] = decoded
    rw [← hdrop, List.take_append_drop]
  rw [hparts]
  exact ⟨by rw [List.length_take]; omega, base32Encode_of_decode hdecoded (by omega)⟩

/-- The case of letters makes no difference. -/
theorem hsParseAddress_lower (address : List UInt8) :
    hsParseAddress (address.map torToLower) = hsParseAddress address := by
  have hvalue : ∀ c, base32Value (torToLower c) = base32Value c := by
    have hall : ∀ n < 256, base32Value (torToLower (UInt8.ofNat n)) =
        base32Value (UInt8.ofNat n) := by
      decide +kernel
    intro c
    have hc := hall c.toNat c.toNat_lt
    rwa [UInt8.ofNat_toNat] at hc
  have hvalues : (address.map torToLower).mapM base32Value = address.mapM base32Value := by
    induction address with
    | nil => rfl
    | cons c address ih => rw [List.map_cons, List.mapM_cons, List.mapM_cons, hvalue, ih]
  rw [hsParseAddress, hsParseAddress, base32Decode, base32Decode, hvalues, List.length_map]

/-- Addresses are valid that are built from a valid key, in letters of either case. -/
theorem hsAddressIsValid_iff (hsha : ∀ data, (crypto.sha3 data).length = 32)
    (address : List UInt8) :
    hsAddressIsValid crypto address = true ↔ ∃ key version, key.length = 32 ∧
      crypto.validPubkey key = true ∧
      address.map torToLower = hsBuildAddress crypto key version := by
  constructor
  · intro hvalid
    rw [hsAddressIsValid] at hvalid
    split at hvalid
    · cases hvalid
    · next key checksum version hparse =>
      rw [Bool.and_eq_true, decide_eq_true_eq] at hvalid
      obtain ⟨hkey, hencode⟩ := base32Encode_of_parse hparse
      refine ⟨key, version, hkey, hvalid.2, ?_⟩
      rw [hsBuildAddress, ← hvalid.1, hencode]
  · rintro ⟨key, version, hkey, hpubkey, heq⟩
    have hparse := hsParseAddress_build hsha hkey version
    rw [← heq, hsParseAddress_lower] at hparse
    rw [hsAddressIsValid, hparse]
    dsimp only
    rw [hpubkey, decide_eq_true rfl]
    rfl

/-- The valid addresses are those that are built from a valid key, in letters of either case, and
no two keys or versions have the same address.

An address is parsed into the parts that it was built from, so equal addresses have equal keys. -/
theorem valid_addresses (hsha : ∀ data, (crypto.sha3 data).length = 32) :
    (∀ address, hsAddressIsValid crypto address = true ↔ ∃ key version, key.length = 32 ∧
      crypto.validPubkey key = true ∧
      address.map torToLower = hsBuildAddress crypto key version) ∧
    ∀ key key' version version', key.length = 32 → key'.length = 32 →
      hsBuildAddress crypto key version = hsBuildAddress crypto key' version' →
        key = key' ∧ version = version' := by
  refine ⟨hsAddressIsValid_iff hsha, ?_⟩
  intro key key' version version' hkey hkey' heq
  have hparse := hsParseAddress_build hsha hkey version
  rw [heq, hsParseAddress_build hsha hkey' version', Option.some.injEq, Prod.mk.injEq,
    Prod.mk.injEq] at hparse
  exact ⟨hparse.1.symm, hparse.2.2.symm⟩

end

namespace Sample

def onionKey : List UInt8 :=
  [3, 161, 7, 191, 243, 206, 16, 190, 29, 112, 221, 24, 231, 75, 192, 153, 103, 228, 214, 48, 155,
    165, 13, 95, 29, 220, 134, 100, 18, 85, 49, 184]

/-- The SHA3-256 of what the checksum of `onionKey` is made from. -/
def onionDigest : List UInt8 :=
  [24, 16, 147, 231, 65, 207, 184, 23, 219, 114, 6, 18, 173, 8, 174, 62, 117, 149, 112, 125, 125,
    24, 18, 253, 71, 118, 1, 234, 91, 115, 56, 138]

def onionCrypto : OnionCrypto where
  sha3 data :=
    if data = ascii ".onion checksum" ++ onionKey ++ [hsVersionThree] then onionDigest
    else List.replicate 32 0
  validPubkey key := key = onionKey

theorem length_sha3 (data : List UInt8) : (onionCrypto.sha3 data).length = 32 := by
  rw [onionCrypto]
  dsimp only
  split_ifs
  · rfl
  · exact List.length_replicate

end Sample

theorem valid_addresses_sample : hsAddressIsValid Sample.onionCrypto
    (ascii "AOQQPP7TZYIL4HLQ3UMOOS6ATFT6JVRQTOSQ2XY53SDGIESVGG4bqead") = true :=
  ((valid_addresses Sample.length_sha3).1 _).mpr
    ⟨Sample.onionKey, hsVersionThree, by decide, by decide, by decide +kernel⟩

end P4
