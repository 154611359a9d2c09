/-
  What the relay encodes it decodes again.

  The loops of base64 collect bits until there are 24 of them, so on whole groups they agree with
  the groups of `Base64.encode` and `Base64.decode` (`base64Encode_eq`,
  `base64DecodeLoop_of_decode`); white space is passed over (`base64DecodeLoop_filter`).

  Of base32 both directions are shown digit by digit and byte by byte: decoding what was encoded
  (`base32Decode_encode`), and encoding what was decoded (`base32Encode_of_decode`), which gives
  the text back in lower case.
-/
import P4.Base64.Basic
import P4.Control.Equiv.Command
import P4.Hs.Binascii

namespace P4

/-! ### Base64 -/

theorem shiftLeft_or {m b k : Nat} (hb : b < 2 ^ k) : (m <<< k) ||| b = m * 2 ^ k + b := by
  rw [← Nat.shiftLeft_add_eq_or_of_lt hb, Nat.shiftLeft_eq]

/-- A digit that is written, from the group of bits it stands in. -/
theorem encodeN_eq {n idx k : Nat} (h : n / 2 ^ ((3 - idx) * 6) % 64 = k) :
    encodeN n idx = UInt8.ofNat (Base64.digit k).toNat := by
  have htable : ∀ k < 64, base64EncodeTable.getD k 0 = UInt8.ofNat (Base64.digit k).toNat := by
    decide +kernel
  rw [encodeN, Nat.shiftRight_eq_div_pow, Nat.and_two_pow_sub_one_eq_mod _ 6, ← h]
  exact htable _ (Nat.mod_lt _ (by decide))

/-- Three bytes are four digits; what is left over is padded. -/
theorem base64Encode_eq (src : List UInt8) : base64Encode src = bytesOf (Base64.encode src) := by
  show base64EncodeLoop 0 0 src = _
  induction src using Base64.encode.induct with
  | case1 => rfl
  | case2 a =>
    have ha := a.toNat_lt
    have hn : (0 <<< 8 ||| a.toNat) <<< 4 = a.toNat * 16 := by
      rw [shiftLeft_or ha, Nat.shiftLeft_eq]
      omega
    show [encodeN ((0 <<< 8 ||| a.toNat) <<< 4) 2, encodeN ((0 <<< 8 ||| a.toNat) <<< 4) 3,
      61, 61] =
      bytesOf [Base64.digit (a.toNat / 4), Base64.digit (a.toNat % 4 * 16), '=', '=']
    rw [hn, encodeN_eq (show _ = a.toNat / 4 by norm_num; omega),
      encodeN_eq (show _ = a.toNat % 4 * 16 by norm_num; omega)]
    rfl
  | case3 a b =>
    have ha := a.toNat_lt
    have hb := b.toNat_lt
    have hn : ((0 <<< 8 ||| a.toNat) <<< 8 ||| b.toNat) <<< 2 =
        (a.toNat * 256 + b.toNat) * 4 := by
      rw [shiftLeft_or ha, shiftLeft_or hb, Nat.shiftLeft_eq]
      omega
    show [encodeN (((0 <<< 8 ||| a.toNat) <<< 8 ||| b.toNat) <<< 2) 1,
      encodeN (((0 <<< 8 ||| a.toNat) <<< 8 ||| b.toNat) <<< 2) 2,
      encodeN (((0 <<< 8 ||| a.toNat) <<< 8 ||| b.toNat) <<< 2) 3, 61] =
        bytesOf [Base64.digit (a.toNat / 4), Base64.digit (a.toNat % 4 * 16 + b.toNat / 16),
          Base64.digit (b.toNat % 16 * 4), '=']
    rw [hn, encodeN_eq (show _ = a.toNat / 4 by norm_num; omega),
      encodeN_eq (show _ = a.toNat % 4 * 16 + b.toNat / 16 by norm_num; omega),
      encodeN_eq (show _ = b.toNat % 16 * 4 by norm_num; omega)]
    rfl
  | case4 a b c r ih =>
    have ha := a.toNat_lt
    have hb := b.toNat_lt
    have hc := c.toNat_lt
    have hn : ((0 <<< 8 ||| a.toNat) <<< 8 ||| b.toNat) <<< 8 ||| c.toNat =
        (a.toNat * 256 + b.toNat) * 256 + c.toNat := by
      rw [shiftLeft_or ha, shiftLeft_or hb, shiftLeft_or hc]
      omega
    show encodeN (((0 <<< 8 ||| a.toNat) <<< 8 ||| b.toNat) <<< 8 ||| c.toNat) 0 ::
      encodeN (((0 <<< 8 ||| a.toNat) <<< 8 ||| b.toNat) <<< 8 ||| c.toNat) 1 ::
      encodeN (((0 <<< 8 ||| a.toNat) <<< 8 ||| b.toNat) <<< 8 ||| c.toNat) 2 ::
      encodeN (((0 <<< 8 ||| a.toNat) <<< 8 ||| b.toNat) <<< 8 ||| c.toNat) 3 ::
      base64EncodeLoop 0 0 r = bytesOf (Base64.digit (a.toNat / 4) ::
        Base64.digit (a.toNat % 4 * 16 + b.toNat / 16) ::
        Base64.digit (b.toNat % 16 * 4 + c.toNat / 64) :: Base64.digit (c.toNat % 64) ::
        Base64.encode r)
    rw [hn, ih, encodeN_eq (show _ = a.toNat / 4 by norm_num; omega),
      encodeN_eq (show _ = a.toNat % 4 * 16 + b.toNat / 16 by norm_num; omega),
      encodeN_eq (show _ = b.toNat % 16 * 4 + c.toNat / 64 by norm_num; omega),
      encodeN_eq (show _ = c.toNat % 64 by norm_num; omega)]
    rfl

/-- White space is passed over. -/
theorem base64DecodeLoop_filter (destlen n nIdx : Nat) (dest s : List UInt8) :
    base64DecodeLoop destlen n nIdx dest s = base64DecodeLoop destlen n nIdx dest
      (s.filter fun c => base64DecodeTable c ≠ .space) := by
  induction s generalizing n nIdx dest with
  | nil => rfl
  | cons c s ih =>
    cases hc : base64DecodeTable c with
    | space =>
      rw [List.filter_cons, if_neg (by simp [hc]), ← ih, base64DecodeLoop, hc]
    | invalid =>
      rw [List.filter_cons, if_pos (by simp [hc]), base64DecodeLoop, base64DecodeLoop, hc]
    | pad =>
      rw [List.filter_cons, if_pos (by simp [hc]), base64DecodeLoop, base64DecodeLoop, hc]
    | digit v =>
      rw [List.filter_cons, if_pos (by simp [hc]), base64DecodeLoop, base64DecodeLoop, hc]
      dsimp only
      rw [ih, ih]

/-- A character has a value as the digit of it. -/
theorem eq_digit_of_value {c : Char} {k : Nat} (h : Base64.value c = some k) :
    c = Base64.digit k ∧ k < 64 := by
  have hchar : ∀ {n : Nat}, n = c.toNat → c = Char.ofNat n := by
    rintro n rfl
    exact (Char.ofNat_toNat c).symm
  simp only [Base64.value] at h
  split_ifs at h with hupper hlower hdigit hplus hslash <;> cases h
  · rw [Base64.digit, if_pos (by omega)]
    exact ⟨hchar (by omega), by omega⟩
  · rw [Base64.digit, if_neg (by omega), if_pos (by omega)]
    exact ⟨hchar (by omega), by omega⟩
  · rw [Base64.digit, if_neg (by omega), if_neg (by omega), if_pos (by omega)]
    exact ⟨hchar (by omega), by omega⟩
  · exact ⟨hplus, by decide⟩
  · exact ⟨hslash, by decide⟩

theorem base64DecodeTable_value {c : Char} {k : Nat} (h : Base64.value c = some k) :
    base64DecodeTable (UInt8.ofNat c.toNat) = .digit k ∧ k < 2 ^ 6 := by
  have htable : ∀ k < 64, base64DecodeTable (UInt8.ofNat (Base64.digit k).toNat) = .digit k := by
    decide +kernel
  obtain ⟨rfl, hk⟩ := eq_digit_of_value h
  exact ⟨htable k hk, hk⟩

/-- A digit that does not fill a group. -/
theorem base64DecodeLoop_digit {c : UInt8} {v nIdx : Nat} (hc : base64DecodeTable c = .digit v)
    (hlt : nIdx < 3) (destlen n : Nat) (dest s : List UInt8) :
    base64DecodeLoop destlen n nIdx dest (c :: s) =
      base64DecodeLoop destlen ((n <<< 6) ||| v) (nIdx + 1) dest s := by
  rw [base64DecodeLoop, hc]
  exact if_neg (by omega)

/-- A digit that fills a group. -/
theorem base64DecodeLoop_full {c : UInt8} {v : Nat} (hc : base64DecodeTable c = .digit v)
    (destlen n : Nat) (dest s : List UInt8) :
    base64DecodeLoop destlen n 3 dest (c :: s) =
      if dest.length + 3 ≤ destlen then
        base64DecodeLoop destlen 0 0 (dest ++ [UInt8.ofNat (((n <<< 6) ||| v) >>> 16),
          UInt8.ofNat ((((n <<< 6) ||| v) >>> 8) &&& 0xff),
          UInt8.ofNat (((n <<< 6) ||| v) &&& 0xff)]) s
      else none := by
  rw [base64DecodeLoop, hc]
  dsimp only
  rw [if_pos (by decide : 3 + 1 = 4)]
  by_cases h : dest.length + 3 ≤ destlen
  · rw [if_neg (by omega), if_pos h]
  · rw [if_pos (by omega), if_neg h]

/-- Four digits are three bytes. -/
theorem base64DecodeLoop_group {w x y z : Char} {i j k l : Nat} (hw : Base64.value w = some i)
    (hx : Base64.value x = some j) (hy : Base64.value y = some k) (hz : Base64.value z = some l)
    (destlen : Nat) (dest s : List UInt8) :
    base64DecodeLoop destlen 0 0 dest (bytesOf [w, x, y, z] ++ s) =
      if dest.length + 3 ≤ destlen then
        base64DecodeLoop destlen 0 0 (dest ++ [UInt8.ofNat (i * 4 + j / 16),
          UInt8.ofNat (j % 16 * 16 + k / 4), UInt8.ofNat (k % 4 * 64 + l)]) s
      else none := by
  obtain ⟨htw, hi⟩ := base64DecodeTable_value hw
  obtain ⟨htx, hj⟩ := base64DecodeTable_value hx
  obtain ⟨hty, hk⟩ := base64DecodeTable_value hy
  obtain ⟨htz, hl⟩ := base64DecodeTable_value hz
  have hn : (((0 <<< 6 ||| i) <<< 6 ||| j) <<< 6 ||| k) <<< 6 ||| l =
      ((i * 64 + j) * 64 + k) * 64 + l := by
    rw [shiftLeft_or hi, shiftLeft_or hj, shiftLeft_or hk, shiftLeft_or hl]
    omega
  have h₁ : (((i * 64 + j) * 64 + k) * 64 + l) >>> 16 = i * 4 + j / 16 := by
    rw [Nat.shiftRight_eq_div_pow]
    omega
  have h₂ : ((((i * 64 + j) * 64 + k) * 64 + l) >>> 8) &&& 0xff = j % 16 * 16 + k / 4 := by
    rw [Nat.shiftRight_eq_div_pow, Nat.and_two_pow_sub_one_eq_mod _ 8]
    omega
  have h₃ : (((i * 64 + j) * 64 + k) * 64 + l) &&& 0xff = k % 4 * 64 + l := by
    rw [Nat.and_two_pow_sub_one_eq_mod _ 8]
    omega
  show base64DecodeLoop destlen 0 0 dest (UInt8.ofNat w.toNat :: UInt8.ofNat x.toNat ::
    UInt8.ofNat y.toNat :: UInt8.ofNat z.toNat :: s) = _
  rw [base64DecodeLoop_digit htw (by decide), base64DecodeLoop_digit htx (by decide),
    base64DecodeLoop_digit hty (by decide), base64DecodeLoop_full htz, hn, h₁, h₂, h₃]

/-- Three digits are two bytes. -/
theorem base64DecodeLoop_two {w x y : Char} {i j k : Nat} (hw : Base64.value w = some i)
    (hx : Base64.value x = some j) (hy : Base64.value y = some k) (destlen : Nat)
    (dest : List UInt8) :
    base64DecodeLoop destlen 0 0 dest (bytesOf [w, x, y, '=']) =
      if dest.length + 2 ≤ destlen then
        some (dest ++ [UInt8.ofNat (i * 4 + j / 16), UInt8.ofNat (j % 16 * 16 + k / 4)])
      else none := by
  obtain ⟨htw, hi⟩ := base64DecodeTable_value hw
  obtain ⟨htx, hj⟩ := base64DecodeTable_value hx
  obtain ⟨hty, hk⟩ := base64DecodeTable_value hy
  have hn : ((0 <<< 6 ||| i) <<< 6 ||| j) <<< 6 ||| k = (i * 64 + j) * 64 + k := by
    rw [shiftLeft_or hi, shiftLeft_or hj, shiftLeft_or hk]
    omega
  have h₁ : ((i * 64 + j) * 64 + k) >>> 10 = i * 4 + j / 16 := by
    rw [Nat.shiftRight_eq_div_pow]
    omega
  have h₂ : UInt8.ofNat (((i * 64 + j) * 64 + k) >>> 2) = UInt8.ofNat (j % 16 * 16 + k / 4) := by
    apply UInt8.toNat_inj.mp
    rw [Nat.shiftRight_eq_div_pow, UInt8.toNat_ofNat', UInt8.toNat_ofNat']
    omega
  show base64DecodeLoop destlen 0 0 dest
    [UInt8.ofNat w.toNat, UInt8.ofNat x.toNat, UInt8.ofNat y.toNat, 61] = _
  rw [base64DecodeLoop_digit htw (by decide), base64DecodeLoop_digit htx (by decide),
    base64DecodeLoop_digit hty (by decide), hn]
  show (if destlen < 2 ∨ destlen - 2 < dest.length then none else some _) = _
  rw [h₁, h₂]
  by_cases h : dest.length + 2 ≤ destlen
  · rw [if_neg (by omega), if_pos h]
  · rw [if_pos (by omega), if_neg h]

/-- Two digits are one byte. -/
theorem base64DecodeLoop_one {w x : Char} {i j : Nat} (hw : Base64.value w = some i)
    (hx : Base64.value x = some j) (destlen : Nat) (dest : List UInt8) :
    base64DecodeLoop destlen 0 0 dest (bytesOf [w, x, '=', '=']) =
      if dest.length + 1 ≤ destlen then some (dest ++ [UInt8.ofNat (i * 4 + j / 16)])
      else none := by
  obtain ⟨htw, hi⟩ := base64DecodeTable_value hw
  obtain ⟨htx, hj⟩ := base64DecodeTable_value hx
  have hn : (0 <<< 6 ||| i) <<< 6 ||| j = i * 64 + j := by
    rw [shiftLeft_or hi, shiftLeft_or hj]
    omega
  have h₁ : (i * 64 + j) >>> 4 = i * 4 + j / 16 := by
    rw [Nat.shiftRight_eq_div_pow]
    omega
  show base64DecodeLoop destlen 0 0 dest [UInt8.ofNat w.toNat, UInt8.ofNat x.toNat, 61, 61] = _
  rw [base64DecodeLoop_digit htw (by decide), base64DecodeLoop_digit htx (by decide), hn]
  show (if destlen < 1 ∨ destlen - 1 < dest.length then none else some _) = _
  rw [h₁]
  by_cases h : dest.length + 1 ≤ destlen
  · rw [if_neg (by omega), if_pos h]
  · rw [if_pos (by omega), if_neg h]

/-- What a strict decoder accepts the relay decodes to the same bytes, if they fit. -/
theorem base64DecodeLoop_of_decode {t : Text} {b : List UInt8} (h : Base64.decode t = some b)
    {destlen : Nat} {dest : List UInt8} (hdest : dest.length ≤ destlen) :
    base64DecodeLoop destlen 0 0 dest (bytesOf t) =
      if dest.length + b.length ≤ destlen then some (dest ++ b) else none := by
  fun_induction Base64.decode t generalizing b dest with
  | case1 =>
    cases h
    rw [List.length_nil, List.append_nil, Nat.add_zero, if_pos hdest]
    rfl
  | case2 w x y z r i j hx hw hpad =>
    obtain ⟨rfl, rfl, rfl⟩ := hpad
    cases h
    exact base64DecodeLoop_one hw hx destlen dest
  | case5 w x y z r i j hx hw hpad k hy hpad' =>
    obtain ⟨rfl, rfl⟩ := hpad'
    cases h
    exact base64DecodeLoop_two hw hx hy destlen dest
  | case7 w x y z r i j hx hw hpad k hy hpad' l rest hrest hz ih =>
    cases h
    show base64DecodeLoop destlen 0 0 dest (bytesOf [w, x, y, z] ++ bytesOf r) = _
    rw [base64DecodeLoop_group hw hx hy hz]
    by_cases hfits : dest.length + 3 ≤ destlen
    · rw [if_pos hfits, ih hrest (by simpa using hfits)]
      simp only [List.length_append, List.length_cons, List.length_nil, List.append_assoc,
        List.cons_append, List.nil_append]
      congr 1
      apply propext
      omega
    · rw [if_neg hfits, if_neg (by simp only [List.length_cons]; omega)]
  | case3 => cases h
  | case4 => cases h
  | case6 => cases h
  | case8 => cases h
  | case9 => cases h
  | case10 => cases h

/-- The strict decoder's bytes, also with white space in the text. -/
theorem base64Decode_of_decode {t : Text} {b : List UInt8} (h : Base64.decode t = some b)
    {s : List UInt8} (hs : s.filter (fun c => base64DecodeTable c ≠ .space) = bytesOf t)
    (destlen : Nat) :
    base64Decode destlen s =
      if b.length ≤ destlen ∧ destlen ≤ intMax then some b else none := by
  rw [base64Decode, base64DecodeLoop_filter, hs, base64DecodeLoop_of_decode h (Nat.zero_le _),
    List.length_nil, Nat.zero_add, List.nil_append]
  by_cases hmax : intMax < destlen
  · rw [if_pos hmax, if_neg (fun hfits => Nat.not_le.mpr hmax hfits.2)]
  · rw [if_neg hmax]
    simp only [Nat.not_lt.mp hmax, and_true]

/-- What the relay has encoded it decodes to the same bytes, however the text is broken into lines
or spaced, exactly when they fit a buffer of a size that it accepts.

The loop passes over white space, and on what is left it agrees with the strict `Base64.decode`,
which inverts the encoder. -/
theorem base64_round_trip {b s : List UInt8}
    (hs : s.filter (fun c => base64DecodeTable c ≠ .space) = base64Encode b) (destlen : Nat) :
    base64Decode destlen s =
      if b.length ≤ destlen ∧ destlen ≤ intMax then some b else none := by
  rw [base64Encode_eq] at hs
  exact base64Decode_of_decode (Base64.decode_encode b) hs destlen

/-- Broken into two lines, with a space. -/
theorem base64_round_trip_sample :
    base64Decode 64 (ascii "aGVs\nbG8 gdw==\r\n") = some (ascii "hello w") :=
  base64_round_trip (show (ascii "aGVs\nbG8 gdw==\r\n").filter
    (fun c => base64DecodeTable c ≠ .space) = base64Encode (ascii "hello w") by decide +kernel) 64

/-! ### Base32 -/

theorem base32Value_chars : ∀ k < 32, base32Value (base32Chars.getD k 0) = some k := by
  decide +kernel

/-- A character has a value as the digit of it, in lower case. -/
theorem base32Chars_value {c : UInt8} {k : Nat} (h : base32Value c = some k) :
    k < 32 ∧ base32Chars.getD k 0 = torToLower c := by
  have hall : ∀ n < 256, ∀ k ∈ base32Value (UInt8.ofNat n), k < 32 ∧
      base32Chars.getD k 0 = torToLower (UInt8.ofNat n) := by
    decide +kernel
  have hc := hall c.toNat c.toNat_lt k
  rw [UInt8.ofNat_toNat] at hc
  exact hc h

/-- The five bits that stand `r` bits after the start of the byte `k`; the bytes go on with
zeros. -/
theorem base32Digit_eq (src : List UInt8) (k next : Nat) (hnext : k + 1 = next) {i r : Nat}
    (hi : 5 * i = 8 * k + r) (hr : r < 8) : base32Digit src i =
      ((src.getD k 0).toNat * 256 + (src.getD next 0).toNat) / 2 ^ (11 - r) % 32 := by
  have hidx : 5 * i / 8 = k := by omega
  have hbit : 5 * i % 8 = r := by omega
  have hv : (if next < src.length then
      (src.getD k 0).toNat <<< 8 + (src.getD next 0).toNat else (src.getD k 0).toNat <<< 8) =
        (src.getD k 0).toNat * 256 + (src.getD next 0).toNat := by
    rw [Nat.shiftLeft_eq]
    split_ifs with hlt
    · rfl
    · have hzero : src.getD next 0 = 0 := by
        rw [List.getD_eq_getElem?_getD, List.getElem?_eq_none (by omega), Option.getD_none]
      rw [hzero, UInt8.toNat_zero, Nat.add_zero]
  simp only [base32Digit, hidx, hbit, hnext, hv]
  rw [Nat.shiftRight_eq_div_pow, Nat.and_two_pow_sub_one_eq_mod _ 5]

/-- The digits of a group of five bytes. -/
theorem base32Digit_group (src : List UInt8) (q : Nat) :
    base32Digit src (8 * q) = (src.getD (5 * q) 0).toNat / 8 ∧
    base32Digit src (8 * q + 1) =
      (src.getD (5 * q) 0).toNat % 8 * 4 + (src.getD (5 * q + 1) 0).toNat / 64 ∧
    base32Digit src (8 * q + 2) = (src.getD (5 * q + 1) 0).toNat / 2 % 32 ∧
    base32Digit src (8 * q + 3) =
      (src.getD (5 * q + 1) 0).toNat % 2 * 16 + (src.getD (5 * q + 2) 0).toNat / 16 ∧
    base32Digit src (8 * q + 4) =
      (src.getD (5 * q + 2) 0).toNat % 16 * 2 + (src.getD (5 * q + 3) 0).toNat / 128 ∧
    base32Digit src (8 * q + 5) = (src.getD (5 * q + 3) 0).toNat / 4 % 32 ∧
    base32Digit src (8 * q + 6) =
      (src.getD (5 * q + 3) 0).toNat % 4 * 8 + (src.getD (5 * q + 4) 0).toNat / 32 ∧
    base32Digit src (8 * q + 7) = (src.getD (5 * q + 4) 0).toNat % 32 := by
  have hbyte : ∀ k, (src.getD k 0).toNat < 256 := fun k => (src.getD k 0).toNat_lt
  have b₀ := hbyte (5 * q)
  have b₁ := hbyte (5 * q + 1)
  have b₂ := hbyte (5 * q + 2)
  have b₃ := hbyte (5 * q + 3)
  have b₄ := hbyte (5 * q + 4)
  have b₅ := hbyte (5 * q + 5)
  refine ⟨?_, ?_, ?_, ?_, ?_, ?_, ?_, ?_⟩
  · rw [base32Digit_eq src (5 * q) (5 * q + 1) rfl
      (show _ = 8 * (5 * q) + 0 by omega) (by decide)]
    omega
  · rw [base32Digit_eq src (5 * q) (5 * q + 1) rfl
      (show _ = 8 * (5 * q) + 5 by omega) (by decide)]
    omega
  · rw [base32Digit_eq src (5 * q + 1) (5 * q + 2) rfl
      (show _ = 8 * (5 * q + 1) + 2 by omega) (by decide)]
    omega
  · rw [base32Digit_eq src (5 * q + 1) (5 * q + 2) rfl
      (show _ = 8 * (5 * q + 1) + 7 by omega) (by decide)]
    omega
  · rw [base32Digit_eq src (5 * q + 2) (5 * q + 3) rfl
      (show _ = 8 * (5 * q + 2) + 4 by omega) (by decide)]
    omega
  · rw [base32Digit_eq src (5 * q + 3) (5 * q + 4) rfl
      (show _ = 8 * (5 * q + 3) + 1 by omega) (by decide)]
    omega
  · rw [base32Digit_eq src (5 * q + 3) (5 * q + 4) rfl
      (show _ = 8 * (5 * q + 3) + 6 by omega) (by decide)]
    omega
  · rw [base32Digit_eq src (5 * q + 4) (5 * q + 5) rfl
      (show _ = 8 * (5 * q + 4) + 3 by omega) (by decide)]
    omega

/-- The bytes of a group of eight digits. -/
theorem base32Byte_eq (tmp : List Nat) (q : Nat) :
    (base32Byte tmp (5 * q)).toNat =
        (tmp.getD (8 * q) 0 * 8 + tmp.getD (8 * q + 1) 0 / 4) % 256 ∧
    (base32Byte tmp (5 * q + 1)).toNat = (tmp.getD (8 * q + 1) 0 * 64 +
        tmp.getD (8 * q + 2) 0 * 2 + tmp.getD (8 * q + 3) 0 / 16) % 256 ∧
    (base32Byte tmp (5 * q + 2)).toNat =
        (tmp.getD (8 * q + 3) 0 * 16 + tmp.getD (8 * q + 4) 0 / 2) % 256 ∧
    (base32Byte tmp (5 * q + 3)).toNat = (tmp.getD (8 * q + 4) 0 * 128 +
        tmp.getD (8 * q + 5) 0 * 4 + tmp.getD (8 * q + 6) 0 / 8) % 256 ∧
    (base32Byte tmp (5 * q + 4)).toNat =
        (tmp.getD (8 * q + 6) 0 * 32 + tmp.getD (8 * q + 7) 0) % 256 := by
  have h₀ : 8 * (5 * q) % 40 = 0 ∧ 8 * (5 * q) / 5 = 8 * q := by omega
  have h₁ : 8 * (5 * q + 1) % 40 = 8 ∧ 8 * (5 * q + 1) / 5 = 8 * q + 1 := by omega
  have h₂ : 8 * (5 * q + 2) % 40 = 16 ∧ 8 * (5 * q + 2) / 5 = 8 * q + 3 := by omega
  have h₃ : 8 * (5 * q + 3) % 40 = 24 ∧ 8 * (5 * q + 3) / 5 = 8 * q + 4 := by omega
  have h₄ : 8 * (5 * q + 4) % 40 = 32 ∧ 8 * (5 * q + 4) / 5 = 8 * q + 6 := by omega
  simp [base32Byte, h₀, h₁, h₂, h₃, h₄, Nat.shiftLeft_eq, Nat.shiftRight_eq_div_pow]

theorem mapM_map_some {α β γ : Type} {f : α → β} {g : β → Option γ} {h : α → γ}
    (hg : ∀ a, g (f a) = some (h a)) (l : List α) : (l.map f).mapM g = some (l.map h) := by
  induction l with
  | nil => rfl
  | cons a l ih =>
    rw [List.map_cons, List.mapM_cons, hg, ih]
    rfl

theorem getD_map_range (f : Nat → Nat) {m j : Nat} (h : j < m) :
    ((List.range m).map f).getD j 0 = f j := by
  rw [List.getD_eq_getElem?_getD, List.getElem?_map, List.getElem?_range h]
  rfl

theorem length_base32Encode (src : List UInt8) :
    (base32Encode src).length = (src.length * 8 + 4) / 5 := by
  rw [base32Encode, List.length_map, List.length_range]

/-- The bytes of a group come back from its digits. -/
theorem base32Byte_digits (src : List UInt8) {i : Nat} (hi : i < src.length) :
    base32Byte ((List.range ((src.length * 8 + 4) / 5)).map (base32Digit src)) i =
      src.getD i 0 := by
  have hbyte : ∀ k, (src.getD k 0).toNat < 256 := fun k => (src.getD k 0).toNat_lt
  have hdigit : ∀ j, j < (src.length * 8 + 4) / 5 →
      ((List.range ((src.length * 8 + 4) / 5)).map (base32Digit src)).getD j 0 =
        base32Digit src j := fun j hj => getD_map_range _ hj
  generalize (List.range ((src.length * 8 + 4) / 5)).map (base32Digit src) = tmp at hdigit
  apply UInt8.toNat_inj.mp
  have hrest : i = 5 * (i / 5) ∨ i = 5 * (i / 5) + 1 ∨ i = 5 * (i / 5) + 2 ∨
      i = 5 * (i / 5) + 3 ∨ i = 5 * (i / 5) + 4 := by omega
  generalize i / 5 = q at hrest
  obtain ⟨h₀, h₁, h₂, h₃, h₄⟩ := base32Byte_eq tmp q
  obtain ⟨d₀, d₁, d₂, d₃, d₄, d₅, d₆, d₇⟩ := base32Digit_group src q
  have b₀ := hbyte (5 * q)
  have b₁ := hbyte (5 * q + 1)
  have b₂ := hbyte (5 * q + 2)
  have b₃ := hbyte (5 * q + 3)
  have b₄ := hbyte (5 * q + 4)
  rcases hrest with rfl | rfl | rfl | rfl | rfl
  · rw [h₀, hdigit _ (by omega), hdigit _ (by omega), d₀, d₁]
    omega
  · rw [h₁, hdigit _ (by omega), hdigit _ (by omega), hdigit _ (by omega), d₁, d₂, d₃]
    omega
  · rw [h₂, hdigit _ (by omega), hdigit _ (by omega), d₃, d₄]
    omega
  · rw [h₃, hdigit _ (by omega), hdigit _ (by omega), hdigit _ (by omega), d₄, d₅, d₆]
    omega
  · rw [h₄, hdigit _ (by omega), hdigit _ (by omega), d₆, d₇]
    omega

/-- Decoding undoes encoding. -/
theorem base32Decode_encode (src : List UInt8) :
    base32Decode (base32Encode src) = some src := by
  have hlength : (src.length * 8 + 4) / 5 * 5 / 8 = src.length := by omega
  have hvalues : (base32Encode src).mapM base32Value =
      some ((List.range ((src.length * 8 + 4) / 5)).map (base32Digit src)) := by
    rw [base32Encode]
    apply mapM_map_some
    intro i
    apply base32Value_chars
    rw [base32Digit, Nat.and_two_pow_sub_one_eq_mod _ 5]
    exact Nat.mod_lt _ (by decide)
  rw [base32Decode, hvalues, Option.map_some, length_base32Encode, hlength, Option.some.injEq]
  apply List.ext_getElem
  · rw [List.length_map, List.length_range]
  · intro i hi hi'
    rw [List.getElem_map, List.getElem_range, base32Byte_digits src hi',
      List.getD_eq_getElem?_getD, List.getElem?_eq_getElem hi', Option.getD_some]

theorem mapM_getD {α : Type} {f : α → Option Nat} {l : List α} {tmp : List Nat}
    (h : l.mapM f = some tmp) :
    tmp.length = l.length ∧ ∀ j (hj : j < l.length), f l[j] = some (tmp.getD j 0) := by
  induction l generalizing tmp with
  | nil =>
    cases h
    exact ⟨rfl, fun j hj => absurd hj (Nat.not_lt_zero j)⟩
  | cons a l ih =>
    rw [List.mapM_cons] at h
    obtain ⟨k, hk, h⟩ := Option.bind_eq_some_iff.mp h
    obtain ⟨rest, hrest, h⟩ := Option.bind_eq_some_iff.mp h
    cases h
    obtain ⟨hlength, hvalue⟩ := ih hrest
    refine ⟨by rw [List.length_cons, List.length_cons, hlength], fun j hj => ?_⟩
    cases j with
    | zero => exact hk
    | succ j => exact hvalue j (Nat.lt_of_succ_lt_succ hj)

/-- The digits of a group come back from its bytes. -/
theorem base32Digit_bytes {tmp : List Nat} (htmp : ∀ j, tmp.getD j 0 < 32) {b : List UInt8}
    {q : Nat} (hb : ∀ k < 5, b.getD (5 * q + k) 0 = base32Byte tmp (5 * q + k)) {r : Nat}
    (hr : r < 8) : base32Digit b (8 * q + r) = tmp.getD (8 * q + r) 0 := by
  -- what the shifts of one digit and the next leave of it
  have a₀ : ∀ x y, x < 32 → y < 32 → (x * 8 + y / 4) % 256 / 8 = x := by omega
  have a₁ : ∀ x y z w, x < 32 → y < 32 → z < 32 → w < 32 →
      (x * 8 + y / 4) % 256 % 8 * 4 + (y * 64 + z * 2 + w / 16) % 256 / 64 = y := by omega
  have a₂ : ∀ y z w, y < 32 → z < 32 → w < 32 → (y * 64 + z * 2 + w / 16) % 256 / 2 % 32 = z := by
    omega
  have a₃ : ∀ y z w v, y < 32 → z < 32 → w < 32 → v < 32 →
      (y * 64 + z * 2 + w / 16) % 256 % 2 * 16 + (w * 16 + v / 2) % 256 / 16 = w := by omega
  have a₄ : ∀ w v u t, w < 32 → v < 32 → u < 32 → t < 32 →
      (w * 16 + v / 2) % 256 % 16 * 2 + (v * 128 + u * 4 + t / 8) % 256 / 128 = v := by omega
  have a₅ : ∀ v u t, v < 32 → u < 32 → t < 32 → (v * 128 + u * 4 + t / 8) % 256 / 4 % 32 = u := by
    omega
  have a₆ : ∀ v u t s, v < 32 → u < 32 → t < 32 → s < 32 →
      (v * 128 + u * 4 + t / 8) % 256 % 4 * 8 + (t * 32 + s) % 256 / 32 = t := by omega
  have a₇ : ∀ t s, t < 32 → s < 32 → (t * 32 + s) % 256 % 32 = s := by omega
  have hcases : r = 0 ∨ r = 1 ∨ r = 2 ∨ r = 3 ∨ r = 4 ∨ r = 5 ∨ r = 6 ∨ r = 7 := by omega
  obtain ⟨h₀, h₁, h₂, h₃, h₄⟩ := base32Byte_eq tmp q
  obtain ⟨d₀, d₁, d₂, d₃, d₄, d₅, d₆, d₇⟩ := base32Digit_group b q
  have b₀ : b.getD (5 * q) 0 = base32Byte tmp (5 * q) := hb 0 (by decide)
  have b₁ := hb 1 (by decide)
  have b₂ := hb 2 (by decide)
  have b₃ := hb 3 (by decide)
  have b₄ := hb 4 (by decide)
  rcases hcases with rfl | rfl | rfl | rfl | rfl | rfl | rfl | rfl
  · rw [Nat.add_zero, d₀, b₀, h₀]
    exact a₀ _ _ (htmp _) (htmp _)
  · rw [d₁, b₀, b₁, h₀, h₁]
    exact a₁ _ _ _ _ (htmp _) (htmp _) (htmp _) (htmp _)
  · rw [d₂, b₁, h₁]
    exact a₂ _ _ _ (htmp _) (htmp _) (htmp _)
  · rw [d₃, b₁, b₂, h₁, h₂]
    exact a₃ _ _ _ _ (htmp _) (htmp _) (htmp _) (htmp _)
  · rw [d₄, b₂, b₃, h₂, h₃]
    exact a₄ _ _ _ _ (htmp _) (htmp _) (htmp _) (htmp _)
  · rw [d₅, b₃, h₃]
    exact a₅ _ _ _ (htmp _) (htmp _) (htmp _)
  · rw [d₆, b₃, b₄, h₃, h₄]
    exact a₆ _ _ _ _ (htmp _) (htmp _) (htmp _) (htmp _)
  · rw [d₇, b₄, h₄]
    exact a₇ _ _ (htmp _) (htmp _)

/-- Encoding undoes decoding, up to the case of letters, where no bits are left over. -/
theorem base32Encode_of_decode {a b : List UInt8} (h : base32Decode a = some b)
    (ha : a.length % 8 = 0) : base32Encode b = a.map torToLower := by
  obtain ⟨tmp, htmp, rfl⟩ := Option.map_eq_some_iff.mp h
  obtain ⟨hlength, hvalue⟩ := mapM_getD htmp
  have hsmall : ∀ j, tmp.getD j 0 < 32 := by
    intro j
    by_cases hj : j < a.length
    · exact (base32Chars_value (hvalue j hj)).1
    · rw [List.getD_eq_getElem?_getD, List.getElem?_eq_none (by omega)]
      exact Nat.zero_lt_succ 31
  have hbytes : ((List.range (a.length * 5 / 8)).map (base32Byte tmp)).length =
      a.length * 5 / 8 := by
    rw [List.length_map, List.length_range]
  apply List.ext_getElem
  · rw [length_base32Encode, hbytes, List.length_map]
    omega
  · intro j hj hj'
    rw [List.length_map] at hj'
    have hgroup : ∀ k < 5, ((List.range (a.length * 5 / 8)).map (base32Byte tmp)).getD
        (5 * (j / 8) + k) 0 = base32Byte tmp (5 * (j / 8) + k) := by
      intro k hk
      rw [List.getD_eq_getElem?_getD, List.getElem?_map, List.getElem?_range (by omega)]
      rfl
    have hdigit := base32Digit_bytes hsmall hgroup (Nat.mod_lt j (by decide : 0 < 8))
    rw [show 8 * (j / 8) + j % 8 = j by omega] at hdigit
    simp only [base32Encode, List.getElem_map, List.getElem_range, hdigit]
    exact (base32Chars_value (hvalue j hj')).2

end P4
