/-
  UTF-8 on all text.

  `Utf8Char` lists the bytes of a character by their values.  What a decoder makes of encoded
  text, and that a byte below 0x80 stands for itself only, are read off it.
-/
import P4.Node.Line

namespace P4

/-! ### Bytes of a character -/

/-- The one to four bytes of the character with the number `n`. -/
inductive Utf8Char (n : Nat) : List UInt8 → Prop where
  | one (a : UInt8) : n < 0x80 → a.toNat = n → Utf8Char n [a]
  | two (a b : UInt8) : 0x80 ≤ n → n < 0x800 → a.toNat = 0xC0 + n / 0x40 →
    b.toNat = 0x80 + n % 0x40 → Utf8Char n [a, b]
  | three (a b c : UInt8) : 0x800 ≤ n → n < 0x10000 → a.toNat = 0xE0 + n / 0x1000 →
    b.toNat = 0x80 + n / 0x40 % 0x40 → c.toNat = 0x80 + n % 0x40 → Utf8Char n [a, b, c]
  | four (a b c d : UInt8) : 0x10000 ≤ n → n < 0x110000 → a.toNat = 0xF0 + n / 0x40000 →
    b.toNat = 0x80 + n / 0x1000 % 0x40 → c.toNat = 0x80 + n / 0x40 % 0x40 →
    d.toNat = 0x80 + n % 0x40 → Utf8Char n [a, b, c, d]

theorem toNat_lt_or (c : Char) : c.toNat < 0xD800 ∨ 0xE000 ≤ c.toNat ∧ c.toNat < 0x110000 := by
  have hv := c.valid
  have hval : c.val.toNat = c.toNat := rfl
  rcases hv with h | ⟨h, h'⟩
  · exact Or.inl h
  · exact Or.inr ⟨by omega, h'⟩

theorem utf8Char (c : Char) : Utf8Char c.toNat (String.utf8EncodeChar c) := by
  have hmax := toNat_lt_or c
  have hv : c.val.toNat = c.toNat := rfl
  unfold String.utf8EncodeChar
  dsimp only
  rw [hv]
  split_ifs with h₁ h₂ h₃
  · refine Utf8Char.one _ (by omega) ?_
    rw [UInt8.toNat_ofNat']
    omega
  · refine Utf8Char.two _ _ (by omega) (by omega) ?_ ?_ <;> rw [UInt8.toNat_ofNat'] <;> omega
  · refine Utf8Char.three _ _ _ (by omega) (by omega) ?_ ?_ ?_ <;> rw [UInt8.toNat_ofNat'] <;>
      omega
  · refine Utf8Char.four _ _ _ _ (by omega) (by omega) ?_ ?_ ?_ ?_ <;>
      rw [UInt8.toNat_ofNat'] <;> omega

theorem encodeText_cons (c : Char) (t : Text) :
    encodeText (c :: t) = String.utf8EncodeChar c ++ encodeText t := rfl

theorem encodeText_append (s t : Text) : encodeText (s ++ t) = encodeText s ++ encodeText t :=
  List.flatMap_append

/-- A byte below 0x80 stands for itself. -/
theorem mem_encodeText {t : Text} {b : UInt8} (hb : b ∈ encodeText t) (hlt : b.toNat < 0x80) :
    ∃ c ∈ t, c.toNat = b.toNat := by
  obtain ⟨c, hc, hmem⟩ := List.mem_flatMap.mp hb
  refine ⟨c, hc, ?_⟩
  have hform := utf8Char c
  generalize String.utf8EncodeChar c = bytes at hform hmem
  cases hform with
  | one a _ ha =>
    rw [List.mem_singleton.mp hmem, ha]
  | two a b' =>
    simp only [List.mem_cons, List.not_mem_nil, or_false] at hmem
    rcases hmem with rfl | rfl <;> omega
  | three a b' c' =>
    simp only [List.mem_cons, List.not_mem_nil, or_false] at hmem
    rcases hmem with rfl | rfl | rfl <;> omega
  | four a b' c' d =>
    simp only [List.mem_cons, List.not_mem_nil, or_false] at hmem
    rcases hmem with rfl | rfl | rfl | rfl <;> omega

/-! ### Decoding -/

theorem isContinuation_of_toNat {b : UInt8} {m : Nat} (h : b.toNat = 0x80 + m % 0x40) :
    isContinuation b = true := by
  simp only [isContinuation, Bool.and_eq_true, decide_eq_true_eq]
  omega

/-- A character is decoded from its bytes, and the rest after it. -/
theorem decodeUtf8_encodeChar (c : Char) (rest : List UInt8) :
    decodeUtf8 (String.utf8EncodeChar c ++ rest) = (decodeUtf8 rest).map (c :: ·) := by
  have hform := utf8Char c
  have hscalar := toNat_lt_or c
  generalize String.utf8EncodeChar c = bytes at hform
  -- the forms of one to four bytes; each bound on the value holds by the form
  cases hform with
  | one a hlt ha =>
    rw [List.cons_append, decodeUtf8.eq_def]
    dsimp only
    rw [if_pos (by omega), ha, Char.ofNat_toNat]
    rfl
  | two a b hge hlt ha hb =>
    have hvalue : (a.toNat - 0xC0) * 0x40 + (b.toNat - 0x80) = c.toNat := by omega
    rw [List.cons_append, decodeUtf8.eq_def]
    dsimp only [List.cons_append, List.nil_append]
    rw [if_neg (by omega), isContinuation_of_toNat hb, if_neg (by decide), if_pos (by omega),
      hvalue, Char.ofNat_toNat]
  | three a b d hge hlt ha hb hd =>
    have hvalue : (a.toNat - 0xE0) * 0x1000 + (b.toNat - 0x80) * 0x40 + (d.toNat - 0x80) =
        c.toNat := by omega
    rw [List.cons_append, decodeUtf8.eq_def]
    dsimp only [List.cons_append, List.nil_append]
    rw [if_neg (by omega), isContinuation_of_toNat hb, if_neg (by decide), if_neg (by omega),
      isContinuation_of_toNat hd, if_neg (by decide), if_pos (by omega), hvalue,
      if_pos (by omega), Char.ofNat_toNat]
  | four a b d e hge hlt ha hb hd he =>
    have hvalue : (a.toNat - 0xF0) * 0x40000 + (b.toNat - 0x80) * 0x1000 +
        (d.toNat - 0x80) * 0x40 + (e.toNat - 0x80) = c.toNat := by omega
    rw [List.cons_append, decodeUtf8.eq_def]
    dsimp only [List.cons_append, List.nil_append]
    rw [if_neg (by omega), isContinuation_of_toNat hb, if_neg (by decide), if_neg (by omega),
      isContinuation_of_toNat hd, if_neg (by decide), if_neg (by omega), hvalue,
      if_pos ⟨isContinuation_of_toNat he, by omega, by omega, by omega⟩, Char.ofNat_toNat]

/-- By induction on the text: each character is read off whole. -/
theorem decodeUtf8_encodeText_append (t : Text) (rest : List UInt8) :
    decodeUtf8 (encodeText t ++ rest) = (decodeUtf8 rest).map (t ++ ·) := by
  induction t with
  | nil => exact (Option.map_id_fun' ▸ rfl)
  | cons c t ih =>
    rw [encodeText_cons, List.append_assoc, decodeUtf8_encodeChar, ih, Option.map_map]
    rfl

/-- UTF-8 is read back. -/
theorem decodeUtf8_encodeText (t : Text) : decodeUtf8 (encodeText t) = some t := by
  have h := decodeUtf8_encodeText_append t []
  rw [List.append_nil] at h
  rw [h]
  simp [decodeUtf8]

end P4
