/-
  Which encodings of an invite are read as they were written.

  The decoders are tried in turn, and the first that does not fail decides.  With a byte order
  mark, and in UTF-8, the text is always read back.  In UTF-16 without a byte order mark the
  bytes may also be UTF-8, or UTF-16 in the order of the machine; the text is read back exactly
  when they are neither (`readInviteFile_iff`).
-/
import P4.Invite.Basic
import P4.Node.Equiv.Utf8
import P4.Node.Equiv.Line

namespace P4

/-! ### UTF-16 -/

/-- Two bytes in either order are the unit again. -/
theorem unit_unitBytes (order : ByteOrder) {u : Nat} (hu : u < 0x10000) :
    ∃ a b, order.unitBytes u = [a, b] ∧ order.unit a b = u := by
  cases order with
  | little =>
    refine ⟨_, _, rfl, ?_⟩
    rw [ByteOrder.unit, UInt8.toNat_ofNat', UInt8.toNat_ofNat']
    omega
  | big =>
    refine ⟨_, _, rfl, ?_⟩
    rw [ByteOrder.unit, UInt8.toNat_ofNat', UInt8.toNat_ofNat']
    omega

theorem decodeUtf16_encodeChar (order : ByteOrder) (c : Char) (rest : List UInt8) :
    decodeUtf16 order (encodeUtf16Char order c ++ rest) =
      (decodeUtf16 order rest).map (c :: ·) := by
  have hscalar := toNat_lt_or c
  rw [encodeUtf16Char]
  by_cases hc : c.toNat < 0x10000
  · obtain ⟨a, b, hbytes, hunit⟩ := unit_unitBytes order hc
    rw [if_pos hc, hbytes, List.cons_append, List.cons_append, List.nil_append,
      decodeUtf16.eq_def]
    dsimp only
    rw [hunit, if_pos (by omega), Char.ofNat_toNat]
  · -- a surrogate pair
    obtain ⟨a, b, hhigh, hu⟩ :=
      unit_unitBytes order (u := 0xD800 + (c.toNat - 0x10000) / 0x400) (by omega)
    obtain ⟨d, e, hlow, hv⟩ :=
      unit_unitBytes order (u := 0xDC00 + (c.toNat - 0x10000) % 0x400) (by omega)
    have hvalue : 0x10000 + (0xD800 + (c.toNat - 0x10000) / 0x400 - 0xD800) * 0x400 +
        (0xDC00 + (c.toNat - 0x10000) % 0x400 - 0xDC00) = c.toNat := by omega
    rw [if_neg hc, hhigh, hlow, decodeUtf16.eq_def]
    dsimp only [List.cons_append, List.nil_append]
    rw [hu, hv, if_neg (by omega), if_neg (by omega), if_pos (by omega), hvalue,
      Char.ofNat_toNat]

/-- UTF-16 is read back in the order in which it was written. -/
theorem decodeUtf16_encodeUtf16 (order : ByteOrder) (t : Text) :
    decodeUtf16 order (encodeUtf16 order t) = some t := by
  induction t with
  | nil => rfl
  | cons c t ih =>
    rw [encodeUtf16, List.flatMap_cons, decodeUtf16_encodeChar]
    rw [encodeUtf16] at ih
    rw [ih]
    rfl

/-! ### UTF-8 -/

/-- No character begins with such a byte in UTF-8. -/
theorem decodeUtf8_lead {a : UInt8} (ha : 0xF5 ≤ a.toNat) (rest : List UInt8) :
    decodeUtf8 (a :: rest) = none := by
  have htwo : ¬ (0xC2 ≤ a.toNat ∧ a.toNat < 0xE0) := by omega
  have hthree : ¬ (0xE0 ≤ a.toNat ∧ a.toNat < 0xF0) := by omega
  rw [decodeUtf8.eq_def]
  dsimp only
  rw [if_neg (by omega)]
  cases rest with
  | nil => rfl
  | cons b rest =>
    by_cases hb : (!isContinuation b) = true
    · exact if_pos hb
    · dsimp only
      rw [if_neg hb, if_neg htwo]
      cases rest with
      | nil => rfl
      | cons c rest =>
        by_cases hc : (!isContinuation c) = true
        · exact if_pos hc
        · dsimp only
          rw [if_neg hc, if_neg hthree]
          cases rest with
          | nil => rfl
          | cons d rest =>
            -- the value is beyond the last code point
            dsimp only
            rw [if_neg (by omega)]

theorem decodeUtf8_ascii_cons {c : Char} (hc : c.toNat < 0x80) (rest : List UInt8) :
    decodeUtf8 (asciiByte c :: rest) = (decodeUtf8 rest).map (c :: ·) := by
  have h := decodeUtf8_encodeChar c rest
  rwa [utf8EncodeChar_ascii hc] at h

/-- After more than no zero bytes, UTF-16 is never read in UTF-8 as the text it is of. -/
theorem decodeUtf8_zeros_ne (s : Text) (n : Nat) :
    decodeUtf8 (List.replicate (n + 1) 0 ++ encodeUtf16 .little s) ≠ some s := by
  have hzero : ∀ rest : List UInt8, decodeUtf8 (0 :: rest) =
      (decodeUtf8 rest).map ('\x00' :: ·) := decodeUtf8_ascii_cons (c := '\x00') (by decide)
  -- each character would have to be NUL, which adds two zero bytes and takes one away
  induction s generalizing n with
  | nil =>
    rw [List.replicate_succ, List.cons_append, hzero]
    cases decodeUtf8 (List.replicate n 0 ++ encodeUtf16 .little []) <;> exact nofun
  | cons c s ih =>
    rw [List.replicate_succ, List.cons_append, hzero]
    intro h
    obtain ⟨d, hd, hcons⟩ := Option.map_eq_some_iff.mp h
    obtain ⟨rfl, rfl⟩ := List.cons.inj hcons
    -- the character is NUL, which is two zero bytes
    have hbytes : List.replicate n 0 ++ encodeUtf16 .little ('\x00' :: d) =
        List.replicate (n + 1 + 1) 0 ++ encodeUtf16 .little d := by
      have hnul : encodeUtf16 .little ('\x00' :: d) = 0 :: 0 :: encodeUtf16 .little d := rfl
      rw [hnul, List.replicate_succ', List.replicate_succ', List.append_assoc, List.append_assoc]
      rfl
    rw [hbytes] at hd
    exact ih (n + 1) hd

/-! ### The first decoder -/

section

variable {native : ByteOrder} {raw : List UInt8}

/-- `utf-8-sig` decides when it does not fail. -/
theorem readInviteFile_utf8 {text : Text} (h : decodeUtf8Sig raw = some text) :
    readInviteFile native raw = .ok (lstripBom text) := by
  rw [readInviteFile, readTextAnyCommonEncoding]
  simp only [List.findSome?_cons, h]
  rfl

/-- After it, `utf-16` decides. -/
theorem readInviteFile_utf16 (h : decodeUtf8Sig raw = none) {text : Text}
    (h' : decodeUtf16Bom native raw = some text) :
    readInviteFile native raw = .ok (lstripBom text) := by
  rw [readInviteFile, readTextAnyCommonEncoding]
  simp only [List.findSome?_cons, h, h']
  rfl

/-- When the order of the machine does not fit, the other one is tried. -/
theorem readInviteFile_other (h : decodeUtf8Sig raw = none)
    (h' : decodeUtf16Bom native raw = none) (hnative : decodeUtf16 native raw = none)
    {order : ByteOrder} (horder : order ≠ native) {text : Text}
    (htext : decodeUtf16 order raw = some text) :
    readInviteFile native raw = .ok (lstripBom text) := by
  rw [readInviteFile, readTextAnyCommonEncoding]
  cases order with
  | little =>
    simp only [List.findSome?_cons, h, h', htext]
    rfl
  | big =>
    cases native with
    | little =>
      simp only [List.findSome?_cons, h, h', hnative, htext]
      rfl
    | big => exact absurd rfl horder

end

theorem lstripBom_cons {c : Char} (hc : c ≠ '\uFEFF') (t : Text) : lstripBom (c :: t) = c :: t :=
  List.dropWhile_cons_of_neg (by rwa [decide_eq_true_eq])

/-! ### Byte order marks -/

theorem decodeUtf8Sig_cons {a : UInt8} (ha : a ≠ 0xEF) (rest : List UInt8) :
    decodeUtf8Sig (a :: rest) = decodeUtf8 (a :: rest) := by
  have hbom : bomUtf8.isPrefixOf (a :: rest) = false := by
    rw [bomUtf8, List.isPrefixOf, beq_false_of_ne (Ne.symm ha), Bool.false_and]
  rw [decodeUtf8Sig, hbom, if_neg (by decide)]

theorem decodeUtf8Sig_bom (rest : List UInt8) :
    decodeUtf8Sig (bomUtf8 ++ rest) = decodeUtf8 rest := by
  have hbom : bomUtf8.isPrefixOf (bomUtf8 ++ rest) = true := by
    rw [List.isPrefixOf_iff_prefix]
    exact List.prefix_append _ _
  rw [decodeUtf8Sig, if_pos hbom]
  rfl

theorem decodeUtf16Bom_cons {native : ByteOrder} {a : UInt8} (hff : a ≠ 0xFF) (hfe : a ≠ 0xFE)
    (rest : List UInt8) :
    decodeUtf16Bom native (a :: rest) = decodeUtf16 native (a :: rest) := by
  have hlittle : ByteOrder.little.bom = [0xFF, 0xFE] := rfl
  have hbig : ByteOrder.big.bom = [0xFE, 0xFF] := rfl
  rw [decodeUtf16Bom, hlittle, hbig, List.isPrefixOf, List.isPrefixOf,
    beq_false_of_ne (Ne.symm hff), beq_false_of_ne (Ne.symm hfe), Bool.false_and, Bool.false_and,
    if_neg (by decide), if_neg (by decide)]

/-- The mark decides the order. -/
theorem decodeUtf16Bom_bom (native order : ByteOrder) (rest : List UInt8) :
    decodeUtf16Bom native (order.bom ++ rest) = decodeUtf16 order rest := by
  cases order <;> rfl

/-- With a byte order mark, the bytes are not UTF-8. -/
theorem decodeUtf8Sig_bomUtf16 (order : ByteOrder) (rest : List UInt8) :
    decodeUtf8Sig (order.bom ++ rest) = none := by
  cases order with
  | little => exact (decodeUtf8Sig_cons (by decide) _).trans (decodeUtf8_lead (by decide) _)
  | big => exact (decodeUtf8Sig_cons (by decide) _).trans (decodeUtf8_lead (by decide) _)

/-! ### Invites -/

/-- No decoder before the right one accepts the bytes. -/
def TextEncoding.Distinct (native : ByteOrder) (t : Text) : TextEncoding → Prop
  | utf8 => True
  | utf8Sig => True
  | utf16 _ => True
  | utf16NoBom order =>
    decodeUtf8 (encodeUtf16 order t) = none ∧
      (order ≠ native → decodeUtf16 native (encodeUtf16 order t) = none)

section

variable {native order : ByteOrder} {s : Text}

/-- In UTF-16 without a byte order mark, the first decoder is plain UTF-8. -/
theorem decodeUtf8Sig_utf16 (order : ByteOrder) (s : Text) :
    decodeUtf8Sig (encodeUtf16 order ('{' :: s)) = decodeUtf8 (encodeUtf16 order ('{' :: s)) := by
  cases order <;> exact decodeUtf8Sig_cons (by decide) _

theorem decodeUtf16Bom_utf16 (native order : ByteOrder) (s : Text) :
    decodeUtf16Bom native (encodeUtf16 order ('{' :: s)) =
      decodeUtf16 native (encodeUtf16 order ('{' :: s)) := by
  cases order <;> exact decodeUtf16Bom_cons (by decide) (by decide) _

/-- Bytes that are UTF-8 as well are read as another text. -/
theorem lstripBom_utf8_ne {text : Text}
    (h : decodeUtf8 (encodeUtf16 order ('{' :: s)) = some text) : lstripBom text ≠ '{' :: s := by
  cases order with
  | little =>
    have hbytes : encodeUtf16 .little ('{' :: s) =
        asciiByte '{' :: (List.replicate 1 0 ++ encodeUtf16 .little s) := rfl
    rw [hbytes, decodeUtf8_ascii_cons (by decide)] at h
    obtain ⟨d, hd, rfl⟩ := Option.map_eq_some_iff.mp h
    rw [lstripBom_cons (by decide)]
    intro heq
    rw [(List.cons.inj heq).2] at hd
    exact decodeUtf8_zeros_ne s 0 hd
  | big =>
    -- the text begins with NUL
    have hbytes : encodeUtf16 .big ('{' :: s) =
        asciiByte '\x00' :: asciiByte '{' :: encodeUtf16 .big s := rfl
    rw [hbytes, decodeUtf8_ascii_cons (by decide)] at h
    obtain ⟨d, -, rfl⟩ := Option.map_eq_some_iff.mp h
    rw [lstripBom_cons (by decide)]
    intro heq
    exact absurd (List.cons.inj heq).1 (by decide)

theorem decodeUtf8_isSome {l : List UInt8} (hl : ∀ b ∈ l, b.toNat < 0x80) :
    ∃ text, decodeUtf8 l = some text := by
  induction l with
  | nil => exact ⟨[], rfl⟩
  | cons b l ih =>
    obtain ⟨text, htext⟩ := ih fun a ha => hl a (List.mem_cons_of_mem _ ha)
    refine ⟨Char.ofNat b.toNat :: text, ?_⟩
    rw [decodeUtf8_cons (hl b (List.mem_cons_self ..)), htext]
    rfl

/-- An ASCII text in UTF-16 without a byte order mark is never read as it was written: its bytes
are UTF-8 with NUL characters in it. -/
theorem readInviteFile_ascii_ne (hs : ∀ c ∈ s, c.toNat < 0x80) :
    readInviteFile native (encodeUtf16 order ('{' :: s)) ≠ .ok ('{' :: s) := by
  have hbytes : ∀ b ∈ encodeUtf16 order ('{' :: s), b.toNat < 0x80 := by
    intro b hb
    obtain ⟨c, hc, hbc⟩ := List.mem_flatMap.mp hb
    have hascii : c.toNat < 0x80 := by
      rcases List.mem_cons.mp hc with rfl | hc
      · decide
      · exact hs c hc
    rw [encodeUtf16Char, if_pos (by omega)] at hbc
    cases order <;>
    · simp only [ByteOrder.unitBytes, List.mem_cons, List.not_mem_nil, or_false] at hbc
      rcases hbc with rfl | rfl <;> rw [UInt8.toNat_ofNat'] <;> omega
  obtain ⟨text, htext⟩ := decodeUtf8_isSome hbytes
  rw [readInviteFile_utf8 ((decodeUtf8Sig_utf16 order s).trans htext)]
  exact fun h => lstripBom_utf8_ne htext (Except.ok.inj h)

/-- Bytes that are UTF-16 in the other order as well are read as another text. -/
theorem lstripBom_utf16_ne (horder : order ≠ native) {text : Text}
    (h : decodeUtf16 native (encodeUtf16 order ('{' :: s)) = some text) :
    lstripBom text ≠ '{' :: s := by
  -- the first unit is U+7B00, the brace with its bytes exchanged
  have hunit : ∃ a b rest, encodeUtf16 order ('{' :: s) = a :: b :: rest ∧
      native.unit a b = 0x7B00 := by
    cases order with
    | little =>
      cases native with
      | little => exact absurd rfl horder
      | big => exact ⟨_, _, _, rfl, rfl⟩
    | big =>
      cases native with
      | little => exact ⟨_, _, _, rfl, rfl⟩
      | big => exact absurd rfl horder
  obtain ⟨a, b, rest, hbytes, hu⟩ := hunit
  rw [hbytes, decodeUtf16.eq_def] at h
  dsimp only at h
  rw [hu, if_pos (by decide)] at h
  obtain ⟨d, -, rfl⟩ := Option.map_eq_some_iff.mp h
  rw [lstripBom_cons (by decide)]
  intro heq
  exact absurd (List.cons.inj heq).1 (by decide)

end

/-- A text that begins with `{` is read as it was written exactly when no decoder before the
right one accepts its bytes.

By cases on the encoding; without a byte order mark the decoders are followed in the order in which
they are tried, and one that accepts the bytes before the right one gives another text. -/
theorem readInviteFile_iff (native : ByteOrder) {t : Text} (ht : t.head? = some '{')
    (enc : TextEncoding) :
    readInviteFile native (enc.encode t) = .ok t ↔ enc.Distinct native t := by
  obtain ⟨s, rfl⟩ := List.head?_eq_some_iff.mp ht
  have hstrip : lstripBom ('{' :: s) = '{' :: s := lstripBom_cons (by decide) s
  cases enc with
  | utf8 =>
    have hsig : decodeUtf8Sig (encodeText ('{' :: s)) = decodeUtf8 (encodeText ('{' :: s)) :=
      decodeUtf8Sig_cons (by decide) (encodeText s)
    have hread := hsig.trans (decodeUtf8_encodeText ('{' :: s))
    rw [TextEncoding.encode, readInviteFile_utf8 hread, hstrip]
    exact ⟨fun _ => trivial, fun _ => rfl⟩
  | utf8Sig =>
    have hread : decodeUtf8Sig (bomUtf8 ++ encodeText ('{' :: s)) = some ('{' :: s) :=
      (decodeUtf8Sig_bom _).trans (decodeUtf8_encodeText _)
    rw [TextEncoding.encode, readInviteFile_utf8 hread, hstrip]
    exact ⟨fun _ => trivial, fun _ => rfl⟩
  | utf16 order =>
    have hread : decodeUtf16Bom native (order.bom ++ encodeUtf16 order ('{' :: s)) =
        some ('{' :: s) := (decodeUtf16Bom_bom native order _).trans (decodeUtf16_encodeUtf16 _ _)
    rw [TextEncoding.encode, readInviteFile_utf16 (decodeUtf8Sig_bomUtf16 order _) hread, hstrip]
    exact ⟨fun _ => trivial, fun _ => rfl⟩
  | utf16NoBom order =>
    have hsig := decodeUtf8Sig_utf16 order s
    have hbom := decodeUtf16Bom_utf16 native order s
    have hself := decodeUtf16_encodeUtf16 order ('{' :: s)
    rw [TextEncoding.encode, TextEncoding.Distinct]
    -- the decoders in the order in which they are tried
    cases hutf8 : decodeUtf8 (encodeUtf16 order ('{' :: s)) with
    | some text =>
      rw [readInviteFile_utf8 (hsig.trans hutf8)]
      refine ⟨fun h => absurd (Except.ok.inj h) (lstripBom_utf8_ne hutf8), ?_⟩
      rintro ⟨h, -⟩
      cases h
    | none =>
      by_cases horder : order = native
      · rw [horder] at hsig hutf8 hself hbom ⊢
        rw [readInviteFile_utf16 (hsig.trans hutf8) (hbom.trans hself), hstrip]
        exact ⟨fun _ => ⟨rfl, fun h => absurd rfl h⟩, fun _ => rfl⟩
      · cases hnative : decodeUtf16 native (encodeUtf16 order ('{' :: s)) with
        | some text =>
          rw [readInviteFile_utf16 (hsig.trans hutf8) (hbom.trans hnative)]
          refine ⟨fun h => absurd (Except.ok.inj h) (lstripBom_utf16_ne horder hnative), ?_⟩
          rintro ⟨-, h⟩
          cases h horder
        | none =>
          rw [readInviteFile_other (hsig.trans hutf8) (hbom.trans hnative) hnative horder hself,
            hstrip]
          exact ⟨fun _ => ⟨rfl, fun _ => rfl⟩, fun _ => rfl⟩

/-- `{}` in UTF-16-LE without a byte order mark. -/
theorem utf16_ascii_not_read : ∃ (native : ByteOrder) (t : Text) (enc : TextEncoding),
    t.head? = some '{' ∧ readInviteFile native (enc.encode t) ≠ .ok t := by
  refine ⟨.little, ['{', '}'], .utf16NoBom .little, rfl, ?_⟩
  exact readInviteFile_ascii_ne (by simp)

/-- Little-endian UTF-16 without a mark, on a big-endian machine. -/
theorem readInviteFile_iff_sample :
    readInviteFile .big (TextEncoding.encode (.utf16NoBom .little) ['{', '"', 'Ø', '"', '}']) =
      .ok ['{', '"', 'Ø', '"', '}'] :=
  (readInviteFile_iff .big rfl (.utf16NoBom .little)).mpr ⟨by decide, fun _ => by decide⟩

end P4
