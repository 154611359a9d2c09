/-
  The lines of the control port as text.

  What was encoded is decoded again, also with `errors="replace"`; the code at the start of a
  line is read back as a number; and a period that was put before a period is taken away.
-/
import P4.Control.Basic
import P4.Node.Equiv.Utf8

namespace P4

/-! ### Decoding -/

theorem secondByte_of_lead {a b : UInt8} (ha : 0xC2 ≤ a.toNat) (ha' : a.toNat < 0xF5)
    (hb : isContinuation b = true) (h₁ : a.toNat = 0xE0 → 0xA0 ≤ b.toNat)
    (h₂ : a.toNat = 0xED → b.toNat < 0xA0) (h₃ : a.toNat = 0xF0 → 0x90 ≤ b.toNat)
    (h₄ : a.toNat = 0xF4 → b.toNat < 0x90) : secondByte a b = true := by
  have hb' := hb
  simp only [isContinuation, Bool.and_eq_true, decide_eq_true_eq] at hb'
  unfold secondByte
  rw [if_neg (by omega)]
  -- the lead bytes that allow fewer second bytes: overlong forms, surrogates, beyond U+10FFFF
  split_ifs with c₁ c₂ c₃ c₄
  · simp only [Bool.and_eq_true, decide_eq_true_eq]
    exact ⟨h₁ c₁, hb'.2⟩
  · simp only [Bool.and_eq_true, decide_eq_true_eq]
    exact ⟨hb'.1, h₂ c₂⟩
  · simp only [Bool.and_eq_true, decide_eq_true_eq]
    exact ⟨h₃ c₃, hb'.2⟩
  · simp only [Bool.and_eq_true, decide_eq_true_eq]
    exact ⟨hb'.1, h₄ c₄⟩
  · rw [hb, Bool.and_true, decide_eq_true_eq]
    exact ha'

/-- A character that was encoded is decoded, and nothing is replaced. -/
theorem decodeReplace_encodeChar (c : Char) (rest : List UInt8) :
    decodeReplace (String.utf8EncodeChar c ++ rest) = c :: decodeReplace rest := by
  have hform := utf8Char c
  have hscalar := toNat_lt_or c
  generalize String.utf8EncodeChar c = bytes at hform
  cases hform with
  | one a hlt ha =>
    -- the last byte of the input is a case of its own
    have hc : Char.ofNat a.toNat = c := by rw [ha, Char.ofNat_toNat]
    cases rest with
    | nil =>
      rw [List.append_nil, decodeReplace.eq_def]
      dsimp only
      rw [if_pos (by omega), hc]
      rfl
    | cons b rest =>
      rw [List.cons_append, List.nil_append, decodeReplace.eq_def]
      dsimp only
      rw [if_pos (by omega), hc]
  | two a b hge hlt ha hb =>
    -- each of the longer forms: the value, the second byte, the continuation bytes
    have hc : Char.ofNat ((a.toNat - 0xC0) * 0x40 + (b.toNat - 0x80)) = c := by
      rw [show (a.toNat - 0xC0) * 0x40 + (b.toNat - 0x80) = c.toNat by omega, Char.ofNat_toNat]
    have hsecond : secondByte a b = true :=
      secondByte_of_lead (by omega) (by omega) (isContinuation_of_toNat hb) (by omega)
        (by omega) (by omega) (by omega)
    rw [List.cons_append, List.cons_append, List.nil_append, decodeReplace.eq_def]
    dsimp only
    rw [if_neg (by omega), hsecond, if_neg (by decide), if_pos (by omega), hc]
  | three a b d hge hlt ha hb hd =>
    have hc : Char.ofNat ((a.toNat - 0xE0) * 0x1000 + (b.toNat - 0x80) * 0x40 +
        (d.toNat - 0x80)) = c := by
      rw [show (a.toNat - 0xE0) * 0x1000 + (b.toNat - 0x80) * 0x40 + (d.toNat - 0x80) = c.toNat by
        omega, Char.ofNat_toNat]
    have hsecond : secondByte a b = true :=
      secondByte_of_lead (by omega) (by omega) (isContinuation_of_toNat hb) (by omega)
        (by omega) (by omega) (by omega)
    rw [List.cons_append, List.cons_append, List.cons_append, List.nil_append,
      decodeReplace.eq_def]
    dsimp only
    rw [if_neg (by omega), hsecond, if_neg (by decide), if_neg (by omega),
      isContinuation_of_toNat hd, if_neg (by decide), if_pos (by omega), hc]
  | four a b d e hge hlt ha hb hd he =>
    have hc : Char.ofNat ((a.toNat - 0xF0) * 0x40000 + (b.toNat - 0x80) * 0x1000 +
        (d.toNat - 0x80) * 0x40 + (e.toNat - 0x80)) = c := by
      rw [show (a.toNat - 0xF0) * 0x40000 + (b.toNat - 0x80) * 0x1000 +
        (d.toNat - 0x80) * 0x40 + (e.toNat - 0x80) = c.toNat by omega, Char.ofNat_toNat]
    have hsecond : secondByte a b = true :=
      secondByte_of_lead (by omega) (by omega) (isContinuation_of_toNat hb) (by omega)
        (by omega) (by omega) (by omega)
    rw [List.cons_append, List.cons_append, List.cons_append, List.cons_append, List.nil_append,
      decodeReplace.eq_def]
    dsimp only
    rw [if_neg (by omega), hsecond, if_neg (by decide), if_neg (by omega),
      isContinuation_of_toNat hd, if_neg (by decide), if_neg (by omega),
      isContinuation_of_toNat he, if_neg (by decide), hc]

theorem decodeReplace_encodeText (t : Text) : decodeReplace (encodeText t) = t := by
  induction t with
  | nil => rfl
  | cons c t ih => rw [encodeText_cons, decodeReplace_encodeChar, ih]

/-! ### Lines -/

/-- Text of one line. -/
def OneLine (t : Text) : Prop := '\r' ∉ t ∧ '\n' ∉ t

instance OneLine.decidable (t : Text) : Decidable (OneLine t) :=
  inferInstanceAs (Decidable ('\r' ∉ t ∧ '\n' ∉ t))

/-- A line of text with its end. -/
def crlf (t : Text) : List UInt8 := encodeText t ++ [13, 10]

theorem crlf_eq (t : Text) : crlf t = encodeText (t ++ ['\r', '\n']) := by
  rw [encodeText_append]
  rfl

/-- The line end is stripped, and nothing else of the line. -/
theorem rstripNewlines_crlf {t : Text} (ht : OneLine t) :
    rstripNewlines (t ++ ['\r', '\n']) = t := by
  have hlast : ∀ h : t ≠ [], ¬ (t.getLast h = '\r' || t.getLast h = '\n') = true := by
    intro h hend
    rw [Bool.or_eq_true, decide_eq_true_eq, decide_eq_true_eq] at hend
    have hmem := List.getLast_mem h
    rcases hend with heq | heq
    · exact ht.1 (heq ▸ hmem)
    · exact ht.2 (heq ▸ hmem)
  have happend : t ++ ['\r', '\n'] = t ++ ['\r'] ++ ['\n'] := by
    rw [List.append_assoc]
    rfl
  rw [rstripNewlines, happend, List.rdropWhile_concat_pos _ _ _ (by decide),
    List.rdropWhile_concat_pos _ _ _ (by decide)]
  exact List.rdropWhile_eq_self_iff.mpr hlast

/-- A line that was written is read as its text. -/
theorem controlText_crlf {t : Text} (ht : OneLine t) : controlText (crlf t) = t := by
  rw [controlText, crlf_eq, decodeReplace_encodeText, rstripNewlines_crlf ht]

/-- There is no newline before the end of the line. -/
theorem newline_notMem_encodeText {t : Text} (ht : '\n' ∉ t) : (10 : UInt8) ∉ encodeText t := by
  intro hmem
  obtain ⟨c, hc, heq⟩ := mem_encodeText hmem (by decide)
  have hnewline : c = '\n' := by
    rw [← Char.ofNat_toNat c, heq]
    rfl
  exact ht (hnewline ▸ hc)

/-! ### Codes -/

section

variable [PyDigits]

theorem isDigit_digitChar {d : Nat} (h : d < 10) : isDigit (Nat.digitChar d) = true := by
  have hall : ∀ d < 10, (Nat.digitChar d).toNat < 0x80 ∧ (Nat.digitChar d).isDigit = true := by
    decide
  rw [isDigit, if_pos (hall d h).1]
  exact (hall d h).2

theorem digitValue_digitChar {d : Nat} (h : d < 10) : digitValue (Nat.digitChar d) = some d := by
  have hall : ∀ d < 10, (Nat.digitChar d).toNat < 0x80 ∧ (Nat.digitChar d).toNat - 48 = d := by
    decide
  rw [digitValue, if_pos (hall d h).1, (hall d h).2]

/-- The code of a reply is read back. -/
theorem pyInt_code3 {code : Nat} (h : code < 1000) : pyInt (code3 code) = some code := by
  have h₁ : code / 100 < 10 := by omega
  have h₂ : code / 10 % 10 < 10 := by omega
  have h₃ : code % 10 < 10 := by omega
  have hvalue : 10 * (10 * (10 * 0 + code / 100) + code / 10 % 10) + code % 10 = code := by omega
  simp only [pyInt, code3, List.foldlM_cons, List.foldlM_nil, digitValue_digitChar h₁,
    digitValue_digitChar h₂, digitValue_digitChar h₃, Option.map_some, Option.bind_eq_bind,
    Option.bind_some, hvalue]
  rfl

/-- What is raised for a line with an error code. -/
def controlError (code : Nat) (text : Text) : Exc :=
  .runtime (Str.lit "OnionRelay control error " ++ decimal code ++ Str.lit ": " ++
    Str.ofText text)

/-- A line of a reply that was written is read as what it says. -/
theorem replyHead_line {code : Nat} (h : code < 1000) (sep : Char) (text : Text) :
    replyHead (code3 code ++ sep :: text) =
      if 400 ≤ code then .error (controlError code text)
      else .ok { code := code, sep := sep, rest := text } := by
  have htake : (code3 code ++ sep :: text).take 3 = code3 code := rfl
  have hdrop : (code3 code ++ sep :: text).drop 4 = text := rfl
  have hsep : (code3 code ++ sep :: text).getD 3 ' ' = sep := rfl
  have hlength : (code3 code ++ sep :: text).length = text.length + 4 := rfl
  have hdigits : (code3 code).all isDigit = true := by
    simp only [code3, List.all_cons, List.all_nil, Bool.and_true, Bool.and_eq_true]
    exact ⟨isDigit_digitChar (by omega), isDigit_digitChar (by omega),
      isDigit_digitChar (by omega)⟩
  rw [replyHead, htake, hdigits, hlength, if_neg (by simp), pyInt_code3 h]
  dsimp only
  rw [hdrop, hsep]
  rfl

end

/-! ### Periods -/

/-- A line of a data block as it is sent. -/
def stuff : Text → Text
  | '.' :: t => '.' :: '.' :: t
  | t => t

theorem stuff_period (t : Text) : stuff ('.' :: t) = '.' :: '.' :: t := rfl

theorem stuff_of_ne {c : Char} (h : c ≠ '.') (t : Text) : stuff (c :: t) = c :: t := by
  unfold stuff
  split
  · rename_i heq
    exact absurd (List.cons.inj heq).1 h
  · rfl

/-- A line of data is never the end of the block. -/
theorem stuff_ne_period (t : Text) : stuff t ≠ ['.'] := by
  intro h
  cases t with
  | nil => cases h
  | cons c t =>
    by_cases hc : c = '.'
    · rw [hc, stuff_period] at h
      cases h
    · rw [stuff_of_ne hc] at h
      exact hc (List.cons.inj h).1

theorem unstuff_stuff (t : Text) :
    (if ['.', '.'].isPrefixOf (stuff t) then (stuff t).drop 1 else stuff t) = t := by
  cases t with
  | nil => rfl
  | cons c t =>
    by_cases hc : c = '.'
    · rw [hc, stuff_period]
      rfl
    · rw [stuff_of_ne hc]
      have hdots : ['.', '.'].isPrefixOf (c :: t) = false := by
        rw [List.isPrefixOf, beq_false_of_ne (Ne.symm hc), Bool.false_and]
      rw [hdots, if_neg (by decide)]

theorem oneLine_stuff {t : Text} (ht : OneLine t) : OneLine (stuff t) := by
  cases t with
  | nil => exact ht
  | cons c t =>
    by_cases hc : c = '.'
    · rw [hc] at ht ⊢
      have hperiod : ∀ d : Char, d ≠ '.' → d ∉ '.' :: t → d ∉ stuff ('.' :: t) := by
        intro d hd hmem
        rw [stuff_period]
        simp only [List.mem_cons, not_or] at hmem ⊢
        exact ⟨hd, hd, hmem.2⟩
      exact ⟨hperiod _ (by decide) ht.1, hperiod _ (by decide) ht.2⟩
    · rw [stuff_of_ne hc]
      exact ht

end P4
