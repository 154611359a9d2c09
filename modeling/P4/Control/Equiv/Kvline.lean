/-
  What `kvline_encode` writes, `kvline_parse` reads.

  Every quoted value is read back byte by byte (`unescapeString_escChars`), a value that is not
  quoted ends at the space before the next pair, and a key at its equals sign.  So every list of
  pairs that can be encoded is read back (`kvlineParse_of_encode`), and since the parser refuses
  what could not be encoded, so is everything that it accepts.
-/
import P4.Control.Kvline
import P4.Relayrc.Equiv.Confline

namespace P4

/-! ### Quoted values -/

/-- Three octal digits are read together. -/
theorem octalEscape_digits : ∀ n < 256, octalEscape
      [octalDigit (n / 64), octalDigit (n / 8), octalDigit n] = some (UInt8.ofNat n) ∧
    isOctal (octalDigit (n / 64)) = true ∧ isOctal (octalDigit (n / 8)) = true ∧
    isOctal (octalDigit n) = true ∧ octalDigit (n / 64) ≠ 120 ∧ octalDigit (n / 64) ≠ 88 := by
  decide +kernel

/-- An escaped character is read back. -/
theorem unescapeString_escChar (c : UInt8) (s : List UInt8) :
    unescapeString (escChar c ++ s) = (unescapeString s).map fun p => (c :: p.1, p.2) := by
  unfold escChar
  split_ifs with hspecial hnewline htab hreturn hprint
  · rw [unescapeString.eq_def]
    rcases hspecial with rfl | rfl | rfl <;> simp [isOctal, simpleEscape]
  · rw [unescapeString.eq_def, hnewline]
    simp [isOctal, simpleEscape]
  · rw [unescapeString.eq_def, htab]
    simp [isOctal, simpleEscape]
  · rw [unescapeString.eq_def, hreturn]
    simp [isOctal, simpleEscape]
  · simp only [not_or] at hspecial
    rw [List.singleton_append, unescapeString.eq_def]
    simp [hspecial, hnewline]
  · obtain ⟨hvalue, h₁, h₂, h₃, hx, hX⟩ := octalEscape_digits c.toNat c.toNat_lt
    rw [UInt8.ofNat_toNat] at hvalue
    rw [unescapeString.eq_def]
    simp [h₁, h₂, h₃, hx, hX, hvalue]

/-- A quoted value is read back. -/
theorem unescapeString_escChars (value rest : List UInt8) :
    unescapeString (value.flatMap escChar ++ 34 :: rest) = some (value, rest) := by
  induction value with
  | nil =>
    rw [unescapeString.eq_def]
    rfl
  | cons c value ih =>
    rw [List.flatMap_cons, List.append_assoc, unescapeString_escChar, ih]
    rfl

/-! ### Values -/

/-- What can come after a pair: nothing, or a space. -/
def Ends (rest : List UInt8) : Prop := ∀ c ∈ rest.head?, c = 32

theorem isKvSpace_special : ∀ n < 256, torIsSpace (UInt8.ofNat n) = false →
    torIsPrint (UInt8.ofNat n) = true → isKvSpace (UInt8.ofNat n) = false ∧ UInt8.ofNat n ≠ 0 := by
  decide +kernel

/-- What is written as it is has no space, no quote and no NUL in it. -/
theorem plain_of_needsEscape {value : List UInt8} {keyless : Bool}
    (h : needsEscape value keyless = false) :
    (∀ c ∈ value, isKvSpace c = false ∧ c ≠ 34 ∧ c ≠ 0) ∧
      (keyless = true → value ≠ [] ∧ 61 ∉ value) := by
  simp only [needsEscape, Bool.or_eq_false_iff, List.any_eq_false, Bool.and_eq_false_iff] at h
  obtain ⟨⟨hempty, hequals⟩, hchars⟩ := h
  constructor
  · intro c hc
    have hplain := hchars c hc
    simp only [Bool.or_eq_true, decide_eq_true_eq, Bool.not_eq_true', not_or,
      Bool.not_eq_true, Bool.not_eq_false] at hplain
    obtain ⟨⟨⟨⟨-, hspace⟩, hprint⟩, -⟩, hquote⟩ := hplain
    have hspecial := isKvSpace_special c.toNat c.toNat_lt
    rw [UInt8.ofNat_toNat] at hspecial
    exact ⟨(hspecial hspace hprint).1, hquote, (hspecial hspace hprint).2⟩
  · rintro rfl
    simpa using And.intro hempty hequals

theorem takeWhile_ends {p : UInt8 → Bool} {word rest : List UInt8} (hword : ∀ c ∈ word, p c = true)
    (hrest : ∀ c ∈ rest.head?, p c = false) : (word ++ rest).takeWhile p = word := by
  rw [List.takeWhile_append_of_pos hword]
  cases rest with
  | nil => simp
  | cons c rest => simp [hrest c rfl]

/-- The flags of a line that is read as it was written. -/
structure KvFlags.Plain (flags : KvFlags) : Prop where
  notRaw : flags.raw = false
  notQstring : flags.quotedQstring = false
  exclusive : flags.omitKeys = true → flags.omitVals = false

variable {flags : KvFlags} {rest : List UInt8}

/-- A value is read back, quoted or not. -/
theorem kvValue_written {value : List UInt8} {keyless : Bool} (hnul : 0 ∉ value)
    (hquoted : needsEscape value keyless = true → flags.quoted = true) (hrest : Ends rest) :
    kvValue flags ((if needsEscape value keyless then escForLog value else value) ++ rest) =
      some (value, rest) := by
  cases hescape : needsEscape value keyless with
  | true =>
    have hread := unescapeString_escChars value rest
    simp [kvValue, escForLog, hquoted hescape, hread, hnul]
  | false =>
    obtain ⟨hplain, -⟩ := plain_of_needsEscape hescape
    have htake : (value ++ rest).takeWhile (fun c => !isKvSpace c) = value := by
      apply takeWhile_ends
      · intro c hc
        simp [(hplain c hc).1]
      · intro c hc
        rw [hrest c hc]
        rfl
    have hhead : (value ++ rest).head? ≠ some 34 := by
      cases value with
      | nil =>
        intro h
        have hc := hrest 34 h
        cases hc
      | cons c value => simpa using (hplain c List.mem_cons_self).2.1
    rw [kvValue, if_neg Bool.false_ne_true, if_neg hhead]
    simp [htake]

/-! ### Pairs -/

/-- A word ends at a space or an equals sign. -/
theorem takeWhile_word {word : List UInt8} (hword : ∀ c ∈ word, isKvSpace c = false ∧ c ≠ 61)
    (hrest : ∀ c ∈ rest.head?, isKvSpace c = true ∨ c = 61) :
    (word ++ rest).takeWhile (fun c => !isKvSpace c && c ≠ 61) = word := by
  apply takeWhile_ends
  · intro c hc
    simpa using hword c hc
  · intro c hc
    rcases hrest c hc with h | h <;> simp [h]

theorem ends_nil : Ends [] := by
  intro c hc
  cases hc

theorem Ends.word (h : Ends rest) : ∀ c ∈ rest.head?, isKvSpace c = true ∨ c = 61 := by
  intro c hc
  rw [h c hc]
  exact Or.inl rfl

theorem Ends.head_ne (h : Ends rest) : rest.head? ≠ some 61 := by
  intro hc
  cases h 61 hc

/-- A pair without a key. -/
theorem kvPair_keyless {value : List UInt8} (homit : flags.omitKeys = true)
    (hvals : flags.omitVals = false) (hnul : 0 ∉ value)
    (hquoted : needsEscape value true = true → flags.quoted = true) (hrest : Ends rest) :
    kvPair flags ((if needsEscape value true then escForLog value else value) ++ rest) =
        some (⟨[], value⟩, rest) ∧
      ∃ c ∈ (if needsEscape value true then escForLog value else value).head?,
        isKvSpace c = false := by
  have hread := kvValue_written hnul hquoted hrest
  cases hescape : needsEscape value true with
  | true =>
    simp only [hescape, if_true] at hread ⊢
    refine ⟨?_, 34, rfl, rfl⟩
    have hhead : (escForLog value ++ rest).head? = some 34 := rfl
    rw [kvPair, if_pos hhead, hread]
    rfl
  | false =>
    obtain ⟨hplain, hkeyless⟩ := plain_of_needsEscape hescape
    obtain ⟨hne, hequals⟩ := hkeyless rfl
    simp only [hescape, Bool.false_eq_true, if_false] at hread ⊢
    have hword : (value ++ rest).takeWhile (fun c => !isKvSpace c && c ≠ 61) = value :=
      takeWhile_word (fun c hc => ⟨(hplain c hc).1, fun h => hequals (h ▸ hc)⟩) hrest.word
    obtain ⟨c, tail, rfl⟩ := List.exists_cons_of_ne_nil hne
    refine ⟨?_, c, rfl, (hplain c List.mem_cons_self).1⟩
    have hhead : ((c :: tail) ++ rest).head? ≠ some 34 := by
      simpa using (hplain c List.mem_cons_self).2.1
    rw [kvPair, if_neg hhead]
    simp only [hword, List.drop_left, if_neg hrest.head_ne, hvals, homit, hread]
    rfl

/-- A pair with a key. -/
theorem kvPair_keyed {key value : List UInt8} (hkey : needsEscape key true = false)
    (hnul : 0 ∉ value) (hquoted : needsEscape value false = true → flags.quoted = true)
    (hrest : Ends rest) :
    kvPair flags ((if flags.omitVals && value.isEmpty then key else key ++ [61] ++
        if needsEscape value false then escForLog value else value) ++ rest) =
      some (⟨key, value⟩, rest) := by
  obtain ⟨hplain, hkeyless⟩ := plain_of_needsEscape hkey
  obtain ⟨hne, hequals⟩ := hkeyless rfl
  have hchars : ∀ c ∈ key, isKvSpace c = false ∧ c ≠ 61 :=
    fun c hc => ⟨(hplain c hc).1, fun h => hequals (h ▸ hc)⟩
  obtain ⟨c, tail, rfl⟩ := List.exists_cons_of_ne_nil hne
  have hhead : ∀ more, ((c :: tail) ++ more).head? ≠ some 34 := by
    intro more
    simpa using (hplain c List.mem_cons_self).2.1
  have hread := kvValue_written hnul hquoted hrest
  by_cases homit : (flags.omitVals && value.isEmpty) = true
  · -- the value is empty and left out
    rw [if_pos homit, kvPair, if_neg (hhead rest)]
    simp only [Bool.and_eq_true, List.isEmpty_iff] at homit
    simp only [takeWhile_word hchars hrest.word, List.drop_left, if_neg hrest.head_ne, homit.1,
      homit.2]
    rfl
  · rw [if_neg homit]
    generalize (if needsEscape value false then escForLog value else value) = written at hread ⊢
    rw [List.append_assoc, List.append_assoc, kvPair, if_neg (hhead _)]
    have hequals' : ∀ d ∈ ([61] ++ (written ++ rest)).head?, isKvSpace d = true ∨ d = 61 := by
      simp
    have hword := takeWhile_word hchars hequals'
    simp only [hword, List.drop_left]
    simp [hread]

/-- A pair is read back, and it does not start with a space. -/
theorem kvPair_element {line : ConfigLine} (hflags : flags.Plain)
    (hcan : line.canEncode flags = true) (hnul : 0 ∉ line.value) (hrest : Ends rest) :
    kvPair flags (line.element flags ++ rest) = some (line, rest) ∧
      ∃ c ∈ (line.element flags).head?, isKvSpace c = false := by
  obtain ⟨key, value⟩ := line
  simp only [ConfigLine.canEncode, Bool.and_eq_true, Bool.not_eq_true', Bool.and_eq_false_iff,
    Bool.not_eq_false', hflags.notRaw, Bool.or_false] at hcan
  obtain ⟨⟨hkeyless, hvalue⟩, hkey⟩ := hcan
  have hquoted : needsEscape value key.isEmpty = true → flags.quoted = true := by
    intro h
    simpa [h] using hvalue
  cases key with
  | nil =>
    have homit : flags.omitKeys = true := by simpa using hkeyless
    have hvals := hflags.exclusive homit
    simpa [ConfigLine.element, hvals, hflags.notRaw] using
      kvPair_keyless homit hvals hnul hquoted hrest
  | cons c tail =>
    have hkey' : needsEscape (c :: tail) true = false := by simpa using hkey
    constructor
    · simpa [ConfigLine.element, hflags.notRaw] using kvPair_keyed hkey' hnul hquoted hrest
    · refine ⟨c, ?_, ((plain_of_needsEscape hkey').1 c List.mem_cons_self).1⟩
      simp only [ConfigLine.element]
      split_ifs <;> rfl

/-! ### Lines -/

/-- The pairs of a line are read back, whatever spaces stand before it. -/
theorem kvPairs_elements (hflags : flags.Plain) {lines : List ConfigLine}
    (hcan : ∀ line ∈ lines, line.canEncode flags = true)
    (hnul : ∀ line ∈ lines, 0 ∉ line.value) {n : Nat} (hn : lines.length < n)
    (spaces : List UInt8) (hspaces : ∀ c ∈ spaces, isKvSpace c = true) :
    kvPairs flags n (spaces ++ List.intercalate [32] (lines.map (ConfigLine.element flags))) =
      some lines := by
  induction lines generalizing n spaces with
  | nil =>
    obtain ⟨m, rfl⟩ := Nat.exists_eq_succ_of_ne_zero (Nat.ne_zero_of_lt hn)
    have hskip : spaces.dropWhile isKvSpace = [] := List.dropWhile_eq_nil_iff.mpr hspaces
    simp [kvPairs, hskip]
  | cons line lines ih =>
    obtain ⟨m, rfl⟩ := Nat.exists_eq_succ_of_ne_zero (Nat.ne_zero_of_lt hn)
    rw [List.forall_mem_cons] at hcan hnul
    -- what follows the first pair
    obtain ⟨rest, hrest, hends, hmore⟩ : ∃ rest,
        List.intercalate [32] ((line :: lines).map (ConfigLine.element flags)) =
          line.element flags ++ rest ∧ Ends rest ∧ kvPairs flags m rest = some lines := by
      cases lines with
      | nil =>
        refine ⟨[], by simp, ends_nil, ?_⟩
        simpa using ih hcan.2 hnul.2 (n := m) (by simpa using hn) [] (by simp)
      | cons next lines =>
        refine ⟨[32] ++ List.intercalate [32] ((next :: lines).map (ConfigLine.element flags)),
          ?_, ?_, ih hcan.2 hnul.2 (by simpa using hn) [32] (by simp [isKvSpace])⟩
        · simp only [List.map_cons, List.intercalate_cons_cons, List.append_assoc]
        · intro c hc
          simpa using hc.symm
    obtain ⟨hpair, c, hc, hspace⟩ := kvPair_element hflags hcan.1 hnul.1 hends
    have hskip : (spaces ++ (line.element flags ++ rest)).dropWhile isKvSpace =
        line.element flags ++ rest := by
      rw [List.dropWhile_append_of_pos hspaces]
      cases helement : line.element flags with
      | nil =>
        rw [helement] at hc
        cases hc
      | cons d tail =>
        rw [helement] at hc
        cases hc
        simp [hspace]
    have hempty : (line.element flags ++ rest).isEmpty = false := by
      cases helement : line.element flags with
      | nil =>
        rw [helement] at hc
        cases hc
      | cons d tail => rfl
    rw [hrest, kvPairs]
    simp only [hskip, hempty, Bool.false_eq_true, if_false, hpair, Option.bind_some, hmore]
    rfl

/-- There are no more pairs than characters. -/
theorem length_le_intercalate {lines : List ConfigLine} (hflags : flags.Plain)
    (hcan : ∀ line ∈ lines, line.canEncode flags = true)
    (hnul : ∀ line ∈ lines, 0 ∉ line.value) : lines.length ≤
      (List.intercalate [32] (lines.map (ConfigLine.element flags))).length := by
  induction lines with
  | nil => exact Nat.zero_le _
  | cons line lines ih =>
    rw [List.forall_mem_cons] at hcan hnul
    obtain ⟨-, c, hc, -⟩ := kvPair_element hflags hcan.1 hnul.1 ends_nil
    have hpos : 0 < (line.element flags).length := by
      cases helement : line.element flags with
      | nil =>
        rw [helement] at hc
        cases hc
      | cons d tail => exact Nat.zero_lt_succ _
    have hmore := ih hcan.2 hnul.2
    cases lines with
    | nil =>
      simp only [List.map_cons, List.map_nil, List.intercalate_singleton, List.length_singleton]
      omega
    | cons next lines =>
      simp only [List.map_cons, List.intercalate_cons_cons, List.length_append,
        List.length_cons] at hmore ⊢
      omega

/-- What was encoded is read back. -/
theorem kvlineParse_of_encode (hflags : flags.Plain) {lines : List ConfigLine}
    (hnul : ∀ line ∈ lines, 0 ∉ line.value) {text : List UInt8}
    (h : kvlineEncode flags lines = some text) : kvlineParse flags text = lines := by
  unfold kvlineEncode at h
  split_ifs at h with hcan
  have hall : ∀ line ∈ lines, line.canEncode flags = true := List.all_eq_true.mp hcan
  have hlength := length_le_intercalate hflags hall hnul
  have hpairs := kvPairs_elements hflags hall hnul (Nat.lt_succ_of_le hlength) [] (by simp)
  rw [← Option.some.inj h, kvlineParse]
  rw [List.nil_append] at hpairs
  simp [hpairs, hcan]

/-! ### What is accepted -/

/-- What comes after a quoted value is a part of what was read. -/
theorem mem_of_unescapeString {s value rest : List UInt8}
    (h : unescapeString s = some (value, rest)) : ∀ c ∈ rest, c ∈ s := by
  fun_induction unescapeString s generalizing value rest <;>
    grind [Option.map_eq_some_iff, Option.bind_eq_some_iff]

theorem kvValue_nul (hflags : flags.Plain) {cp value : List UInt8} (hcp : 0 ∉ cp)
    (h : kvValue flags cp = some (value, rest)) : 0 ∉ value ∧ 0 ∉ rest := by
  simp only [kvValue, hflags.notQstring, Bool.or_false] at h
  split_ifs at h with hquote hquoted
  · obtain ⟨hread, hnul⟩ := Option.filter_eq_some_iff.mp h
    refine ⟨by simpa using hnul, fun h0 => hcp ?_⟩
    exact List.mem_of_mem_tail (mem_of_unescapeString hread 0 h0)
  · obtain ⟨rfl, rfl⟩ := Prod.mk.inj (Option.some.inj h)
    exact ⟨fun h0 => hcp (List.takeWhile_subset _ h0), fun h0 => hcp (List.mem_of_mem_drop h0)⟩

theorem kvPair_nul (hflags : flags.Plain) {cp : List UInt8} {line : ConfigLine} (hcp : 0 ∉ cp)
    (h : kvPair flags cp = some (line, rest)) : 0 ∉ line.value ∧ 0 ∉ rest := by
  have hkeyless : ∀ {key cp : List UInt8}, 0 ∉ cp →
      ((kvValue flags cp).map fun p => (ConfigLine.mk key p.1, p.2)) = some (line, rest) →
      0 ∉ line.value ∧ 0 ∉ rest := by
    intro key cp hcp h
    obtain ⟨⟨value, rest'⟩, hvalue, heq⟩ := Option.map_eq_some_iff.mp h
    cases heq
    exact kvValue_nul hflags hcp hvalue
  simp only [kvPair] at h
  split_ifs at h with hquote hequals hempty homit hempty' hkeys
  · exact hkeyless hcp h
  · exact hkeyless (fun h0 => hcp (List.mem_of_mem_drop (List.mem_of_mem_tail h0))) h
  · cases h
    exact ⟨List.not_mem_nil, fun h0 => hcp (List.mem_of_mem_drop h0)⟩
  · exact hkeyless hcp h

/-- No value that is read has a NUL. -/
theorem kvPairs_nul (hflags : flags.Plain) {n : Nat} {cp : List UInt8} {lines : List ConfigLine}
    (hcp : 0 ∉ cp) (h : kvPairs flags n cp = some lines) : ∀ line ∈ lines, 0 ∉ line.value := by
  induction n generalizing cp lines with
  | zero => cases h
  | succ n ih =>
    simp only [kvPairs] at h
    split_ifs at h
    · cases h
      exact fun line hline => nomatch hline
    · obtain ⟨⟨line, rest⟩, hpair, h⟩ := Option.bind_eq_some_iff.mp h
      obtain ⟨more, hmore, rfl⟩ := Option.map_eq_some_iff.mp h
      have hskip : 0 ∉ cp.dropWhile isKvSpace :=
        fun h0 => hcp (List.dropWhile_subset _ h0)
      obtain ⟨hline, hrest⟩ := kvPair_nul hflags hskip hpair
      rw [List.forall_mem_cons]
      exact ⟨hline, ih hrest hmore⟩

/-! ### Result -/

/-- With every combination of `KV_QUOTED`, `KV_OMIT_KEYS` and `KV_OMIT_VALS` that is allowed:
what `kvline_encode` writes for some pairs, `kvline_parse` reads as those pairs, and all pairs
that `kvline_parse` accepts can be encoded again, as a line that is read as the same pairs.

Pair by pair: each value is read up to where it ends and nothing is left over.  What was parsed has
passed the test of what can be encoded, so the second part follows from the first. -/
theorem kvline_round_trip (hflags : flags.Plain) :
    (∀ (lines : List ConfigLine) (text : List UInt8), (∀ line ∈ lines, 0 ∉ line.value) →
      kvlineEncode flags lines = some text → kvlineParse flags text = lines) ∧
    ∀ line : List UInt8, 0 ∉ line → kvlineParse flags line ≠ [] →
      ∃ text, kvlineEncode flags (kvlineParse flags line) = some text ∧
        kvlineParse flags text = kvlineParse flags line := by
  refine ⟨fun lines text hnul h => kvlineParse_of_encode hflags hnul h, ?_⟩
  intro line hline hne
  obtain ⟨lines, hlines⟩ : ∃ lines, lines = kvlineParse flags line := ⟨_, rfl⟩
  rw [← hlines] at hne ⊢
  unfold kvlineParse at hlines
  split at hlines
  · exact absurd hlines hne
  · rename_i read hread
    rw [hflags.notQstring, Bool.false_or] at hlines
    split_ifs at hlines with hcan
    · subst hlines
      have hencode : kvlineEncode flags lines =
          some (List.intercalate [32] (lines.map (ConfigLine.element flags))) := if_pos hcan
      exact ⟨_, hencode, kvlineParse_of_encode hflags (kvPairs_nul hflags hline hread) hencode⟩
    · exact absurd hlines hne

/-- `K="a\"\n" L` -/
theorem kvline_round_trip_sample :
    kvlineEncode { quoted := true, omitVals := true } [⟨[75], [97, 34, 10]⟩, ⟨[76], []⟩] =
      some [75, 61, 34, 97, 92, 34, 92, 110, 34, 32, 76] ∧
    kvlineParse { quoted := true, omitVals := true }
      [75, 61, 34, 97, 92, 34, 92, 110, 34, 32, 76] = [⟨[75], [97, 34, 10]⟩, ⟨[76], []⟩] := by
  have hflags : KvFlags.Plain { quoted := true, omitVals := true } := ⟨rfl, rfl, by simp⟩
  have hencode : kvlineEncode { quoted := true, omitVals := true }
      [⟨[75], [97, 34, 10]⟩, ⟨[76], []⟩] =
        some [75, 61, 34, 97, 92, 34, 92, 110, 34, 32, 76] := by
    decide +kernel
  exact ⟨hencode, (kvline_round_trip hflags).1 _ _ (by decide) hencode⟩

end P4
