/-
  The options that are written are the options that are read, for the right paths.

  The data directory is pasted into its line without quotes.  The relay's parser reads back what
  was meant exactly when the path is UTF-8 text without a newline and without `#`, and ends
  neither in white space nor in a backslash (`relayrc_readsBack_iff`).

  Between the text and the parser are a file with the line ends of the platform and a loader that
  strips every CR.  The line ends come through, and the path does unless it has a CR itself or,
  on Windows, the character that ends a text file (`relayrc_loads_iff`).
-/
import P4.Core.Equiv.Binding
import P4.Json.Equiv.Loads
import P4.Json.Equiv.RoundTrip
import P4.Node.Equiv.Line
import P4.Node.Equiv.Utf8
import P4.Relayrc.Basic
import P4.Relayrc.Equiv.Confline

namespace P4

/-! ### Text and bytes -/

/-- White space for the relay. -/
def torSpaceChar (c : Char) : Bool := (9 ≤ c.toNat && c.toNat ≤ 13) || c.toNat = 32

/-- Text that the relay reads as it stands. -/
structure RelayrcText (v : Text) : Prop where
  newline : '\n' ∉ v
  hash : '#' ∉ v
  space : ∀ c, v.getLast? = some c → torSpaceChar c = false
  slash : v.getLast? ≠ some '\\'

/-- An ASCII character is a byte of the text only where it stands itself. -/
theorem byte_mem_encodeText {c : Char} (hc : c.toNat < 0x80) {t : Text} :
    asciiByte c ∈ encodeText t ↔ c ∈ t := by
  constructor
  · intro h
    obtain ⟨d, hd, heq⟩ := mem_encodeText h (by rwa [toNat_asciiByte hc])
    rw [toNat_asciiByte hc] at heq
    rw [← Char.toNat_inj.mp heq]
    exact hd
  · intro h
    refine List.mem_flatMap.mpr ⟨c, h, ?_⟩
    rw [utf8EncodeChar_ascii hc]
    exact List.mem_singleton_self _

/-- The last byte of a text, when it is ASCII, is its last character. -/
theorem getLast?_encodeText {t : Text} {b : UInt8} (h : (encodeText t).getLast? = some b)
    (hb : b.toNat < 0x80) : ∃ c, t.getLast? = some c ∧ c.toNat = b.toNat := by
  induction t using List.reverseRecOn with
  | nil => cases h
  | append_singleton s c =>
    have hchar : encodeText [c] = String.utf8EncodeChar c := List.append_nil _
    have hlast : (encodeText [c]).getLast? = some b := by
      rw [encodeText_append, List.getLast?_append_of_ne_nil] at h
      · exact h
      · rw [hchar]
        exact String.utf8EncodeChar_ne_nil
    obtain ⟨d, hd, heq⟩ := mem_encodeText (List.mem_of_getLast? hlast) hb
    rw [List.mem_singleton.mp hd] at heq
    exact ⟨c, List.getLast?_concat, heq⟩

/-! ### The text -/

/-- The text of an option. -/
def optionLine (option : Text × Text) : Text := option.1 ++ ' ' :: (option.2 ++ ['\n'])

theorem encodeText_optionLine (option : Text × Text) :
    encodeText (optionLine option) = configLine (encodeOption option) := by
  rw [optionLine, encodeText_append, encodeText_cons, encodeText_append]
  rfl

theorem encodeText_options (options : List (Text × Text)) :
    encodeText (options.flatMap optionLine) = (options.map encodeOption).flatMap configLine := by
  induction options with
  | nil => rfl
  | cons option options ih =>
    rw [List.flatMap_cons, encodeText_append, encodeText_optionLine, ih]
    rfl

/-- The text is one line for each option. -/
theorem onionrelayrc_eq (socksPort controlPort : Int) (t : Text) :
    onionrelayrc socksPort controlPort (Str.ofText t) =
      Str.ofText ((relayrcOptions socksPort controlPort t).flatMap optionLine) := by
  simp [onionrelayrc, relayrcLines, relayrcOptions, optionLine, List.intercalate, Str.ofText,
    Str.lit]

theorem encodeUtf8_ofText (t : Text) : encodeUtf8 (Str.ofText t) = .ok t := by
  rw [encodeUtf8, Str.toText?_ofText]

/-! ### Keys and values -/

theorem torIsSpace_asciiByte {c : Char} (hc : c.toNat < 0x80) :
    torIsSpace (asciiByte c) = torSpaceChar c := by
  rw [Bool.eq_iff_iff, torIsSpace_iff, toNat_asciiByte hc, torSpaceChar, Bool.or_eq_true,
    Bool.and_eq_true, decide_eq_true_eq, decide_eq_true_eq, decide_eq_true_eq]

theorem torSpaceChar_visible {c : Char} (hc : 32 < c.toNat) : torSpaceChar c = false := by
  rw [torSpaceChar, Bool.or_eq_false_iff, Bool.and_eq_false_iff, decide_eq_false_iff_not,
    decide_eq_false_iff_not, decide_eq_false_iff_not]
  omega

/-- What a value begins with: a visible ASCII character other than a quote. -/
def BeginsText (v : Text) : Prop :=
  ∃ c rest, v = c :: rest ∧ 32 < c.toNat ∧ c.toNat < 0x80 ∧ c ≠ '"'

/-- The value of an option that the relay reads as it stands. -/
theorem valueText_encodeText {v : Text} (hv : RelayrcText v) (hbegins : BeginsText v) :
    ValueText (encodeText v) where
  begins := by
    obtain ⟨c, rest, rfl, hvisible, hascii, hquote⟩ := hbegins
    refine ⟨asciiByte c, encodeText rest, ?_, ?_, ?_⟩
    · rw [encodeText_cons, utf8EncodeChar_ascii hascii]
      rfl
    · rw [torIsSpace_asciiByte hascii, torSpaceChar_visible hvisible]
    · exact fun h => hquote (asciiByte_inj (d := '"') hascii (by decide) h)
  newline h := hv.newline ((byte_mem_encodeText (c := '\n') (by decide)).mp h)
  hash h := hv.hash ((byte_mem_encodeText (c := '#') (by decide)).mp h)
  last := by
    intro h
    obtain ⟨c, hlast, hc⟩ := getLast?_encodeText h (by decide)
    have hslash : c = '\\' := Char.toNat_inj.mp hc
    exact hv.slash (hslash ▸ hlast)
  trimmed := by
    refine List.rdropWhile_eq_self_iff.mpr fun hne hlast => ?_
    have hascii : ((encodeText v).getLast hne).toNat < 0x80 := by
      have := torIsSpace_iff.mp hlast
      omega
    -- white space is ASCII, so it is the last character
    obtain ⟨c, hc, heq⟩ := getLast?_encodeText (List.getLast?_eq_some_getLast hne) hascii
    have hspace := hv.space c hc
    rw [← torIsSpace_asciiByte (by omega)] at hspace
    rw [torIsSpace_iff, ← heq, ← toNat_asciiByte (c := c) (by omega), ← torIsSpace_iff] at hlast
    rw [hspace] at hlast
    cases hlast

/-! ### Words -/

theorem ne_of_word {c d : Char} (hc : Json.isWordChar c = true) (hd : Json.isWordChar d = false) :
    c ≠ d := by
  rintro rfl
  rw [hc] at hd
  cases hd

theorem printable_word {c : Char} (hc : Json.isWordChar c = true) : Json.Printable c := by
  have hword : [c].all Json.isWordChar = true := by rw [List.all_cons, hc, List.all_nil]; rfl
  exact Json.printable_of_word hword c (List.mem_singleton_self c)

theorem visible_word {c : Char} (hc : Json.isWordChar c = true) : 32 < c.toNat := by
  have hprintable := (printable_word hc).1
  have hblank : c.toNat ≠ 32 := fun h => ne_of_word (d := ' ') hc (by decide) (Char.toNat_inj.mp h)
  omega

section

variable {v : Text} (hne : v ≠ []) (hword : v.all Json.isWordChar = true)

include hne hword

theorem keyText_word : KeyText (encodeText v) := by
  rw [List.all_eq_true] at hword
  have hascii : encodeText v = v.map asciiByte := by
    refine encodeText_ascii fun c hc => ?_
    have := (printable_word (hword c hc)).2
    omega
  rw [hascii]
  refine ⟨fun h => hne (List.map_eq_nil_iff.mp h), fun b hb => ?_⟩
  obtain ⟨c, hc, rfl⟩ := List.mem_map.mp hb
  have hc' := hword c hc
  have hlt : c.toNat < 0x80 := by
    have := (printable_word hc').2
    omega
  refine ⟨?_, ?_, ?_⟩
  · rw [torIsSpace_asciiByte hlt, torSpaceChar_visible (visible_word hc')]
  · intro h
    exact ne_of_word (d := '#') hc' (by decide) (asciiByte_inj hlt (by decide) h)
  · intro h
    exact ne_of_word (d := '\\') hc' (by decide) (asciiByte_inj hlt (by decide) h)

theorem beginsText_word : BeginsText v := by
  rw [List.all_eq_true] at hword
  cases v with
  | nil => exact absurd rfl hne
  | cons c rest =>
    have hc := hword c (List.mem_cons_self ..)
    have hprintable := (printable_word hc).2
    exact ⟨c, rest, rfl, visible_word hc, by omega, ne_of_word hc (by decide)⟩

omit hne in
theorem relayrcText_word : RelayrcText v := by
  rw [List.all_eq_true] at hword
  have hnot : ∀ {d : Char}, Json.isWordChar d = false → d ∉ v :=
    fun hd hmem => ne_of_word (hword _ hmem) hd rfl
  refine ⟨hnot (by decide), hnot (by decide), ?_, ?_⟩
  · intro c hc
    exact torSpaceChar_visible (visible_word (hword c (List.mem_of_getLast? hc)))
  · intro hc
    exact hnot (by decide) (List.mem_of_getLast? hc)

end

/-! ### Reading back -/

/-- A resolved path: absolute and without NUL. -/
structure OsName.Resolved (os : OsName) (path : Str) : Prop where
  absolute : os.isAbsolute path = true
  noNul : 0 ∉ path

/-- An absolute path begins with a slash, a backslash or a letter. -/
theorem OsName.Resolved.beginsText {os : OsName} {t : Text} (h : os.Resolved (Str.ofText t)) :
    BeginsText t := by
  have habs := h.absolute
  cases t with
  | nil => cases os <;> cases habs
  | cons c rest =>
    have hcode : Char.ofNat (Str.ofChar c).val = c := by rw [Str.ofChar_val, Char.ofNat_toNat]
    have hchar : ∀ d : Char, Str.ofChar c = Str.ofChar d → c = d := fun d hd =>
      Char.toNat_inj.mp (by rw [← Str.ofChar_val, hd, Str.ofChar_val])
    cases os with
    | posix =>
      have hslash : c = '/' := hchar _ (Option.some.inj (of_decide_eq_true habs))
      exact ⟨c, rest, rfl, by rw [hslash]; decide⟩
    | nt =>
      rw [isAbsolute, Bool.or_eq_true, Bool.and_eq_true] at habs
      rcases habs with hshare | ⟨hdrive, -⟩
      · have hslash : c = '\\' := by
          rw [Str.ofText, Str.ofText, List.map_cons, List.map_cons,
            List.isPrefixOf_iff_prefix] at hshare
          exact hchar _ (List.cons_prefix_cons.mp hshare).1.symm
        exact ⟨c, rest, rfl, by rw [hslash]; decide⟩
      · have hword : Json.isWordChar c = true := by
          rw [Str.ofText, List.map_cons, List.head?_cons, Option.any_some, hcode] at hdrive
          simp only [Json.isWordChar, Char.isAlphanum, hdrive, Bool.true_or]
        have hprintable := (printable_word hword).2
        exact ⟨c, rest, rfl, visible_word hword, by omega, ne_of_word hword (by decide)⟩

/-- An option that the relay reads as it stands. -/
structure OptionText (option : Text × Text) : Prop where
  key_ne_nil : option.1 ≠ []
  key_word : option.1.all Json.isWordChar = true
  value : RelayrcText option.2
  begins : BeginsText option.2

theorem OptionText.config {options : List (Text × Text)}
    (h : ∀ option ∈ options, OptionText option) :
    ∀ option ∈ options.map encodeOption, KeyText option.1 ∧ ValueText option.2 := by
  intro option hoption
  obtain ⟨o, ho, rfl⟩ := List.mem_map.mp hoption
  have htext := h o ho
  exact ⟨keyText_word htext.key_ne_nil htext.key_word,
    valueText_encodeText htext.value htext.begins⟩

theorem optionText_word {key value : Text} (hkey : key ≠ [] ∧ key.all Json.isWordChar = true)
    (hvalue : value ≠ [] ∧ value.all Json.isWordChar = true) : OptionText (key, value) :=
  ⟨hkey.1, hkey.2, relayrcText_word hvalue.2, beginsText_word hvalue.1 hvalue.2⟩

/-- The options before the path. -/
def relayrcPorts (socksPort controlPort : Int) : List (Text × Text) :=
  [("SocksPort".toList, Json.printInt socksPort), ("ControlPort".toList, Json.printInt controlPort)]

/-- The options after the path. -/
def relayrcRest : List (Text × Text) :=
  [("CookieAuthentication".toList, "0".toList), ("ClientOnly".toList, "1".toList),
    ("AvoidDiskWrites".toList, "1".toList), ("Log".toList, "notice stdout".toList)]

theorem relayrcOptions_eq (socksPort controlPort : Int) (t : Text) :
    relayrcOptions socksPort controlPort t =
      relayrcPorts socksPort controlPort ++ ("DataDirectory".toList, t) :: relayrcRest := rfl

theorem optionText_ports (socksPort controlPort : Int) :
    ∀ option ∈ relayrcPorts socksPort controlPort, OptionText option := by
  have hport : ∀ port : Int, Json.printInt port ≠ [] ∧
      (Json.printInt port).all Json.isWordChar = true := fun port =>
    ⟨Json.printInt_ne_nil port, Json.printInt_word port⟩
  intro option hoption
  simp only [relayrcPorts, List.mem_cons, List.not_mem_nil, or_false] at hoption
  rcases hoption with rfl | rfl
  · exact optionText_word (by decide) (hport socksPort)
  · exact optionText_word (by decide) (hport controlPort)

theorem optionText_rest : ∀ option ∈ relayrcRest, OptionText option := by
  intro option hoption
  simp only [relayrcRest, List.mem_cons, List.not_mem_nil, or_false] at hoption
  rcases hoption with rfl | rfl | rfl | rfl
  · exact optionText_word (by decide) (by decide)
  · exact optionText_word (by decide) (by decide)
  · exact optionText_word (by decide) (by decide)
  · -- the one value with a space in it
    refine ⟨by decide, by decide, ⟨by decide, by decide, ?_, by decide⟩, 'n', _, rfl, by decide⟩
    intro c hc
    cases hc
    rfl

/-! ### Reading back -/

/-- The relay reads back a path that is text as it stands. -/
theorem readsBack_of_text {os : OsName} {t : Text} (hpath : os.Resolved (Str.ofText t))
    (ht : RelayrcText t) (socksPort controlPort : Int) :
    RelayrcReadsBack socksPort controlPort (Str.ofText t) := by
  have hkey : "DataDirectory".toList ≠ [] ∧ "DataDirectory".toList.all Json.isWordChar = true := by
    decide
  have hoptions : ∀ option ∈ relayrcOptions socksPort controlPort t, OptionText option := by
    intro option hoption
    rw [relayrcOptions_eq, List.mem_append, List.mem_cons] at hoption
    rcases hoption with hoption | rfl | hoption
    · exact optionText_ports socksPort controlPort option hoption
    · exact ⟨hkey.1, hkey.2, ht, hpath.beginsText⟩
    · exact optionText_rest option hoption
  refine ⟨(relayrcOptions socksPort controlPort t).flatMap optionLine, t, ?_, rfl, ?_⟩
  · rw [onionrelayrc_eq, encodeUtf8_ofText]
  · rw [encodeText_options]
    exact readConfig_lines (OptionText.config hoptions) (List.cons_ne_nil _ _)

/-- The text up to the path. -/
def relayrcBefore (socksPort controlPort : Int) : Text :=
  (relayrcPorts socksPort controlPort).flatMap optionLine ++ "DataDirectory ".toList

/-- The text from the path on. -/
def relayrcFrom (t : Text) : Text := t ++ '\n' :: relayrcRest.flatMap optionLine

/-- The text, cut at the path. -/
theorem flatMap_relayrcOptions (socksPort controlPort : Int) (t : Text) :
    (relayrcOptions socksPort controlPort t).flatMap optionLine =
      relayrcBefore socksPort controlPort ++ relayrcFrom t := by
  rw [relayrcOptions_eq, List.flatMap_append, List.flatMap_cons, optionLine, relayrcBefore,
    relayrcFrom, List.append_assoc]
  simp

/-- The path as the relay reads it from its line, whatever comes after its first byte. -/
theorem dataDir_read {socksPort controlPort : Int} {t : Text} {c : UInt8} {line : List UInt8}
    (hspace : torIsSpace c = false) (hquote : c ≠ 34)
    (h : readConfig (encodeText (relayrcBefore socksPort controlPort) ++ c :: line) =
      .ok ((relayrcOptions socksPort controlPort t).map encodeOption)) :
    encodeText t = (plainValue (c :: line)).1 := by
  have hbefore : encodeText (relayrcBefore socksPort controlPort) ++ c :: line =
      ((relayrcPorts socksPort controlPort).map encodeOption).flatMap configLine ++
        (encodeText "DataDirectory".toList ++ 32 :: c :: line) := by
    rw [relayrcBefore, encodeText_append, encodeText_options, List.append_assoc]
    rfl
  rw [hbefore] at h
  have hoption := readConfig_after (OptionText.config (optionText_ports socksPort controlPort))
    (keyText_word (by decide) (by decide)) hspace hquote h
  exact congrArg Prod.snd (Option.some.inj hoption)

/-- The first byte of a value. -/
theorem BeginsText.encode {t : Text} (h : BeginsText t) : ∃ c rest, t = c :: rest ∧
    (c ≠ '\r' ∧ c ≠ '\x1a') ∧ torIsSpace (asciiByte c) = false ∧ asciiByte c ≠ 34 ∧
      ∀ s : Text, encodeText (c :: s) = asciiByte c :: encodeText s := by
  obtain ⟨c, rest, rfl, hvisible, hascii, hquote⟩ := h
  refine ⟨c, rest, rfl, ⟨?_, ?_⟩, ?_, ?_, ?_⟩
  · rintro rfl
    exact absurd hvisible (by decide)
  · rintro rfl
    exact absurd hvisible (by decide)
  · rw [torIsSpace_asciiByte hascii, torSpaceChar_visible hvisible]
  · exact fun heq => hquote (asciiByte_inj (d := '"') hascii (by decide) heq)
  · intro s
    rw [encodeText_cons, utf8EncodeChar_ascii hascii]
    rfl

theorem plainValue_of_readsBack {socksPort controlPort : Int} {os : OsName} {t : Text}
    (hpath : os.Resolved (Str.ofText t))
    (h : RelayrcReadsBack socksPort controlPort (Str.ofText t)) :
    encodeText t = (plainValue (encodeText (relayrcFrom t))).1 := by
  obtain ⟨text, t', htext, ht', hread⟩ := h
  rw [← Str.ofText_injective ht'] at hread
  rw [onionrelayrc_eq, encodeUtf8_ofText] at htext
  obtain ⟨c, rest, hc, -, hspace, hquote, hencode⟩ := hpath.beginsText.encode
  have hfrom : encodeText (relayrcFrom t) =
      asciiByte c :: encodeText (rest ++ '\n' :: relayrcRest.flatMap optionLine) := by
    rw [relayrcFrom, hc, List.cons_append, hencode]
  rw [← Except.ok.inj htext, flatMap_relayrcOptions, encodeText_append, hfrom] at hread
  rw [hfrom]
  exact dataDir_read hspace hquote hread

/-- The first line after the path, without its newline. -/
def cookieLine : Text := "CookieAuthentication 0".toList

theorem encodeText_relayrcFrom (t : Text) : ∃ more,
    encodeText (relayrcFrom t) = encodeText t ++ 10 :: (encodeText cookieLine ++ 10 :: more) := by
  have hsplit : relayrcRest.flatMap optionLine =
      cookieLine ++ '\n' :: relayrcRest.tail.flatMap optionLine := by decide
  refine ⟨encodeText (relayrcRest.tail.flatMap optionLine), ?_⟩
  rw [relayrcFrom, hsplit, encodeText_append, encodeText_cons, encodeText_append, encodeText_cons]
  rfl

theorem getLast?_cookieLine : (encodeText cookieLine).getLast? = some 48 := by
  have hsplit : cookieLine = "CookieAuthentication ".toList ++ ['0'] := by decide
  rw [hsplit, encodeText_append]
  exact List.getLast?_concat

section

variable {os : OsName} {a b : Text} {tail : List UInt8}

/-- A path with a comment in it is cut there. -/
theorem plainValue_hash (hnewline : '\n' ∉ a) (ha : '#' ∉ a) :
    (plainValue (encodeText (a ++ '#' :: b) ++ tail)).1 ≠ encodeText (a ++ '#' :: b) := by
  have hcut : encodeText (a ++ '#' :: b) = encodeText a ++ 35 :: encodeText b := by
    rw [encodeText_append, encodeText_cons]
    rfl
  have hnewline' : 10 ∉ encodeText a := fun h =>
    hnewline ((byte_mem_encodeText (c := '\n') (by decide)).mp h)
  have ha' : 35 ∉ encodeText a := fun h =>
    ha ((byte_mem_encodeText (c := '#') (by decide)).mp h)
  have hle := (List.rdropWhile_prefix torIsSpace (encodeText a)).length_le
  rw [hcut, List.append_assoc, List.cons_append, plainValue_comment hnewline' ha']
  intro h
  have hlen := congrArg List.length h
  rw [List.length_append, List.length_cons] at hlen
  dsimp only at hlen
  omega

/-- A path with a backslash at its end takes the next line with it. -/
theorem plainValue_slash (hnewline : '\n' ∉ a) (ha : '#' ∉ a) :
    (plainValue (encodeText (a ++ ['\\']) ++
      (10 :: (encodeText cookieLine ++ 10 :: tail)))).1 ≠ encodeText (a ++ ['\\']) := by
  have hnot : ∀ {c : Char} {t : Text}, c.toNat < 0x80 → c ∉ t → asciiByte c ∉ encodeText t :=
    fun hc ht h => ht ((byte_mem_encodeText hc).mp h)
  have hslash : encodeText (a ++ ['\\']) = encodeText a ++ [92] := encodeText_append a _
  have hvalue := plainValue_continuation (hnot (c := '\n') (by decide) hnewline)
    (hnot (c := '#') (by decide) ha) (hnot (c := '\n') (t := cookieLine) (by decide) (by decide))
    (hnot (c := '#') (by decide) (by decide)) getLast?_cookieLine (by decide) (by decide) tail
  rw [hslash, List.append_assoc, List.singleton_append, hvalue]
  intro h
  -- the value ends with the next line, the path with the backslash
  have hlast := getLast?_cookieLine
  rw [List.append_cancel_left h] at hlast
  cases hlast

/-- A path loses the white space at its end. -/
theorem plainValue_space {c : Char} (hnewline : '\n' ∉ a ++ [c]) (ha : '#' ∉ a ++ [c])
    (hc : torSpaceChar c = true) :
    (plainValue (encodeText (a ++ [c]) ++ 10 :: tail)).1 ≠ encodeText (a ++ [c]) := by
  have hascii : c.toNat < 0x80 := by
    rw [torSpaceChar, Bool.or_eq_true, Bool.and_eq_true, decide_eq_true_eq, decide_eq_true_eq,
      decide_eq_true_eq] at hc
    omega
  have hsplit : encodeText (a ++ [c]) = encodeText a ++ [asciiByte c] := by
    rw [encodeText_append, encodeText_cons, utf8EncodeChar_ascii hascii]
    rfl
  have hnot : ∀ {d : Char}, d.toNat < 0x80 → d ∉ a ++ [c] →
      asciiByte d ∉ encodeText (a ++ [c]) :=
    fun hd hmem h => hmem ((byte_mem_encodeText hd).mp h)
  -- white space is no backslash, so the line is not continued
  have hlast : (encodeText (a ++ [c])).getLast? ≠ some 92 := by
    rw [hsplit, List.getLast?_concat]
    intro h
    rw [asciiByte_inj (d := '\\') hascii (by decide) (Option.some.inj h)] at hc
    cases hc
  have hspace : torIsSpace (asciiByte c) = true := by rw [torIsSpace_asciiByte hascii, hc]
  have hle := (List.rdropWhile_prefix torIsSpace (encodeText a)).length_le
  rw [plainValue_line (hnot (d := '\n') (by decide) hnewline) (hnot (d := '#') (by decide) ha)
    hlast, hsplit, List.rdropWhile_concat_pos _ _ _ hspace]
  -- what is read is shorter than the path
  intro h
  have hlen := congrArg List.length h
  rw [List.length_append, List.length_singleton] at hlen
  dsimp only at hlen
  omega

end

/-- A path that is read back is text that is read as it stands. -/
theorem text_of_readsBack {socksPort controlPort : Int} {os : OsName} {t : Text}
    (hpath : os.Resolved (Str.ofText t))
    (h : RelayrcReadsBack socksPort controlPort (Str.ofText t)) : RelayrcText t := by
  have hread := plainValue_of_readsBack hpath h
  -- a value never contains a newline
  have hnewline : '\n' ∉ t := by
    intro hmem
    have hbyte := (byte_mem_encodeText (c := '\n') (by decide)).mpr hmem
    rw [hread] at hbyte
    exact newline_notMem_plainValue _ hbyte
  obtain ⟨more, hmore⟩ := encodeText_relayrcFrom t
  rw [hmore] at hread
  -- at a comment, at white space and at a continuation the value differs from the path
  have hhash : '#' ∉ t := by
    intro hmem
    obtain ⟨a, b, rfl, ha⟩ := List.eq_append_cons_of_mem hmem
    exact plainValue_hash (fun hn => hnewline (List.mem_append_left _ hn)) ha hread.symm
  refine ⟨hnewline, hhash, ?_, ?_⟩
  · intro c hlast
    obtain ⟨a, rfl⟩ := List.getLast?_eq_some_iff.mp hlast
    by_contra hc
    exact plainValue_space hnewline hhash (Bool.of_not_eq_false hc) hread.symm
  · intro hlast
    obtain ⟨a, rfl⟩ := List.getLast?_eq_some_iff.mp hlast
    exact plainValue_slash (fun hn => hnewline (List.mem_append_left _ hn))
      (fun hn => hhash (List.mem_append_left _ hn)) hread.symm

/-- The relay reads the seven options that were meant exactly when the data directory is text
without a newline and without `#`, and ends neither in white space nor in a backslash.

Text like that is one value of its line.  Conversely the value that is read never has a newline,
stops at a comment, is trimmed and takes the next line with it after a backslash, so that any
other path differs from it. -/
theorem relayrc_readsBack_iff {os : OsName} {dataDir : Str} (hpath : os.Resolved dataDir)
    (socksPort controlPort : Int) :
    RelayrcReadsBack socksPort controlPort dataDir ↔
      ∃ t, dataDir = Str.ofText t ∧ RelayrcText t := by
  constructor
  · intro h
    obtain ⟨-, t, -, rfl, -⟩ := id h
    exact ⟨t, rfl, text_of_readsBack hpath h⟩
  · rintro ⟨t, rfl, ht⟩
    exact readsBack_of_text hpath ht socksPort controlPort

/-- A state directory with `#` in its name: the relay takes the path to end there. -/
theorem hash_path_not_readBack : ∃ (os : OsName) (socksPort controlPort : Int) (dataDir : Str),
    os.Resolved dataDir ∧ ¬ RelayrcReadsBack socksPort controlPort dataDir := by
  have hpath : OsName.posix.Resolved
      (Str.ofText ['/', 'a', '#', 'b', '/', 'o', 'n', 'i', 'o', 'n', 'r', 'e', 'l', 'a', 'y', '/',
        'd', 'a', 't', 'a']) := ⟨by decide, by decide⟩
  refine ⟨.posix, 9050, 9051, _, hpath, fun h => ?_⟩
  exact (text_of_readsBack hpath h).hash (by decide)

/-- A path of Windows with a space and a letter beyond ASCII. -/
theorem relayrc_readsBack_iff_sample :
    RelayrcReadsBack 9050 9051 (Str.ofText ['C', ':', '\\', 'é', ' ', 'b']) := by
  have hpath : OsName.nt.Resolved (Str.ofText ['C', ':', '\\', 'é', ' ', 'b']) :=
    ⟨by decide, by decide⟩
  refine (relayrc_readsBack_iff hpath 9050 9051).mpr
    ⟨['C', ':', '\\', 'é', ' ', 'b'], rfl, by decide, by decide, ?_, by decide⟩
  intro c hc
  cases hc
  rfl

/-! ### The file -/

namespace OsName

variable {os : OsName}

theorem translate_append (s t : Text) :
    os.translate (s ++ t) = os.translate s ++ os.translate t := List.flatMap_append

/-- What the loader does not take for the end of the file. -/
theorem readFileToStr_append {s : List UInt8} (hs : os = .nt → 26 ∉ s) (rest : List UInt8) :
    os.readFileToStr (s ++ rest) = s.filter (· ≠ 13) ++ os.readFileToStr rest := by
  cases os with
  | posix => exact List.filter_append ..
  | nt =>
    have htake : (s ++ rest).takeWhile (· ≠ 26) = s ++ rest.takeWhile (· ≠ 26) := by
      refine List.takeWhile_append_of_pos fun b hb => ?_
      exact decide_eq_true fun heq => hs rfl (heq ▸ hb)
    rw [readFileToStr, readTextMode, htake, List.filter_append]
    rfl

/-- What the loader never lets through. -/
theorem mem_readFileToStr {b : UInt8} {bytes : List UInt8} (h : b ∈ os.readFileToStr bytes) :
    b ≠ 13 ∧ (os = .nt → b ≠ 26) := by
  obtain ⟨hmem, hb⟩ := List.mem_filter.mp h
  refine ⟨of_decide_eq_true hb, ?_⟩
  rintro rfl
  have hne : decide (b ≠ 26) = true :=
    List.mem_takeWhile_imp (p := fun b : UInt8 => decide (b ≠ 26)) hmem
  exact of_decide_eq_true hne

/-- A character that the loader lets through. -/
def Passes (os : OsName) (c : Char) : Prop := c ≠ '\r' ∧ (os = .nt → c ≠ '\x1a')

/-- Text comes through the file as it was written: the loader takes out again what the line ends
have put in. -/
theorem readFileToStr_translate {t : Text} (ht : ∀ c ∈ t, os.Passes c) (rest : List UInt8) :
    os.readFileToStr (encodeText (os.translate t) ++ rest) =
      encodeText t ++ os.readFileToStr rest := by
  induction t with
  | nil => rfl
  | cons c t ih =>
    have htail := ih fun d hd => ht d (List.mem_cons_of_mem _ hd)
    have hc := ht c (List.mem_cons_self ..)
    have hcons : os.translate (c :: t) = os.translate [c] ++ os.translate t :=
      translate_append [c] t
    have hbyte : ∀ {d : Char}, d.toNat < 0x80 → d ≠ c →
        asciiByte d ∉ encodeText [c] := fun hd hne h =>
      hne (List.mem_singleton.mp ((byte_mem_encodeText hd).mp h))
    have hchar : encodeText (c :: t) = encodeText [c] ++ encodeText t := encodeText_append [c] t
    rw [hcons, encodeText_append, List.append_assoc, hchar, List.append_assoc, ← htail]
    by_cases hnewline : c = '\n'
    · subst hnewline
      cases os with
      | posix => exact readFileToStr_append (fun hos => by cases hos) _
      | nt => exact readFileToStr_append (fun _ => by decide) _
    · have hself : os.translate [c] = [c] := by
        rw [translate, List.flatMap_cons, if_neg hnewline]
        rfl
      have hfilter : (encodeText [c]).filter (· ≠ 13) = encodeText [c] := by
        refine List.filter_eq_self.mpr fun b hb => decide_eq_true ?_
        rintro rfl
        exact hbyte (d := '\r') (by decide) (Ne.symm hc.1) hb
      rw [hself, readFileToStr_append (fun hos => hbyte (d := '\x1a') (by decide)
        (Ne.symm (hc.2 hos))), hfilter]

end OsName

/-- A text is written in UTF-8 with its line ends. -/
theorem writeText_ofText (os : OsName) (t : Text) :
    writeText os (Str.ofText t) = .ok (encodeText (os.translate t)) := by
  rw [writeText, encodeUtf8_ofText]
  rfl

theorem OsName.passes_word (os : OsName) {c : Char} (hc : Json.isWordChar c = true) :
    os.Passes c := ⟨ne_of_word hc (by decide), fun _ => ne_of_word hc (by decide)⟩

theorem OsName.passes_of_notMem (os : OsName) {t : Text} (hcr : '\r' ∉ t) (heof : '\x1a' ∉ t) :
    ∀ c ∈ t, os.Passes c := by
  intro c hc
  refine ⟨?_, fun _ => ?_⟩
  · rintro rfl
    exact hcr hc
  · rintro rfl
    exact heof hc

theorem passes_relayrcBefore (os : OsName) (socksPort controlPort : Int) :
    ∀ c ∈ relayrcBefore socksPort controlPort, os.Passes c := by
  have hline : ∀ {key : Text} {port : Int}, key.all Json.isWordChar = true →
      ∀ c ∈ optionLine (key, Json.printInt port), os.Passes c := by
    intro key port hkey c hc
    have hport := List.all_eq_true.mp (Json.printInt_word port)
    simp only [optionLine, List.mem_append, List.mem_cons, List.not_mem_nil, or_false] at hc
    rcases hc with hc | rfl | hc | rfl
    · exact os.passes_word (List.all_eq_true.mp hkey c hc)
    · exact ⟨by decide, fun _ => by decide⟩
    · exact os.passes_word (hport c hc)
    · exact ⟨by decide, fun _ => by decide⟩
  intro c hc
  rw [relayrcBefore, relayrcPorts, List.flatMap_cons, List.flatMap_cons, List.flatMap_nil,
    List.append_nil, List.mem_append, List.mem_append] at hc
  rcases hc with (hc | hc) | hc
  · exact hline (by decide) c hc
  · exact hline (by decide) c hc
  · exact os.passes_of_notMem (by decide) (by decide) c hc

/-- From the path on, the text passes if the path does. -/
theorem passes_relayrcFrom {os : OsName} {t : Text} (ht : ∀ c ∈ t, os.Passes c) :
    ∀ c ∈ relayrcFrom t, os.Passes c := by
  intro c hc
  rcases List.mem_append.mp hc with hc | hc
  · exact ht c hc
  · exact os.passes_of_notMem (by decide) (by decide) c hc

/-- The loader gives the parser the text of a path that passes. -/
theorem readFileToStr_relayrc {os : OsName} {t : Text} (ht : ∀ c ∈ t, os.Passes c)
    (socksPort controlPort : Int) :
    os.readFileToStr (encodeText (os.translate
      ((relayrcOptions socksPort controlPort t).flatMap optionLine))) =
        encodeText ((relayrcOptions socksPort controlPort t).flatMap optionLine) := by
  have hpasses : ∀ c ∈ (relayrcOptions socksPort controlPort t).flatMap optionLine,
      os.Passes c := by
    intro c hc
    rw [flatMap_relayrcOptions, List.mem_append] at hc
    exact hc.elim (passes_relayrcBefore os socksPort controlPort c) (passes_relayrcFrom ht c)
  have hfile := OsName.readFileToStr_translate hpasses []
  have hnil : os.readFileToStr [] = [] := by cases os <;> rfl
  rwa [List.append_nil, hnil, List.append_nil] at hfile

/-- A path that is loaded passes: what is read is made of bytes that the loader has let
through. -/
theorem passes_of_loads {socksPort controlPort : Int} {os : OsName} {t : Text}
    (hpath : os.Resolved (Str.ofText t))
    (h : RelayrcLoads os socksPort controlPort (Str.ofText t)) : ∀ c ∈ t, os.Passes c := by
  obtain ⟨bytes, t', hbytes, ht', hread⟩ := h
  rw [← Str.ofText_injective ht'] at hread
  rw [onionrelayrc_eq, writeText_ofText, flatMap_relayrcOptions] at hbytes
  obtain ⟨c, rest, hc, ⟨hcr, heof⟩, hspace, hquote, hencode⟩ := hpath.beginsText.encode
  -- the text up to the first character of the path passes
  have hbefore : ∀ d ∈ relayrcBefore socksPort controlPort ++ [c], os.Passes d := by
    intro d hd
    rcases List.mem_append.mp hd with hd | hd
    · exact passes_relayrcBefore os socksPort controlPort d hd
    · rw [List.mem_singleton.mp hd]
      exact ⟨hcr, fun _ => heof⟩
  have hcut : relayrcBefore socksPort controlPort ++ relayrcFrom t =
      (relayrcBefore socksPort controlPort ++ [c]) ++
        (rest ++ '\n' :: relayrcRest.flatMap optionLine) := by
    rw [relayrcFrom, hc]
    simp
  have hchar : encodeText [c] = [asciiByte c] := hencode []
  rw [← Except.ok.inj hbytes, hcut, OsName.translate_append, encodeText_append,
    OsName.readFileToStr_translate hbefore, encodeText_append, hchar, List.append_assoc] at hread
  have hvalue := dataDir_read hspace hquote hread
  intro d hd
  have hbyte : ∀ e : Char, e.toNat < 0x80 → d = e → asciiByte e = asciiByte c ∨ asciiByte e ∈
      os.readFileToStr (encodeText (os.translate
        (rest ++ '\n' :: relayrcRest.flatMap optionLine))) := by
    rintro e he rfl
    have hmem := (byte_mem_encodeText he).mpr hd
    rw [hvalue] at hmem
    exact List.mem_cons.mp (mem_plainValue hmem)
  refine ⟨fun heq => ?_, fun hos heq => ?_⟩
  · rcases hbyte '\r' (by decide) heq with hmem | hmem
    · rw [← hmem] at hspace
      cases hspace
    · exact (OsName.mem_readFileToStr hmem).1 rfl
  · rcases hbyte '\x1a' (by decide) heq with hmem | hmem
    · obtain ⟨c', rest', heq', hvisible, hascii, -⟩ := hpath.beginsText
      obtain ⟨rfl, -⟩ := List.cons.inj (hc.symm.trans heq')
      exact heof (asciiByte_inj (c := '\x1a') (by decide) hascii hmem).symm
    · exact (OsName.mem_readFileToStr hmem).2 hos rfl

/-- A path that passes is loaded as it is read back from the text. -/
theorem loads_iff_readsBack {os : OsName} {t : Text} (ht : ∀ c ∈ t, os.Passes c)
    (socksPort controlPort : Int) :
    RelayrcLoads os socksPort controlPort (Str.ofText t) ↔
      RelayrcReadsBack socksPort controlPort (Str.ofText t) := by
  have hfile := readFileToStr_relayrc ht socksPort controlPort
  have hwrite := writeText_ofText os
    ((relayrcOptions socksPort controlPort t).flatMap optionLine)
  have htext := encodeUtf8_ofText ((relayrcOptions socksPort controlPort t).flatMap optionLine)
  rw [← onionrelayrc_eq] at hwrite htext
  constructor
  · rintro ⟨bytes, t', hbytes, ht', hread⟩
    rw [← Str.ofText_injective ht'] at hread
    rw [hwrite] at hbytes
    rw [← Except.ok.inj hbytes, hfile] at hread
    exact ⟨_, t, htext, rfl, hread⟩
  · rintro ⟨text, t', htext', ht', hread⟩
    rw [← Str.ofText_injective ht'] at hread
    rw [htext] at htext'
    rw [← Except.ok.inj htext', ← hfile] at hread
    exact ⟨_, t, hwrite, rfl, hread⟩

/-- The relay loads the options that were meant exactly when its parser reads them back from the
text and its loader lets the path through: without a CR and, on Windows, without the character that
ends a text file.

The line ends of the platform make no difference, because the loader takes the CRs out again; and
the value that is read has only bytes that the loader has let through. -/
theorem relayrc_loads_iff {os : OsName} {dataDir : Str} (hpath : os.Resolved dataDir)
    (socksPort controlPort : Int) :
    RelayrcLoads os socksPort controlPort dataDir ↔
      ∃ t, dataDir = Str.ofText t ∧ RelayrcText t ∧ ∀ c ∈ t, os.Passes c := by
  constructor
  · intro h
    obtain ⟨-, t, -, rfl, -⟩ := id h
    have hpasses := passes_of_loads hpath h
    exact ⟨t, rfl, text_of_readsBack hpath ((loads_iff_readsBack hpasses _ _).mp h), hpasses⟩
  · rintro ⟨t, rfl, ht, hpasses⟩
    exact (loads_iff_readsBack hpasses _ _).mpr (readsBack_of_text hpath ht _ _)

/-- The same path, from the file. -/
theorem relayrc_loads_iff_sample :
    RelayrcLoads .nt 9050 9051 (Str.ofText ['C', ':', '\\', 'é', ' ', 'b']) := by
  refine (relayrc_loads_iff ⟨by decide, by decide⟩ 9050 9051).mpr
    ⟨['C', ':', '\\', 'é', ' ', 'b'], rfl, ⟨by decide, by decide, ?_, by decide⟩,
      OsName.nt.passes_of_notMem (by decide) (by decide)⟩
  intro c hc
  cases hc
  rfl

/-! ### State directories -/

theorem OsName.isAbsolute_append {os : OsName} {dir : Str} (h : os.isAbsolute dir = true)
    (name : Str) : os.isAbsolute (dir ++ name) = true := by
  cases dir with
  | nil => cases os <;> cases h
  | cons c dir =>
    cases os with
    | posix => exact h
    | nt =>
      have happend : ∀ {p l : Str}, p.isPrefixOf l = true → p.isPrefixOf (l ++ name) = true := by
        intro p l hp
        rw [List.isPrefixOf_iff_prefix] at hp ⊢
        exact hp.trans (List.prefix_append l name)
      rw [isAbsolute, Bool.or_eq_true, Bool.and_eq_true] at h ⊢
      rcases h with hshare | ⟨hdrive, hcolon⟩
      · exact Or.inl (happend hshare)
      · exact Or.inr ⟨hdrive, happend hcolon⟩

/-- A name is appended to a directory, after a separator if there is none. -/
theorem OsName.join_ofText (os : OsName) (dir : Str) (name : Text) : ∃ s : Text,
    os.join dir (Str.ofText name) = dir ++ Str.ofText (s ++ name) ∧ (s = [] ∨ s = [os.sep]) := by
  rw [join]
  split_ifs
  · exact ⟨[], rfl, Or.inl rfl⟩
  · exact ⟨[os.sep], List.append_assoc _ _ _, Or.inr rfl⟩

/-- What is appended to the state directory. -/
theorem onionrelayData_eq (os : OsName) (stateDir : Str) : ∃ s : Text,
    os.onionrelayData stateDir = stateDir ++ Str.ofText s ∧ '\x00' ∉ s ∧ '\n' ∉ s ∧ '#' ∉ s ∧
      s.getLast? = some 'a' := by
  obtain ⟨s₁, h₁, hs₁⟩ := os.join_ofText stateDir "onionrelay".toList
  obtain ⟨s₂, h₂, hs₂⟩ := os.join_ofText (os.join stateDir (Str.lit "onionrelay")) "data".toList
  refine ⟨(s₁ ++ "onionrelay".toList) ++ (s₂ ++ "data".toList), ?_, ?_⟩
  · rw [OsName.onionrelayData, Str.ofText_append, ← List.append_assoc]
    exact h₂.trans (congrArg (· ++ _) h₁)
  · cases os <;> rcases hs₁ with rfl | rfl <;> rcases hs₂ with rfl | rfl <;> decide

/-- Without symbolic links below the state directory, its own path decides. -/
theorem relayrc_stateDir_iff {os : OsName} {stateDir : Str} (hstate : os.Resolved stateDir)
    (socksPort controlPort : Int) :
    RelayrcReadsBack socksPort controlPort (os.onionrelayData stateDir) ↔
      ∃ t, stateDir = Str.ofText t ∧ '\n' ∉ t ∧ '#' ∉ t := by
  obtain ⟨s, hs, hnul, hnewline, hhash, hlast⟩ := onionrelayData_eq os stateDir
  have hpath : os.Resolved (os.onionrelayData stateDir) := by
    rw [hs]
    refine ⟨OsName.isAbsolute_append hstate.absolute _, ?_⟩
    rw [List.mem_append, not_or, Str.ofText, List.mem_map]
    refine ⟨hstate.noNul, ?_⟩
    rintro ⟨c, hc, heq⟩
    exact hnul (Str.ofChar_eq_zero.mp heq ▸ hc)
  -- the path ends in `data`, so neither white space nor a backslash is at its end
  have hend : ∀ t : Text, (t ++ s).getLast? = some 'a' := by
    intro t
    rw [List.getLast?_append, hlast]
    rfl
  constructor
  · intro h
    obtain ⟨-, t, -, htext, -⟩ := id h
    have hscalar : stateDir.isScalar = true := by
      have hall := Str.isScalar_ofText t
      rw [← htext, hs, Str.isScalar, List.all_append, Bool.and_eq_true] at hall
      exact hall.1
    obtain ⟨t, rfl⟩ := Str.isScalar_iff.mp hscalar
    rw [hs, ← Str.ofText_append] at hpath h
    have ht := text_of_readsBack hpath h
    exact ⟨t, rfl, fun hmem => ht.newline (List.mem_append_left _ hmem),
      fun hmem => ht.hash (List.mem_append_left _ hmem)⟩
  · rintro ⟨t, rfl, htn, hth⟩
    rw [hs, ← Str.ofText_append] at hpath ⊢
    refine readsBack_of_text hpath ⟨?_, ?_, ?_, ?_⟩ socksPort controlPort
    · rw [List.mem_append, not_or]
      exact ⟨htn, hnewline⟩
    · rw [List.mem_append, not_or]
      exact ⟨hth, hhash⟩
    · intro c hc
      rw [hend] at hc
      cases hc
      rfl
    · intro hc
      rw [hend] at hc
      cases hc

end P4
