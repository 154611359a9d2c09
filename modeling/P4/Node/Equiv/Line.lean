/-
  What `_write_json_line` wrote, `_read_json_line` reads.

  `json.dumps` writes printable ASCII only, so its text has one byte for each character and no
  newline, and exactly the line is taken from the stream.
-/
import P4.Node.Line
import P4.Json.Equiv.Loads
import P4.Json.Equiv.RoundTrip

namespace P4

open Json

/-! ### ASCII text -/

/-- The byte of an ASCII character. -/
def asciiByte (c : Char) : UInt8 := c.val.toUInt8

theorem toNat_asciiByte {c : Char} (hc : c.toNat < 0x80) : (asciiByte c).toNat = c.toNat := by
  have hval : c.val.toNat = c.toNat := rfl
  rw [asciiByte, UInt32.toNat_toUInt8]
  omega

theorem asciiByte_inj {c d : Char} (hc : c.toNat < 0x80) (hd : d.toNat < 0x80)
    (h : asciiByte c = asciiByte d) : c = d := by
  rw [← Char.toNat_inj, ← toNat_asciiByte hc, h, toNat_asciiByte hd]

theorem utf8EncodeChar_ascii {c : Char} (hc : c.toNat < 0x80) :
    String.utf8EncodeChar c = [asciiByte c] := by
  have hsize : c.utf8Size = 1 := by
    rw [Char.utf8Size_eq_one_iff, UInt32.le_iff_toNat_le]
    have hval : c.val.toNat = c.toNat := rfl
    have h127 : (127 : UInt32).toNat = 127 := rfl
    omega
  exact String.utf8EncodeChar_eq_singleton hsize

/-- ASCII text is one byte for each character. -/
theorem encodeText_ascii {t : Text} (ht : ∀ c ∈ t, c.toNat < 0x80) :
    encodeText t = t.map asciiByte := by
  induction t with
  | nil => rfl
  | cons c t ih =>
    rw [encodeText, List.flatMap_cons, utf8EncodeChar_ascii (ht c (List.mem_cons_self ..))]
    rw [List.map_cons, ← ih fun d hd => ht d (List.mem_cons_of_mem _ hd)]
    rfl

theorem decodeUtf8_cons {a : UInt8} (ha : a.toNat < 0x80) (r : List UInt8) :
    decodeUtf8 (a :: r) = (decodeUtf8 r).map (Char.ofNat a.toNat :: ·) := by
  rw [decodeUtf8.eq_def]
  exact if_pos ha

/-- ASCII bytes are their text. -/
theorem decodeUtf8_ascii {t : Text} (ht : ∀ c ∈ t, c.toNat < 0x80) :
    decodeUtf8 (t.map asciiByte) = some t := by
  induction t with
  | nil => rfl
  | cons c t ih =>
    have hc := ht c (List.mem_cons_self ..)
    have hb : (asciiByte c).toNat < 0x80 := by rwa [toNat_asciiByte hc]
    rw [List.map_cons, decodeUtf8_cons hb, ih fun d hd => ht d (List.mem_cons_of_mem _ hd),
      toNat_asciiByte hc, Char.ofNat_toNat]
    rfl

theorem asciiByte_ne_newline {c : Char} (hc : Printable c) : asciiByte c ≠ 10 := by
  intro h
  have htoNat := toNat_asciiByte (c := c) (by have := hc.2; omega)
  rw [h] at htoNat
  have h10 : (10 : UInt8).toNat = 10 := rfl
  have := hc.1
  omega

/-! ### Lines -/

section

variable {F : Type} [JsonFloat F]

/-- Reading one line from a stream that starts with it. -/
theorem readline_append {line rest : List UInt8} (hline : ∀ b ∈ line, b ≠ 10)
    (hlen : line.length ≤ streamLimit) :
    readline (line ++ 10 :: rest) = .ok (line ++ [10], rest) := by
  have hall : ∀ b ∈ line, decide (b ≠ 10) = true := fun b hb => decide_eq_true (hline b hb)
  have htake : (line ++ 10 :: rest).takeWhile (fun b => decide (b ≠ 10)) = line := by
    rw [List.takeWhile_append_of_pos hall]
    simp
  have hdrop : (line ++ 10 :: rest).dropWhile (fun b => decide (b ≠ 10)) = 10 :: rest := by
    rw [List.dropWhile_append_of_pos hall]
    simp
  rw [readline, htake, hdrop, if_neg (by omega)]

/-- A message is written as one line of ASCII. -/
theorem writeJsonLine_eq (m : Members F) :
    writeJsonLine m = (dumpsSorted (.obj m)).map asciiByte ++ [10] := by
  have hascii : ∀ c ∈ dumpsSorted (Json.obj m) ++ ['\n'], c.toNat < 0x80 := by
    intro c hc
    rcases List.mem_append.mp hc with hc | hc
    · have := (dumpsSorted_printable _ c hc).2
      omega
    · rw [List.mem_singleton.mp hc]
      decide
  rw [writeJsonLine, encodeText_ascii hascii, List.map_append]
  rfl

/-- A dictionary that was written as a line is read back, with its members in key order, and
nothing else is taken from the stream. -/
theorem readJsonLine_writeJsonLine {m : Members F} (hm : wellFormed (.obj m) = true)
    (hlen : (dumpsSorted (.obj m)).length ≤ streamLimit) (rest : List UInt8) :
    readJsonLine (writeJsonLine m ++ rest) =
      .ok (sortMembers (m.map fun kv => (kv.1, kv.2.canon)), rest) := by
  have hprint := dumpsSorted_printable (Json.obj m)
  -- printed text is ASCII without a newline, so the line ends where it was ended
  have hne : ∀ b ∈ (dumpsSorted (Json.obj m)).map asciiByte, b ≠ 10 := by
    intro b hb
    obtain ⟨c, hc, rfl⟩ := List.mem_map.mp hb
    exact asciiByte_ne_newline (hprint c hc)
  have hread : readline (writeJsonLine m ++ rest) = .ok (writeJsonLine m, rest) := by
    rw [writeJsonLine_eq, List.append_assoc]
    exact readline_append hne (by rwa [List.length_map])
  have hdecode : decodeUtf8 (writeJsonLine m) = some (dumpsSorted (.obj m) ++ ['\n']) := by
    have : writeJsonLine m = (dumpsSorted (Json.obj m) ++ ['\n']).map asciiByte := by
      rw [writeJsonLine_eq, List.map_append]
      rfl
    rw [this, decodeUtf8_ascii]
    intro c hc
    rcases List.mem_append.mp hc with hc | hc
    · have := (hprint c hc).2
      omega
    · rw [List.mem_singleton.mp hc]
      decide
  have hloads : loads (dumpsSorted (Json.obj m) ++ ['\n']) = some (Json.obj m).canon :=
    loads_print_append spaced (wellFormed_canon hm) rfl
  have hempty : (writeJsonLine m).isEmpty = false := by
    rw [writeJsonLine_eq]
    simp
  rw [readJsonLine, hread]
  simp only [bind, Except.bind, hempty, hdecode, hloads, canon_obj]
  rfl

end

end P4
