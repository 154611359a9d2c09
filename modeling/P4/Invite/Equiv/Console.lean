/-
  An invite that is pasted, typed or read from a file is the invite that was printed.

  The lines of an invite end at the first line that is a single dot.  No line of printed JSON is
  one: every line has a character other than a dot or white space (`inked_print`), so the lines
  up to the dot are the whole text, and `json.loads` gives the value back.
-/
import Mathlib.Data.List.DropRight
import Mathlib.Data.List.TakeWhile
import P4.Invite.Console
import P4.Invite.Equiv.Encoding
import P4.Node.Equiv.Build
import P4.Node.Equiv.Contacts
import P4.Sample.Equiv.Laws

namespace P4

/-! ### Lines -/

/-- A character that a line with a single dot does not have. -/
def isInk (c : Char) : Bool := !isSpace c && c ≠ '.'

/-- Every line of the text has ink, where the first line may have it already. -/
def Inked : Bool → Text → Prop
  | ink, [] => ink = true
  | ink, c :: t => if c = '\n' then ink = true ∧ Inked false t else Inked (ink || isInk c) t

theorem inked_append {w : Text} (hw : '\n' ∉ w) (ink : Bool) (t : Text) :
    Inked ink (w ++ t) ↔ Inked (ink || w.any isInk) t := by
  induction w generalizing ink with
  | nil => simp
  | cons c w ih =>
    rw [List.mem_cons, not_or] at hw
    rw [List.cons_append, Inked, if_neg (Ne.symm hw.1), ih hw.2, List.any_cons, Bool.or_assoc]

theorem inked_splitOn {ink : Bool} {t : Text} (h : Inked ink t) :
    ∃ line rest, t.splitOn '\n' = line :: rest ∧ (ink || line.any isInk) = true ∧
      ∀ l ∈ rest, l.any isInk = true := by
  induction t generalizing ink with
  | nil => exact ⟨[], [], rfl, by simpa [Inked] using h, by simp⟩
  | cons c t ih =>
    rw [List.splitOn_cons_eq_if_modifyHead]
    by_cases hc : c = '\n'
    · rw [Inked, if_pos hc] at h
      obtain ⟨line, rest, hsplit, hline, hrest⟩ := ih h.2
      refine ⟨[], line :: rest, ?_, by simp [h.1], ?_⟩
      · rw [if_pos (by simp [hc]), hsplit]
      · rw [List.forall_mem_cons]
        exact ⟨hline, hrest⟩
    · rw [Inked, if_neg hc] at h
      obtain ⟨line, rest, hsplit, hline, hrest⟩ := ih h
      refine ⟨c :: line, rest, ?_, ?_, hrest⟩
      · rw [if_neg (by simp [hc]), hsplit, List.modifyHead_cons]
      · rw [List.any_cons, ← Bool.or_assoc]
        exact hline

/-- A line with ink is not a single dot. -/
theorem strip_ne_dot {line : Text} (h : line.any isInk = true) : strip line ≠ ['.'] := by
  obtain ⟨c, hc, hink⟩ := List.any_eq_true.mp h
  simp only [isInk, Bool.and_eq_true, Bool.not_eq_true', decide_eq_true_eq] at hink
  have hmem : ∀ {l : Text}, c ∈ l → c ∈ l.dropWhile isSpace := by
    intro l hl
    rw [← List.takeWhile_append_dropWhile (p := isSpace) (l := l), List.mem_append] at hl
    refine hl.resolve_left fun htake => ?_
    have hspace := List.mem_takeWhile_imp htake
    rw [hink.1] at hspace
    cases hspace
  have hstrip : c ∈ strip line := by
    rw [strip, List.mem_reverse]
    apply hmem
    rw [List.mem_reverse]
    exact hmem hc
  intro hdot
  rw [hdot, List.mem_singleton] at hstrip
  exact hink.2 hstrip

/-! ### Printed text -/

namespace Json

variable {F : Type} [JsonFloat F]

/-- A token has ink and stands in one line. -/
def IsToken (w : Text) : Prop := '\n' ∉ w ∧ w.any isInk = true

theorem Printable.newline_notMem {w : Text} (h : ∀ c ∈ w, Printable c) : '\n' ∉ w := by
  intro hmem
  exact absurd (h _ hmem) (by decide)

theorem isToken_str (s : Str) : IsToken (printStr s) :=
  ⟨Printable.newline_notMem (printStr_printable s), by rw [printStr, List.any_cons]; rfl⟩

theorem isInk_of_isDigit {c : Char} (h : c.isDigit = true) : isInk c = true := by
  have hc : 48 ≤ c.toNat ∧ c.toNat ≤ 57 := by
    simpa [Char.isDigit, UInt32.le_iff_toNat_le] using h
  have hdot : c ≠ '.' := by
    rintro rfl
    revert hc
    decide
  have hspace : isSpace c = false := by
    simp only [isSpace, Bool.or_eq_false_iff, Bool.and_eq_false_iff, decide_eq_false_iff_not]
    omega
  rw [isInk, hspace, Bool.not_false, Bool.true_and]
  exact decide_eq_true hdot

theorem isToken_word {w : Text} (hw : w.all isWordChar = true) (hink : w.any isInk = true) :
    IsToken w :=
  ⟨Printable.newline_notMem (printable_of_word hw), hink⟩

theorem any_isInk_of_isDigits {w : Text} (hw : isDigits w = true) : w.any isInk = true := by
  obtain ⟨c, r, rfl, hc⟩ := isDigits_cons hw
  rw [List.any_cons, isInk_of_isDigit hc, Bool.true_or]

theorem isToken_int (i : Int) : IsToken (printInt i) := by
  have hdigits := any_isInk_of_isDigits (isDigits_toDigits i.natAbs)
  apply isToken_word (printInt_word i)
  rw [printInt]
  split_ifs
  · rw [List.any_cons, hdigits, Bool.or_true]
  · exact hdigits

theorem isToken_float (f : F) : IsToken (JsonFloat.repr f) := by
  apply isToken_word (isFloatTok_spec (JsonFloat.repr_tok f)).1
  have hdigits : ∀ {ds tl : Text}, isDigits ds = true → (ds ++ tl).any isInk = true := by
    intro ds tl hds
    rw [List.any_append, any_isInk_of_isDigits hds, Bool.true_or]
  rcases isFloatTok_cases (JsonFloat.repr_tok f) with h | h | h | ⟨ds, tl, h | h, hds, -⟩ <;> rw [h]
  · rfl
  · rfl
  · rfl
  · exact hdigits hds
  · rw [List.any_cons, hdigits hds, Bool.or_true]

/-- After a token the line has ink. -/
theorem IsToken.inked {w : Text} (hw : IsToken w) (ink : Bool) (t : Text) :
    Inked ink (w ++ t) ↔ Inked true t := by
  rw [inked_append hw.1, hw.2, Bool.or_true]

/-- A bracket, a comma or a colon. -/
theorem inked_cons {c : Char} (hc : c ≠ '\n') (hink : isInk c = true) (ink : Bool) (t : Text) :
    Inked ink (c :: t) ↔ Inked true t := by
  rw [Inked, if_neg hc, hink, Bool.or_true]

/-- A line break may come where the line has ink. -/
theorem inked_newline (width n : Nat) (t : Text) :
    Inked true (newline width n ++ t) ↔ Inked false t := by
  have hspaces : '\n' ∉ List.replicate (width * n) ' ' := by
    rw [List.mem_replicate]
    rintro ⟨-, h⟩
    exact absurd h (by decide)
  have hblank : (List.replicate (width * n) ' ').any isInk = false := by
    rw [List.any_replicate]
    split_ifs <;> rfl
  rw [newline, List.cons_append, Inked, if_pos rfl, inked_append hspaces, hblank]
  simp

theorem inked_printElems (width n : Nat) {l : List (Json F)}
    (h : ∀ v ∈ l, ∀ n ink t, Inked true t → Inked ink (print (indented width) n v ++ t)) {t : Text}
    (ht : Inked true t) : Inked true (printElems (indented width) n l ++ t) := by
  induction l with
  | nil => exact ht
  | cons v l ih =>
    rw [List.forall_mem_cons] at h
    simp only [printElems, List.cons_append, List.append_assoc, indented]
    rw [inked_cons (by decide) rfl, inked_newline]
    exact h.1 _ _ _ (ih h.2)

theorem inked_printMembers (width n : Nat) {m : Members F}
    (h : ∀ kv ∈ m, ∀ n ink t, Inked true t → Inked ink (print (indented width) n kv.2 ++ t))
    {t : Text} (ht : Inked true t) : Inked true (printMembers (indented width) n m ++ t) := by
  induction m with
  | nil => exact ht
  | cons kv m ih =>
    obtain ⟨k, v⟩ := kv
    rw [List.forall_mem_cons] at h
    simp only [printMembers, List.cons_append, List.append_assoc, List.nil_append, indented]
    rw [inked_cons (by decide) rfl, inked_newline, (isToken_str k).inked,
      inked_cons (by decide) rfl, Inked, if_neg (by decide)]
    exact h.1 _ _ _ (ih h.2)

/-- Every line of printed JSON has ink. -/
theorem inked_print (width : Nat) (v : Json F) : ∀ n ink t, Inked true t →
    Inked ink (print (indented width) n v ++ t) := by
  induction v using Json.induction with
  | null => exact fun n ink t => ((isToken_word rfl rfl).inked ink t).mpr
  | bool b => cases b <;> exact fun n ink t => ((isToken_word rfl rfl).inked ink t).mpr
  | int i => exact fun n ink t => ((isToken_int i).inked ink t).mpr
  | float f => exact fun n ink t => ((isToken_float f).inked ink t).mpr
  | str s => exact fun n ink t => ((isToken_str s).inked ink t).mpr
  | arr l ih =>
    intro n ink t ht
    cases l with
    | nil =>
      rw [print]
      simp only [List.cons_append, List.nil_append]
      rw [inked_cons (by decide) rfl, inked_cons (by decide) rfl]
      exact ht
    | cons v l =>
      rw [List.forall_mem_cons] at ih
      simp only [print, List.cons_append, List.append_assoc, List.nil_append, indented]
      rw [inked_cons (by decide) rfl, inked_newline]
      apply ih.1
      apply inked_printElems width (n + 1) ih.2
      rw [inked_newline, inked_cons (by decide) rfl]
      exact ht
  | obj m ih =>
    intro n ink t ht
    cases m with
    | nil =>
      rw [print]
      simp only [List.cons_append, List.nil_append]
      rw [inked_cons (by decide) rfl, inked_cons (by decide) rfl]
      exact ht
    | cons kv m =>
      obtain ⟨k, v⟩ := kv
      rw [List.forall_mem_cons] at ih
      simp only [print, List.cons_append, List.append_assoc, List.nil_append, indented]
      rw [inked_cons (by decide) rfl, inked_newline, (isToken_str k).inked,
        inked_cons (by decide) rfl, Inked, if_neg (by decide)]
      apply ih.1
      apply inked_printMembers width (n + 1) ih.2
      rw [inked_newline, inked_cons (by decide) rfl]
      exact ht

end Json

/-! ### White space at the ends -/

/-- A text that `strip` leaves alone. -/
structure Trimmed (t : Text) : Prop where
  ne_nil : t ≠ []
  strip : P4.strip t = t

theorem strip_eq_rdropWhile (t : Text) : strip t = (t.dropWhile isSpace).rdropWhile isSpace := rfl

theorem Trimmed.isEmpty_strip {t : Text} (h : Trimmed t) : (P4.strip t).isEmpty = false := by
  rw [h.strip, List.isEmpty_eq_false_iff]
  exact h.ne_nil

theorem Trimmed.getLast {t : Text} (h : Trimmed t) : isSpace (t.getLast h.ne_nil) = false := by
  have hstrip : t.rdropWhile isSpace = t := by
    have hidem := List.rdropWhile_idempotent isSpace (t.dropWhile isSpace)
    rwa [← strip_eq_rdropWhile, h.strip] at hidem
  rw [← Bool.not_eq_true]
  exact List.rdropWhile_eq_self_iff.mp hstrip h.ne_nil

/-- A text that neither begins nor ends with white space. -/
theorem trimmed_of_ends {c : Char} {t : Text} (hc : isSpace c = false)
    (hlast : isSpace ((c :: t).getLast (List.cons_ne_nil _ _)) = false) : Trimmed (c :: t) := by
  refine ⟨List.cons_ne_nil _ _, ?_⟩
  have hdrop : (c :: t).dropWhile isSpace = c :: t := List.dropWhile_cons_of_neg (by simp [hc])
  rw [strip_eq_rdropWhile, hdrop, List.rdropWhile_eq_self_iff]
  intro _
  rw [hlast]
  exact Bool.false_ne_true

/-- A command with its argument. -/
theorem Trimmed.cons_append {t : Text} (h : Trimmed t) {c : Char} (hc : isSpace c = false)
    (w : Text) : Trimmed (c :: (w ++ t)) := by
  apply trimmed_of_ends hc
  have hlast : (c :: (w ++ t)).getLast (List.cons_ne_nil _ _) = t.getLast h.ne_nil := by
    rw [List.getLast_cons (by simp [h.ne_nil]), List.getLast_append_of_ne_nil _ h.ne_nil]
  rw [hlast]
  exact h.getLast

namespace Json

variable {F : Type} [JsonFloat F]

/-- The text of an object begins and ends with a brace. -/
theorem print_obj (st : Style) (n : Nat) (m : Members F) :
    ∃ t, print st n (.obj m) = '\x7b' :: (t ++ ['\x7d']) := by
  cases m with
  | nil => exact ⟨[], rfl⟩
  | cons kv m =>
    obtain ⟨k, v⟩ := kv
    refine ⟨st.margin (n + 1) ++ (printStr k ++ (':' :: (st.colon ++ (print st (n + 1) v ++
      (printMembers st (n + 1) m ++ st.margin n))))), ?_⟩
    simp only [print, List.append_assoc, List.cons_append]

theorem trimmed_print_obj (st : Style) (n : Nat) (m : Members F) :
    Trimmed (print st n (.obj m)) := by
  obtain ⟨t, ht⟩ := print_obj st n m
  rw [ht]
  apply trimmed_of_ends (by decide)
  rw [List.getLast_cons (by simp), List.getLast_append_singleton]
  decide

end Json

/-! ### The console -/

section

variable {F : Type} [JsonFloat F] {native : ByteOrder} {files : Text → Option (List UInt8)}

theorem loadInvite_of_loads {raw : Text} {v : Json F} (h : Json.loads raw = some v) :
    ∃ invite : Loaded F, loadInvite raw = some invite ∧ invite.val = v := by
  refine ⟨⟨v, Json.loads_wellFormed h⟩, ?_, rfl⟩
  unfold loadInvite
  split
  · rename_i w hw
    rw [h] at hw
    cases hw
    rfl
  · rename_i hw
    rw [h] at hw
    cases hw

variable (native files) in
/-- The lines of an invite are collected up to the dot. -/
theorem Prompt.run_lines (lines : List Text) {more : List Text} (log : List (Request F))
    (h : ∀ line ∈ more, strip line ≠ ['.']) :
    Machine.run (Prompt.step native files) ⟨.invite lines, log⟩ (more.map some) =
      some ⟨.invite (lines ++ more), log⟩ := by
  induction more generalizing lines with
  | nil => rw [List.append_nil, List.map_nil, Machine.run]
  | cons line more ih =>
    rw [List.forall_mem_cons] at h
    rw [List.map_cons]
    refine Machine.run_cons.mpr ⟨⟨.invite (lines ++ [line]), log⟩, ?_, ?_⟩
    · rw [Machine.next, Prompt.step, if_neg h.1]
      rfl
    · rw [ih _ h.2, List.append_assoc, List.singleton_append]

/-- How an invite gets from the screen of one node to the console of another. -/
inductive Handover where
  /-- `/add-invite`, the lines as they were printed, and a dot -/
  | addInvite
  /-- `/add-json` and the invite in one line, in any style -/
  | addJson (st : Json.Style)
  /-- `/add-file` and the path of a file to which the invite was printed -/
  | addFile (pathText : Text) (enc : TextEncoding) (eol : Text)

/-- A byte order mark says which UTF-16 it is. -/
def TextEncoding.marked : TextEncoding → Bool
  | utf16NoBom _ => false
  | _ => true

namespace Handover

/-- The lines that are typed. -/
def typed (v : Json F) : Handover → List Text
  | addInvite => "/add-invite".toList :: ((Json.dumpsIndented v).splitOn '\n' ++ [['.']])
  | addJson st => ["/add-json ".toList ++ Json.print st 0 v.canon]
  | addFile pathText _ _ => ["/add-file ".toList ++ pathText]

/-- The file that is named was written with the text. -/
def Ready (files : Text → Option (List UInt8)) (v : Json F) : Handover → Prop
  | addFile pathText enc eol => Trimmed pathText ∧ enc.marked = true ∧
    eol.all Json.isWs = true ∧
    files (stripQuotes pathText) = some (enc.encode (Json.dumpsIndented v ++ eol))
  | _ => True

end Handover

/-- A printed invite is taken as it is. -/
theorem addContactFromJsonText_print {m : Members F} (hm : (Json.obj m).wellFormed = true)
    (st : Json.Style) : ∃ invite : Loaded F, invite.val = (Json.obj m).canon ∧
      addContactFromJsonText (Json.print st 0 (Json.obj m).canon) = .addContact invite := by
  obtain ⟨invite, hload, hval⟩ := loadInvite_of_loads
    (Json.loads_print st (Json.wellFormed_canon hm))
  have hbom : lstripBom (Json.print st 0 (Json.obj m).canon) =
      Json.print st 0 (Json.obj m).canon := by
    obtain ⟨t, ht⟩ := Json.print_obj st 0 (Json.sortMembers (m.map fun kv => (kv.1, kv.2.canon)))
    rw [Json.canon_obj, ht]
    exact lstripBom_cons (by decide) _
  refine ⟨invite, hval, ?_⟩
  rw [addContactFromJsonText, hbom, hload]

omit [JsonFloat F] in
/-- The text of an object in an encoding that is marked is read as it was written. -/
theorem readInviteFile_marked (native : ByteOrder) {enc : TextEncoding} (h : enc.marked = true)
    (t : Text) : readInviteFile native (enc.encode ('{' :: t)) = .ok ('{' :: t) := by
  have hstrip : lstripBom ('{' :: t) = '{' :: t := lstripBom_cons (by decide) t
  cases enc with
  | utf8 =>
    have hsig : decodeUtf8Sig (encodeText ('{' :: t)) = decodeUtf8 (encodeText ('{' :: t)) :=
      decodeUtf8Sig_cons (by decide) (encodeText t)
    have hread := hsig.trans (decodeUtf8_encodeText ('{' :: t))
    rw [TextEncoding.encode, readInviteFile_utf8 hread, hstrip]
  | utf8Sig =>
    have hread := (decodeUtf8Sig_bom _).trans (decodeUtf8_encodeText ('{' :: t))
    rw [TextEncoding.encode, readInviteFile_utf8 hread, hstrip]
  | utf16 order =>
    have hread := (decodeUtf16Bom_bom native order _).trans
      (decodeUtf16_encodeUtf16 order ('{' :: t))
    rw [TextEncoding.encode, readInviteFile_utf16 (decodeUtf8Sig_bomUtf16 order _) hread, hstrip]
  | utf16NoBom order => cases h

variable (native) in
theorem addContactFromFile_print {m : Members F} (hm : (Json.obj m).wellFormed = true)
    {pathText eol : Text} {enc : TextEncoding} (henc : enc.marked = true)
    (heol : eol.all Json.isWs = true) (hpath : strip pathText = pathText)
    (hfile : files (stripQuotes pathText) =
      some (enc.encode (Json.dumpsIndented (.obj m) ++ eol))) :
    ∃ invite : Loaded F, invite.val = (Json.obj m).canon ∧
      addContactFromFile native files pathText = .addContact invite := by
  obtain ⟨invite, hload, hval⟩ := loadInvite_of_loads
    (Json.loads_print_append (Json.indented 2) (Json.wellFormed_canon hm) heol)
  have hread : readInviteFile native (enc.encode (Json.dumpsIndented (.obj m) ++ eol)) =
      .ok (Json.dumpsIndented (.obj m) ++ eol) := by
    obtain ⟨t, ht⟩ := Json.print_obj (Json.indented 2) 0
      (Json.sortMembers (m.map fun kv => (kv.1, kv.2.canon)))
    rw [Json.dumpsIndented, Json.canon_obj, ht]
    exact readInviteFile_marked native henc _
  refine ⟨invite, hval, ?_⟩
  rw [Json.dumpsIndented] at hread hfile
  simp only [addContactFromFile, hpath, hfile, hread, hload]

variable (F native files) in
theorem handleCommand_addJson {raw : Text} (h : Trimmed raw) :
    handleCommand native files ("/add-json ".toList ++ raw) =
      (.command, [addContactFromJsonText (F := F) raw]) := by
  simp [handleCommand, afterFirst, List.isPrefixOf, h.isEmpty_strip]

variable (F native files) in
theorem handleCommand_addFile {pathText : Text} (h : Trimmed pathText) :
    handleCommand native files ("/add-file ".toList ++ pathText) =
      (.command, [addContactFromFile (F := F) native files pathText]) := by
  simp [handleCommand, afterFirst, List.isPrefixOf, h.isEmpty_strip]

variable (F native files) in
/-- The console goes over to collecting lines. -/
theorem handleCommand_addInvite :
    handleCommand native files "/add-invite".toList = (.invite [], ([] : List (Request F))) := by
  simp [handleCommand, List.isPrefixOf]

theorem Prompt.next_command {line : Text} (h : Trimmed line) {prompt : Prompt}
    {out : List (Request F)} (hcmd : handleCommand native files line = (prompt, out))
    (log : List (Request F)) :
    Machine.next (Prompt.step native files) ⟨.command, log⟩ (some line) =
      some ⟨prompt, out.reverse ++ log⟩ := by
  show ((if (strip line).isEmpty then some (.command, [])
    else some (handleCommand native files (strip line))).map _) = _
  rw [h.isEmpty_strip, if_neg Bool.false_ne_true, h.strip, hcmd]
  rfl

theorem Prompt.run_command {line : Text} (h : Trimmed line) {request : Request F}
    (hcmd : handleCommand native files line = (.command, [request])) (log : List (Request F)) :
    Machine.run (Prompt.step native files) ⟨.command, log⟩ [some line] =
      some ⟨.command, request :: log⟩ := by
  refine Machine.run_cons.mpr ⟨_, Prompt.next_command h hcmd log, ?_⟩
  rw [Machine.run, List.reverse_singleton, List.singleton_append]

variable (native) in
/-- What is printed is what is added, whichever way it is handed over. -/
theorem run_typed (h : Handover) {m : Members F} (hm : (Json.obj m).wellFormed = true)
    (hready : h.Ready files (.obj m)) (log : List (Request F)) :
    ∃ invite : Loaded F, invite.val = (Json.obj m).canon ∧
      Machine.run (Prompt.step native files) ⟨.command, log⟩ ((h.typed (.obj m)).map some) =
        some ⟨.command, .addContact invite :: log⟩ := by
  cases h with
  | addInvite =>
    obtain ⟨invite, hval, hadd⟩ := addContactFromJsonText_print hm (Json.indented 2)
    refine ⟨invite, hval, ?_⟩
    -- no line of the printed text is a dot
    have hlines : ∀ line ∈ (Json.dumpsIndented (.obj m)).splitOn '\n', strip line ≠ ['.'] := by
      have hinked : Inked false (Json.dumpsIndented (.obj m)) := by
        have hprint := Json.inked_print 2 (Json.obj m).canon 0 false [] rfl
        rwa [List.append_nil] at hprint
      obtain ⟨line, rest, hsplit, hline, hrest⟩ := inked_splitOn hinked
      rw [hsplit, List.forall_mem_cons]
      exact ⟨strip_ne_dot hline, fun l hl => strip_ne_dot (hrest l hl)⟩
    have hcommand : Trimmed "/add-invite".toList := ⟨by simp, by decide⟩
    have hopen := Prompt.next_command hcommand (handleCommand_addInvite F native files) log
    have hcollect := Prompt.run_lines native files [] log hlines
    rw [List.nil_append] at hcollect
    have hclose : Prompt.step native files
        (.invite ((Json.dumpsIndented (.obj m)).splitOn '\n')) (some ['.']) =
          some (.command, [.addContact invite]) := by
      have hdot : strip ['.'] = ['.'] := by decide
      rw [Prompt.step, if_pos hdot, List.intercalate_splitOn, Json.dumpsIndented, hadd]
    rw [Handover.typed, List.map_cons, List.map_append, List.map_singleton]
    exact Machine.run_cons.mpr ⟨_, hopen, Machine.run_snoc hcollect hclose⟩
  | addJson st =>
    obtain ⟨invite, hval, hadd⟩ := addContactFromJsonText_print hm st
    have htext : Trimmed (Json.print st 0 (Json.obj m).canon) := by
      rw [Json.canon_obj]
      exact Json.trimmed_print_obj _ _ _
    have hcommand := handleCommand_addJson F native files htext
    rw [hadd] at hcommand
    exact ⟨invite, hval, Prompt.run_command (htext.cons_append (by decide) _) hcommand log⟩
  | addFile pathText enc eol =>
    obtain ⟨hpath, henc, heol, hfile⟩ := hready
    obtain ⟨invite, hval, hadd⟩ := addContactFromFile_print native hm henc heol hpath.strip hfile
    have hcommand := handleCommand_addFile F native files hpath
    rw [hadd] at hcommand
    exact ⟨invite, hval, Prompt.run_command (hpath.cons_append (by decide) _) hcommand log⟩

/-! ### The invite of a node -/

variable [Crates F]

/-- The configured host is a string that JSON text can carry. -/
def Mode.Printable : Mode → Prop
  | onion _ => True
  | direct advertiseHost _ => Json.normal advertiseHost = true

/-- The contact that an invite is about. -/
def Mode.contact (mode : Mode) (identity : Identity F) : Contact F where
  peerId := .str identity.peerId
  publicKeyB64 := .str identity.publicKeyB64
  rendezvous := mode.ownRendezvous

/-- The members of an invite. -/
def inviteMembers (identity : Identity F) (mode : Mode) : Members F :=
  [(Field.peerId, .str identity.peerId), (Field.publicKeyB64, .str identity.publicKeyB64),
    (Field.rendezvous, mode.ownRendezvous.toDict)]

omit [JsonFloat F] in
theorem keys_inviteMembers (identity : Identity F) (mode : Mode) :
    (Dict.keys (inviteMembers identity mode)).Nodup ∧
      ∀ k ∈ Dict.keys (inviteMembers identity mode), Json.normal k = true := by
  show [Field.peerId, Field.publicKeyB64, Field.rendezvous].Nodup ∧
    ∀ k ∈ [Field.peerId, Field.publicKeyB64, Field.rendezvous], Json.normal k = true
  constructor <;> decide

omit [JsonFloat F] [Crates F] in
theorem wellFormed_ownRendezvous {mode : Mode} (h : mode.Printable) :
    (mode.ownRendezvous (F := F)).toDict.wellFormed = true := by
  have hstr : ∀ {s : Str}, s.isScalar = true → (Json.str s : Json F).wellFormed = true :=
    fun hs => Json.normal_of_isScalar hs
  refine Json.wellFormed_obj.mpr ⟨Rendezvous.keys_toDict.1, Rendezvous.keys_toDict.2, ?_⟩
  simp only [List.forall_mem_cons]
  cases mode with
  | onion serviceId =>
    exact ⟨hstr (Str.isScalar_ofText _), hstr (Str.isScalar_ofText _), rfl, by simp⟩
  | direct advertiseHost signalPort => exact ⟨hstr (Str.isScalar_ofText _), h, rfl, by simp⟩

omit [JsonFloat F] in
/-- A key that the library has read is text. -/
theorem Identity.isScalar_publicKeyB64 (identity : Identity F) :
    identity.publicKeyB64.isScalar = true := by
  obtain ⟨t, ht, -⟩ := except_bind_ok.mp identity.valid
  rw [encodeUtf8_ok.mp ht]
  exact Str.isScalar_ofText t

omit [JsonFloat F] in
/-- An invite can be printed and read back. -/
theorem wellFormed_inviteMembers (identity : Identity F) {mode : Mode} (h : mode.Printable) :
    (Json.obj (inviteMembers identity mode)).wellFormed = true := by
  obtain ⟨hnodup, hnormal⟩ := keys_inviteMembers identity mode
  refine Json.wellFormed_obj.mpr ⟨hnodup, hnormal, ?_⟩
  simp only [inviteMembers, List.forall_mem_cons]
  exact ⟨Json.normal_of_isScalar identity.plain_peerId.isScalar,
    Json.normal_of_isScalar identity.isScalar_publicKeyB64, wellFormed_ownRendezvous h, by simp⟩

omit [JsonFloat F] in
/-- `Contact.from_dict` on an invite that was read. -/
theorem fromDict_inviteMembers (identity : Identity F) (mode : Mode) :
    Contact.fromDict (Json.obj (inviteMembers identity mode)).canon =
      .ok (mode.contact identity) := by
  have hnodup := (keys_inviteMembers identity mode).1
  have hitem : ∀ {k : Str} {v : Json F}, Dict.get? (inviteMembers identity mode) k = some v →
      item (Json.sortMembers ((inviteMembers identity mode).map fun kv => (kv.1, kv.2.canon))) k =
        .ok v.canon := by
    intro k v h
    rw [item, Json.get?_canon hnodup, h]
    rfl
  have hname : Dict.get? (inviteMembers identity mode) Field.name = none := rfl
  rw [Json.canon_obj, Contact.fromDict]
  refine except_bind_ok.mpr ⟨_, hitem (k := Field.peerId) rfl, except_bind_ok.mpr
    ⟨_, hitem (k := Field.publicKeyB64) rfl, except_bind_ok.mpr
    ⟨_, hitem (k := Field.rendezvous) rfl, except_bind_ok.mpr
    ⟨_, Rendezvous.ofKwargs_toDict _, ?_⟩⟩⟩⟩
  rw [Json.get?_canon hnodup, hname]
  cases mode <;> rfl

end

/-! ### A file of another system -/

namespace Sample

/-- A node on this machine. -/
def atHome : Mode := .direct (Str.ofText "127.0.0.1".toList) 18080

/-- The invite was printed to a file in UTF-16 with its own line ends. -/
def handover : Handover := .addFile "invite.json".toList (.utf16 .big) ['\r', '\n']

/-- The only file. -/
def inviteFiles (path : Text) : Option (List UInt8) :=
  if path = "invite.json".toList then
    some (TextEncoding.encode (.utf16 .big) (inviteText (identity 1) atHome ++ ['\r', '\n']))
  else none

end Sample

end P4
