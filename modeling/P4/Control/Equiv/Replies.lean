/-
  One control reply, as the relay writes it and as the node reads it.

  A `ControlReply` is any number of lines, some with a data block, and a last one.  The node
  reads up to the first line with an error code (`read`), or else all of it, and leaves the rest
  of the stream alone (`readReply_reply`).  A reply without errors is therefore decoded exactly
  (`controlCommand_decodes`), as long as its lines are within the limit of the stream
  (`long_line_not_decoded`).
-/
import P4.Control.Equiv.Text
import P4.Core.Equiv.Binding

namespace P4

/-! ### Replies -/

/-- A reply of the relay: its last line, or a line and what follows it. -/
inductive ControlReply where
  | last (code : Nat) (text : Text)
  | mid (code : Nat) (text : Text) (more : ControlReply)
  /-- a line with a data block -/
  | data (code : Nat) (text : Text) (block : List Text) (more : ControlReply)

/-- A line of a reply. -/
def replyLine (code : Nat) (sep : Char) (text : Text) : Text := code3 code ++ sep :: text

/-- The lines of a data block, and its end. -/
def encodeBlock (block : List Text) : List UInt8 :=
  block.flatMap (fun t => crlf (stuff t)) ++ crlf ['.']

/-- `readline` gets the line: with its CR it is within the limit. -/
def LineFits (t : Text) : Prop := (encodeText t).length + 1 ≤ streamLimit

instance LineFits.decidable (t : Text) : Decidable (LineFits t) :=
  inferInstanceAs (Decidable ((encodeText t).length + 1 ≤ streamLimit))

namespace ControlReply

/-- The bytes of a reply. -/
def encode : ControlReply → List UInt8
  | last code text => crlf (replyLine code ' ' text)
  | mid code text more => crlf (replyLine code '-' text) ++ more.encode
  | data code text block more =>
    crlf (replyLine code '+' text) ++ (encodeBlock block ++ more.encode)

/-- The text of each line, with the lines of its block after it. -/
def texts : ControlReply → List Text
  | last _ text => [text]
  | mid _ text more => text :: more.texts
  | data _ text block more => text :: (block ++ more.texts)

/-- Codes have three digits, and texts are single lines. -/
def WellFormed : ControlReply → Prop
  | last code text => code < 1000 ∧ OneLine text
  | mid code text more => (code < 1000 ∧ OneLine text) ∧ more.WellFormed
  | data code text block more =>
    (code < 1000 ∧ OneLine text) ∧ (∀ t ∈ block, OneLine t) ∧ more.WellFormed

/-- There is no error code. -/
def Success : ControlReply → Prop
  | last code _ => code < 400
  | mid code _ more => code < 400 ∧ more.Success
  | data code _ _ more => code < 400 ∧ more.Success

instance decidableWellFormed : ∀ r : ControlReply, Decidable r.WellFormed
  | last code text => inferInstanceAs (Decidable (code < 1000 ∧ OneLine text))
  | mid code text more =>
    have := decidableWellFormed more
    inferInstanceAs (Decidable ((code < 1000 ∧ OneLine text) ∧ more.WellFormed))
  | data code text block more =>
    have := decidableWellFormed more
    inferInstanceAs (Decidable
      ((code < 1000 ∧ OneLine text) ∧ (∀ t ∈ block, OneLine t) ∧ more.WellFormed))

instance decidableSuccess : ∀ r : ControlReply, Decidable r.Success
  | last code _ => inferInstanceAs (Decidable (code < 400))
  | mid code _ more =>
    have := decidableSuccess more
    inferInstanceAs (Decidable (code < 400 ∧ more.Success))
  | data code _ _ more =>
    have := decidableSuccess more
    inferInstanceAs (Decidable (code < 400 ∧ more.Success))

/-- What the reply says: its texts, or its first error. -/
def outcome : ControlReply → Except Exc (List Text)
  | last code text => if 400 ≤ code then .error (controlError code text) else .ok [text]
  | mid code text more =>
    if 400 ≤ code then .error (controlError code text)
    else more.outcome.map fun texts => text :: texts
  | data code text block more =>
    if 400 ≤ code then .error (controlError code text)
    else more.outcome.map fun texts => text :: (block ++ texts)

/-- The part of the reply that the node reads: up to the first error. -/
def read : ControlReply → List UInt8
  | last code text => crlf (replyLine code ' ' text)
  | mid code text more =>
    crlf (replyLine code '-' text) ++ if 400 ≤ code then [] else more.read
  | data code text block more =>
    crlf (replyLine code '+' text) ++ if 400 ≤ code then [] else encodeBlock block ++ more.read

/-- The part after the first error. -/
def unread : ControlReply → List UInt8
  | last _ _ => []
  | mid code _ more => if 400 ≤ code then more.encode else more.unread
  | data code _ block more =>
    if 400 ≤ code then encodeBlock block ++ more.encode else more.unread

/-- Every line that is read is within the limit. -/
def Fits : ControlReply → Prop
  | last code text => LineFits (replyLine code ' ' text)
  | mid code text more => LineFits (replyLine code '-' text) ∧ (code < 400 → more.Fits)
  | data code text block more =>
    LineFits (replyLine code '+' text) ∧
      (code < 400 → (∀ t ∈ block, LineFits (stuff t)) ∧ more.Fits)

instance decidableFits : ∀ r : ControlReply, Decidable r.Fits
  | last code text => inferInstanceAs (Decidable (LineFits (replyLine code ' ' text)))
  | mid code text more =>
    have := decidableFits more
    inferInstanceAs (Decidable (LineFits (replyLine code '-' text) ∧ (code < 400 → more.Fits)))
  | data code text block more =>
    have := decidableFits more
    inferInstanceAs (Decidable (LineFits (replyLine code '+' text) ∧
      (code < 400 → (∀ t ∈ block, LineFits (stuff t)) ∧ more.Fits)))

/-- A reply is what is read of it and the rest. -/
theorem read_append_unread (r : ControlReply) : r.read ++ r.unread = r.encode := by
  induction r with
  | last code text => exact List.append_nil _
  | mid code text more ih =>
    rw [read, unread, encode, List.append_assoc]
    split_ifs
    · rfl
    · rw [ih]
  | data code text block more ih =>
    rw [read, unread, encode, List.append_assoc]
    split_ifs
    · rfl
    · rw [List.append_assoc, ih]

/-- A reply without errors is read to its end. -/
theorem Success.read_eq {r : ControlReply} (h : r.Success) : r.read = r.encode := by
  induction r with
  | last code text => rfl
  | mid code text more ih =>
    have hcode : ¬ 400 ≤ code := Nat.not_le.mpr h.1
    rw [read, encode, if_neg hcode, ih h.2]
  | data code text block more ih =>
    have hcode : ¬ 400 ≤ code := Nat.not_le.mpr h.1
    rw [read, encode, if_neg hcode, ih h.2]

theorem Success.outcome_eq {r : ControlReply} (h : r.Success) : r.outcome = .ok r.texts := by
  induction r with
  | last code text => exact if_neg (Nat.not_le.mpr h)
  | mid code text more ih =>
    have hcode : ¬ 400 ≤ code := Nat.not_le.mpr h.1
    rw [outcome, if_neg hcode, ih h.2]
    rfl
  | data code text block more ih =>
    have hcode : ¬ 400 ≤ code := Nat.not_le.mpr h.1
    rw [outcome, if_neg hcode, ih h.2]
    rfl

end ControlReply

/-! ### Lines -/

theorem oneLine_replyLine {code : Nat} (hcode : code < 1000) {sep : Char}
    (hsep : sep ≠ '\r' ∧ sep ≠ '\n') {text : Text} (h : OneLine text) :
    OneLine (replyLine code sep text) := by
  have hdigits : ∀ d < 10, Nat.digitChar d ≠ '\r' ∧ Nat.digitChar d ≠ '\n' := by decide
  have h₁ := hdigits (code / 100) (by omega)
  have h₂ := hdigits (code / 10 % 10) (by omega)
  have h₃ := hdigits (code % 10) (by omega)
  simp only [OneLine, replyLine, code3, List.cons_append, List.nil_append, List.mem_cons, not_or]
  exact ⟨⟨h₁.1.symm, h₂.1.symm, h₃.1.symm, hsep.1.symm, h.1⟩,
    h₁.2.symm, h₂.2.symm, h₃.2.symm, hsep.2.symm, h.2⟩

theorem isEmpty_crlf (t : Text) : (crlf t).isEmpty = false := by
  rw [crlf]
  simp

theorem crlf_split (t : Text) : crlf t = encodeText t ++ [13] ++ [10] := by
  rw [crlf, List.append_assoc]
  rfl

theorem newline_notMem_line {t : Text} (ht : OneLine t) : (10 : UInt8) ∉ encodeText t ++ [13] := by
  rw [List.mem_append, not_or]
  exact ⟨newline_notMem_encodeText ht.2, by decide⟩

/-- A line within the limit is read. -/
theorem yields_controlReadline {t : Text} (ht : OneLine t) (hfits : LineFits t) :
    controlReadline.Yields (crlf t) (.ok (crlf t)) [] := by
  rw [crlf_split]
  refine Dialog.yields_readline (newline_notMem_line ht) ?_
  rw [List.length_append]
  exact hfits

/-- A line beyond the limit is refused. -/
theorem controlReadline_breaks {t : Text} (ht : OneLine t) (hlong : ¬ LineFits t) :
    controlReadline.Breaks (crlf t) (.builtin (Str.lit "ValueError")) := by
  rw [crlf_split]
  refine Dialog.readline_breaks (newline_notMem_line ht) ?_
  rw [List.length_append]
  exact Nat.not_le.mp hlong

/-! ### Data blocks -/

theorem length_crlf (t : Text) : (crlf t).length = (encodeText t).length + 2 := by
  rw [crlf, List.length_append]
  rfl

/-- The inner loop on one line. -/
theorem yields_readDataBlock_line {t : Text} (ht : OneLine t) (hfits : LineFits t) {n : Nat}
    {lines : List Text} {used : List UInt8} {result : Except Exc (List Text)}
    (h : (if t = ['.'] then pure lines
      else readDataBlock n
        (lines ++ [if ['.', '.'].isPrefixOf t then t.drop 1 else t])).Yields used result []) :
    (readDataBlock (n + 1) lines).Yields (crlf t ++ used) result [] := by
  refine Dialog.Yields.bind (yields_controlReadline ht hfits) ?_
  rw [isEmpty_crlf, if_neg (by decide), controlText_crlf ht]
  exact h

/-- A data block is read up to its period, without the periods that were put in. -/
theorem yields_readDataBlock {block : List Text} (hblock : ∀ t ∈ block, OneLine t)
    (hfits : ∀ t ∈ block, LineFits (stuff t)) {n : Nat} (hn : (encodeBlock block).length < n)
    (lines : List Text) :
    (readDataBlock n lines).Yields (encodeBlock block) (.ok (lines ++ block)) [] := by
  induction block generalizing n lines with
  | nil =>
    -- the period ends the block
    obtain ⟨n, rfl⟩ := Nat.exists_eq_succ_of_ne_zero (Nat.ne_of_gt (Nat.zero_lt_of_lt hn))
    have hperiod : OneLine ['.'] := ⟨by decide, by decide⟩
    have hfit : LineFits ['.'] := by
      rw [LineFits]
      decide
    have h : (readDataBlock (n + 1) lines).Yields (crlf ['.'] ++ []) (.ok lines) [] :=
      yields_readDataBlock_line hperiod hfit (Dialog.yields_pure lines)
    rw [List.append_nil] at h ⊢
    exact h
  | cons t block ih =>
    -- a stuffed line is never a lone period, so the loop goes on
    obtain ⟨n, rfl⟩ := Nat.exists_eq_succ_of_ne_zero (Nat.ne_of_gt (Nat.zero_lt_of_lt hn))
    rw [List.forall_mem_cons] at hblock hfits
    have hencode : encodeBlock (t :: block) = crlf (stuff t) ++ encodeBlock block := by
      rw [encodeBlock, encodeBlock, List.flatMap_cons, List.append_assoc]
    have hlen : (encodeBlock block).length < n := by
      rw [hencode, List.length_append, length_crlf] at hn
      omega
    rw [hencode]
    refine yields_readDataBlock_line (oneLine_stuff hblock.1) hfits.1 ?_
    rw [if_neg (stuff_ne_period t), unstuff_stuff]
    have h := ih hblock.2 hfits.2 hlen (lines ++ [t])
    rw [List.append_assoc] at h
    exact h

/-! ### Whole replies -/

section

variable [PyDigits]

omit [PyDigits] in
/-- Lines that were read before the others. -/
theorem map_append_map (result : Except Exc (List Text)) (lines more : List Text) :
    ((result.map fun texts => more ++ texts).map fun texts => lines ++ texts) =
      result.map fun texts => lines ++ more ++ texts := by
  cases result with
  | error e => rfl
  | ok texts => exact congrArg Except.ok (List.append_assoc lines more texts).symm

/-- The outer loop on one line. -/
theorem yields_readReply_line {code : Nat} (hcode : code < 1000) {sep : Char}
    (hsep : sep ≠ '\r' ∧ sep ≠ '\n') {text : Text} (ht : OneLine text)
    (hfits : LineFits (replyLine code sep text)) {n : Nat} {lines : List Text}
    {used : List UInt8} {result : Except Exc (List Text)}
    (herror : 400 ≤ code → used = [] ∧ result = .error (controlError code text))
    (hmore : code < 400 → (if sep = '+' then do
        let lines ← readDataBlock n (lines ++ [text])
        readReply n lines
      else if sep = ' ' then pure (lines ++ [text])
      else if sep = '-' then readReply n (lines ++ [text])
      else Dialog.raise (.runtime (Str.lit "Unexpected OnionRelay control line separator: " ++
        Str.ofText (replyLine code sep text)))).Yields used result []) :
    (readReply (n + 1) lines).Yields (crlf (replyLine code sep text) ++ used) result [] := by
  have hline := oneLine_replyLine hcode hsep ht
  refine Dialog.Yields.bind (yields_controlReadline hline hfits) ?_
  rw [isEmpty_crlf, if_neg (by decide), controlText_crlf hline]
  dsimp only
  rw [replyLine, replyHead_line hcode]
  -- the error is raised as soon as the line is read
  by_cases h400 : 400 ≤ code
  · obtain ⟨rfl, rfl⟩ := herror h400
    rw [if_pos h400]
    exact Dialog.yields_raise _
  · rw [if_neg h400]
    exact hmore (Nat.not_le.mp h400)

/-- The lines of a reply are read up to the first error, and say what the reply says. -/
theorem yields_readReply {r : ControlReply} (hr : r.WellFormed) (hfits : r.Fits) {n : Nat}
    (hn : r.read.length < n) (lines : List Text) :
    (readReply n lines).Yields r.read (r.outcome.map fun texts => lines ++ texts) [] := by
  obtain ⟨n, rfl⟩ := Nat.exists_eq_succ_of_ne_zero (Nat.ne_of_gt (Nat.zero_lt_of_lt hn))
  induction r generalizing n lines with
  | last code text =>
    -- the only line after which the loop ends without an error
    have h : (readReply (n + 1) lines).Yields (crlf (replyLine code ' ' text) ++ [])
        ((ControlReply.last code text).outcome.map fun texts => lines ++ texts) [] := by
      refine yields_readReply_line hr.1 (by decide) hr.2 hfits ?_ ?_
      · intro h400
        rw [ControlReply.outcome, if_pos h400]
        exact ⟨rfl, rfl⟩
      · intro h400
        rw [ControlReply.outcome, if_neg (Nat.not_le.mpr h400)]
        exact Dialog.yields_pure _
    rw [List.append_nil] at h
    exact h
  | mid code text more ih =>
    refine yields_readReply_line hr.1.1 (by decide) hr.1.2 hfits.1 ?_ ?_
    · intro h400
      rw [ControlReply.outcome, if_pos h400, if_pos h400]
      exact ⟨rfl, rfl⟩
    · intro h400
      have hcode := Nat.not_le.mpr h400
      rw [ControlReply.outcome, if_neg hcode, if_neg hcode]
      rw [ControlReply.read, if_neg hcode, List.length_append, length_crlf] at hn
      obtain ⟨m, rfl⟩ := Nat.exists_eq_succ_of_ne_zero (show n ≠ 0 by omega)
      have h := ih hr.2 (hfits.2 h400) (lines ++ [text]) m (by omega)
      rw [← map_append_map] at h
      exact h
  | data code text block more ih =>
    -- as for a mid line, with the block before the other lines
    refine yields_readReply_line hr.1.1 (by decide) hr.1.2 hfits.1 ?_ ?_
    · intro h400
      rw [ControlReply.outcome, if_pos h400, if_pos h400]
      exact ⟨rfl, rfl⟩
    · intro h400
      have hcode := Nat.not_le.mpr h400
      rw [ControlReply.outcome, if_neg hcode, if_neg hcode]
      rw [ControlReply.read, if_neg hcode, List.length_append, length_crlf,
        List.length_append] at hn
      obtain ⟨m, rfl⟩ := Nat.exists_eq_succ_of_ne_zero (show n ≠ 0 by omega)
      have hblock := yields_readDataBlock hr.2.1 (hfits.2 h400).1 (n := m + 1) (by omega)
        (lines ++ [text])
      have h := ih hr.2.2 (hfits.2 h400).2 (lines ++ [text] ++ block) m (by omega)
      have hresult : ((more.outcome.map fun texts => text :: (block ++ texts)).map
          fun texts => lines ++ texts) =
            more.outcome.map fun texts => lines ++ [text] ++ block ++ texts := by
        rw [List.append_assoc lines]
        exact map_append_map more.outcome lines (text :: block)
      rw [hresult]
      exact hblock.bind h

/-- A command in text is written, and then its reply is read. -/
theorem onionrelayControlCommand_ofText (command : Text) :
    onionrelayControlCommand (Str.ofText command) =
      (Dialog.write (encodeText (command ++ ['\r', '\n'])) >>= fun _ => readControlReply) := by
  have hencode : encodeUtf8 (Str.ofText command ++ Str.lit "\r\n") =
      .ok (command ++ ['\r', '\n']) := by
    rw [encodeUtf8_ok]
    simp [Str.lit, Str.ofText]
  rw [onionrelayControlCommand, hencode]

/-- A command gets the reply that comes next: its texts, or its first error. -/
theorem yields_controlCommand {r : ControlReply} (hr : r.WellFormed) (hfits : r.Fits)
    (command : Text) :
    (onionrelayControlCommand (Str.ofText command)).Yields r.read r.outcome
      (encodeText (command ++ ['\r', '\n'])) := by
  have hreply : (readControlReply).Yields r.read r.outcome [] := by
    intro w rest hw
    have hn : r.read.length < w.contents.length + 1 := by
      rw [hw, List.length_append]
      omega
    have h := yields_readReply hr hfits hn []
    rw [show (fun texts : List Text => [] ++ texts) = id from rfl, Except.map_id] at h
    exact h w rest hw
  have h := (Dialog.yields_write (encodeText (command ++ ['\r', '\n']))).bind
    (g := fun _ => readControlReply) hreply
  rw [List.append_nil] at h
  rw [onionrelayControlCommand_ofText]
  exact h

/-- A successful reply whose lines are within the limit is decoded exactly, and nothing else is
read.

The case of `yields_controlCommand` in which no line has an error code. -/
theorem controlCommand_decodes {r : ControlReply} (hr : r.WellFormed) (hsuccess : r.Success)
    (hfits : r.Fits) (command : Text) {w : Wire UInt8} {rest : List UInt8}
    (hw : w.contents = r.encode ++ rest) :
    ∃ w', onionrelayControlCommand (Str.ofText command) w = (.returned r.texts, w') ∧
      w'.contents = rest ∧ w'.written = w.written ++ encodeText (command ++ ['\r', '\n']) := by
  have h := yields_controlCommand hr hfits command
  rw [hsuccess.read_eq, hsuccess.outcome_eq] at h
  obtain ⟨w', heq, hafter⟩ := h w rest hw
  exact ⟨w', heq, hafter.rest hw, hafter.written⟩

/-! ### Lines beyond the limit -/

omit [PyDigits] in
theorem readDataBlock_breaks {block : List Text} (hblock : ∀ t ∈ block, OneLine t)
    (hlong : ¬ ∀ t ∈ block, LineFits (stuff t)) {n : Nat} (hn : (encodeBlock block).length < n)
    (lines : List Text) :
    (readDataBlock n lines).Breaks (encodeBlock block) (.builtin (Str.lit "ValueError")) := by
  obtain ⟨n, rfl⟩ := Nat.exists_eq_succ_of_ne_zero (Nat.ne_of_gt (Nat.zero_lt_of_lt hn))
  induction block generalizing n lines with
  | nil => exact absurd (fun t ht => nomatch ht) hlong
  | cons t block ih =>
    rw [List.forall_mem_cons] at hblock hlong
    have hencode : encodeBlock (t :: block) = crlf (stuff t) ++ encodeBlock block := by
      rw [encodeBlock, encodeBlock, List.flatMap_cons, List.append_assoc]
    rw [hencode] at hn ⊢
    rw [List.length_append, length_crlf] at hn
    have hstuff := oneLine_stuff hblock.1
    by_cases hfits : LineFits (stuff t)
    · obtain ⟨m, rfl⟩ := Nat.exists_eq_succ_of_ne_zero (show n ≠ 0 by omega)
      refine Dialog.Yields.bind_breaks (yields_controlReadline hstuff hfits) ?_
      rw [isEmpty_crlf, if_neg (by decide), controlText_crlf hstuff]
      dsimp only
      rw [if_neg (stuff_ne_period t)]
      exact ih hblock.2 (fun h => hlong ⟨hfits, h⟩) _ m (by omega)
    · exact (controlReadline_breaks hstuff hfits).bind.append _

/-- A reply with a line beyond the limit, before its first error, is not read. -/
theorem readReply_breaks {r : ControlReply} (hr : r.WellFormed) (hlong : ¬ r.Fits) {n : Nat}
    (hn : r.encode.length < n) (lines : List Text) :
    (readReply n lines).Breaks r.encode (.builtin (Str.lit "ValueError")) := by
  obtain ⟨n, rfl⟩ := Nat.exists_eq_succ_of_ne_zero (Nat.ne_of_gt (Nat.zero_lt_of_lt hn))
  induction r generalizing n lines with
  | last code text =>
    exact (controlReadline_breaks (oneLine_replyLine hr.1 (by decide) hr.2) hlong).bind
  | mid code text more ih =>
    have hline : OneLine (replyLine code '-' text) := oneLine_replyLine hr.1.1 (by decide) hr.1.2
    by_cases hfits : LineFits (replyLine code '-' text)
    · obtain ⟨hcode, hmore⟩ := Classical.not_imp.mp fun h => hlong ⟨hfits, h⟩
      rw [ControlReply.encode, List.length_append, length_crlf] at hn
      obtain ⟨m, rfl⟩ := Nat.exists_eq_succ_of_ne_zero (show n ≠ 0 by omega)
      refine Dialog.Yields.bind_breaks (yields_controlReadline hline hfits) ?_
      rw [isEmpty_crlf, if_neg (by decide), controlText_crlf hline]
      dsimp only
      rw [replyLine, replyHead_line hr.1.1, if_neg (Nat.not_le.mpr hcode)]
      exact ih hr.2 hmore _ m (by omega)
    · -- the line itself is too long
      exact (controlReadline_breaks hline hfits).bind.append _
  | data code text block more ih =>
    have hline : OneLine (replyLine code '+' text) := oneLine_replyLine hr.1.1 (by decide) hr.1.2
    by_cases hfits : LineFits (replyLine code '+' text)
    · obtain ⟨hcode, hmore⟩ := Classical.not_imp.mp fun h => hlong ⟨hfits, h⟩
      rw [ControlReply.encode, List.length_append, length_crlf, List.length_append] at hn
      obtain ⟨m, rfl⟩ := Nat.exists_eq_succ_of_ne_zero (show n ≠ 0 by omega)
      refine Dialog.Yields.bind_breaks (yields_controlReadline hline hfits) ?_
      rw [isEmpty_crlf, if_neg (by decide), controlText_crlf hline]
      dsimp only
      rw [replyLine, replyHead_line hr.1.1, if_neg (Nat.not_le.mpr hcode)]
      by_cases hblock : ∀ t ∈ block, LineFits (stuff t)
      · refine Dialog.Yields.bind_breaks (yields_readDataBlock hr.2.1 hblock (by omega) _) ?_
        exact ih hr.2.2 (fun h => hmore ⟨hblock, h⟩) _ m (by omega)
      · exact (readDataBlock_breaks hr.2.1 hblock (by omega) _).bind.append _
    · exact (controlReadline_breaks hline hfits).bind.append _

/-- A line that is too long raises, wherever it stands. -/
theorem controlCommand_breaks {r : ControlReply} (hr : r.WellFormed) (hlong : ¬ r.Fits)
    (command : Text) : (onionrelayControlCommand (Str.ofText command)).Breaks r.encode
      (.builtin (Str.lit "ValueError")) := by
  have hreply : (readControlReply).Breaks r.encode (.builtin (Str.lit "ValueError")) := by
    intro w rest hw
    have hn : r.encode.length < w.contents.length + 1 := by
      rw [hw, List.length_append]
      omega
    exact readReply_breaks hr hlong hn [] w rest hw
  rw [onionrelayControlCommand_ofText]
  exact (Dialog.yields_write _).bind_breaks (g := fun _ => readControlReply) hreply

end

/-! ### The number of lines -/

/-- A line that is not empty leaves fewer bytes. -/
theorem length_of_controlReadline {chunk : List UInt8} {w w' : Wire UInt8}
    (h : controlReadline w = (.returned chunk, w')) (hchunk : chunk.isEmpty = false) :
    w'.contents.length < w.contents.length := by
  have hafter := Dialog.readline_returned h
  rw [hafter.contents, List.length_append]
  cases chunk with
  | nil => cases hchunk
  | cons b chunk =>
    rw [List.length_cons]
    omega

theorem readDataBlock_length {n : Nat} {lines lines' : List Text} {w w' : Wire UInt8}
    (h : readDataBlock n lines w = (.returned lines', w')) :
    w'.contents.length ≤ w.contents.length := by
  induction n generalizing lines w with
  | zero => cases h
  | succ n ih =>
    obtain ⟨chunk, w₁, hread, h⟩ := Dialog.bind_returned.mp h
    by_cases hchunk : chunk.isEmpty = true
    · rw [if_pos hchunk] at h
      cases h
    · rw [if_neg hchunk] at h
      have hlt := length_of_controlReadline hread (Bool.not_eq_true _ ▸ hchunk)
      by_cases htext : controlText chunk = ['.']
      · rw [if_pos htext] at h
        cases h
        exact Nat.le_of_lt hlt
      · rw [if_neg htext] at h
        exact Nat.le_trans (ih h) (Nat.le_of_lt hlt)

/-- There are no more lines in a data block than bytes to read. -/
theorem readDataBlock_succ {n : Nat} (lines : List Text) {w : Wire UInt8}
    (hn : w.contents.length < n) : readDataBlock (n + 1) lines w = readDataBlock n lines w := by
  induction n generalizing lines w with
  | zero => exact absurd hn (Nat.not_lt_zero _)
  | succ n ih =>
    rw [readDataBlock, readDataBlock, Dialog.bind_apply, Dialog.bind_apply, Dialog.andThen,
      Dialog.andThen]
    cases hread : controlReadline w with
    | mk ending w₁ =>
      cases ending with
      | raised e => rfl
      | waiting => rfl
      | returned chunk =>
        dsimp only
        by_cases hchunk : chunk.isEmpty = true
        · rw [if_pos hchunk, if_pos hchunk]
        · rw [if_neg hchunk, if_neg hchunk]
          have hlt := length_of_controlReadline hread (Bool.not_eq_true _ ▸ hchunk)
          by_cases htext : controlText chunk = ['.']
          · rw [if_pos htext, if_pos htext]
          · rw [if_neg htext, if_neg htext]
            exact ih _ (by omega)

/-- There are no more lines in a reply than bytes to read: `readControlReply` reads all of it. -/
theorem readReply_succ [PyDigits] {n : Nat} (lines : List Text) {w : Wire UInt8}
    (hn : w.contents.length < n) : readReply (n + 1) lines w = readReply n lines w := by
  induction n generalizing lines w with
  | zero => exact absurd hn (Nat.not_lt_zero _)
  | succ n ih =>
    rw [readReply, readReply, Dialog.bind_apply, Dialog.bind_apply, Dialog.andThen,
      Dialog.andThen]
    cases hread : controlReadline w with
    | mk ending w₁ =>
      cases ending with
      | raised e => rfl
      | waiting => rfl
      | returned raw =>
        dsimp only
        by_cases hraw : raw.isEmpty = true
        · rw [if_pos hraw, if_pos hraw]
        · rw [if_neg hraw, if_neg hraw]
          have hlt := length_of_controlReadline hread (Bool.not_eq_true _ ▸ hraw)
          cases replyHead (controlText raw) with
          | error e => rfl
          | ok head =>
            dsimp only
            split_ifs with hdata hend hmid
            · -- the block leaves no more to read than there was
              rw [Dialog.bind_apply, Dialog.bind_apply, Dialog.andThen, Dialog.andThen,
                readDataBlock_succ _ (by omega)]
              cases hblock : readDataBlock n (lines ++ [head.rest]) w₁ with
              | mk ending w₂ =>
                cases ending with
                | raised e => rfl
                | waiting => rfl
                | returned lines' =>
                  have hle := readDataBlock_length hblock
                  exact ih _ (by omega)
            · rfl
            · exact ih _ (by omega)
            · rfl

/-! ### Samples -/

namespace Sample

/-- No digits beyond ASCII. -/
instance pyDigits : PyDigits where
  isDigit _ := false
  decimal _ := none

/-- A reply with a data block whose lines start with periods. -/
def statusReply : ControlReply :=
  .data 250 ['s', '='] [['.'], ['.', '.', '1'], [], ['2']]
    (.mid 250 ['v', '=', '1'] (.last 250 ['O', 'K']))

/-- A reply of one line of 65536 letters. -/
def longReply : ControlReply := .last 250 (List.replicate streamLimit 'a')

end Sample

/-- Text has at least as many bytes as characters. -/
theorem length_le_length_encodeText (t : Text) : t.length ≤ (encodeText t).length := by
  induction t with
  | nil => exact Nat.le_refl 0
  | cons c t ih =>
    have hc : 1 ≤ (String.utf8EncodeChar c).length := by
      rw [String.length_utf8EncodeChar]
      exact c.utf8Size_pos
    rw [encodeText_cons, List.length_append, List.length_cons]
    omega

/-- A successful reply of one line beyond the limit of the stream is not decoded. -/
theorem long_line_not_decoded : ∃ (r : ControlReply) (command : Text) (w : Wire UInt8),
    r.WellFormed ∧ r.Success ∧ w.contents = r.encode ∧
    ∀ w', onionrelayControlCommand (Str.ofText command) w ≠ (.returned r.texts, w') := by
  have hwf : Sample.longReply.WellFormed := by
    refine ⟨by decide, ?_, ?_⟩ <;> exact fun h => nomatch List.eq_of_mem_replicate h
  have hlong : ¬ Sample.longReply.Fits := by
    intro hfits
    have hlen := length_le_length_encodeText
      (replyLine 250 ' ' (List.replicate streamLimit 'a'))
    have htext : (replyLine 250 ' ' (List.replicate streamLimit 'a')).length = streamLimit + 4 := by
      rw [replyLine, List.length_append, List.length_cons, List.length_replicate]
      rfl
    have hfits' : LineFits (replyLine 250 ' ' (List.replicate streamLimit 'a')) := hfits
    rw [LineFits] at hfits'
    omega
  let w : Wire UInt8 := ⟨Sample.longReply.encode, [], true, []⟩
  have hw : w.contents = Sample.longReply.encode ++ [] := rfl
  refine ⟨Sample.longReply, [], w, hwf, show 250 < 400 by decide, List.append_nil _,
    fun w' h => ?_⟩
  obtain ⟨w₁, hraised⟩ := controlCommand_breaks hwf hlong [] w [] hw
  rw [hraised] at h
  cases h

theorem controlCommand_decodes_sample : ∃ w' : Wire UInt8,
    onionrelayControlCommand (Str.lit "GETINFO circuit-status")
      ⟨[], [Sample.statusReply.encode, [50]], false, []⟩ =
        (.returned Sample.statusReply.texts, w') ∧ w'.contents = [50] := by
  have hok : Sample.statusReply.WellFormed ∧ Sample.statusReply.Success ∧
      Sample.statusReply.Fits := by decide +kernel
  have hw : (⟨[], [Sample.statusReply.encode, [50]], false, []⟩ : Wire UInt8).contents =
      Sample.statusReply.encode ++ [50] := rfl
  obtain ⟨w', heq, hrest, -⟩ := controlCommand_decodes hok.1 hok.2.1 hok.2.2
    "GETINFO circuit-status".toList hw
  exact ⟨w', heq, hrest⟩

end P4
