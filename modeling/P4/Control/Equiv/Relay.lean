/-
  What the relay writes as a reply.

  `control_write_reply` writes a line, and `write_escaped_data` walks over the bytes of a value
  with a flag for the start of a line.  On whole lines the loop puts a period before a period
  and a CR before an LF (`escapeData_line`, `escapeData_more`), so a value of several lines
  becomes a data block of these lines (`writeEscapedData_lines`).  What the relay writes for a
  reply is thus the encoding of it (`ControlReply.write_eq_encode`), which the node decodes
  (`written_reply_decodes`).
-/
import P4.Control.Equiv.Replies

namespace P4

theorem crlf_replyLine (code : Nat) (sep : Char) (text : Text) :
    crlf (replyLine code sep text) = encodeText (controlWriteReply code sep text) :=
  crlf_eq _

/-- The loop of `write_escaped_data` in the middle of a line. -/
theorem escapeData_append {t : Text} (ht : '\n' ∉ t) (data : Text) (prev : Option Char) :
    escapeData prev false (t ++ data) =
      t ++ escapeData (t.getLast?.or prev) false data := by
  induction t generalizing prev with
  | nil => rfl
  | cons c t ih =>
    simp only [List.mem_cons, not_or] at ht
    have hstep : escapeData prev false (c :: (t ++ data)) =
        c :: escapeData (some c) false (t ++ data) := by
      rw [escapeData, if_neg (Ne.symm ht.1)]
      by_cases hc : c = '.'
      · rw [if_pos hc, if_neg (by decide), hc]
      · rw [if_neg hc]
    have hlast : t.getLast?.or (some c) = (c :: t).getLast?.or prev := by
      cases t with
      | nil => rfl
      | cons d t => rw [List.getLast?_cons_cons, List.getLast?_cons, Option.some_or, Option.some_or]
    rw [List.cons_append, hstep, ih ht.2, hlast, List.cons_append]

/-- The loop of `write_escaped_data` on a line that is not empty. -/
theorem escapeData_line {t : Text} (ht : '\n' ∉ t) (hne : t ≠ []) (data : Text)
    (prev : Option Char) :
    escapeData prev true (t ++ data) = stuff t ++ escapeData t.getLast? false data := by
  cases t with
  | nil => exact absurd rfl hne
  | cons c t =>
    simp only [List.mem_cons, not_or] at ht
    have hlast : t.getLast?.or (some c) = (c :: t).getLast? := by
      cases t with
      | nil => rfl
      | cons d t => rw [List.getLast?_cons_cons, List.getLast?_cons, Option.some_or]
    rw [List.cons_append, escapeData, if_neg (Ne.symm ht.1)]
    by_cases hc : c = '.'
    · rw [if_pos hc, if_pos rfl, hc, stuff_period, escapeData_append ht.2, ← hc, hlast]
      rfl
    · rw [if_neg hc, stuff_of_ne hc, escapeData_append ht.2, hlast]
      rfl

/-- The loop of `write_escaped_data` on the lines after the first. -/
theorem escapeData_more {lines : List Text} (hlines : ∀ t ∈ lines, OneLine t)
    {prev : Option Char} (hprev : prev.any (· ≠ '\r') = true) (startOfLine : Bool) :
    escapeData prev startOfLine (lines.flatMap fun t => '\n' :: t) =
      lines.flatMap fun t => '\r' :: '\n' :: stuff t := by
  induction lines generalizing prev startOfLine with
  | nil => rfl
  | cons t lines ih =>
    rw [List.forall_mem_cons] at hlines
    rw [List.flatMap_cons, List.flatMap_cons, List.cons_append, escapeData, if_pos rfl,
      if_pos hprev]
    cases ht : t with
    | nil => exact congrArg (fun out => '\r' :: '\n' :: out) (ih hlines.2 (by decide) true)
    | cons c t' =>
      have hne : t ≠ [] := by
        rw [ht]
        exact List.cons_ne_nil c t'
      have hlast : t.getLast?.any (· ≠ '\r') = true := by
        rw [List.getLast?_eq_some_getLast hne, Option.any_some, decide_eq_true_eq]
        exact fun heq => hlines.1.1 (heq ▸ List.getLast_mem hne)
      rw [← ht, escapeData_line hlines.1.2 hne, ih hlines.2 hlast]
      rfl

/-- The last line that is written does not end in a newline. -/
theorem getLast?_stuffed {first : Text} {more : List Text}
    (hlines : ∀ t ∈ first :: more, OneLine t) (hlast : (first :: more).getLast? ≠ some []) :
    ∃ c, (stuff first ++ more.flatMap fun t => '\r' :: '\n' :: stuff t).getLast? = some c ∧
      c ≠ '\n' := by
  induction more generalizing first with
  | nil =>
    have hfirst := oneLine_stuff (hlines first (List.mem_singleton_self first))
    have hne : stuff first ≠ [] := by
      intro h
      cases first with
      | nil => exact hlast rfl
      | cons c t =>
        -- a stuffed line is not empty if the line was not
        by_cases hc : c = '.'
        · rw [hc, stuff_period] at h
          cases h
        · rw [stuff_of_ne hc] at h
          cases h
    rw [List.flatMap_nil, List.append_nil]
    exact ⟨_, List.getLast?_eq_some_getLast hne, fun heq => hfirst.2 (heq ▸ List.getLast_mem hne)⟩
  | cons t more ih =>
    rw [List.forall_mem_cons] at hlines
    rw [List.getLast?_cons_cons] at hlast
    obtain ⟨c, hc, hne⟩ := ih hlines.2 hlast
    refine ⟨c, ?_, hne⟩
    have hsplit : stuff first ++ (t :: more).flatMap (fun t => '\r' :: '\n' :: stuff t) =
        stuff first ++ ['\r', '\n'] ++
          (stuff t ++ more.flatMap fun t => '\r' :: '\n' :: stuff t) := by
      rw [List.flatMap_cons, List.append_assoc]
      rfl
    rw [hsplit, List.getLast?_append, hc, Option.some_or]

/-- Ends of lines between and after the lines. -/
theorem stuffed_crlf (first : Text) (more : List Text) :
    stuff first ++ (more.flatMap fun t => '\r' :: '\n' :: stuff t) ++ ['\r', '\n'] =
      (first :: more).flatMap fun t => stuff t ++ ['\r', '\n'] := by
  induction more generalizing first with
  | nil => rw [List.flatMap_nil, List.append_nil, List.flatMap_singleton]
  | cons t more ih =>
    have hmore := congrArg (fun lines => stuff first ++ ['\r', '\n'] ++ lines) (ih t)
    simpa using hmore

theorem encodeBlock_eq (block : List Text) : encodeBlock block =
    encodeText ((block.flatMap fun t => stuff t ++ ['\r', '\n']) ++ ['.', '\r', '\n']) := by
  rw [encodeText_append, encodeBlock]
  congr 1
  induction block with
  | nil => rfl
  | cons t block ih => rw [List.flatMap_cons, List.flatMap_cons, encodeText_append, ih, crlf_eq]

/-- `write_escaped_data` writes lines as a data block, when neither the first nor the last of
them is empty. -/
theorem writeEscapedData_lines {first : Text} {more : List Text}
    (hlines : ∀ t ∈ first :: more, OneLine t) (hfirst : first ≠ [])
    (hlast : (first :: more).getLast? ≠ some []) :
    encodeText (writeEscapedData (first ++ more.flatMap fun t => '\n' :: t)) =
      encodeBlock (first :: more) := by
  have hprev : first.getLast?.any (· ≠ '\r') = true := by
    rw [List.getLast?_eq_some_getLast hfirst, Option.any_some, decide_eq_true_eq]
    exact fun heq => (hlines first List.mem_cons_self).1 (heq ▸ List.getLast_mem hfirst)
  have hout : escapeData none true (first ++ more.flatMap fun t => '\n' :: t) =
      stuff first ++ more.flatMap fun t => '\r' :: '\n' :: stuff t := by
    rw [escapeData_line (hlines first List.mem_cons_self).2 hfirst,
      escapeData_more (fun t ht => hlines t (List.mem_cons_of_mem _ ht)) hprev]
  obtain ⟨c, hc, hne⟩ := getLast?_stuffed hlines hlast
  rw [writeEscapedData, hout]
  generalize hstuffed : stuff first ++ (more.flatMap fun t => '\r' :: '\n' :: stuff t) = out
    at hc ⊢
  have hend : out.drop (out.length - 2) ≠ ['\r', '\n'] := by
    intro heq
    rw [← List.take_append_drop (out.length - 2) out, heq, List.getLast?_append] at hc
    exact hne (Option.some.inj hc).symm
  rw [if_pos (by rw [decide_eq_true hend, Bool.or_true]), encodeBlock_eq, ← stuffed_crlf,
    hstuffed, List.append_assoc]
  rfl

/-! ### Whole replies -/

/-- The value whose lines these are. -/
def valueOf (block : List Text) : Text := ['\n'].intercalate block

/-- Neither the first nor the last line of a data block is empty. -/
def BlockText (block : List Text) : Prop :=
  block.head?.any (· ≠ []) = true ∧ block.getLast?.any (· ≠ []) = true

instance BlockText.decidable (block : List Text) : Decidable (BlockText block) :=
  inferInstanceAs (Decidable (_ ∧ _))

theorem intercalate_lines (first : Text) (more : List Text) :
    valueOf (first :: more) = first ++ more.flatMap fun t => '\n' :: t := by
  induction more generalizing first with
  | nil => simp [valueOf, List.intercalate]
  | cons t more ih =>
    have hcons : valueOf (first :: t :: more) = first ++ '\n' :: valueOf (t :: more) := by
      simp [valueOf, List.intercalate]
    rw [hcons, ih, List.flatMap_cons, List.cons_append]

/-- A value of several lines is written as the data block of its lines. -/
theorem writeEscapedData_block {block : List Text} (hlines : ∀ t ∈ block, OneLine t)
    (hblock : BlockText block) :
    encodeText (writeEscapedData (valueOf block)) = encodeBlock block := by
  obtain ⟨hhead, hend⟩ := hblock
  cases block with
  | nil => cases hhead
  | cons first more =>
    rw [intercalate_lines]
    refine writeEscapedData_lines hlines (of_decide_eq_true hhead) fun hlast => ?_
    rw [hlast] at hend
    cases hend

namespace ControlReply

/-- What the relay writes: `control_write_endreply`, `control_write_midreply`, or
`control_write_datareply` and `control_write_data`. -/
def write : ControlReply → List UInt8
  | last code text => encodeText (controlWriteReply code ' ' text)
  | mid code text more => encodeText (controlWriteReply code '-' text) ++ more.write
  | data code text block more =>
    encodeText (controlWriteReply code '+' text) ++
      (encodeText (writeEscapedData (valueOf block)) ++ more.write)

/-- Its data blocks begin and end with lines that are not empty. -/
def Blocks : ControlReply → Prop
  | last _ _ => True
  | mid _ _ more => more.Blocks
  | data _ _ block more => BlockText block ∧ more.Blocks

instance decidableBlocks : ∀ r : ControlReply, Decidable r.Blocks
  | last _ _ => inferInstanceAs (Decidable True)
  | mid _ _ more => decidableBlocks more
  | data _ _ block more =>
    have := decidableBlocks more
    inferInstanceAs (Decidable (BlockText block ∧ more.Blocks))

/-- Line by line, with the data blocks. -/
theorem write_eq_encode {r : ControlReply} (hr : r.WellFormed) (hblocks : r.Blocks) :
    r.write = r.encode := by
  induction r with
  | last code text => rw [write, encode, crlf_replyLine]
  | mid code text more ih => rw [write, encode, crlf_replyLine, ih hr.2 hblocks]
  | data code text block more ih =>
    rw [write, encode, crlf_replyLine, writeEscapedData_block hr.2.1 hblocks.1,
      ih hr.2.2 hblocks.2]

end ControlReply

/-- From the relay to the node: a successful reply that the relay writes, with values of several
lines as data blocks, gives the command its texts and the lines of its values, if the lines are
within the limit; nothing else is read.

The escaping is undone line by line: the relay stuffs what begins with a period, and the node takes
a period away where there are two. -/
theorem written_reply_decodes [PyDigits] {r : ControlReply} (hr : r.WellFormed)
    (hblocks : r.Blocks) (hsuccess : r.Success) (hfits : r.Fits) (command : Text)
    {w : Wire UInt8} {rest : List UInt8} (hw : w.contents = r.write ++ rest) :
    ∃ w', onionrelayControlCommand (Str.ofText command) w = (.returned r.texts, w') ∧
      w'.contents = rest ∧ w'.written = w.written ++ encodeText (command ++ ['\r', '\n']) := by
  rw [ControlReply.write_eq_encode hr hblocks] at hw
  have h := yields_controlCommand hr hfits command
  rw [hsuccess.read_eq, hsuccess.outcome_eq] at h
  obtain ⟨w', heq, hafter⟩ := h w rest hw
  exact ⟨w', heq, hafter.rest hw, hafter.written⟩

/-- A reply with a data block, followed by a byte of the next one. -/
theorem written_reply_decodes_sample : ∃ w' : Wire UInt8,
    onionrelayControlCommand (Str.lit "GETINFO circuit-status")
      ⟨[], [Sample.statusReply.write, [50]], false, []⟩ =
        (.returned Sample.statusReply.texts, w') ∧ w'.contents = [50] := by
  have hok : Sample.statusReply.WellFormed ∧ Sample.statusReply.Blocks ∧
      Sample.statusReply.Success ∧ Sample.statusReply.Fits := by decide +kernel
  have hw : (⟨[], [Sample.statusReply.write, [50]], false, []⟩ : Wire UInt8).contents =
      Sample.statusReply.write ++ [50] := rfl
  obtain ⟨w', heq, hrest, -⟩ := written_reply_decodes hok.1 hok.2.1 hok.2.2.1 hok.2.2.2
    "GETINFO circuit-status".toList hw
  exact ⟨w', heq, hrest⟩

end P4
