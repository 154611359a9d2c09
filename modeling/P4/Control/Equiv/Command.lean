/-
  The lines that the relay writes, as the node reads them.

  A reply of the relay is bytes, which need not be UTF-8.  The node reads each line with
  `errors="replace"`, so it sees the ASCII at the start of a line as it is, and whatever the rest
  has become (`replyText`).  A reply of `250-` lines and a last `250 ` line is read as the texts
  of its lines (`yields_controlCommand_lines`).
-/
import P4.Control.Command
import P4.Control.Equiv.Replies
import P4.Json.Equiv.RoundTrip

namespace P4

/-! ### Bytes -/

theorem bytesOf_append (s t : Text) : bytesOf (s ++ t) = bytesOf s ++ bytesOf t :=
  List.map_append

theorem bytesOf_charsOf (s : List UInt8) : bytesOf (charsOf s) = s := by
  have hbyte : ∀ c : UInt8, UInt8.ofNat (Char.ofNat c.toNat).toNat = c := by
    intro c
    have hc : c.toNat < 0xD800 := Nat.lt_trans c.toNat_lt (by decide)
    rw [Json.toNat_ofNat_ascii hc, UInt8.ofNat_toNat]
  rw [bytesOf, charsOf, List.map_map]
  apply List.map_id''
  exact hbyte

/-- Bytes of one line. -/
def OneLineBytes (s : List UInt8) : Prop := 10 ∉ s ∧ 13 ∉ s

instance OneLineBytes.decidable (s : List UInt8) : Decidable (OneLineBytes s) :=
  inferInstanceAs (Decidable (10 ∉ s ∧ 13 ∉ s))

theorem oneLineBytes_append {s t : List UInt8} :
    OneLineBytes (s ++ t) ↔ OneLineBytes s ∧ OneLineBytes t := by
  simp only [OneLineBytes, List.mem_append, not_or]
  exact and_and_and_comm

theorem OneLineBytes.mono {s t : List UInt8} (ht : OneLineBytes t) (h : s ⊆ t) :
    OneLineBytes s :=
  ⟨fun hs => ht.1 (h hs), fun hs => ht.2 (h hs)⟩

/-- Text of ASCII characters. -/
def Ascii (t : Text) : Prop := ∀ c ∈ t, c.toNat < 0x80

instance Ascii.decidable (t : Text) : Decidable (Ascii t) :=
  List.decidableBAll (fun c : Char => c.toNat < 0x80) t

theorem Ascii.append {s t : Text} (hs : Ascii s) (ht : Ascii t) : Ascii (s ++ t) := by
  intro c hc
  rcases List.mem_append.mp hc with hc | hc
  · exact hs c hc
  · exact ht c hc

/-- A character of ASCII is decoded by itself. -/
theorem decodeReplace_cons {a : UInt8} (ha : a.toNat < 0x80) (rest : List UInt8) :
    decodeReplace (a :: rest) = Char.ofNat a.toNat :: decodeReplace rest := by
  cases rest with
  | nil => simp only [decodeReplace, if_pos ha]
  | cons b rest =>
    rw [decodeReplace.eq_def]
    exact if_pos ha

theorem decodeReplace_bytesOf {t : Text} (ht : Ascii t) (rest : List UInt8) :
    decodeReplace (bytesOf t ++ rest) = t ++ decodeReplace rest := by
  induction t with
  | nil => rfl
  | cons c t ih =>
    rw [Ascii, List.forall_mem_cons] at ht
    have hc : (UInt8.ofNat c.toNat).toNat = c.toNat := by
      rw [UInt8.toNat_ofNat']
      have := ht.1
      omega
    have hlt : (UInt8.ofNat c.toNat).toNat < 0x80 := by
      rw [hc]
      exact ht.1
    show decodeReplace (UInt8.ofNat c.toNat :: (bytesOf t ++ rest)) = _
    rw [decodeReplace_cons hlt, hc, Char.ofNat_toNat, ih ht.2]
    rfl

/-! ### Lines -/

/-- What the node reads of a line with these bytes. -/
def replyText (s : List UInt8) : Text := controlText (s ++ [13, 10])

/-- Newlines are taken off no further than the last other character. -/
theorem rstripNewlines_append {c : Char} (hc : c ≠ '\r' ∧ c ≠ '\n') (t s : Text) :
    rstripNewlines (t ++ c :: s) = t ++ c :: rstripNewlines s := by
  have hstop : (decide (c = '\r') || decide (c = '\n')) = false := by simp [hc]
  induction s using List.reverseRecOn with
  | nil =>
    rw [rstripNewlines, List.rdropWhile_concat_neg _ _ _ (by simp [hstop])]
    rfl
  | append_singleton s d ih =>
    have happend : t ++ c :: (s ++ [d]) = t ++ c :: s ++ [d] := by simp
    rw [rstripNewlines, rstripNewlines, happend]
    by_cases hd : (decide (d = '\r') || decide (d = '\n')) = true
    · rw [List.rdropWhile_concat, if_pos hd, List.rdropWhile_concat, if_pos hd]
      exact ih
    · rw [List.rdropWhile_concat, if_neg hd, List.rdropWhile_concat, if_neg hd]
      simp

/-- The ASCII at the start of a line is read as it is. -/
theorem replyText_bytesOf {t : Text} {c : Char} (ht : Ascii (t ++ [c]))
    (hc : c ≠ '\r' ∧ c ≠ '\n') (s : List UInt8) :
    replyText (bytesOf (t ++ [c]) ++ s) = t ++ c :: replyText s := by
  rw [replyText, controlText, List.append_assoc, decodeReplace_bytesOf ht, List.append_assoc]
  exact rstripNewlines_append hc t _

theorem writeReply_eq (code : Nat) (c : Char) (s : List UInt8) :
    writeReply code c s = bytesOf (code3 code ++ [c]) ++ (s ++ [13, 10]) := by
  have happend : controlWriteReply code c (charsOf s) =
      code3 code ++ [c] ++ charsOf s ++ ['\r', '\n'] := by
    rw [controlWriteReply, List.append_assoc (code3 code)]
    rfl
  rw [writeReply, happend, bytesOf_append, bytesOf_append, bytesOf_charsOf, List.append_assoc]
  rfl

theorem ascii_code3 {code : Nat} (hcode : code < 1000) : Ascii (code3 code) := by
  have hdigits : ∀ d < 10, (Nat.digitChar d).toNat < 0x80 := by decide
  intro c hc
  simp only [code3, List.mem_cons, List.not_mem_nil, or_false] at hc
  rcases hc with rfl | rfl | rfl <;> exact hdigits _ (by omega)

/-- A line of a reply is read as its code, its separator and its text. -/
theorem controlText_writeReply {code : Nat} (hcode : code < 1000) {c : Char}
    (hc : c = ' ' ∨ c = '-') (s : List UInt8) :
    controlText (writeReply code c s) = replyLine code c (replyText s) := by
  have hsep : c.toNat < 0x80 ∧ c ≠ '\r' ∧ c ≠ '\n' := by
    rcases hc with rfl | rfl <;> decide
  have hascii : Ascii (code3 code ++ [c]) := by
    apply (ascii_code3 hcode).append
    intro d hd
    rw [List.mem_singleton.mp hd]
    exact hsep.1
  rw [writeReply_eq, ← List.append_assoc]
  exact replyText_bytesOf hascii hsep.2 s

/-- A line of the relay is one line for the node. -/
theorem yields_readline_writeReply {code : Nat} (hcode : code < 1000) {c : Char}
    (hc : c = ' ' ∨ c = '-') {s : List UInt8} (hs : 10 ∉ s) (hfits : s.length + 5 ≤ streamLimit) :
    controlReadline.Yields (writeReply code c s) (.ok (writeReply code c s)) [] := by
  have hsplit : writeReply code c s = bytesOf (code3 code ++ [c]) ++ s ++ [13] ++ [10] := by
    rw [writeReply_eq]
    simp
  have hhead : (10 : UInt8) ∉ bytesOf (code3 code ++ [c]) := by
    have hdigits : ∀ d < 10, UInt8.ofNat (Nat.digitChar d).toNat ≠ 10 := by decide
    have h₁ := hdigits (code / 100) (by omega)
    have h₂ := hdigits (code / 10 % 10) (by omega)
    have h₃ := hdigits (code % 10) (by omega)
    have h₄ : UInt8.ofNat c.toNat ≠ 10 := by
      rcases hc with rfl | rfl <;> decide
    simp only [bytesOf, code3, List.cons_append, List.nil_append, List.map_cons, List.map_nil,
      List.mem_cons, List.not_mem_nil, or_false, not_or]
    exact ⟨h₁.symm, h₂.symm, h₃.symm, h₄.symm⟩
  rw [hsplit]
  apply Dialog.yields_readline
  · simp only [List.mem_append, not_or]
    exact ⟨⟨hhead, hs⟩, by decide⟩
  · rw [List.length_append, List.length_append]
    show 4 + s.length + 1 ≤ streamLimit
    omega

/-- The text of a line that the node can read. -/
def ReplyBytes (s : List UInt8) : Prop := OneLineBytes s ∧ s.length + 5 ≤ streamLimit

instance ReplyBytes.decidable (s : List UInt8) : Decidable (ReplyBytes s) :=
  inferInstanceAs (Decidable (OneLineBytes s ∧ s.length + 5 ≤ streamLimit))

section

variable [PyDigits]

/-- The outer loop on one line. -/
theorem yields_readReply_bytes {code : Nat} (hcode : code < 400) {sep : Char}
    (hsep : sep = ' ' ∨ sep = '-') {s : List UInt8} (hs : ReplyBytes s) {n : Nat}
    {lines : List Text} {used : List UInt8} {result : Except Exc (List Text)}
    (hmore : (if sep = ' ' then pure (lines ++ [replyText s])
      else readReply n (lines ++ [replyText s])).Yields used result []) :
    (readReply (n + 1) lines).Yields (writeReply code sep s ++ used) result [] := by
  have hlt : code < 1000 := by omega
  have hne : (writeReply code sep s).isEmpty = false := by
    rw [writeReply_eq]
    simp [bytesOf, code3]
  apply Dialog.Yields.bind (yields_readline_writeReply hlt hsep hs.1.1 hs.2)
  rw [hne, if_neg (by decide), controlText_writeReply hlt hsep]
  dsimp only
  rw [replyLine, replyHead_line hlt, if_neg (by omega)]
  rcases hsep with rfl | rfl
  · exact hmore
  · exact hmore

/-- The reply of the relay to a command: lines, and a last one. -/
def replyBytes (lines : List (List UInt8)) (last : List UInt8) : List UInt8 :=
  lines.flatMap (controlWriteMidreply 250) ++ controlWriteEndreply 250 last

/-- By induction on the lines that go on. -/
theorem yields_readReply_lines {lines : List (List UInt8)} (hlines : ∀ s ∈ lines, ReplyBytes s)
    {last : List UInt8} (hlast : ReplyBytes last) {n : Nat} (hn : lines.length < n)
    (before : List Text) :
    (readReply n before).Yields (replyBytes lines last)
      (.ok (before ++ (lines.map replyText ++ [replyText last]))) [] := by
  obtain ⟨n, rfl⟩ := Nat.exists_eq_succ_of_ne_zero (Nat.ne_of_gt (Nat.zero_lt_of_lt hn))
  induction lines generalizing n before with
  | nil =>
    have h : (readReply (n + 1) before).Yields (writeReply 250 ' ' last ++ [])
        (.ok (before ++ [replyText last])) [] :=
      yields_readReply_bytes (by decide) (.inl rfl) hlast (Dialog.yields_pure _)
    rw [List.append_nil] at h
    exact h
  | cons s lines ih =>
    rw [List.forall_mem_cons] at hlines
    rw [List.length_cons] at hn
    obtain ⟨m, rfl⟩ := Nat.exists_eq_succ_of_ne_zero (show n ≠ 0 by omega)
    have h := ih hlines.2 (before ++ [replyText s]) m (by omega)
    rw [replyBytes, List.flatMap_cons, List.append_assoc, List.map_cons, List.cons_append,
      List.append_cons]
    exact yields_readReply_bytes (by decide) (.inr rfl) hlines.1 h

/-- The node gets the texts of the lines. -/
theorem yields_controlCommand_lines {lines : List (List UInt8)}
    (hlines : ∀ s ∈ lines, ReplyBytes s) {last : List UInt8} (hlast : ReplyBytes last)
    (command : Text) :
    (onionrelayControlCommand (Str.ofText command)).Yields (replyBytes lines last)
      (.ok (lines.map replyText ++ [replyText last])) (encodeText (command ++ ['\r', '\n'])) := by
  have hlength : lines.length ≤ (replyBytes lines last).length := by
    rw [replyBytes, List.length_append]
    apply Nat.le_trans _ (Nat.le_add_right _ _)
    clear hlines
    induction lines with
    | nil => exact Nat.zero_le _
    | cons s lines ih =>
      rw [List.flatMap_cons, List.length_append, List.length_cons, controlWriteMidreply,
        writeReply_eq, List.length_append]
      show lines.length + 1 ≤ 4 + _ + _
      omega
  have hreply : (readControlReply).Yields (replyBytes lines last)
      (.ok (lines.map replyText ++ [replyText last])) [] := by
    intro w rest hw
    have hn : lines.length < w.contents.length + 1 := by
      rw [hw, List.length_append]
      omega
    exact yields_readReply_lines hlines hlast hn [] w rest hw
  have h := (Dialog.yields_write (encodeText (command ++ ['\r', '\n']))).bind
    (g := fun _ => readControlReply) hreply
  rw [List.append_nil] at h
  rw [onionrelayControlCommand_ofText]
  exact h

end

/-! ### Commands -/

/-- A value that is sent on a line of its own. -/
theorem controlWriteReplyLine_oneKv {code : Nat} {key val : List UInt8}
    (hkey : needsEscape key true = false) (hval : OneLineBytes val) (lastone : Bool) :
    controlWriteReplyLine (oneKv code key val) lastone =
      some (writeReply code (if lastone then ' ' else '-') (key ++ [61] ++ val)) := by
  have hplain : (val.any fun c => decide (c = 13) || decide (c = 10)) = false := by
    rw [List.any_eq_false]
    intro c hc heq
    rw [Bool.or_eq_true, decide_eq_true_eq, decide_eq_true_eq] at heq
    rcases heq with rfl | rfl
    · exact hval.2 hc
    · exact hval.1 hc
  have hne : key.isEmpty = false := by
    cases key with
    | nil => cases hkey
    | cons c key => rfl
  have hcan : kvlineCanEncodeLines { raw := true } [⟨key, val⟩] = true := by
    simp [kvlineCanEncodeLines, ConfigLine.canEncode, hne, hkey]
  have hencode : kvlineEncode { raw := true } [⟨key, val⟩] = some (key ++ [61] ++ val) := by
    simp [kvlineEncode, hcan, ConfigLine.element, hne, List.intercalate]
  rw [controlWriteReplyLine, oneKv]
  dsimp only
  rw [hplain, if_neg (by decide), hencode]
  cases lastone with
  | true => rfl
  | false => rfl

section

variable {σ : Type}

/-- A command on an open connection goes to its handler. -/
theorem processLine_command {commands : List (ControlCmdDef σ)} {cmd : ControlCmdDef σ}
    {line name body : List UInt8} {args : ControlArgs}
    (hsplit : controlSplitIncomingCommand line = (name, body))
    (hquit : strcasecmp name (ascii "QUIT") = false)
    (hfind : (commands.find? fun cmd => strcasecmp name cmd.name) = some cmd)
    (hargs : controlCmdParseArgs cmd.syn body = .ok args) (relay : σ) :
    processLine commands { relay := relay, isOpen := true } line =
      cmd.handler { relay := relay, isOpen := true } args := by
  simp only [processLine, hsplit, hquit, handleControlCommand, hfind, handleSingleControlCommand,
    hargs, Bool.not_true, Bool.false_and, Bool.false_eq_true, if_false]

end

end P4
