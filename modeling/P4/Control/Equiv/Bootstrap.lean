/-
  The node waits for the relay exactly as long as it should.

  The relay says how far it is in a text of its own making, and the node finds the number in it
  (`extractBootstrapProgress_reply`): in every run the number is the one the relay is at when it
  answers, it never goes down, and the wait returns only once the relay has reported that it is
  done, and times out only after an answer that was given before (`bootstrap_wait_right`).

  The invariant of a run is `Bootstrap.Sound`: the last message gives the number, and every number
  that may still be put into a message is known to the table of names.
-/
import P4.Control.Bootstrap
import P4.Control.Equiv.Command
import P4.Onion.Equiv.Address

namespace P4

/-! ### Words and numbers -/

theorem splitWords_word {word : Text} (hne : word ≠ []) (hword : ∀ c ∈ word, isSpace c = false)
    (rest : Text) : splitWords (word ++ ' ' :: rest) = word :: splitWords rest := by
  rw [splitWords, List.splitOnP_append_cons_of_forall_mem hword ' ' (by decide), List.filter_cons,
    if_pos (by simp [hne])]
  rfl

theorem notSpace_of_any {word : Text} (h : word.any isSpace = false) :
    ∀ c ∈ word, isSpace c = false := by
  intro c hc
  exact Bool.eq_false_of_not_eq_true (List.any_eq_false.mp h c hc)

theorem isSpace_of_isDigit {c : Char} (hc : c.isDigit = true) : isSpace c = false := by
  rw [Char.isDigit, Bool.and_eq_true, decide_eq_true_eq, decide_eq_true_eq] at hc
  have hlow : 48 ≤ c.toNat := hc.1
  have hhigh : c.toNat ≤ 57 := hc.2
  simp only [isSpace, Bool.or_eq_false_iff, Bool.and_eq_false_iff, decide_eq_false_iff_not]
  omega

theorem isDigit_of_mem_toDigits {n : Nat} {c : Char} (hc : c ∈ Nat.toDigits 10 n) :
    c.isDigit = true :=
  Nat.isDigit_of_mem_toDigits (by decide) (by decide) hc

theorem ascii_toDigits (n : Nat) : Ascii (Nat.toDigits 10 n) := by
  intro c hc
  have hdigit := isDigit_of_mem_toDigits hc
  rw [Char.isDigit, Bool.and_eq_true, decide_eq_true_eq, decide_eq_true_eq] at hdigit
  have hhigh : c.toNat ≤ 57 := hdigit.2
  omega

section

variable [PyDigits]

theorem foldlM_intDigit {digits : Text} (h : ∀ c ∈ digits, c.isDigit = true) (n : Nat) :
    digits.foldlM (fun n c => (intDigit c).map fun d => 10 * n + d) n =
      some (Nat.ofDigitChars 10 digits n) := by
  induction digits generalizing n with
  | nil =>
    rw [Nat.ofDigitChars_nil]
    rfl
  | cons c digits ih =>
    rw [List.forall_mem_cons] at h
    rw [List.foldlM_cons, intDigit, if_pos h.1, Option.map_some, Nat.ofDigitChars_cons]
    exact ih h.2 _

/-- A number that was printed is read back. -/
theorem intText_toDigits (n : Nat) : intText (Nat.toDigits 10 n) = some (Int.ofNat n) := by
  have hdigit : ∀ c ∈ Nat.toDigits 10 n, c.isDigit = true := fun c hc => isDigit_of_mem_toDigits hc
  have hne : Nat.toDigits 10 n ≠ [] := Nat.toDigits_ne_nil
  have hstrip : strip (Nat.toDigits 10 n) = Nat.toDigits 10 n :=
    strip_eq_self fun c hc => isSpace_of_isDigit (hdigit c hc)
  have hhead : ∀ c : Char, c.isDigit = false → (Nat.toDigits 10 n).head? ≠ some c := by
    intro c hc heq
    have htrue := hdigit c (List.mem_of_head? heq)
    rw [hc] at htrue
    cases htrue
  have hunderscore : '_' ∉ Nat.toDigits 10 n := by
    intro hmem
    exact absurd (hdigit '_' hmem) (by decide)
  have hfilter : (Nat.toDigits 10 n).filter (· ≠ '_') = Nat.toDigits 10 n := by
    rw [List.filter_eq_self]
    intro c hc
    simp only [ne_eq, decide_not, Bool.not_eq_true', decide_eq_false_iff_not]
    rintro rfl
    exact hunderscore hc
  have hminus := hhead '-' (by decide)
  have hplus := hhead '+' (by decide)
  rw [intText, hstrip]
  simp only [hminus, hplus, decide_false, Bool.or_false, Bool.false_eq_true, if_false,
    List.splitOn_eq_singleton hunderscore, List.any_cons, List.any_nil,
    List.isEmpty_eq_false_iff.mpr hne, hfilter, foldlM_intDigit hdigit,
    Nat.ofDigitChars_ten_toDigits, Option.map_some]

end

/-! ### Messages -/

/-- `status/bootstrap-phase=` -/
def phasePrefix : Text := "status/bootstrap-phase=".toList

/-- How a message starts. -/
def messageHead (level : Text) (percent : Nat) : Text :=
  level ++ " BOOTSTRAP PROGRESS=".toList ++ Nat.toDigits 10 percent

/-- The relay says that it is at `percent`, on one line. -/
structure Says (percent : Int) (message : List UInt8) : Prop where
  head : ∃ (level : Text) (rest : List UInt8), (level = "NOTICE".toList ∨ level = "WARN".toList) ∧
    message = bytesOf (messageHead level percent.toNat ++ [' ']) ++ rest
  line : OneLineBytes message
  length : message.length ≤ 1023
  nonneg : 0 ≤ percent

/-- The message is ASCII up to the text of the relay. -/
theorem ascii_messageHead {level : Text} (hlevel : level = "NOTICE".toList ∨ level = "WARN".toList)
    (percent : Nat) : Ascii (phasePrefix ++ messageHead level percent ++ [' ']) := by
  have hascii : Ascii level := by
    rcases hlevel with rfl | rfl <;> decide
  rw [messageHead]
  apply Ascii.append
  · apply Ascii.append (by decide)
    exact (hascii.append (by decide)).append (ascii_toDigits percent)
  · decide

section

variable [PyDigits]

/-- The number is the third word. -/
theorem extractBootstrapProgress_head {level : Text}
    (hlevel : level = "NOTICE".toList ∨ level = "WARN".toList) (percent : Nat) (rest : Text)
    (lines : List Text) :
    extractBootstrapProgress ((phasePrefix ++ messageHead level percent ++ ' ' :: rest) :: lines) =
      Int.ofNat percent := by
  have hlead : phasePrefix.isPrefixOf (phasePrefix ++ messageHead level percent ++ ' ' :: rest) =
      true := by
    rw [List.isPrefixOf_iff_prefix, List.append_assoc]
    exact List.prefix_append _ _
  have hafter : afterFirst '=' (phasePrefix ++ messageHead level percent ++ ' ' :: rest) =
      messageHead level percent ++ ' ' :: rest := rfl
  have hlast : ("PROGRESS=".toList ++ Nat.toDigits 10 percent) ≠ [] := by simp
  have hspace : ∀ c ∈ "PROGRESS=".toList ++ Nat.toDigits 10 percent, isSpace c = false := by
    intro c hc
    rcases List.mem_append.mp hc with hc | hc
    · exact notSpace_of_any (by decide) c hc
    · exact isSpace_of_isDigit (isDigit_of_mem_toDigits hc)
  have hwords : splitWords (messageHead level percent ++ ' ' :: rest) =
      level :: "BOOTSTRAP".toList :: ("PROGRESS=".toList ++ Nat.toDigits 10 percent) ::
        splitWords rest := by
    have happend : messageHead level percent ++ ' ' :: rest = level ++ ' ' ::
        ("BOOTSTRAP".toList ++ ' ' :: ("PROGRESS=".toList ++ Nat.toDigits 10 percent ++
          ' ' :: rest)) := by
      rw [messageHead]
      simp
    have hlevel' : level ≠ [] ∧ ∀ c ∈ level, isSpace c = false := by
      rcases hlevel with rfl | rfl <;> exact ⟨by decide, notSpace_of_any (by decide)⟩
    rw [happend, splitWords_word hlevel'.1 hlevel'.2,
      splitWords_word (by decide) (notSpace_of_any (by decide)), splitWords_word hlast hspace]
  have hfind : (level :: "BOOTSTRAP".toList :: ("PROGRESS=".toList ++ Nat.toDigits 10 percent) ::
      splitWords rest).find? ("PROGRESS=".toList.isPrefixOf ·) =
        some ("PROGRESS=".toList ++ Nat.toDigits 10 percent) := by
    rcases hlevel with rfl | rfl <;> rfl
  have hvalue : afterFirst '=' ("PROGRESS=".toList ++ Nat.toDigits 10 percent) =
      Nat.toDigits 10 percent := rfl
  rw [extractBootstrapProgress, show "status/bootstrap-phase=".toList = phasePrefix from rfl,
    if_pos hlead, hafter, hwords, hfind]
  dsimp only
  rw [hvalue, intText_toDigits, Option.getD_some]

/-- The node gets the number of the message. -/
theorem extractBootstrapProgress_reply {percent : Int} {message : List UInt8}
    (h : Says percent message) (lines : List Text) :
    extractBootstrapProgress (replyText (bytesOf phasePrefix ++ message) :: lines) = percent := by
  obtain ⟨level, rest, hlevel, rfl⟩ := h.head
  have hbytes : bytesOf phasePrefix ++
      (bytesOf (messageHead level percent.toNat ++ [' ']) ++ rest) =
        bytesOf (phasePrefix ++ messageHead level percent.toNat ++ [' ']) ++ rest := by
    rw [bytesOf_append, bytesOf_append, bytesOf_append]
    simp only [List.append_assoc]
  have htext := replyText_bytesOf (ascii_messageHead hlevel percent.toNat) (by decide) rest
  rw [hbytes, htext, extractBootstrapProgress_head hlevel]
  exact Int.toNat_of_nonneg h.nonneg

end

/-! ### What the relay writes -/

/-- A buffer that is long enough for the head of a text keeps it. -/
theorem snprintfMsg_append (head : List UInt8) (h : head.length ≤ 1023) (rest : List UInt8) :
    ∃ rest', snprintfMsg (head ++ rest) = head ++ rest' ∧ rest' ⊆ rest := by
  refine ⟨rest.take (1023 - head.length), ?_, List.take_subset _ _⟩
  rw [snprintfMsg, List.take_append, List.take_of_length_le h]

theorem length_toDigits {n : Nat} (h : n ≤ 100) : (Nat.toDigits 10 n).length ≤ 3 := by
  revert n
  decide

/-- Characters from the space on that are ASCII. -/
def Printed (t : Text) : Prop := (t.all fun c => 0x20 ≤ c.toNat && c.toNat < 0x80) = true

/-- A literal is checked character by character. -/
theorem printed_ofList {t : Text} (ht : Printed t) : Printed (String.ofList t).toList := by
  rw [String.toList_ofList]
  exact ht

theorem oneLineBytes_bytesOf {t : Text} (ht : Printed t) : OneLineBytes (bytesOf t) := by
  have hbyte : ∀ b ∈ bytesOf t, 0x20 ≤ b.toNat := by
    intro b hb
    obtain ⟨c, hc, rfl⟩ := List.mem_map.mp hb
    have hrange := List.all_eq_true.mp ht c hc
    rw [Bool.and_eq_true, decide_eq_true_eq, decide_eq_true_eq] at hrange
    rw [UInt8.toNat_ofNat']
    omega
  constructor
  · intro hmem
    exact absurd (hbyte 10 hmem) (by decide)
  · intro hmem
    exact absurd (hbyte 13 hmem) (by decide)

theorem oneLineBytes_printNat (n : Nat) : OneLineBytes (printNat n) := by
  apply oneLineBytes_bytesOf
  rw [Printed, List.all_eq_true]
  intro c hc
  have hdigit := isDigit_of_mem_toDigits hc
  rw [Char.isDigit, Bool.and_eq_true, decide_eq_true_eq, decide_eq_true_eq] at hdigit
  have hlow : 48 ≤ c.toNat := hdigit.1
  have hhigh : c.toNat ≤ 57 := hdigit.2
  rw [Bool.and_eq_true, decide_eq_true_eq, decide_eq_true_eq]
  omega

/-- Every message that is written starts with the number. -/
theorem says_snprintfMsg {level : Text} (hlevel : level = "NOTICE".toList ∨ level = "WARN".toList)
    {percent : Int} (hpercent : 0 ≤ percent ∧ percent ≤ 100) {rest : List UInt8}
    (hrest : OneLineBytes rest) :
    Says percent (snprintfMsg (bytesOf level ++ ascii " " ++ snprintfMsg
      (ascii "BOOTSTRAP PROGRESS=" ++ printInt percent ++ (ascii " " ++ rest)))) := by
  have hprint : printInt percent = bytesOf (Nat.toDigits 10 percent.toNat) := by
    rw [printInt, if_neg (by omega), printNat, show percent.natAbs = percent.toNat by omega]
  have hdigits := length_toDigits (n := percent.toNat) (by omega)
  have hlevel' : level.length ≤ 6 ∧ OneLineBytes (bytesOf level) := by
    rcases hlevel with rfl | rfl <;> decide
  -- the inner buffer
  obtain ⟨inner, hinner, hsub⟩ := snprintfMsg_append
    (ascii "BOOTSTRAP PROGRESS=" ++ printInt percent ++ ascii " ")
    (by simp only [List.length_append, hprint, ascii, bytesOf, List.length_map]; simp; omega) rest
  -- the outer buffer
  obtain ⟨outer, houter, hsub'⟩ := snprintfMsg_append
    (bytesOf (messageHead level percent.toNat ++ [' ']))
    (by simp only [messageHead, bytesOf, List.length_map, List.length_append]; simp; omega) inner
  have hwhole : bytesOf level ++ ascii " " ++ (ascii "BOOTSTRAP PROGRESS=" ++ printInt percent ++
      ascii " " ++ inner) = bytesOf (messageHead level percent.toNat ++ [' ']) ++ inner := by
    rw [hprint, messageHead]
    simp [ascii, bytesOf]
  have hline : OneLineBytes (bytesOf (messageHead level percent.toNat ++ [' ']) ++ outer) := by
    have hdigits' : OneLineBytes (bytesOf (Nat.toDigits 10 percent.toNat)) :=
      oneLineBytes_printNat _
    simp only [messageHead, bytesOf_append, oneLineBytes_append, hlevel'.2, hdigits',
      hrest.mono (fun b hb => hsub (hsub' hb)), true_and, and_true]
    decide
  rw [← List.append_assoc, hinner, hwhole, houter]
  refine ⟨⟨level, outer, hlevel, rfl⟩, hline, ?_, hpercent.1⟩
  rw [← houter, snprintfMsg]
  exact List.length_take_le _ _

/-! ### The state of the relay -/

/-- A number of the table. -/
def BootstrapStatus.Known (s : Int) : Prop := ∃ status : BootstrapStatus, status.toInt = s

/-- Every status of the table is at most 100. -/
theorem BootstrapStatus.Known.bounds {s : Int} (h : Known s) : -1 ≤ s ∧ s ≤ 100 := by
  obtain ⟨status, rfl⟩ := h
  cases status <;> decide

/-- The table has names for its numbers. -/
theorem BootstrapStatus.Known.toString? {s : Int} (h : Known s) :
    ∃ tag summary, BootstrapStatus.toString? s = some (tag, summary) ∧ OneLineBytes tag ∧
      OneLineBytes summary := by
  have hnames : ∀ status : BootstrapStatus,
      Printed status.names.1.toList ∧ Printed status.names.2.toList := by
    intro status
    cases status <;> exact ⟨printed_ofList rfl, printed_ofList rfl⟩
  obtain ⟨status, rfl⟩ := h
  have hfind : (all.find? fun other => decide (other.toInt = status.toInt)) = some status := by
    cases status <;> rfl
  rw [BootstrapStatus.toString?, hfind]
  exact ⟨_, _, rfl, oneLineBytes_bytesOf (hnames status).1,
    oneLineBytes_bytesOf (hnames status).2⟩

/-- What the rest of the relay reports: a status of the table, with no progress or with progress
beyond it that falls short of the end. -/
def Reported (status progress : Int) : Prop :=
  BootstrapStatus.Known status ∧ (progress = 0 ∨ status ≤ progress ∧ progress < 100)

/-- The texts of a problem are of one line. -/
def BootProblem.Reported (p : BootProblem) : Prop :=
  (OneLineBytes p.warn ∧ OneLineBytes p.reason) ∧ OneLineBytes p.orId ∧ OneLineBytes p.hostaddr

namespace Bootstrap

/-- The relay knows how far it is, and its last message says so. -/
structure Sound (b : Bootstrap) : Prop where
  percent : 0 ≤ b.percent ∧ b.percent ≤ 100
  phase : BootstrapStatus.Known b.phase
  dirPhase : BootstrapStatus.Known b.dirPhase
  dirProgress : b.dirPhase ≤ b.dirProgress ∧ b.dirProgress < 100
  message : Says b.percent b.lastMessage

/-- The numbers only go up. -/
theorem advance_percent (b : Bootstrap) (status progress : Int) :
    (b.advance status progress).percent = max (max b.percent status) progress := by
  rw [advance]
  split_ifs <;> grind

theorem advance_phase (b : Bootstrap) (status progress : Int) :
    (b.advance status progress).phase = if b.percent < status then status else b.phase := by
  rw [advance]
  split_ifs <;> rfl

@[simp]
theorem advance_lastMessage (b : Bootstrap) (status progress : Int) :
    (b.advance status progress).lastMessage = b.lastMessage := by
  rw [advance]
  split_ifs <;> rfl

@[simp]
theorem advance_dir (b : Bootstrap) (status progress : Int) :
    (b.advance status progress).dirPhase = b.dirPhase ∧
      (b.advance status progress).dirProgress = b.dirProgress := by
  rw [advance]
  split_ifs <;> exact ⟨rfl, rfl⟩

/-- The number of the last notice is all that changes. -/
theorem noticed_eq (b : Bootstrap) (notice : Bool) :
    ∃ percent, b.noticed notice = { b with noticePercent := percent } := by
  rw [noticed]
  split_ifs
  · exact ⟨b.percent, rfl⟩
  · exact ⟨b.noticePercent, rfl⟩

/-- What `control_event_bootstrap` does: nothing, or a message and new numbers. -/
theorem event_cases (b : Bootstrap) (status progress : Int) :
    (b.event status progress = b ∧
      (b.percent = 100 ∨ status ≤ b.percent ∧ (progress = 0 ∨ progress ≤ b.percent))) ∨
    ((b.percent < status ∨ progress ≠ 0 ∧ b.percent < progress) ∧ ∃ percent,
      b.event status progress =
        { (b.core status progress).advance status progress with noticePercent := percent }) := by
  by_cases hkeep : b.percent = 100 ∨ status ≤ b.percent ∧ (progress = 0 ∨ progress ≤ b.percent)
  · rw [event, if_pos (by simpa using hkeep)]
    exact .inl ⟨rfl, hkeep⟩
  · rw [event, if_neg (by simpa using hkeep)]
    exact .inr ⟨by omega, noticed_eq _ _⟩

/-- The message of a report. -/
theorem core_lastMessage (b : Bootstrap) {status : Int} (hstatus : BootstrapStatus.Known status)
    (progress : Int) : ∃ rest, OneLineBytes rest ∧ (b.core status progress).lastMessage =
      snprintfMsg (bytesOf "NOTICE".toList ++ ascii " " ++
        snprintfMsg (ascii "BOOTSTRAP PROGRESS=" ++
          printInt (if progress ≠ 0 then progress else status) ++ (ascii " " ++ rest))) := by
  obtain ⟨tag, summary, hnames, htag, hsummary⟩ := hstatus.toString?
  refine ⟨ascii "TAG=" ++ tag ++ ascii " SUMMARY=\"" ++ summary ++ ascii "\"", ?_, ?_⟩
  · simp only [oneLineBytes_append, htag, hsummary, and_true]
    decide
  · have htext : ascii " TAG=" = ascii " " ++ ascii "TAG=" := rfl
    have hlevel : ascii "NOTICE " = bytesOf "NOTICE".toList ++ ascii " " := rfl
    simp only [core, hnames, Option.getD_some, htext, hlevel, List.append_assoc]

/-- A report that says something new is put into the last message. -/
theorem Sound.advance {b : Bootstrap} (hb : b.Sound) {status progress : Int}
    (h : Reported status progress)
    (hnew : b.percent < status ∨ progress ≠ 0 ∧ b.percent < progress) :
    ((b.core status progress).advance status progress).Sound := by
  have hbounds := h.1.bounds
  have hpercent := hb.percent
  have hvalue : ((b.core status progress).advance status progress).percent =
      if progress ≠ 0 then progress else status := by
    rw [advance_percent]
    show max (max b.percent status) progress = _
    rcases h.2 with hzero | hrange <;> split_ifs <;> omega
  have hrange : 0 ≤ (if progress ≠ 0 then progress else status) ∧
      (if progress ≠ 0 then progress else status) ≤ 100 := by
    rcases h.2 with hzero | hrange <;> split_ifs <;> omega
  refine ⟨?_, ?_, ?_, ?_, ?_⟩
  · rw [hvalue]
    exact hrange
  · rw [advance_phase]
    split_ifs
    · exact h.1
    · exact hb.phase
  · rw [(advance_dir _ _ _).1]
    exact hb.dirPhase
  · rw [(advance_dir _ _ _).1, (advance_dir _ _ _).2]
    exact hb.dirProgress
  · obtain ⟨rest, hrest, hmessage⟩ := core_lastMessage b h.1 progress
    rw [hvalue, advance_lastMessage, hmessage]
    exact says_snprintfMsg (.inl rfl) hrange hrest

/-- Reports keep the relay sound. -/
theorem Sound.event {b : Bootstrap} (hb : b.Sound) {status progress : Int}
    (h : Reported status progress) : (b.event status progress).Sound := by
  obtain ⟨heq, -⟩ | ⟨hnew, notice, heq⟩ := b.event_cases status progress
  · rw [heq]
    exact hb
  · have hadvance := hb.advance h hnew
    rw [heq]
    exact ⟨hadvance.percent, hadvance.phase, hadvance.dirPhase, hadvance.dirProgress,
      hadvance.message⟩

/-- The relay is as far as the furthest report says. -/
theorem event_percent {b : Bootstrap} (hb : b.Sound) {status progress : Int}
    (h : Reported status progress) :
    (b.event status progress).percent = max b.percent (max status progress) := by
  have hbounds := h.1.bounds
  have hpercent := hb.percent
  obtain ⟨heq, hold⟩ | ⟨hnew, notice, heq⟩ := b.event_cases status progress
  · rw [heq]
    rcases h.2 with hzero | hrange <;> omega
  · rw [heq]
    show ((b.core status progress).advance status progress).percent = _
    rw [advance_percent]
    show max (max b.percent status) progress = _
    omega

/-- Reports about the directory are kept. -/
theorem Sound.advanceDir {b : Bootstrap} (hb : b.Sound) {status progress : Int}
    (h : Reported status progress) (hdir : status < 100) :
    (b.advanceDir status progress).Sound := by
  have hstatus : (if b.dirProgress < status then
      { b with dirProgress := status, dirPhase := status } else b).Sound := by
    split_ifs
    · exact ⟨hb.percent, hb.phase, h.1, ⟨Int.le_refl status, hdir⟩, hb.message⟩
    · exact hb
  rw [Bootstrap.advanceDir]
  generalize (if b.dirProgress < status then
    { b with dirProgress := status, dirPhase := status } else b) = b' at hstatus
  split_ifs with hprogress
  · have hle := hstatus.dirProgress.1
    have hrange : progress < 100 := by
      rcases h.2 with hzero | hrange <;> omega
    exact ⟨hstatus.percent, hstatus.phase, hstatus.dirPhase,
      ⟨Int.le_trans hle hprogress.2, hrange⟩, hstatus.message⟩
  · exact hstatus

theorem advanceDir_percent (b : Bootstrap) (status progress : Int) :
    (b.advanceDir status progress).percent = b.percent := by
  rw [advanceDir]
  split_ifs <;> rfl

/-- The relay goes on, short of the end. -/
structure Advances (b b' : Bootstrap) : Prop where
  sound : b'.Sound
  le : b.percent ≤ b'.percent
  done : b'.percent = 100 → b.percent = 100

/-- A report below 100 moves the percentage up or leaves it. -/
theorem Sound.event_advances {b : Bootstrap} (hb : b.Sound) {status progress : Int}
    (h : Reported status progress) (hlt : status < 100) :
    b.Advances (b.event status progress) := by
  have hvalue := event_percent hb h
  have hbounds := h.1.bounds
  refine ⟨hb.event h, by omega, fun hdone => ?_⟩
  rcases h.2 with hzero | hrange <;> omega

theorem Sound.bootDir_advances {b : Bootstrap} (hb : b.Sound) {status progress : Int}
    (h : Reported status progress) (hlt : status < 100) :
    b.Advances (b.bootDir status progress) := by
  have hadvance := hb.advanceDir h hlt
  have hpercent := advanceDir_percent b status progress
  rw [Bootstrap.bootDir]
  split_ifs
  · have hevent := hadvance.event_advances h hlt
    exact ⟨hevent.sound, hpercent ▸ hevent.le, fun hdone => hpercent ▸ hevent.done hdone⟩
  · exact ⟨hadvance, Int.le_of_eq hpercent.symm, fun hdone => hpercent ▸ hdone⟩

/-- The first connection reports what was kept. -/
theorem Sound.bootFirstOrconn_advances {b : Bootstrap} (hb : b.Sound) :
    b.Advances b.bootFirstOrconn := by
  have hopen : ({ b with firstOrconn := true } : Bootstrap).Sound :=
    ⟨hb.percent, hb.phase, hb.dirPhase, hb.dirProgress, hb.message⟩
  have hlt := Int.lt_of_le_of_lt hb.dirProgress.1 hb.dirProgress.2
  have hevent := hopen.event_advances ⟨hb.dirPhase, .inr hb.dirProgress⟩ hlt
  exact ⟨hevent.sound, hevent.le, hevent.done⟩

/-- A problem is reported without an assertion that fails. -/
theorem Sound.problem {b : Bootstrap} (hb : b.Sound) {p : BootProblem} (hp : p.Reported) :
    ∃ b', b.problem p = some b' ∧ b.Advances b' := by
  have hpercent := hb.percent
  rw [Bootstrap.problem, if_neg (by omega)]
  split_ifs with hdone
  · exact ⟨b, rfl, hb, Int.le_refl _, id⟩
  · obtain ⟨tag, summary, hnames, htag, hsummary⟩ := hb.phase.toString?
    rw [hnames]
    refine ⟨_, rfl, ⟨hb.percent, hb.phase, hb.dirPhase, hb.dirProgress, ?_⟩, Int.le_refl _, id⟩
    generalize hwarn : (if ((p.dowarn || decide (10 ≤ b.problems + 1)) && !p.hibernating) = true
      then ascii "warn" else ascii "ignore") = recommendation
    have hrecommendation : OneLineBytes recommendation := by
      rw [← hwarn]
      split_ifs <;> decide
    let rest := ascii "TAG=" ++ tag ++ ascii " SUMMARY=\"" ++ summary ++ ascii "\" WARNING=\"" ++
      p.warn ++ ascii "\" REASON=" ++ p.reason ++ ascii " COUNT=" ++ printNat (b.problems + 1) ++
      ascii " RECOMMENDATION=" ++ recommendation ++ ascii " HOSTID=\"" ++ p.orId ++
      ascii "\" HOSTADDR=\"" ++ p.hostaddr ++ ascii "\""
    have hrest : OneLineBytes rest := by
      simp only [rest, oneLineBytes_append, htag, hsummary, hp.1.1, hp.1.2, hp.2.1, hp.2.2,
        oneLineBytes_printNat, hrecommendation, and_true]
      decide
    have hmessage := says_snprintfMsg (.inr rfl) hb.percent hrest
    have htext : ascii " TAG=" = ascii " " ++ ascii "TAG=" := rfl
    have hlevel : ascii "WARN " = bytesOf "WARN".toList ++ ascii " " := rfl
    simp only [rest, List.append_assoc] at hmessage
    simp only [htext, hlevel, List.append_assoc]
    exact hmessage

theorem sound_start : (Bootstrap.event {} 0 0).Sound := by
  have hsaid : Says 0 (Bootstrap.event {} 0 0).lastMessage :=
    says_snprintfMsg (.inl rfl) (by decide)
      (show OneLineBytes (ascii "TAG=starting SUMMARY=\"Starting\"") by decide)
  exact ⟨by decide, ⟨.starting, rfl⟩, ⟨.undef, rfl⟩, by decide, hsaid⟩

end Bootstrap

/-! ### Asking -/

/-- The reply to the question. -/
def phaseReply (b : Bootstrap) : List UInt8 :=
  replyBytes [bytesOf phasePrefix ++ b.lastMessage] (ascii "OK")

/-- An answer of one line. -/
theorem handleControlGetinfo_answer {σ : Type} (helper : σ → List UInt8 → GetinfoAnswer)
    (conn : ControlConn σ) {question ans : List UInt8} (body : List UInt8)
    (h : helper conn.relay question = .answer ans) (hkey : needsEscape question true = false)
    (hans : OneLineBytes ans) :
    handleControlGetinfo helper conn { args := [question], rawBody := body } =
      (conn, some (replyBytes [question ++ [61] ++ ans] (ascii "OK"))) := by
  have hlines : getinfoLines (helper conn.relay) [question] =
      .ok ([oneKv 250 question ans], []) := by
    rw [getinfoLines, h]
    rfl
  have hfirst : controlWriteReplyLine (oneKv 250 question ans) false =
      some (writeReply 250 '-' (question ++ [61] ++ ans)) :=
    controlWriteReplyLine_oneKv hkey hans false
  have hlast : controlWriteReplyLine (replyStr 250 (ascii "OK")) true =
      some (controlWriteEndreply 250 (ascii "OK")) := rfl
  have hreply : controlWriteReplyLines
      ([oneKv 250 question ans] ++ [replyStr 250 (ascii "OK")]) =
        some (replyBytes [question ++ [61] ++ ans] (ascii "OK")) := by
    simp [controlWriteReplyLines, hfirst, hlast, replyBytes, controlWriteMidreply]
  simp only [handleControlGetinfo, hlines, hreply, List.isEmpty_nil, if_true]

/-- The relay answers with its last message. -/
theorem processLine_phase (others : List UInt8 → GetinfoAnswer) {b : Bootstrap} (hb : b.Sound) :
    processLine (bootCommands others) { relay := b, isOpen := true }
        (encodeText (phaseCommand ++ ['\r', '\n'])) =
      ({ relay := b, isOpen := true }, some (phaseReply b)) := by
  have hsplit : controlSplitIncomingCommand (encodeText (phaseCommand ++ ['\r', '\n'])) =
      (ascii "GETINFO", ascii "status/bootstrap-phase\r\n") := by decide +kernel
  have hfind : ((bootCommands others).find? fun cmd => strcasecmp (ascii "GETINFO") cmd.name) =
      some (getinfoCmd (Bootstrap.getinfo others)) := rfl
  have hargs : controlCmdParseArgs getinfoSyntax (ascii "status/bootstrap-phase\r\n") =
      .ok ⟨[ascii "status/bootstrap-phase"], [], ascii "status/bootstrap-phase\r\n"⟩ := rfl
  have hanswer : Bootstrap.getinfo others b (ascii "status/bootstrap-phase") =
      .answer b.lastMessage := if_pos rfl
  have hkey : needsEscape (ascii "status/bootstrap-phase") true = false := by decide
  rw [processLine_command hsplit (by decide) hfind hargs]
  exact handleControlGetinfo_answer (Bootstrap.getinfo others) _
    (ascii "status/bootstrap-phase\r\n") hanswer hkey hb.message.line

section

variable [PyDigits]

/-- The node gets the number of the relay. -/
theorem controlCommand_phase {b : Bootstrap} (hb : b.Sound) {w : Wire UInt8}
    (hw : w.contents = phaseReply b) :
    ∃ lines w', onionrelayControlCommand (Str.ofText phaseCommand) w = (.returned lines, w') ∧
      extractBootstrapProgress lines = b.percent := by
  have hlead : OneLineBytes (bytesOf phasePrefix) := by decide
  have hlines : ∀ s ∈ [bytesOf phasePrefix ++ b.lastMessage], ReplyBytes s := by
    intro s hs
    rw [List.mem_singleton.mp hs]
    refine ⟨oneLineBytes_append.mpr ⟨hlead, hb.message.line⟩, ?_⟩
    have hlength := hb.message.length
    rw [List.length_append]
    show 23 + b.lastMessage.length + 5 ≤ 65536
    omega
  have hlast : ReplyBytes (ascii "OK") := by decide
  have hyields := yields_controlCommand_lines hlines hlast phaseCommand
  obtain ⟨w', heq, -⟩ := hyields w [] (by rw [hw, List.append_nil]; rfl)
  exact ⟨_, w', heq, extractBootstrapProgress_reply hb.message _⟩

end

/-! ### Runs -/

/-- What the rest of the relay does. -/
def BootAct.Reported : BootAct → Prop
  | .report status progress => P4.Reported status progress
  | .reportDir status progress => P4.Reported status progress ∧ status < 100
  | .problem p => p.Reported
  | .firstOrconn => True
  | .poll _ _ => True

/-- What may be seen after this past: the node gets the number of the relay, which does not go
down, and its wait ends in the right way. -/
def BootEvent.Right (past : List BootEvent) : BootEvent → Prop
  | .done => True
  | .aborted => False
  | .polled progress percent =>
    progress = percent ∧ ∀ earlier at', .polled earlier at' ∈ past → earlier ≤ progress
  | .returned => .done ∈ past
  | .timedOut => .done ∉ past

namespace Bootstrapping

/-- What every run keeps. -/
structure Sound (c : Config Bootstrapping BootEvent) : Prop where
  conn : c.state.conn = { relay := c.state.conn.relay, isOpen := true }
  relay : c.state.conn.relay.Sound
  done : .done ∈ c.log ↔ c.state.conn.relay.percent = 100
  polled : ∀ progress percent, .polled progress percent ∈ c.log →
    progress ≤ c.state.conn.relay.percent
  log : Along (fun past e => e.Right past) c.log

theorem sound_start : Sound ⟨start, []⟩ where
  conn := rfl
  relay := Bootstrap.sound_start
  done := by decide
  polled := fun _ _ h => nomatch h
  log := trivial

variable {c : Config Bootstrapping BootEvent}

/-- The relay goes on, short of the end. -/
theorem Sound.advances (hc : Sound c) {b : Bootstrap} (hb : c.state.conn.relay.Advances b) :
    Sound ⟨c.state.withRelay b, c.log⟩ where
  conn := by
    show ({ c.state.conn with relay := b } : ControlConn Bootstrap) = _
    rw [hc.conn]
    rfl
  relay := hb.sound
  done := by
    have hpercent := hb.sound.percent
    have hle := hb.le
    rw [hc.done]
    exact ⟨fun h => by show b.percent = 100; omega, hb.done⟩
  polled := fun progress percent h => Int.le_trans (hc.polled progress percent h) hb.le
  log := hc.log

/-- The relay is done. -/
theorem Sound.finished (hc : Sound c) {progress : Int} (h : Reported 100 progress) :
    Sound ⟨c.state.withRelay (c.state.conn.relay.event 100 progress), .done :: c.log⟩ where
  conn := by
    show ({ c.state.conn with relay := _ } : ControlConn Bootstrap) = _
    rw [hc.conn]
    rfl
  relay := hc.relay.event h
  done := by
    have hvalue := Bootstrap.event_percent hc.relay h
    have hpercent := hc.relay.percent
    refine ⟨fun _ => ?_, fun _ => List.mem_cons_self⟩
    show (c.state.conn.relay.event 100 progress).percent = 100
    rcases h.2 with hzero | hrange <;> omega
  polled := by
    intro progress' percent' hmem
    have hvalue := Bootstrap.event_percent hc.relay h
    have hmem' := (List.mem_cons.mp hmem).resolve_left (by simp)
    have hle := hc.polled progress' percent' hmem'
    show _ ≤ (c.state.conn.relay.event 100 progress).percent
    omega
  log := ⟨trivial, hc.log⟩

/-- What the node sees when it asks. -/
def seen (percent : Int) (late : Bool) : List BootEvent :=
  if 100 ≤ percent then [.polled percent percent, .returned]
  else if late then [.polled percent percent, .timedOut] else [.polled percent percent]

/-- A question changes nothing in the relay. -/
theorem Sound.asked (hc : Sound c) (waiting late : Bool) :
    Sound ⟨{ c.state with waiting := waiting },
      (seen c.state.conn.relay.percent late).reverse ++ c.log⟩ := by
  have hpercent := hc.relay.percent
  have hright : BootEvent.Right c.log
      (.polled c.state.conn.relay.percent c.state.conn.relay.percent) :=
    ⟨rfl, fun earlier at' h => hc.polled earlier at' h⟩
  have hdone : BootEvent.done ∈ (seen c.state.conn.relay.percent late).reverse ++ c.log ↔
      .done ∈ c.log := by
    rw [seen]
    split_ifs <;> simp
  refine ⟨hc.conn, hc.relay, hdone.trans hc.done, ?_, ?_⟩
  · intro progress percent hmem
    rw [List.mem_append, List.mem_reverse] at hmem
    rcases hmem with hmem | hmem
    · have heq : progress = c.state.conn.relay.percent := by
        rw [seen] at hmem
        split_ifs at hmem <;> simp at hmem <;> exact hmem.1
      exact Int.le_of_eq heq
    · exact hc.polled progress percent hmem
  · rw [seen]
    split_ifs with hend hlate
    · -- the relay has reported that it is done
      have hmem : .done ∈ c.log := hc.done.mpr (by omega)
      exact ⟨List.mem_cons_of_mem _ hmem, hright, hc.log⟩
    · have hmem : .done ∉ c.log := fun h => hend (by rw [hc.done.mp h])
      exact ⟨by simpa [BootEvent.Right] using hmem, hright, hc.log⟩
    · exact ⟨hright, hc.log⟩

section

variable [PyDigits]

/-- What the node does when it asks. -/
theorem step_poll (others : List UInt8 → GetinfoAnswer) (hc : Sound c) (w : Wire UInt8)
    (late : Bool) : step others c.state (.poll w late) =
      if c.state.waiting = true ∧ w.contents = phaseReply c.state.conn.relay then
        some ({ c.state with waiting := !decide (100 ≤ c.state.conn.relay.percent) && !late },
          seen c.state.conn.relay.percent late)
      else none := by
  have hreply := processLine_phase others hc.relay
  rw [← hc.conn] at hreply
  rw [step]
  simp only [hreply]
  by_cases hw : c.state.waiting = true ∧ w.contents = phaseReply c.state.conn.relay
  · obtain ⟨lines, w', hcommand, hprogress⟩ := controlCommand_phase hc.relay hw.2
    rw [if_pos hw, if_pos hw, hcommand]
    dsimp only
    rw [hprogress, seen]
    split_ifs with hend hlate
    · simp [hend]
    · simp [hlate]
    · simp [hend, hlate, hw.1]
  · rw [if_neg hw, if_neg hw]

/-- When the relay is done, the wait is over with the next question. -/
theorem Sound.returns (others : List UInt8 → GetinfoAnswer) (hc : Sound c)
    (hwaiting : c.state.waiting = true) (hdone : c.state.conn.relay.percent = 100)
    {w : Wire UInt8} (hw : w.contents = phaseReply c.state.conn.relay) (late : Bool) :
    step others c.state (.poll w late) =
      some ({ c.state with waiting := false }, [.polled 100 100, .returned]) := by
  rw [step_poll others hc, if_pos ⟨hwaiting, hw⟩, hdone]
  rfl

/-- Each action keeps the invariant; a round of the node reads the last message. -/
theorem Sound.step {others : List UInt8 → GetinfoAnswer} (hc : Sound c) {a : BootAct}
    (ha : a.Reported) {c' : Config Bootstrapping BootEvent}
    (h : (Bootstrapping.step others).next c a = some c') : Sound c' := by
  obtain ⟨out, hstep, hlog⟩ := Machine.next_eq_some.mp h
  obtain ⟨state, log⟩ := c'
  dsimp only at hstep hlog
  subst hlog
  cases a with
  | report status progress =>
    rw [Bootstrapping.step, Option.some.injEq, Prod.mk.injEq] at hstep
    obtain ⟨rfl, rfl⟩ := hstep
    by_cases hdone : status = 100
    · subst hdone
      exact hc.finished ha
    · have hbounds := ha.1.bounds
      rw [if_neg hdone]
      exact hc.advances (hc.relay.event_advances ha (by omega))
  | reportDir status progress =>
    rw [Bootstrapping.step, Option.some.injEq, Prod.mk.injEq] at hstep
    obtain ⟨rfl, rfl⟩ := hstep
    exact hc.advances (hc.relay.bootDir_advances ha.1 ha.2)
  | firstOrconn =>
    rw [Bootstrapping.step, Option.some.injEq, Prod.mk.injEq] at hstep
    obtain ⟨rfl, rfl⟩ := hstep
    exact hc.advances hc.relay.bootFirstOrconn_advances
  | problem p =>
    obtain ⟨b, hb, hadvances⟩ := hc.relay.problem ha
    rw [Bootstrapping.step, hb, Option.some.injEq, Prod.mk.injEq] at hstep
    obtain ⟨rfl, rfl⟩ := hstep
    exact hc.advances hadvances
  | poll w late =>
    rw [step_poll others hc] at hstep
    split_ifs at hstep with hw
    rw [Option.some.injEq, Prod.mk.injEq] at hstep
    obtain ⟨rfl, rfl⟩ := hstep
    exact hc.asked _ late

end

end Bootstrapping

section

variable [PyDigits]

/-- In every run the node gets the numbers of the relay as they are, its wait returns only when
the relay has reported that it is done, and times out only when it has not; and as long as it
waits, it would return as soon as the relay were done.

The invariant is `Bootstrapping.Sound`; the last message of the relay is what the node reads, in
whatever chunks it comes. -/
theorem bootstrap_wait_right {others : List UInt8 → GetinfoAnswer} {acts : List BootAct}
    (hacts : ∀ a ∈ acts, a.Reported) {c : Config Bootstrapping BootEvent}
    (h : (Bootstrapping.step others).run ⟨Bootstrapping.start, []⟩ acts = some c) :
    Along (fun past e => e.Right past) c.log ∧
    (c.state.waiting = true → ∃ reply, ∀ (w : Wire UInt8) (late : Bool), w.contents = reply →
      ∃ d, (Bootstrapping.step others).run c [.report 100 0, .poll w late] = some d ∧
        d.state.waiting = false ∧ d.log = .returned :: .polled 100 100 :: .done :: c.log) := by
  have hsound : Bootstrapping.Sound c := by
    refine Machine.run_invariant_of_meets (P := Bootstrapping.Sound) ?_
      Bootstrapping.sound_start (Machine.meets_of_forall hacts _) h
    intro c a c' hc ha hn
    exact hc.step ha hn
  refine ⟨hsound.log, fun hwaiting => ?_⟩
  have hdone : Reported 100 0 := ⟨⟨.done, rfl⟩, .inl rfl⟩
  have hfinished := hsound.finished hdone
  have hvalue : (c.state.conn.relay.event 100 0).percent = 100 := by
    have hpercent := hsound.relay.percent
    rw [Bootstrap.event_percent hsound.relay hdone]
    omega
  refine ⟨phaseReply (c.state.conn.relay.event 100 0), fun w late hw => ?_⟩
  have hfirst : (Bootstrapping.step others).next c (.report 100 0) =
      some ⟨c.state.withRelay (c.state.conn.relay.event 100 0), .done :: c.log⟩ := rfl
  have hsecond := hfinished.returns others hwaiting hvalue hw late
  have hlast : (Bootstrapping.step others).next _ (.poll w late) =
      some ⟨_, .returned :: .polled 100 100 :: .done :: c.log⟩ :=
    Machine.next_eq_some.mpr ⟨_, hsecond, rfl⟩
  exact ⟨_, Machine.run_cons.mpr ⟨_, hfirst, Machine.run_cons.mpr ⟨_, hlast, rfl⟩⟩, rfl, rfl⟩

end

/-! ### Samples -/

namespace Sample

/-- A reply in two pieces. -/
def phaseWire : Wire UInt8 where
  buffer := []
  pending := [ascii "250-status/bootstrap-phase=NOTICE BOOTSTRAP PROGRESS=62 TAG=loading_desc",
    ascii "riptors SUMMARY=\"Loading relay descriptors\"\r\n250 OK\r\n"]
  closes := false

/-- Descriptors are loaded before the first connection is reported; then the node asks. -/
def bootActs : List BootAct := [.report 20 0, .reportDir 50 62, .firstOrconn, .poll phaseWire false]

end Sample

theorem bootstrap_wait_right_sample : ∃ c : Config Bootstrapping BootEvent,
    (Bootstrapping.step fun _ => .unknown none).run ⟨Bootstrapping.start, []⟩ Sample.bootActs =
      some c ∧ c.state.waiting = true ∧ c.log = [.polled 62 62] ∧
    Along (fun past e => e.Right past) c.log ∧
    ∃ reply, ∀ (w : Wire UInt8) (late : Bool), w.contents = reply → ∃ d,
      (Bootstrapping.step fun _ => .unknown none).run c [.report 100 0, .poll w late] = some d ∧
        d.state.waiting = false ∧ d.log = .returned :: .polled 100 100 :: .done :: c.log := by
  have hrun : (((Bootstrapping.step fun _ => .unknown none).run ⟨Bootstrapping.start, []⟩
      Sample.bootActs).map fun c => (c.state.waiting, c.log)) = some (true, [.polled 62 62]) := by
    decide +kernel
  have hacts : ∀ a ∈ Sample.bootActs, a.Reported := by
    simp only [Sample.bootActs, List.forall_mem_cons]
    exact ⟨⟨⟨.onehopCreate, rfl⟩, .inl rfl⟩,
      ⟨⟨⟨.loadingDescriptors, rfl⟩, .inr (by decide)⟩, by decide⟩, trivial, trivial,
      List.forall_mem_nil _⟩
  obtain ⟨c, hc, hseen⟩ := Option.map_eq_some_iff.mp hrun
  rw [Prod.mk.injEq] at hseen
  obtain ⟨hright, hdone⟩ := bootstrap_wait_right hacts hc
  exact ⟨c, hc, hseen.1, hseen.2, hright, hdone hseen.1⟩

end P4
