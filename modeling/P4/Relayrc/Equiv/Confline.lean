/-
  What the relay's reader makes of a line.

  A value is read as it stands when no newline, no comment and no continuation occurs in it and
  no white space at its end (`plainValue_line`, `readLines_lines`).  Whatever is read, a value
  without quotes never contains a newline (`newline_notMem_plainValue`): this is an invariant of
  the two loops, with or without continuation lines.
-/
import P4.Relayrc.Confline

namespace P4

/-! ### White space -/

theorem torIsSpace_iff {c : UInt8} :
    torIsSpace c = true ↔ 9 ≤ c.toNat ∧ c.toNat ≤ 13 ∨ c.toNat = 32 := by
  have hall : ∀ n < 256, (torIsSpaceTable.getD (n / 32) 0).testBit (n % 32) = true ↔
      9 ≤ n ∧ n ≤ 13 ∨ n = 32 := by
    decide +kernel
  exact hall c.toNat c.toNat_lt

theorem not_isBlank {c : UInt8} (h : torIsSpace c = false) : isBlank c = false := by
  rw [isBlank, Bool.or_eq_false_iff, decide_eq_false_iff_not, decide_eq_false_iff_not]
  constructor <;> rintro rfl <;> cases h

/-! ### Scanning a value -/

theorem getLast?_of_tail {c last : UInt8} {w : List UInt8} (h : w.getLast? = some last) :
    (c :: w).getLast? = some last := by
  rw [List.getLast?_cons, h]
  rfl

/-- No line is continued where no newline stands. -/
theorem not_continued {c d : UInt8} {w rest r : List UInt8} (hnewline : 10 ∉ w)
    (hlast : (c :: w).getLast? = some 92 → rest.head? ≠ some 10) (h : w ++ rest = d :: r) :
    ¬ (c = 92 ∧ d = 10) := by
  rintro ⟨rfl, rfl⟩
  cases w with
  | nil =>
    rw [List.nil_append] at h
    exact hlast rfl (by rw [h]; rfl)
  | cons e w =>
    rw [List.cons_append] at h
    exact hnewline ((List.cons.inj h).1 ▸ List.mem_cons_self ..)

/-- Bytes without a newline or a comment are gone over, up to the one after them. -/
theorem scanValue_append (continuation : Bool) {w : List UInt8} (hnewline : 10 ∉ w)
    (hhash : 35 ∉ w) {s : UInt8} (hlast : w.getLast? = some 92 → s ≠ 10) (rest : List UInt8) :
    scanValue continuation false (w ++ s :: rest) =
      (w ++ (scanValue continuation false (s :: rest)).1,
        (scanValue continuation false (s :: rest)).2) := by
  -- no byte of `w` stops the loop, and none begins a continuation
  induction w with
  | nil => rfl
  | cons c w ih =>
    rw [List.mem_cons, not_or] at hnewline hhash
    have hstop : ¬ (c = 10 ∨ c = 35 ∧ (!continuation) = true) := by
      rintro (h | ⟨h, -⟩)
      · exact hnewline.1 h.symm
      · exact hhash.1 h.symm
    have htail := ih hnewline.2 hhash.2 fun h => hlast (getLast?_of_tail h)
    rw [List.cons_append, scanValue.eq_def]
    dsimp only
    rw [if_neg hstop, if_neg (Ne.symm hhash.1)]
    cases hrest : w ++ s :: rest with
    | nil => exact absurd hrest (List.append_ne_nil_of_right_ne_nil _ (List.cons_ne_nil _ _))
    | cons d r =>
      have hhead : (c :: w).getLast? = some 92 → (s :: rest).head? ≠ some 10 :=
        fun h hs => hlast h (Option.some.inj hs)
      dsimp only
      rw [if_neg (not_continued hnewline.2 hhead hrest), ← hrest, htail, List.cons_append]

theorem scanValue_newline (continuation : Bool) (rest : List UInt8) :
    scanValue continuation false (10 :: rest) = ([], 10 :: rest, continuation) := by
  rw [scanValue.eq_def]
  exact if_pos (Or.inl rfl)

theorem scanValue_comment (rest : List UInt8) :
    scanValue false false (35 :: rest) = ([], 35 :: rest, false) := by
  rw [scanValue.eq_def]
  exact if_pos (Or.inr ⟨rfl, rfl⟩)

theorem scanValue_continuation (rest : List UInt8) :
    scanValue false false (92 :: 10 :: rest) =
      (92 :: 10 :: (scanValue true false rest).1, (scanValue true false rest).2) := by
  rw [scanValue.eq_def]
  dsimp only
  rw [if_neg (by decide), if_neg (by decide), if_pos ⟨rfl, rfl⟩]

/-- A value that ends with its line. -/
theorem plainValue_line {w : List UInt8} (hnewline : 10 ∉ w) (hhash : 35 ∉ w)
    (hlast : w.getLast? ≠ some 92) (rest : List UInt8) :
    plainValue (w ++ 10 :: rest) = (w.rdropWhile torIsSpace, rest) := by
  rw [plainValue, scanValue_append false hnewline hhash (fun h => absurd h hlast),
    scanValue_newline]
  dsimp only
  rw [List.append_nil, if_neg (by decide), if_pos rfl]

/-- A value that ends at a comment. -/
theorem plainValue_comment {w : List UInt8} (hnewline : 10 ∉ w) (hhash : 35 ∉ w)
    (rest : List UInt8) :
    plainValue (w ++ 35 :: rest) = (w.rdropWhile torIsSpace, 35 :: rest) := by
  rw [plainValue, scanValue_append false hnewline hhash (fun _ => by decide), scanValue_comment]
  dsimp only
  rw [List.append_nil, if_neg (by decide), if_neg (by decide)]

theorem joinLines_append {w rest : List UInt8} (hnewline : 10 ∉ w) (hhash : 35 ∉ w)
    (hlast : w.getLast? = some 92 → rest.head? ≠ some 10) :
    joinLines false (w ++ rest) = w ++ joinLines false rest := by
  induction w with
  | nil => rfl
  | cons c w ih =>
    rw [List.mem_cons, not_or] at hnewline hhash
    have htail := ih hnewline.2 hhash.2 fun h => hlast (getLast?_of_tail h)
    rw [List.cons_append, joinLines.eq_def]
    dsimp only
    rw [if_neg (Ne.symm hhash.1)]
    cases hrest : w ++ rest with
    | nil =>
      obtain ⟨rfl, rfl⟩ := List.append_eq_nil_iff.mp hrest
      rfl
    | cons d r =>
      dsimp only
      rw [if_neg (not_continued hnewline.2 hlast hrest), ← hrest, htail, List.cons_append]

/-- A value that is continued on the next line. -/
theorem plainValue_continuation {w v : List UInt8} (hw : 10 ∉ w) (hw' : 35 ∉ w) (hv : 10 ∉ v)
    (hv' : 35 ∉ v) {last : UInt8} (hlast : v.getLast? = some last) (hne : last ≠ 92)
    (hspace : torIsSpace last = false) (rest : List UInt8) :
    plainValue (w ++ 92 :: 10 :: (v ++ 10 :: rest)) = (w ++ v, rest) := by
  have hend : v.getLast? = some 92 → (10 : UInt8) ≠ 10 := by
    rw [hlast]
    exact fun h => absurd (Option.some.inj h) hne
  -- the backslash and the newline are passed over, and taken out afterwards
  have hscan : scanValue false false (w ++ 92 :: 10 :: (v ++ 10 :: rest)) =
      (w ++ 92 :: 10 :: v, 10 :: rest, true) := by
    rw [scanValue_append false hw hw' (fun _ => by decide), scanValue_continuation,
      scanValue_append true hv hv' hend, scanValue_newline, List.append_nil]
  -- the second line does not end in white space
  have htrim : (w ++ 92 :: 10 :: v).rdropWhile torIsSpace = w ++ 92 :: 10 :: v := by
    refine List.rdropWhile_eq_self_iff.mpr fun h => ?_
    have hlast' : (w ++ 92 :: 10 :: v).getLast? = some last := by
      rw [List.getLast?_append, List.getLast?_cons, List.getLast?_cons, hlast]
      rfl
    rw [List.getLast?_eq_some_getLast h] at hlast'
    rw [Option.some.inj hlast', hspace]
    decide
  have hjoin : joinLines false (w ++ 92 :: 10 :: v) = w ++ v := by
    have hstart : joinLines false (92 :: 10 :: v) = joinLines false v := by
      rw [joinLines.eq_def]
      rfl
    have hself : joinLines false (v ++ []) = v ++ joinLines false [] :=
      joinLines_append hv hv' fun _ => nofun
    rw [List.append_nil, joinLines, List.append_nil] at hself
    have hhead : (92 :: 10 :: v).head? ≠ some 10 := by
      rw [List.head?_cons]
      decide
    rw [joinLines_append hw hw' fun _ => hhead, hstart, hself]
  rw [plainValue, hscan]
  dsimp only
  rw [htrim, if_pos rfl, hjoin, if_pos rfl]

/-! ### Newlines in a value -/

/-- What the loop over a value goes over: every newline comes after a backslash or ends a
comment.  The flag is set in a comment. -/
inductive NoBareNewline : Bool → List UInt8 → Prop where
  | nil (comment : Bool) : NoBareNewline comment []
  | comment (c : UInt8) {l : List UInt8} : NoBareNewline (c ≠ 10) l → NoBareNewline true (c :: l)
  | hash {l : List UInt8} : NoBareNewline true l → NoBareNewline false (35 :: l)
  | join {l : List UInt8} : NoBareNewline false l → NoBareNewline false (92 :: 10 :: l)
  | byte {c : UInt8} {l : List UInt8} : c ≠ 10 → c ≠ 35 → NoBareNewline false l →
    NoBareNewline false (c :: l)

/-- By induction on the scan of the line. -/
theorem NoBareNewline.scanValue (continuation comment : Bool) (line : List UInt8) :
    NoBareNewline comment (scanValue continuation comment line).1 := by
  fun_induction P4.scanValue continuation comment line with
  | case1 continuation comment => exact nil comment
  | case2 continuation c line p ih => exact NoBareNewline.comment c ih
  | case3 => exact nil false
  | case4 continuation line p hstop ih => exact hash ih
  | case5 continuation c hstop hhash =>
    exact byte (fun h => hstop (Or.inl h)) hhash (nil false)
  | case6 continuation c hstop hhash d line hjoin p ih =>
    obtain ⟨rfl, rfl⟩ := hjoin
    exact join ih
  | case7 continuation c hstop hhash d line hjoin p ih =>
    exact byte (fun h => hstop (Or.inl h)) hhash ih

theorem NoBareNewline.of_isPrefix {comment : Bool} {l l' : List UInt8}
    (h : NoBareNewline comment l) (hl : l' <+: l) : NoBareNewline comment l' := by
  induction h generalizing l' with
  | nil comment =>
    rw [List.prefix_nil.mp hl]
    exact nil comment
  | comment c _ ih =>
    cases l' with
    | nil => exact nil true
    | cons d l' =>
      obtain ⟨hd, htail⟩ := List.cons_prefix_cons.mp hl
      rw [hd]
      exact NoBareNewline.comment c (ih htail)
  | hash _ ih =>
    cases l' with
    | nil => exact nil false
    | cons d l' =>
      obtain ⟨hd, htail⟩ := List.cons_prefix_cons.mp hl
      rw [hd]
      exact hash (ih htail)
  | join _ ih =>
    cases l' with
    | nil => exact nil false
    | cons d l' =>
      obtain ⟨hd, htail⟩ := List.cons_prefix_cons.mp hl
      rw [hd]
      cases l' with
      -- cut between the backslash and the newline: the backslash stands for itself
      | nil => exact byte (by decide) (by decide) (nil false)
      | cons e l' =>
        obtain ⟨he, htail⟩ := List.cons_prefix_cons.mp htail
        rw [he]
        exact join (ih htail)
  | byte hnewline hhash _ ih =>
    cases l' with
    | nil => exact nil false
    | cons d l' =>
      obtain ⟨hd, htail⟩ := List.cons_prefix_cons.mp hl
      rw [hd]
      exact byte hnewline hhash (ih htail)

theorem NoBareNewline.head_ne {c : UInt8} {l : List UInt8} (h : NoBareNewline false (c :: l)) :
    c ≠ 10 := by
  cases h with
  | hash => decide
  | join => decide
  | byte hnewline => exact hnewline

theorem NoBareNewline.newline_notMem_joinLines {comment : Bool} {l : List UInt8}
    (h : NoBareNewline comment l) : 10 ∉ joinLines comment l := by
  induction h with
  | nil comment =>
    rw [joinLines]
    exact List.not_mem_nil
  | comment c _ ih =>
    rw [joinLines]
    exact ih
  | hash _ ih =>
    rw [joinLines.eq_def]
    exact ih
  | join _ ih =>
    rw [joinLines.eq_def]
    exact ih
  | @byte c l hnewline hhash hl ih =>
    rw [joinLines.eq_def]
    dsimp only
    rw [if_neg hhash]
    cases l with
    | nil =>
      rw [List.mem_singleton]
      exact Ne.symm hnewline
    | cons d l =>
      -- a backslash before a newline would be the other case
      have hjoin : ¬ (c = 92 ∧ d = 10) := fun hcd => hl.head_ne hcd.2
      dsimp only
      rw [if_neg hjoin, List.mem_cons, not_or]
      exact ⟨Ne.symm hnewline, ih⟩

/-- Once a value is continued, it stays continued. -/
theorem scanValue_of_continuation {continuation : Bool} (comment : Bool) (line : List UInt8)
    (h : continuation = true) : (scanValue continuation comment line).2.2 = true := by
  fun_induction scanValue continuation comment line with
  | case1 => exact h
  | case2 continuation c line p ih => exact ih h
  | case3 => exact h
  | case4 continuation line p hstop ih => exact ih h
  | case5 => exact h
  | case6 continuation c hstop hhash d line hjoin p ih => exact ih rfl
  | case7 continuation c hstop hhash d line hjoin p ih => exact ih h

/-- A value that is not continued is on one line. -/
theorem newline_notMem_scanValue {continuation comment : Bool} {line : List UInt8}
    (hcomment : comment = false) (h : (scanValue continuation comment line).2.2 = false) :
    10 ∉ (scanValue continuation comment line).1 := by
  fun_induction scanValue continuation comment line with
  | case1 => exact List.not_mem_nil
  | case2 => cases hcomment
  | case3 => exact List.not_mem_nil
  | case4 continuation line p hstop ih =>
    -- a comment in the value: it is continued
    have hcontinuation : continuation = true := by
      rw [not_or, not_and, Bool.not_eq_true'] at hstop
      exact Bool.of_not_eq_false (hstop.2 rfl)
    have htrue := scanValue_of_continuation true line hcontinuation
    rw [htrue] at h
    cases h
  | case5 continuation c hstop hhash =>
    rw [List.mem_singleton]
    exact fun heq => hstop (Or.inl heq.symm)
  | case6 continuation c hstop hhash d line hjoin p ih =>
    have htrue := scanValue_of_continuation false line rfl
    rw [htrue] at h
    cases h
  | case7 continuation c hstop hhash d line hjoin p ih =>
    rw [List.mem_cons, not_or]
    exact ⟨fun heq => hstop (Or.inl heq.symm), ih rfl h⟩

/-- A value without quotes never contains a newline. -/
theorem newline_notMem_plainValue (line : List UInt8) : 10 ∉ (plainValue line).1 := by
  have hscan := NoBareNewline.scanValue false false line
  have htrim := hscan.of_isPrefix (List.rdropWhile_prefix torIsSpace _)
  rw [plainValue]
  dsimp only
  -- the trimmed value is a prefix of what was scanned, and the invariant is closed under those
  cases hcontinuation : (scanValue false false line).2.2 with
  | true =>
    rw [if_pos rfl]
    exact htrim.newline_notMem_joinLines
  | false =>
    rw [if_neg (by decide)]
    intro hmem
    exact newline_notMem_scanValue rfl hcontinuation
      ((List.rdropWhile_prefix torIsSpace _).subset hmem)

/-! ### Bytes of a value -/

/-- The scanner takes a beginning of the line. -/
theorem scanValue_eq (continuation comment : Bool) (line : List UInt8) :
    (scanValue continuation comment line).1 ++ (scanValue continuation comment line).2.1 =
      line := by
  fun_induction scanValue continuation comment line <;> grind

/-- Joining lines brings nothing in. -/
theorem mem_joinLines {b : UInt8} {comment : Bool} {v : List UInt8} (h : b ∈ joinLines comment v) :
    b ∈ v := by
  fun_induction joinLines comment v <;> grind

theorem mem_scanValue {b : UInt8} {continuation comment : Bool} {line : List UInt8}
    (h : b ∈ (scanValue continuation comment line).1) : b ∈ line := by
  rw [← scanValue_eq continuation comment line]
  exact List.mem_append_left _ h

/-- A value has only bytes of its line. -/
theorem mem_plainValue {b : UInt8} {line : List UInt8} (h : b ∈ (plainValue line).1) :
    b ∈ line := by
  have hscanned : b ∈ (scanValue false false line).1 := by
    apply (List.rdropWhile_prefix torIsSpace _).subset
    rw [plainValue] at h
    dsimp only at h
    split_ifs at h
    · exact mem_joinLines h
    · exact h
  exact mem_scanValue hscanned

/-! ### Lines -/

/-- A key: no white space, comment or backslash. -/
structure KeyText (key : List UInt8) : Prop where
  ne_nil : key ≠ []
  bytes : ∀ b ∈ key, torIsSpace b = false ∧ b ≠ 35 ∧ b ≠ 92

/-- A value that is read as it stands when a newline comes after it. -/
structure ValueText (value : List UInt8) : Prop where
  begins : ∃ c v, value = c :: v ∧ torIsSpace c = false ∧ c ≠ 34
  newline : 10 ∉ value
  hash : 35 ∉ value
  last : value.getLast? ≠ some 92
  trimmed : value.rdropWhile torIsSpace = value

theorem takeKey_append {key : List UInt8} (hkey : KeyText key) (line : List UInt8) :
    takeKey (key ++ 32 :: line) = (key, 32 :: line) := by
  obtain ⟨-, hbytes⟩ := hkey
  induction key with
  | nil => rfl
  | cons c key ih =>
    obtain ⟨hspace, hhash, hslash⟩ := hbytes c (List.mem_cons_self ..)
    have hgo : ¬ (torIsSpace c || c = 35 ||
        (c = 92 && (key ++ 32 :: line).head? = some 10)) = true := by
      simp [hspace, hhash, hslash]
    rw [List.cons_append, takeKey, if_neg hgo, ih fun b hb => hbytes b (List.mem_cons_of_mem _ hb)]

/-- A line with a value that is not quoted. -/
theorem parseConfigLine_key {key : List UInt8} (hkey : KeyText key) {c : UInt8}
    (hspace : torIsSpace c = false) (hquote : c ≠ 34) (line : List UInt8) :
    parseConfigLine (key ++ 32 :: c :: line) =
      .ok (some (key, (plainValue (c :: line)).1), finishLine (plainValue (c :: line)).2) := by
  have htake := takeKey_append hkey (c :: line)
  have hblank : (32 :: c :: line).dropWhile isBlank = c :: line := by
    rw [List.dropWhile_cons_of_pos (by decide), List.dropWhile_cons_of_neg]
    rw [not_isBlank hspace]
    decide
  obtain ⟨hne, hbytes⟩ := hkey
  cases key with
  | nil => exact absurd rfl hne
  | cons k key =>
    obtain ⟨hk, hhash, -⟩ := hbytes k (List.mem_cons_self ..)
    have hskip : skipToKeyword false (k :: (key ++ 32 :: c :: line)) =
        k :: (key ++ 32 :: c :: line) := by
      rw [skipToKeyword, hk, if_neg (by decide), if_neg hhash]
    rw [List.cons_append] at htake ⊢
    rw [parseConfigLine, hskip]
    dsimp only
    rw [htake]
    dsimp only
    rw [hblank]
    dsimp only
    rw [if_neg hquote]

/-- A plain value is read as it is. -/
theorem plainValue_text {value : List UInt8} (hvalue : ValueText value)
    (rest : List UInt8) : plainValue (value ++ 10 :: rest) = (value, rest) := by
  rw [plainValue_line hvalue.newline hvalue.hash hvalue.last, hvalue.trimmed]

/-- A line is read as it was written. -/
theorem parseConfigLine_line {key value : List UInt8} (hkey : KeyText key)
    (hvalue : ValueText value) (rest : List UInt8) :
    parseConfigLine (key ++ 32 :: (value ++ 10 :: rest)) =
      .ok (some (key, value), finishLine rest) := by
  have hplain := plainValue_text hvalue rest
  obtain ⟨c, v, rfl, hspace, hquote⟩ := hvalue.begins
  rw [List.cons_append] at hplain ⊢
  rw [parseConfigLine_key hkey hspace hquote, hplain]

/-- At the start of a key there is nothing to skip. -/
theorem finishLine_key {key : List UInt8} (hkey : KeyText key) (line : List UInt8) :
    finishLine (key ++ line) = key ++ line := by
  obtain ⟨hne, hbytes⟩ := hkey
  cases key with
  | nil => exact absurd rfl hne
  | cons k key =>
    obtain ⟨hspace, hhash, -⟩ := hbytes k (List.mem_cons_self ..)
    have hhead : (k :: key ++ line).head? ≠ some 35 := by
      rw [List.cons_append, List.head?_cons]
      exact fun h => hhash (Option.some.inj h)
    rw [finishLine, if_neg hhead, List.cons_append, List.dropWhile_cons_of_neg]
    rw [hspace]
    decide

/-! ### Texts -/

/-- A line of a configuration. -/
def configLine (option : List UInt8 × List UInt8) : List UInt8 :=
  option.1 ++ 32 :: (option.2 ++ [10])

theorem configLine_append (option : List UInt8 × List UInt8) (rest : List UInt8) :
    configLine option ++ rest = option.1 ++ 32 :: (option.2 ++ 10 :: rest) := by
  simp [configLine]

/-- The first option of a text, and the others. -/
theorem readLines_succ {text rest : List UInt8} {option : List UInt8 × List UInt8}
    (h : parseConfigLine text = .ok (some option, rest)) (n : Nat) :
    readLines (n + 1) text = if rest.isEmpty then .ok [option]
      else (readLines n rest).map fun options => option :: options := by
  rw [readLines, h]
  dsimp only [Bind.bind, Except.bind]
  split_ifs
  · rfl
  · cases readLines n rest <;> rfl

/-- The first line, when another one comes after it. -/
theorem readLines_configLine {option : List UInt8 × List UInt8}
    (hkey : KeyText option.1) (hvalue : ValueText option.2) {key : List UInt8}
    (hnext : KeyText key) (n : Nat) (line : List UInt8) :
    readLines (n + 1) (configLine option ++ (key ++ line)) =
      (readLines n (key ++ line)).map fun options => option :: options := by
  have hline := parseConfigLine_line hkey hvalue (key ++ line)
  have hne : (key ++ line).isEmpty = false := by
    rw [List.isEmpty_eq_false_iff]
    exact List.append_ne_nil_of_left_ne_nil hnext.ne_nil _
  rw [finishLine_key hnext] at hline
  rw [configLine_append, readLines_succ hline, hne, if_neg (by decide)]

theorem readLines_last {option : List UInt8 × List UInt8}
    (hkey : KeyText option.1) (hvalue : ValueText option.2) (n : Nat) :
    readLines (n + 1) (configLine option) = .ok [option] := by
  have hline := configLine_append option []
  rw [List.append_nil] at hline
  rw [hline, readLines_succ (parseConfigLine_line hkey hvalue [])]
  rfl

/-- Every option is read as it was written, in order. -/
theorem readLines_lines {options : List (List UInt8 × List UInt8)}
    (hoptions : ∀ option ∈ options, KeyText option.1 ∧ ValueText option.2)
    (hne : options ≠ []) {n : Nat} (hn : options.length ≤ n) :
    readLines n (options.flatMap configLine) = .ok options := by
  induction options generalizing n with
  | nil => exact absurd rfl hne
  | cons option options ih =>
    obtain ⟨n, rfl⟩ : ∃ m, n = m + 1 := ⟨n - 1, by rw [List.length_cons] at hn; omega⟩
    obtain ⟨hkey, hvalue⟩ := hoptions option (List.mem_cons_self ..)
    have htail := fun o ho => hoptions o (List.mem_cons_of_mem _ ho)
    rw [List.flatMap_cons]
    cases options with
    | nil =>
      rw [List.flatMap_nil, List.append_nil]
      exact readLines_last hkey hvalue n
    | cons next options =>
      obtain ⟨hnext, -⟩ := htail next (List.mem_cons_self ..)
      have hrest := ih htail (List.cons_ne_nil _ _) (Nat.le_of_succ_le_succ hn)
      rw [List.flatMap_cons, configLine_append next] at hrest ⊢
      rw [readLines_configLine hkey hvalue hnext, hrest]
      rfl

theorem length_le_flatMap (options : List (List UInt8 × List UInt8)) :
    options.length ≤ (options.flatMap configLine).length := by
  induction options with
  | nil => exact Nat.le_refl 0
  | cons option options ih =>
    rw [List.flatMap_cons, configLine_append, List.length_append, List.length_cons,
      List.length_cons, List.length_append, List.length_cons]
    omega

/-- Options on lines of their own are read in order. -/
theorem readConfig_lines {options : List (List UInt8 × List UInt8)}
    (hoptions : ∀ option ∈ options, KeyText option.1 ∧ ValueText option.2)
    (hne : options ≠ []) : readConfig (options.flatMap configLine) = .ok options :=
  readLines_lines hoptions hne (Nat.le_succ_of_le (length_le_flatMap options))

/-- The option that is read from a line with a value that is not quoted, after lines that are
read as they were written. -/
theorem readLines_after {before : List (List UInt8 × List UInt8)}
    (hbefore : ∀ option ∈ before, KeyText option.1 ∧ ValueText option.2) {key : List UInt8}
    (hkey : KeyText key) {c : UInt8} (hspace : torIsSpace c = false) (hquote : c ≠ 34)
    {line : List UInt8} {n : Nat} (hn : before.length < n)
    {options : List (List UInt8 × List UInt8)}
    (h : readLines n (before.flatMap configLine ++ (key ++ 32 :: c :: line)) = .ok options) :
    options[before.length]? = some (key, (plainValue (c :: line)).1) := by
  -- one line at a time: each is read as it was written and leaves the text at the next key
  induction before generalizing n options with
  | nil =>
    obtain ⟨n, rfl⟩ : ∃ m, n = m + 1 := ⟨n - 1, by omega⟩
    rw [List.flatMap_nil, List.nil_append,
      readLines_succ (parseConfigLine_key hkey hspace hquote line)] at h
    split_ifs at h
    · cases h
      rfl
    · cases hread : readLines n (finishLine (plainValue (c :: line)).2) with
      | error e =>
        rw [hread] at h
        cases h
      | ok more =>
        rw [hread] at h
        cases h
        rfl
  | cons option before ih =>
    obtain ⟨n, rfl⟩ : ∃ m, n = m + 1 := ⟨n - 1, by omega⟩
    obtain ⟨hoption, hvalue⟩ := hbefore option (List.mem_cons_self ..)
    have htail := fun o ho => hbefore o (List.mem_cons_of_mem _ ho)
    -- whatever comes next begins with a key
    obtain ⟨next, line', hnext, hline'⟩ : ∃ next line', KeyText next ∧
        before.flatMap configLine ++ (key ++ 32 :: c :: line) = next ++ line' := by
      cases before with
      | nil => exact ⟨key, _, hkey, rfl⟩
      | cons o before =>
        refine ⟨o.1, 32 :: (o.2 ++ 10 :: (before.flatMap configLine ++
          (key ++ 32 :: c :: line))), (htail o (List.mem_cons_self ..)).1, ?_⟩
        rw [List.flatMap_cons, List.append_assoc, configLine_append]
    rw [List.flatMap_cons, List.append_assoc, hline',
      readLines_configLine hoption hvalue hnext, ← hline'] at h
    cases hread : readLines n (before.flatMap configLine ++ (key ++ 32 :: c :: line)) with
    | error e =>
      rw [hread] at h
      cases h
    | ok more =>
      rw [hread] at h
      cases h
      exact ih htail (Nat.lt_of_succ_lt_succ hn) hread

theorem readConfig_after {before : List (List UInt8 × List UInt8)}
    (hbefore : ∀ option ∈ before, KeyText option.1 ∧ ValueText option.2) {key : List UInt8}
    (hkey : KeyText key) {c : UInt8} (hspace : torIsSpace c = false) (hquote : c ≠ 34)
    {line : List UInt8} {options : List (List UInt8 × List UInt8)}
    (h : readConfig (before.flatMap configLine ++ (key ++ 32 :: c :: line)) = .ok options) :
    options[before.length]? = some (key, (plainValue (c :: line)).1) := by
  refine readLines_after hbefore hkey hspace hquote ?_ h
  have hlen := length_le_flatMap before
  rw [List.length_append]
  omega

/-! ### The number of lines -/

theorem length_unescapeString {s value rest : List UInt8}
    (h : unescapeString s = some (value, rest)) : rest.length < s.length := by
  fun_induction unescapeString s generalizing value rest <;>
    grind [Option.map_eq_some_iff, Option.bind_eq_some_iff]

theorem length_skipToKeyword (comment : Bool) (line : List UInt8) :
    (skipToKeyword comment line).length ≤ line.length := by
  fun_induction skipToKeyword comment line <;> grind

theorem skipToKeyword_head {comment : Bool} {line rest : List UInt8} {c : UInt8}
    (h : skipToKeyword comment line = c :: rest) : torIsSpace c = false ∧ c ≠ 35 := by
  fun_induction skipToKeyword comment line <;> grind

theorem takeKey_eq (line : List UInt8) : (takeKey line).1 ++ (takeKey line).2 = line := by
  fun_induction takeKey line <;> grind

theorem length_finishLine (line : List UInt8) : (finishLine line).length ≤ line.length := by
  rw [finishLine]
  split_ifs
  · exact (List.length_dropWhile_le _ _).trans (List.length_dropWhile_le _ _)
  · exact List.length_dropWhile_le _ _

/-- A value takes its bytes from the line. -/
theorem length_plainValue (line : List UInt8) :
    (plainValue line).2.length + (scanValue false false line).1.length ≤ line.length := by
  have hscan := congrArg List.length (scanValue_eq false false line)
  rw [List.length_append] at hscan
  have hrest : (plainValue line).2.length ≤ (scanValue false false line).2.1.length := by
    rw [plainValue]
    grind
  omega

theorem length_quotedValue {line value rest : List UInt8}
    (h : quotedValue line = .ok (value, rest)) : rest.length < line.length := by
  rw [quotedValue] at h
  cases hunescape : unescapeString line with
  | none =>
    rw [hunescape] at h
    cases h
  | some p =>
    obtain ⟨v, r⟩ := p
    have hlen := length_unescapeString hunescape
    have hblank := List.length_dropWhile_le isBlank r
    rw [hunescape] at h
    grind

/-- A key is empty only before a continuation. -/
theorem takeKey_eq_nil {c : UInt8} {line : List UInt8} (hspace : torIsSpace c = false)
    (hhash : c ≠ 35) (h : (takeKey (c :: line)).1 = []) : c = 92 ∧ ∃ rest, line = 10 :: rest := by
  rw [takeKey] at h
  split_ifs at h with hstop
  simp only [hspace, hhash, Bool.false_or, decide_false, Bool.and_eq_true,
    decide_eq_true_eq] at hstop
  exact ⟨hstop.1, List.head?_eq_some_iff.mp hstop.2⟩

/-- A line that is read is not empty. -/
theorem length_parseConfigLine {text rest : List UInt8} {option : List UInt8 × List UInt8}
    (h : parseConfigLine text = .ok (some option, rest)) : rest.length < text.length := by
  have hskip := length_skipToKeyword false text
  rw [parseConfigLine] at h
  cases hline : skipToKeyword false text with
  | nil =>
    rw [hline] at h
    cases h
  | cons c line =>
    obtain ⟨hspace, hhash⟩ := skipToKeyword_head hline
    rw [hline] at h hskip
    dsimp only at h
    have hkey := congrArg List.length (takeKey_eq (c :: line))
    rw [List.length_append] at hkey
    have hblank := List.length_dropWhile_le isBlank (takeKey (c :: line)).2
    cases hvalue : (takeKey (c :: line)).2.dropWhile isBlank with
    | nil =>
      rw [hvalue] at h
      cases h
      exact Nat.lt_of_lt_of_le (Nat.succ_pos _) hskip
    | cons d line' =>
      rw [hvalue] at h hblank
      dsimp only at h
      split_ifs at h with hquote
      · cases hread : quotedValue line' with
        | error e =>
          rw [hread] at h
          cases h
        | ok p =>
          have hlen := length_quotedValue hread
          have hfinish := length_finishLine p.2
          rw [hread] at h
          cases h
          rw [List.length_cons] at hblank
          omega
      · have hlen := length_plainValue (d :: line')
        have hfinish := length_finishLine (plainValue (d :: line')).2
        cases h
        by_cases hnil : (takeKey (c :: line)).1 = []
        · -- the value begins with a continuation
          obtain ⟨rfl, line, rfl⟩ := takeKey_eq_nil hspace hhash hnil
          have hall := takeKey_eq (92 :: 10 :: line)
          rw [hnil, List.nil_append] at hall
          rw [hall] at hvalue
          cases hvalue
          rw [scanValue_continuation, List.length_cons] at hlen
          omega
        · have hpos := List.length_pos_iff.mpr hnil
          omega

theorem parseConfigLine_none {text rest : List UInt8}
    (h : parseConfigLine text = .ok (none, rest)) : rest = [] := by
  rw [parseConfigLine] at h
  split at h
  · cases h
    rfl
  · dsimp only at h
    split at h
    · split_ifs at h
      · cases hread : quotedValue _ with
        | error e =>
          rw [hread] at h
          cases h
        | ok p =>
          rw [hread] at h
          cases h
      · cases h
    · cases h

/-- More lines than bytes are never needed. -/
theorem readLines_of_length_lt {n : Nat} {text : List UInt8} (h : text.length < n) :
    readLines (n + 1) text = readLines n text := by
  -- every line that is read shortens the text
  induction n generalizing text with
  | zero => omega
  | succ n ih =>
    rw [readLines, readLines.eq_def (n + 1)]
    dsimp only [Bind.bind, Except.bind]
    cases hline : parseConfigLine text with
    | error e => rfl
    | ok p =>
      obtain ⟨option, rest⟩ := p
      dsimp only
      cases option with
      | none =>
        rw [parseConfigLine_none hline]
        rfl
      | some option =>
        have hlt := length_parseConfigLine hline
        rw [ih (by omega)]

end P4
