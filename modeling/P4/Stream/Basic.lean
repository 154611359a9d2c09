/-
  Byte streams as a coroutine sees them.

  A `Wire` is one end of a connection: what has arrived and was not read yet, the chunks that
  will arrive, whether the other side closes the connection after them, and what was written.
  `readexactly` and `readline` follow `asyncio.StreamReader`: they take what is in the buffer,
  or wait for the next chunk.  A `Dialog` is a coroutine that reads and writes; it returns,
  raises, or waits for bytes that never come.

  The rules: how a stream is cut into chunks is not noticed (`Yields`: what is read is a prefix
  of everything that arrives), and what a dialog that returned has read can be told from its
  parts (`bind_returned`, `readexactly_returned`).
-/
import Mathlib.Data.List.TakeWhile

namespace P4

/-! ### Dialogs -/

/-- One end of a connection. -/
structure Wire (β : Type) where
  buffer : List β
  pending : List (List β)
  /-- the connection is closed after the last chunk; otherwise it stays silent -/
  closes : Bool
  written : List β := []

/-- Everything that can still be read. -/
def Wire.contents {β : Type} (w : Wire β) : List β := w.buffer ++ w.pending.flatten

/-- How a coroutine ends. -/
inductive Ending (ε α : Type) where
  | returned (a : α)
  | raised (e : ε)
  /-- it waits for bytes that never come -/
  | waiting
deriving DecidableEq

/-- It returns or raises. -/
def Ending.ofExcept {ε α : Type} : Except ε α → Ending ε α
  | .ok a => .returned a
  | .error e => .raised e

theorem Ending.ofExcept_injective {ε α : Type} {x y : Except ε α} (h : ofExcept x = ofExcept y) :
    x = y := by
  cases x <;> cases y <;> cases h <;> rfl

/-- A coroutine that uses a connection. -/
def Dialog (β ε α : Type) := Wire β → Ending ε α × Wire β

namespace Dialog

variable {β ε α γ : Type}

/-- The second dialog takes over when the first has returned. -/
def andThen (f : Dialog β ε α) (g : α → Dialog β ε γ) : Dialog β ε γ := fun w =>
  match f w with
  | (.returned a, w') => g a w'
  | (.raised e, w') => (.raised e, w')
  | (.waiting, w') => (.waiting, w')

instance instMonad : Monad (Dialog β ε) where
  pure a w := (.returned a, w)
  bind := andThen

/-- `raise` -/
def raise (e : ε) : Dialog β ε α := fun w => (.raised e, w)

/-- A dialog that never ends. -/
def stall : Dialog β ε α := fun w => (.waiting, w)

/-- `StreamWriter.write` -/
def write (bytes : List β) : Dialog β ε Unit := fun w =>
  (.returned (), { w with written := w.written ++ bytes })

/-- `StreamReader.readexactly`; `incomplete` is raised when the stream ends before. -/
def readexactly (incomplete : ε) (n : Nat) : Dialog β ε (List β) := fun w =>
  go w.written w.closes w.pending w.buffer
where
  /-- The chunks that have not arrived yet, and the buffer. -/
  go (written : List β) (closes : Bool) : List (List β) → List β → Ending ε (List β) × Wire β
    | [], buffer =>
      if n ≤ buffer.length then (.returned (buffer.take n), ⟨buffer.drop n, [], closes, written⟩)
      else if closes then (.raised incomplete, ⟨[], [], closes, written⟩)
      else (.waiting, ⟨buffer, [], closes, written⟩)
    | chunk :: pending, buffer =>
      if n ≤ buffer.length then
        (.returned (buffer.take n), ⟨buffer.drop n, chunk :: pending, closes, written⟩)
      else go written closes pending (buffer ++ chunk)

/-- `StreamReader.readline`, with the newline and the limit; `overrun` is raised when there is
none within the limit, and the part of the line that has arrived is dropped. -/
def readline [DecidableEq β] (newline : β) (limit : Nat) (overrun : ε) : Dialog β ε (List β) :=
  fun w => go w.written w.closes w.pending w.buffer
where
  /-- The chunks that have not arrived yet, and the buffer. -/
  go (written : List β) (closes : Bool) : List (List β) → List β → Ending ε (List β) × Wire β
    | pending, buffer =>
      let line := buffer.takeWhile (· ≠ newline)
      if newline ∈ buffer then
        if limit < line.length then
          (.raised overrun, ⟨buffer.drop (line.length + 1), pending, closes, written⟩)
        else (.returned (line ++ [newline]),
          ⟨buffer.drop (line.length + 1), pending, closes, written⟩)
      else if limit < buffer.length then (.raised overrun, ⟨[], pending, closes, written⟩)
      else match pending with
        | [] =>
          if closes then (.returned buffer, ⟨[], [], closes, written⟩)
          else (.waiting, ⟨buffer, [], closes, written⟩)
        | chunk :: pending => go written closes pending (buffer ++ chunk)

/-! ### What was read -/

end Dialog

variable {β ε α γ : Type}

/-- `w'` is `w` after `used` was read and `wrote` was written. -/
structure Wire.After (w w' : Wire β) (used wrote : List β) : Prop where
  contents : w.contents = used ++ w'.contents
  written : w'.written = w.written ++ wrote
  closes : w'.closes = w.closes

theorem Wire.After.refl (w : Wire β) : w.After w [] [] := ⟨rfl, (List.append_nil _).symm, rfl⟩

theorem Wire.After.trans {w w₁ w₂ : Wire β} {used₁ used₂ wrote₁ wrote₂ : List β}
    (h₁ : w.After w₁ used₁ wrote₁) (h₂ : w₁.After w₂ used₂ wrote₂) :
    w.After w₂ (used₁ ++ used₂) (wrote₁ ++ wrote₂) := by
  refine ⟨?_, ?_, h₂.closes.trans h₁.closes⟩
  · rw [h₁.contents, h₂.contents, List.append_assoc]
  · rw [h₂.written, h₁.written, List.append_assoc]

/-- The rest is what comes after the part that was read. -/
theorem Wire.After.rest {w w' : Wire β} {used wrote rest : List β} (h : w.After w' used wrote)
    (hw : w.contents = used ++ rest) : w'.contents = rest := by
  rw [h.contents] at hw
  exact List.append_cancel_left hw

namespace Dialog

/-- Wherever `used` comes next, the dialog reads exactly that, writes `wrote` and ends with
`result`. -/
def Yields (f : Dialog β ε α) (used : List β) (result : Except ε α) (wrote : List β) : Prop :=
  ∀ w rest, w.contents = used ++ rest →
    ∃ w', f w = (Ending.ofExcept result, w') ∧ w.After w' used wrote

theorem bind_apply (f : Dialog β ε α) (g : α → Dialog β ε γ) (w : Wire β) :
    (f >>= g) w = f.andThen g w := rfl

theorem yields_pure (a : α) : Yields (pure a : Dialog β ε α) [] (.ok a) [] :=
  fun w _ _ => ⟨w, rfl, Wire.After.refl w⟩

theorem yields_raise (e : ε) : Yields (raise e : Dialog β ε α) [] (.error e) [] :=
  fun w _ _ => ⟨w, rfl, Wire.After.refl w⟩

theorem yields_write (bytes : List β) :
    Yields (write bytes : Dialog β ε Unit) [] (.ok ()) bytes :=
  fun w _ _ => ⟨{ w with written := w.written ++ bytes }, rfl, rfl, rfl, rfl⟩

section

variable {f : Dialog β ε α} {g : α → Dialog β ε γ} {used₁ used₂ wrote₁ wrote₂ : List β}

/-- What the first part leaves is there for the second. -/
theorem Yields.bind {a : α} {result : Except ε γ} (hf : Yields f used₁ (.ok a) wrote₁)
    (hg : Yields (g a) used₂ result wrote₂) :
    Yields (f >>= g) (used₁ ++ used₂) result (wrote₁ ++ wrote₂) := by
  intro w rest hw
  rw [List.append_assoc] at hw
  obtain ⟨w₁, hf', h₁⟩ := hf w _ hw
  obtain ⟨w₂, hg', h₂⟩ := hg w₁ rest (h₁.rest hw)
  refine ⟨w₂, ?_, h₁.trans h₂⟩
  rw [bind_apply, andThen, hf']
  exact hg'

/-- Wherever `used` comes next, the dialog raises `e`; what it leaves to read is not said. -/
def Breaks (f : Dialog β ε α) (used : List β) (e : ε) : Prop :=
  ∀ w rest, w.contents = used ++ rest → ∃ w', f w = (.raised e, w')

theorem Breaks.append {e : ε} (hf : Breaks f used₁ e) (more : List β) :
    Breaks f (used₁ ++ more) e := by
  intro w rest hw
  rw [List.append_assoc] at hw
  exact hf w _ hw

theorem Breaks.bind {e : ε} (hf : Breaks f used₁ e) : Breaks (f >>= g) used₁ e := by
  intro w rest hw
  obtain ⟨w₁, hf'⟩ := hf w rest hw
  refine ⟨w₁, ?_⟩
  rw [bind_apply, andThen, hf']

/-- The second part may break as well. -/
theorem Yields.bind_breaks {a : α} {e : ε} (hf : Yields f used₁ (.ok a) wrote₁)
    (hg : Breaks (g a) used₂ e) : Breaks (f >>= g) (used₁ ++ used₂) e := by
  intro w rest hw
  rw [List.append_assoc] at hw
  obtain ⟨w₁, hf', h₁⟩ := hf w _ hw
  obtain ⟨w₂, hg'⟩ := hg w₁ rest (h₁.rest hw)
  refine ⟨w₂, ?_⟩
  rw [bind_apply, andThen, hf']
  exact hg'

/-- A dialog with two parts returns when both do. -/
theorem bind_returned {w w' : Wire β} {b : γ} :
    (f >>= g) w = (.returned b, w') ↔
      ∃ a w₁, f w = (.returned a, w₁) ∧ g a w₁ = (.returned b, w') := by
  rw [bind_apply, andThen]
  constructor
  · intro h
    split at h
    · rename_i a w₁ hf
      exact ⟨a, w₁, hf, h⟩
    · cases h
    · cases h
  · rintro ⟨a, w₁, hf, hg⟩
    rw [hf]
    exact hg

end

theorem write_returned {bytes : List β} {u : Unit} {w w' : Wire β}
    (h : (write bytes : Dialog β ε Unit) w = (.returned u, w')) : w.After w' [] bytes := by
  cases h
  exact ⟨rfl, rfl, rfl⟩

/-! ### `readexactly` -/

section

variable {incomplete : ε} {n : Nat} {written : List β} {closes : Bool}

/-- As long as there are enough bytes, the chunks make no difference. -/
theorem readexactly_go_of_le {pending : List (List β)} {buffer : List β}
    (h : n ≤ (buffer ++ pending.flatten).length) :
    ∃ w' : Wire β, readexactly.go incomplete n written closes pending buffer =
        (.returned ((buffer ++ pending.flatten).take n), w') ∧
      w'.contents = (buffer ++ pending.flatten).drop n ∧ w'.written = written ∧
      w'.closes = closes := by
  induction pending generalizing buffer with
  | nil =>
    rw [List.flatten_nil, List.append_nil] at h ⊢
    rw [readexactly.go, if_pos h]
    exact ⟨_, rfl, List.append_nil _, rfl, rfl⟩
  | cons chunk pending ih =>
    rw [readexactly.go]
    by_cases hn : n ≤ buffer.length
    · rw [if_pos hn, List.take_append_of_le_length hn, List.drop_append_of_le_length hn]
      exact ⟨_, rfl, rfl, rfl, rfl⟩
    · rw [if_neg hn, List.flatten_cons, ← List.append_assoc] at *
      exact ih h

theorem readexactly_go_of_lt {pending : List (List β)} {buffer : List β}
    (h : (buffer ++ pending.flatten).length < n) (bytes : List β) (w' : Wire β) :
    readexactly.go incomplete n written closes pending buffer ≠ (.returned bytes, w') := by
  induction pending generalizing buffer with
  | nil =>
    rw [List.flatten_nil, List.append_nil] at h
    rw [readexactly.go, if_neg (by omega)]
    split_ifs <;> exact fun heq => nomatch heq
  | cons chunk pending ih =>
    have hn : ¬ n ≤ buffer.length := by
      rw [List.length_append] at h
      omega
    rw [readexactly.go, if_neg hn]
    rw [List.flatten_cons, ← List.append_assoc] at h
    exact ih h

end

/-- `readexactly` takes the next `n` bytes. -/
theorem yields_readexactly (incomplete : ε) (bytes : List β) :
    Yields (readexactly incomplete bytes.length) bytes (.ok bytes) [] := by
  intro w rest hw
  have hle : bytes.length ≤ (w.buffer ++ w.pending.flatten).length := by
    have hlen := congrArg List.length hw
    simp only [Wire.contents, List.length_append] at hlen ⊢
    omega
  obtain ⟨w', heq, hcontents, hwritten, hcloses⟩ := readexactly_go_of_le hle
  have hw' : w.buffer ++ w.pending.flatten = bytes ++ rest := hw
  rw [hw', List.take_left] at heq
  rw [hw', List.drop_left] at hcontents
  refine ⟨w', heq, ?_, ?_, hcloses⟩
  · rw [hw, hcontents]
  · rw [hwritten, List.append_nil]

/-- Exactly that many bytes were read. -/
theorem readexactly_returned {incomplete : ε} {n : Nat} {bytes : List β} {w w' : Wire β}
    (h : readexactly incomplete n w = (.returned bytes, w')) :
    bytes.length = n ∧ w.After w' bytes [] := by
  by_cases hn : n ≤ w.contents.length
  · have htake : (w.contents.take n).length = n := List.length_take_of_le hn
    obtain ⟨w₁, heq, hafter⟩ := yields_readexactly incomplete (w.contents.take n) w
      (w.contents.drop n) (List.take_append_drop n w.contents).symm
    rw [htake, h] at heq
    cases heq
    exact ⟨htake, hafter⟩
  · exact absurd h (readexactly_go_of_lt (by rw [Wire.contents] at hn; omega) bytes w')

/-! ### `readline` -/

section

variable [DecidableEq β] {newline : β} {limit : Nat} {overrun : ε} {written : List β}
  {closes : Bool}

theorem takeWhile_ne {line : List β} (hline : newline ∉ line) (rest : List β) :
    (line ++ newline :: rest).takeWhile (fun b => decide (b ≠ newline)) = line := by
  have hall : ∀ b ∈ line, decide (b ≠ newline) = true := by
    intro b hb
    exact decide_eq_true fun heq => hline (heq ▸ hb)
  rw [List.takeWhile_append_of_pos hall]
  simp

/-- The first newline cuts a stream in one way. -/
theorem append_newline_inj {l l' line rest : List β} (hl : newline ∉ l) (hline : newline ∉ line)
    (h : l ++ newline :: l' = line ++ newline :: rest) : l = line ∧ l' = rest := by
  have heq : l = line := by rw [← takeWhile_ne hl l', h, takeWhile_ne hline]
  rw [heq] at h
  exact ⟨heq, (List.cons.inj (List.append_cancel_left h)).2⟩

/-- The newline has arrived. -/
theorem readline_go_of_mem {line rest : List β} (hline : newline ∉ line)
    (pending : List (List β)) :
    readline.go newline limit overrun written closes pending (line ++ newline :: rest) =
      (if limit < line.length then .raised overrun else .returned (line ++ [newline]),
        ⟨rest, pending, closes, written⟩) := by
  have hdrop : (line ++ newline :: rest).drop (line.length + 1) = rest := by
    rw [List.drop_append]
    simp
  rw [readline.go.eq_def]
  dsimp only
  rw [takeWhile_ne hline, if_pos (by simp), hdrop]
  split_ifs <;> rfl

/-- What has arrived of a line whose newline has not. -/
theorem length_le_of_notMem {line rest buffer later : List β} (hline : newline ∉ line)
    (hbuffer : newline ∉ buffer) (h : buffer ++ later = line ++ newline :: rest) :
    buffer.length ≤ line.length := by
  have hall : ∀ b ∈ buffer, decide (b ≠ newline) = true := by
    intro b hb
    exact decide_eq_true fun heq => hbuffer (heq ▸ hb)
  have htake := takeWhile_ne hline rest
  rw [← h, List.takeWhile_append_of_pos hall] at htake
  have hlen := congrArg List.length htake
  rw [List.length_append] at hlen
  omega

/-- A line within the limit is read as a whole, however it arrives. -/
theorem readline_go_of_le {line rest : List β} (hline : newline ∉ line)
    (hlen : line.length ≤ limit) {pending : List (List β)} {buffer : List β}
    (hw : buffer ++ pending.flatten = line ++ newline :: rest) :
    ∃ w' : Wire β, readline.go newline limit overrun written closes pending buffer =
        (.returned (line ++ [newline]), w') ∧
      w'.contents = rest ∧ w'.written = written ∧ w'.closes = closes := by
  induction pending generalizing buffer with
  | nil =>
    rw [List.flatten_nil, List.append_nil] at hw
    rw [hw, readline_go_of_mem hline, if_neg (by omega)]
    exact ⟨_, rfl, List.append_nil _, rfl, rfl⟩
  | cons chunk pending ih =>
    by_cases hmem : newline ∈ buffer
    · obtain ⟨l, l', rfl, hl⟩ := List.eq_append_cons_of_mem hmem
      rw [List.append_assoc, List.cons_append] at hw
      obtain ⟨heq, hrest⟩ := append_newline_inj hl hline hw
      rw [heq, readline_go_of_mem hline, if_neg (by omega)]
      exact ⟨_, rfl, hrest, rfl, rfl⟩
    · have hle := length_le_of_notMem hline hmem hw
      rw [readline.go, if_neg hmem, if_neg (by omega)]
      rw [List.flatten_cons, ← List.append_assoc] at hw
      exact ih hw

/-- A line beyond the limit is refused, however it arrives. -/
theorem readline_go_of_lt {line rest : List β} (hline : newline ∉ line)
    (hlen : limit < line.length) {pending : List (List β)} {buffer : List β}
    (hw : buffer ++ pending.flatten = line ++ newline :: rest) :
    ∃ w' : Wire β, readline.go newline limit overrun written closes pending buffer =
        (.raised overrun, w') := by
  induction pending generalizing buffer with
  | nil =>
    rw [List.flatten_nil, List.append_nil] at hw
    rw [hw, readline_go_of_mem hline, if_pos hlen]
    exact ⟨_, rfl⟩
  | cons chunk pending ih =>
    by_cases hmem : newline ∈ buffer
    · obtain ⟨l, l', rfl, hl⟩ := List.eq_append_cons_of_mem hmem
      rw [List.append_assoc, List.cons_append] at hw
      obtain ⟨heq, -⟩ := append_newline_inj hl hline hw
      rw [heq, readline_go_of_mem hline, if_pos hlen]
      exact ⟨_, rfl⟩
    · rw [readline.go, if_neg hmem]
      by_cases hlong : limit < buffer.length
      · rw [if_pos hlong]
        exact ⟨_, rfl⟩
      · rw [if_neg hlong]
        rw [List.flatten_cons, ← List.append_assoc] at hw
        exact ih hw

/-- `readline` takes the next line with its newline. -/
theorem yields_readline {line : List β} (hline : newline ∉ line) (hlen : line.length ≤ limit) :
    Yields (readline newline limit overrun) (line ++ [newline]) (.ok (line ++ [newline])) [] := by
  intro w rest hw
  rw [List.append_assoc] at hw
  obtain ⟨w', heq, hcontents, hwritten, hcloses⟩ := readline_go_of_le hline hlen hw
  refine ⟨w', heq, ?_, ?_, hcloses⟩
  · rw [hw, hcontents, List.append_assoc]
    rfl
  · rw [hwritten, List.append_nil]

/-- `readline` refuses a line beyond the limit. -/
theorem readline_breaks {line : List β} (hline : newline ∉ line) (hlen : limit < line.length) :
    Breaks (readline newline limit overrun) (line ++ [newline]) overrun := by
  intro w rest hw
  rw [List.append_assoc] at hw
  exact readline_go_of_lt hline hlen hw

theorem readline_go_returned {pending : List (List β)} {buffer bytes : List β} {w' : Wire β}
    (h : readline.go newline limit overrun written closes pending buffer =
      (.returned bytes, w')) :
    buffer ++ pending.flatten = bytes ++ w'.contents ∧ w'.written = written ∧
      w'.closes = closes := by
  -- once a newline is in the buffer no more is read, at the end and before it
  have hmem : ∀ {pending : List (List β)} {buffer : List β}, newline ∈ buffer →
      readline.go newline limit overrun written closes pending buffer = (.returned bytes, w') →
      buffer ++ pending.flatten = bytes ++ w'.contents ∧ w'.written = written ∧
        w'.closes = closes := by
    intro pending buffer hmem h
    obtain ⟨l, l', rfl, hl⟩ := List.eq_append_cons_of_mem hmem
    rw [readline_go_of_mem hl] at h
    by_cases hlimit : limit < l.length
    · rw [if_pos hlimit] at h
      cases h
    · rw [if_neg hlimit] at h
      cases h
      refine ⟨?_, rfl, rfl⟩
      rw [List.append_assoc, List.append_assoc]
      rfl
  induction pending generalizing buffer with
  | nil =>
    by_cases hb : newline ∈ buffer
    · exact hmem hb h
    · rw [readline.go, if_neg hb] at h
      split_ifs at h <;> cases h
      exact ⟨rfl, rfl, rfl⟩
  | cons chunk pending ih =>
    by_cases hb : newline ∈ buffer
    · exact hmem hb h
    · rw [readline.go, if_neg hb] at h
      by_cases hlimit : limit < buffer.length
      · rw [if_pos hlimit] at h
        cases h
      · rw [if_neg hlimit] at h
        rw [List.flatten_cons, ← List.append_assoc]
        exact ih h

/-- What was returned was read, and nothing after it. -/
theorem readline_returned {bytes : List β} {w w' : Wire β}
    (h : readline newline limit overrun w = (.returned bytes, w')) : w.After w' bytes [] := by
  obtain ⟨hcontents, hwritten, hcloses⟩ := readline_go_returned h
  exact ⟨hcontents, by rw [hwritten, List.append_nil], hcloses⟩

end

end Dialog

end P4
