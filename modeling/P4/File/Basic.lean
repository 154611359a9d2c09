/-
  A file that is replaced through a temporary file.

  `Disk` has the directory entries of a path and of the temporary path beside it, the contents of
  the inodes, and how far the writers are.  A writer opens the temporary path, writes, closes the
  file and renames the path, in four kinds of steps.  To open the temporary path for writing is to
  truncate the inode that is there, whoever else is at it; a writer writes at its own offset; a
  rename moves the entry, whatever the inode holds by then, and writers that still have the inode
  open go on writing to it.

  Where one writer at a time is between its opening and its rename, the path has at every moment
  the complete text of the writer that renamed last (`Disk.Apart.step`), also when writers are
  killed half way.
-/
import P4.Run.Basic
import Mathlib.Logic.Function.Basic

namespace P4

/-- A writer between its opening and its rename: how much of the text is written, and whether the
file is closed. -/
structure Handle (α : Type) where
  inode : Nat
  text : List α
  done : Nat
  closed : Bool := false

/-- A path, the temporary path beside it, and the writers. -/
structure Disk (ι α : Type) where
  /-- the inode at the path -/
  file : Option Nat
  /-- the inode at the temporary path -/
  temp : Option Nat
  /-- the contents of the inodes -/
  data : Nat → List α
  /-- the next unused inode -/
  next : Nat
  /-- how far the writer is -/
  handles : ι → Option (Handle α)

/-- What a writer does. -/
inductive DiskOp (ι α : Type) where
  /-- it opens the temporary path, to write this text -/
  | open (i : ι) (text : List α)
  /-- it writes the next `n` characters -/
  | write (i : ι) (n : Nat)
  /-- all is written, and it closes the file -/
  | close (i : ι)
  /-- it has closed the file, and renames the temporary path to the path -/
  | rename (i : ι)
  /-- it gives up or is killed -/
  | stop (i : ι)

/-- The contents after `piece` was written at the offset; a hole is filled with `zero`. -/
def overwrite {α : Type} (zero : α) (content : List α) (offset : Nat) (piece : List α) : List α :=
  content.take offset ++ List.replicate (offset - content.length) zero ++ piece ++
    content.drop (offset + piece.length)

theorem overwrite_length {α : Type} (zero : α) (content piece : List α) :
    overwrite zero content content.length piece = content ++ piece := by
  simp [overwrite]

namespace Disk

variable {ι α : Type}

/-- The contents of the path. -/
def read (d : Disk ι α) : Option (List α) := d.file.map d.data

/-- The path and the temporary path with these contents, and no writer. -/
def start (file temp : Option (List α)) : Disk ι α where
  file := file.map fun _ => 0
  temp := temp.map fun _ => 1
  data k := if k = 0 then file.getD [] else temp.getD []
  next := 2
  handles _ := none

theorem read_start (file temp : Option (List α)) : (start (ι := ι) file temp).read = file := by
  cases file <;> rfl

variable [DecidableEq ι]

/-- The writer is there now. -/
def setHandle (d : Disk ι α) (i : ι) (h : Option (Handle α)) : Disk ι α :=
  { d with handles := Function.update d.handles i h }

/-- The steps of the writers; the event is that a writer has replaced the file.  A rename of a
temporary path that is not there raises. -/
def step (zero : α) : Machine (Disk ι α) (DiskOp ι α) ι := fun d a =>
  match a with
  | .open i text =>
    match d.handles i with
    | some _ => none
    | none =>
      let inode := d.temp.getD d.next
      some ({ d with temp := some inode
                     data := Function.update d.data inode []
                     next := if d.temp.isSome then d.next else d.next + 1
                     handles := Function.update d.handles i (some { inode, text, done := 0 }) }, [])
  | .write i n =>
    match d.handles i with
    | none => none
    | some h =>
      if h.closed then none
      else
        let piece := (h.text.drop h.done).take n
        let h' : Handle α := { h with done := h.done + piece.length }
        some ({ d with data := Function.update d.data h.inode
                         (overwrite zero (d.data h.inode) h.done piece)
                       handles := Function.update d.handles i (some h') }, [])
  | .close i =>
    match d.handles i with
    | none => none
    | some h =>
      if h.closed || h.done < h.text.length then none
      else some (d.setHandle i (some { h with closed := true }), [])
  | .rename i =>
    match d.handles i with
    | none => none
    | some h =>
      if !h.closed then none
      else match d.temp with
        | none => some (d.setHandle i none, [])
        | some inode => some ({ d.setHandle i none with file := some inode, temp := none }, [i])
  | .stop i => some (d.setHandle i none, [])

/-! ### One writer at a time -/

/-- A writer opens the temporary path only when no other one is between its opening and its
rename. -/
def Exclusive (d : Disk ι α) : DiskOp ι α → Prop
  | .open _ _ => ∀ j, d.handles j = none
  | _ => True

/-- The path and the temporary path are apart, and one writer at most is at the temporary path,
and has written a prefix of its text to it: all of it before the file was closed. -/
structure Apart (d : Disk ι α) : Prop where
  sole : ∀ i j h h', d.handles i = some h → d.handles j = some h' → i = j
  opened : ∀ i h, d.handles i = some h →
    d.temp = some h.inode ∧ d.data h.inode = h.text.take h.done ∧ h.done ≤ h.text.length ∧
      (h.closed = true → h.done = h.text.length)
  distinct : ∀ k, d.temp = some k → d.file ≠ some k
  fileOld : ∀ k, d.file = some k → k < d.next
  tempOld : ∀ k, d.temp = some k → k < d.next

omit [DecidableEq ι] in
theorem apart_start (file temp : Option (List α)) : (start (ι := ι) file temp).Apart := by
  refine ⟨?_, ?_, ?_, ?_, ?_⟩
  · rintro i j h h' ⟨⟩
  · rintro i h ⟨⟩
  · intro k hk hfile
    obtain ⟨-, -, rfl⟩ := Option.map_eq_some_iff.mp hk
    obtain ⟨-, -, h⟩ := Option.map_eq_some_iff.mp hfile
    cases h
  · intro k hk
    obtain ⟨-, -, rfl⟩ := Option.map_eq_some_iff.mp hk
    exact Nat.zero_lt_two
  · intro k hk
    obtain ⟨-, -, rfl⟩ := Option.map_eq_some_iff.mp hk
    exact Nat.one_lt_two

/-- The text that a writer is at. -/
def text? (d : Disk ι α) (i : ι) : Option (List α) := (d.handles i).map Handle.text

/-- What a step does to the contents of the path and to the texts of the writers. -/
inductive Effect (d : Disk ι α) : DiskOp ι α → Disk ι α → List ι → Prop
  | opened (i text d') : d.text? i = none → d'.read = d.read →
    d'.text? = Function.update d.text? i (some text) → Effect d (.open i text) d' []
  | wrote (i n d') : d'.read = d.read → d'.text? = d.text? → Effect d (.write i n) d' []
  | closed (i d') : d'.read = d.read → d'.text? = d.text? → Effect d (.close i) d' []
  /-- the contents are now the text of the writer -/
  | replaced (i text d') : d.text? i = some text → d'.read = some text →
    d'.text? = Function.update d.text? i none → Effect d (.rename i) d' [i]
  | stopped (i d') : d'.read = d.read → d'.text? = Function.update d.text? i none →
    Effect d (.stop i) d' []

theorem text?_update (d : Disk ι α) (i : ι) (h : Option (Handle α)) :
    (fun j => (Function.update d.handles i h j).map Handle.text) =
      Function.update d.text? i (h.map Handle.text) := by
  ext1 j
  by_cases hj : j = i
  · subst hj
    rw [Function.update_self, Function.update_self]
  · rw [Function.update_of_ne hj, Function.update_of_ne hj]
    rfl

theorem text?_setHandle (d : Disk ι α) (i : ι) (h : Option (Handle α)) :
    (d.setHandle i h).text? = Function.update d.text? i (h.map Handle.text) :=
  text?_update d i h

omit [DecidableEq ι] in
/-- An inode that the path does not have can change. -/
theorem read_update {d : Disk ι α} {k : Nat} (h : d.file ≠ some k) (content : List α) :
    d.file.map (Function.update d.data k content) = d.read := by
  unfold read
  cases hf : d.file with
  | none => rfl
  | some f =>
    rw [Option.map_some, Option.map_some, Function.update_of_ne]
    rintro rfl
    exact h hf

/-- A handle is the new one of the writer, or another's old one. -/
theorem update_eq_some {β : Type} {f : ι → Option β} {i j : ι} {v : Option β} {x : β}
    (h : Function.update f i v j = some x) : j = i ∧ v = some x ∨ j ≠ i ∧ f j = some x := by
  by_cases hj : j = i
  · subst hj
    rw [Function.update_self] at h
    exact Or.inl ⟨rfl, h⟩
  · rw [Function.update_of_ne hj] at h
    exact Or.inr ⟨hj, h⟩

/-- Opening truncates the temporary file and nothing else. -/
theorem Apart.open {zero : α} {d d' : Disk ι α} {i : ι} {text : List α} {out : List ι}
    (h : d.Apart) (hnone : ∀ j, d.handles j = none)
    (hs : step zero d (.open i text) = some (d', out)) :
    d'.Apart ∧ d.Effect (.open i text) d' out := by
  simp only [step, hnone i, Option.some.injEq, Prod.mk.injEq] at hs
  obtain ⟨rfl, rfl⟩ := hs
  have hinode : d.file ≠ some (d.temp.getD d.next) := by
    cases ht : d.temp with
    | none => exact fun hf => absurd (h.fileOld _ hf) (Nat.lt_irrefl _)
    | some k => exact h.distinct k ht
  have hopen : ∀ j x, Function.update d.handles i
      (some { inode := d.temp.getD d.next, text, done := 0 }) j = some x →
        j = i ∧ x = { inode := d.temp.getD d.next, text, done := 0 } := by
    intro j x hj
    rcases update_eq_some hj with ⟨hji, hx⟩ | ⟨-, hold⟩
    · exact ⟨hji, (Option.some.inj hx).symm⟩
    · rw [hnone] at hold
      cases hold
  refine ⟨⟨?_, ?_, ?_, ?_, ?_⟩, .opened i text _ ?_ (read_update hinode _) (text?_update d i _)⟩
  · intro j k x y hj hk
    rw [(hopen j x hj).1, (hopen k y hk).1]
  · intro j x hj
    rw [(hopen j x hj).2]
    exact ⟨rfl, Function.update_self _ _ _, Nat.zero_le _, nofun⟩
  · intro k hk
    cases hk
    exact hinode
  · intro k hk
    have hlt := h.fileOld k hk
    show k < if d.temp.isSome then d.next else d.next + 1
    split_ifs <;> omega
  · intro k hk
    cases hk
    cases ht : d.temp with
    | none => exact Nat.lt_succ_self _
    | some k => exact h.tempOld k ht
  · rw [text?, hnone]
    rfl

/-- A piece goes to the end of what was written. -/
theorem Apart.write {zero : α} {d d' : Disk ι α} {i : ι} {n : Nat} {out : List ι}
    (h : d.Apart) (hs : step zero d (.write i n) = some (d', out)) :
    d'.Apart ∧ d.Effect (.write i n) d' out := by
  cases hi : d.handles i with
  | none =>
    simp only [step, hi] at hs
    cases hs
  | some x =>
    simp only [step, hi] at hs
    split_ifs at hs with hclosed
    simp only [Option.some.injEq, Prod.mk.injEq] at hs
    obtain ⟨rfl, rfl⟩ := hs
    obtain ⟨htemp, hdata, hdone, -⟩ := h.opened i x hi
    obtain ⟨piece, hpiece⟩ : ∃ piece, piece = (x.text.drop x.done).take n := ⟨_, rfl⟩
    rw [← hpiece]
    have hlength : (d.data x.inode).length = x.done := by
      rw [hdata, List.length_take]
      omega
    have hle : x.done + piece.length ≤ x.text.length := by
      rw [hpiece, List.length_take, List.length_drop]
      omega
    -- the piece goes to the end of what is there
    have hcontent : overwrite zero (d.data x.inode) x.done piece =
        x.text.take (x.done + piece.length) := by
      have happend := overwrite_length zero (d.data x.inode) piece
      rw [hlength] at happend
      rw [happend, hdata, List.take_add]
      congr 1
      rw [hpiece, List.length_take, ← List.take_take, List.take_length]
    have hopen : ∀ j y, Function.update d.handles i
        (some { x with done := x.done + piece.length }) j = some y →
        j = i ∧ y = { x with done := x.done + piece.length } := by
      intro j y hj
      rcases update_eq_some hj with ⟨hji, hy⟩ | ⟨hji, hold⟩
      · exact ⟨hji, (Option.some.inj hy).symm⟩
      · exact absurd (h.sole j i y x hold hi) hji
    refine ⟨⟨?_, ?_, h.distinct, h.fileOld, h.tempOld⟩,
      .wrote i n _ (read_update (h.distinct _ htemp) _) ?_⟩
    · intro j k y z hj hk
      rw [(hopen j y hj).1, (hopen k z hk).1]
    · intro j y hj
      rw [(hopen j y hj).2]
      exact ⟨htemp, (Function.update_self _ _ _).trans hcontent, hle,
        fun hx => absurd hx hclosed⟩
    · have hsame := text?_update d i (some { x with done := x.done + piece.length })
      have htext : d.text? i = some x.text := by
        rw [text?, hi]
        rfl
      exact hsame.trans (Function.update_eq_self_iff.mpr htext.symm)

theorem Apart.close {zero : α} {d d' : Disk ι α} {i : ι} {out : List ι}
    (h : d.Apart) (hs : step zero d (.close i) = some (d', out)) :
    d'.Apart ∧ d.Effect (.close i) d' out := by
  cases hi : d.handles i with
  | none =>
    simp only [step, hi] at hs
    cases hs
  | some x =>
    obtain ⟨htemp, hdata, hdone, -⟩ := h.opened i x hi
    simp only [step, hi] at hs
    split_ifs at hs with hwritten
    simp only [Option.some.injEq, Prod.mk.injEq] at hs
    obtain ⟨rfl, rfl⟩ := hs
    have hall : x.done = x.text.length := by
      have hnot : ¬ x.done < x.text.length := fun hlt => hwritten (by simp [hlt])
      omega
    -- the other writers are where they were
    have hold : ∀ j y, Function.update d.handles i (some { x with closed := true }) j = some y →
        j = i ∧ y = { x with closed := true } := by
      intro j y hj
      rcases update_eq_some hj with ⟨hji, hy⟩ | ⟨hji, hold⟩
      · exact ⟨hji, (Option.some.inj hy).symm⟩
      · exact absurd (h.sole j i y x hold hi) hji
    refine ⟨⟨?_, ?_, h.distinct, h.fileOld, h.tempOld⟩, .closed i _ rfl ?_⟩
    · intro j k y z hj hk
      rw [(hold j y hj).1, (hold k z hk).1]
    · intro j y hj
      rw [(hold j y hj).2]
      exact ⟨htemp, hdata, hdone, fun _ => hall⟩
    · have htext : d.text? i = some x.text := by
        rw [text?, hi]
        rfl
      exact (text?_update d i _).trans (Function.update_eq_self_iff.mpr htext.symm)

/-- Renaming replaces the file by the whole text. -/
theorem Apart.rename {zero : α} {d d' : Disk ι α} {i : ι} {out : List ι}
    (h : d.Apart) (hs : step zero d (.rename i) = some (d', out)) :
    d'.Apart ∧ d.Effect (.rename i) d' out := by
  cases hi : d.handles i with
  | none =>
    simp only [step, hi] at hs
    cases hs
  | some x =>
    obtain ⟨htemp, hdata, hdone, hwritten⟩ := h.opened i x hi
    simp only [step, hi, htemp] at hs
    split_ifs at hs with hopen
    simp only [Option.some.injEq, Prod.mk.injEq] at hs
    obtain ⟨rfl, rfl⟩ := hs
    have hclosed : ∀ j y, Function.update d.handles i none j ≠ some y := by
      intro j y hj
      rcases update_eq_some hj with ⟨-, hy⟩ | ⟨hji, hold⟩
      · cases hy
      · exact hji (h.sole j i y x hold hi)
    refine ⟨⟨?_, ?_, ?_, ?_, ?_⟩, .replaced i x.text _ ?_ ?_ (text?_update d i none)⟩
    · exact fun j k y z hj _ => absurd hj (hclosed j y)
    · exact fun j y hj => absurd hj (hclosed j y)
    · rintro k ⟨⟩
    · intro k hk
      cases hk
      exact h.tempOld _ htemp
    · rintro k ⟨⟩
    · rw [text?, hi]
      rfl
    · show some (d.data x.inode) = some x.text
      have hall := hwritten (by simpa using hopen)
      rw [hdata, hall, List.take_length]

theorem Apart.stop {zero : α} {d d' : Disk ι α} {i : ι} {out : List ι}
    (h : d.Apart) (hs : step zero d (.stop i) = some (d', out)) :
    d'.Apart ∧ d.Effect (.stop i) d' out := by
  simp only [step, Option.some.injEq, Prod.mk.injEq] at hs
  obtain ⟨rfl, rfl⟩ := hs
  have hold : ∀ j y, Function.update d.handles i none j = some y → d.handles j = some y := by
    intro j y hj
    rcases update_eq_some hj with ⟨-, hy⟩ | ⟨-, hold⟩
    · cases hy
    · exact hold
  refine ⟨⟨?_, ?_, h.distinct, h.fileOld, h.tempOld⟩, .stopped i _ rfl (text?_update d i none)⟩
  · exact fun j k y z hj hk => h.sole j k y z (hold j y hj) (hold k z hk)
  · exact fun j y hj => h.opened j y (hold j y hj)

/-- One writer at a time: the contents of the path are at every moment what they were, or the
whole text of the writer that renamed last. -/
theorem Apart.step {zero : α} {d d' : Disk ι α} {a : DiskOp ι α} {out : List ι} (h : d.Apart)
    (ha : d.Exclusive a) (hs : Disk.step zero d a = some (d', out)) :
    d'.Apart ∧ d.Effect a d' out := by
  cases a with
  | «open» i text => exact h.open ha hs
  | write i n => exact h.write hs
  | close i => exact h.close hs
  | rename i => exact h.rename hs
  | stop i => exact h.stop hs

end Disk

end P4
