/-
  A window of the elements seen most recently.

  `push k l x` asks whether `x` is in the window `l` and, when it is not, puts it in as the
  newest element; beyond `k` elements the oldest one leaves.  The window therefore holds the
  last `k` of all elements that were new when they came (`push_lastN`), and an element that is
  not in it is at least `k` elements back (`lt_of_notMem_lastN`).

  `Tracks s l` says that the set `s` has the elements of the window `l`, which occur in it once.
-/
import Mathlib.Data.Finset.Basic
import Mathlib.Data.List.Nodup

namespace P4.Window

variable {α : Type}

/-- Is `x` in the window, and the window after it came. -/
def push [DecidableEq α] (k : Nat) (l : List α) (x : α) : Bool × List α :=
  if x ∈ l then (true, l)
  else if (l ++ [x]).length > k then (false, (l ++ [x]).tail)
  else (false, l ++ [x])

/-- The last `k` elements. -/
def lastN (k : Nat) (l : List α) : List α := l.drop (l.length - k)

theorem length_lastN (k : Nat) (l : List α) : (lastN k l).length = min k l.length := by
  rw [lastN, List.length_drop]
  omega

theorem mem_lastN {k : Nat} {l : List α} {x : α} :
    x ∈ lastN k l ↔ ∃ i, l.length < i + k + 1 ∧ l[i]? = some x := by
  rw [lastN, List.mem_iff_getElem?]
  constructor
  · rintro ⟨i, hi⟩
    rw [List.getElem?_drop] at hi
    have hlt := (List.getElem?_eq_some_iff.mp hi).1
    exact ⟨l.length - k + i, by omega, hi⟩
  · rintro ⟨i, hlt, hi⟩
    refine ⟨i - (l.length - k), ?_⟩
    rw [List.getElem?_drop]
    have : l.length - k + (i - (l.length - k)) = i := by omega
    rw [this, hi]

/-- The window after one more new element. -/
theorem lastN_snoc (k : Nat) (l : List α) (x : α) :
    lastN k (l ++ [x]) =
      if (lastN k l ++ [x]).length > k then (lastN k l ++ [x]).tail else lastN k l ++ [x] := by
  have hlen := length_lastN k l
  rw [List.length_append, List.length_singleton]
  split_ifs with h
  · have hk : k ≤ l.length := by omega
    rw [lastN, lastN, List.length_append, List.length_singleton, ← List.drop_one,
      ← List.drop_append_of_le_length (by omega), List.drop_drop]
    congr 1
    omega
  · have hk : l.length < k := by omega
    have h₀ : (l ++ [x]).length - k = 0 := by
      rw [List.length_append, List.length_singleton]
      omega
    rw [lastN, lastN, h₀, List.drop_zero, Nat.sub_eq_zero_of_le (Nat.le_of_lt hk), List.drop_zero]

/-- What a push does to the last `k` of the elements that came in. -/
theorem push_lastN [DecidableEq α] (k : Nat) (acc : List α) (x : α) :
    push k (lastN k acc) x =
      if x ∈ lastN k acc then (true, lastN k acc) else (false, lastN k (acc ++ [x])) := by
  rw [push, lastN_snoc]
  split_ifs <;> rfl

/-- The set `s` has the elements of the window `l`, each of which is there once. -/
def Tracks (s : Finset α) (l : List α) : Prop := l.Nodup ∧ ∀ x, x ∈ s ↔ x ∈ l

theorem tracks_nil : Tracks (∅ : Finset α) [] := by
  refine ⟨List.nodup_nil, fun x => ?_⟩
  simp

/-- A new element. -/
theorem Tracks.insert [DecidableEq α] {s : Finset α} {l : List α} {x : α} (h : Tracks s l)
    (hx : x ∉ l) : Tracks (insert x s) (l ++ [x]) := by
  refine ⟨?_, fun y => ?_⟩
  · rw [List.nodup_append]
    refine ⟨h.1, List.nodup_singleton x, ?_⟩
    intro a ha b hb hab
    rw [hab, List.mem_singleton.mp hb] at ha
    exact hx ha
  · rw [Finset.mem_insert, h.2 y, List.mem_append, List.mem_singleton, or_comm]

/-- The oldest element leaves. -/
theorem Tracks.erase [DecidableEq α] {s : Finset α} {l : List α} {old : α}
    (h : Tracks s (old :: l)) : Tracks (s.erase old) l := by
  obtain ⟨hold, hl⟩ := List.nodup_cons.mp h.1
  refine ⟨hl, fun y => ?_⟩
  rw [Finset.mem_erase, h.2 y, List.mem_cons]
  constructor
  · rintro ⟨hne, hy⟩
    exact hy.resolve_left hne
  · intro hy
    exact ⟨fun heq => hold (heq ▸ hy), Or.inr hy⟩

/-- An element that is not among the last `k` is at least `k` elements back. -/
theorem lt_of_notMem_lastN {k i : Nat} {acc : List α} {x : α} (hx : x ∉ lastN k acc)
    (hi : acc[i]? = some x) : i + k < acc.length := by
  by_contra h
  exact hx (mem_lastN.mpr ⟨i, by omega, hi⟩)

end P4.Window
