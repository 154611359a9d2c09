/-
  A search around a cycle.

  `walk N s` goes once over the numbers below `N`, from `s` on, over the end and back to the
  start.  It is a rotation of `0, ..., N - 1`, so no number is missed (`mem_walk`), and a number
  stands in it at its distance from `s` (`getElem?_walk_distance`).  The first hit of a search
  along the walk is therefore the hit that is nearest to `s` (`find?_walk_eq_some`), and a search
  without a hit has seen every number (`find?_walk_eq_none`).
-/
import Mathlib.Data.List.Rotate

namespace P4.Cycle

variable {N s x i : Nat} {p : Nat → Bool}

/-- The numbers below `N`, from `s` on. -/
def walk (N s : Nat) : List Nat := (List.range N).map fun n => (s + n) % N

/-- How far `x` is from `s`, going up and over the end. -/
def distance (N s x : Nat) : Nat := if s % N ≤ x then x - s % N else x + N - s % N

theorem length_walk : (walk N s).length = N := by rw [walk, List.length_map, List.length_range]

theorem walk_eq_rotate : walk N s = (List.range N).rotate s := by
  refine List.ext_getElem ?_ fun i _ _ => ?_
  · rw [length_walk, List.length_rotate, List.length_range]
  · simp [walk, Nat.add_comm]

/-- The walk misses no number. -/
theorem mem_walk : x ∈ walk N s ↔ x < N := by
  rw [walk_eq_rotate, List.mem_rotate, List.mem_range]

theorem getElem?_walk (hi : i < N) : (walk N s)[i]? = some ((s + i) % N) := by
  rw [walk, List.getElem?_map, List.getElem?_range hi, Option.map_some]

/-! ### Distances -/

theorem distance_lt (hx : x < N) : distance N s x < N := by
  have hs : s % N < N := Nat.mod_lt s (Nat.zero_lt_of_lt hx)
  rw [distance]
  split_ifs <;> omega

/-- Going on by the distance leads to the number. -/
theorem add_distance_mod (hx : x < N) : (s + distance N s x) % N = x := by
  have hs : s % N < N := Nat.mod_lt s (Nat.zero_lt_of_lt hx)
  rw [← Nat.mod_add_mod, distance]
  split_ifs with hle
  · rw [Nat.add_sub_cancel' hle, Nat.mod_eq_of_lt hx]
  · rw [Nat.add_sub_cancel' (by omega), Nat.add_mod_right, Nat.mod_eq_of_lt hx]

/-- After `i` steps the distance is `i`. -/
theorem distance_add_mod (hi : i < N) : distance N s ((s + i) % N) = i := by
  have hs : s % N < N := Nat.mod_lt s (Nat.zero_lt_of_lt hi)
  rw [← Nat.mod_add_mod, distance]
  by_cases hend : s % N + i < N
  · rw [Nat.mod_eq_of_lt hend, if_pos (Nat.le_add_right _ _), Nat.add_sub_cancel_left]
  · -- the walk has gone over the end
    have hover : (s % N + i) % N = s % N + i - N := by
      rw [Nat.mod_eq_sub_mod (Nat.not_lt.mp hend), Nat.mod_eq_of_lt (by omega)]
    rw [hover, if_neg (by omega)]
    omega

/-- The walk gets to a place after as many steps as the place is away. -/
theorem getElem?_walk_distance (hx : x < N) : (walk N s)[distance N s x]? = some x := by
  rw [getElem?_walk (distance_lt hx), add_distance_mod hx]

/-- Two numbers at one distance are the same. -/
theorem distance_inj {y : Nat} (hx : x < N) (hy : y < N) (h : distance N s x = distance N s y) :
    x = y := by
  have heq := getElem?_walk_distance (s := s) hx
  rw [h, getElem?_walk_distance hy] at heq
  exact (Option.some.inj heq).symm

/-! ### Searches -/

/-- A search without a hit has seen every number. -/
theorem find?_walk_eq_none : (walk N s).find? p = none ↔ ∀ y < N, p y = false := by
  rw [List.find?_eq_none]
  constructor
  · intro h y hy
    exact Bool.eq_false_iff.mpr (h y (mem_walk.mpr hy))
  · intro h y hy
    exact Bool.eq_false_iff.mp (h y (mem_walk.mp hy))

/-- A hit of the search is the nearest one. -/
theorem nearest_of_find?_walk (h : (walk N s).find? p = some x) :
    x < N ∧ p x = true ∧ ∀ y < N, p y = true → distance N s x ≤ distance N s y := by
  obtain ⟨hp, i, hi, hx, hfirst⟩ := List.find?_eq_some_iff_getElem.mp h
  rw [length_walk] at hi
  have hxi : x = (s + i) % N := by
    have hget := getElem?_walk (s := s) hi
    rw [List.getElem?_eq_getElem (by rwa [length_walk]), hx] at hget
    exact Option.some.inj hget
  refine ⟨mem_walk.mp (List.mem_of_find?_eq_some h), hp, fun y hy hpy => ?_⟩
  rw [hxi, distance_add_mod hi]
  by_contra hlt
  -- `y` stands before the hit, where the search has found nothing
  have hmiss := hfirst (distance N s y) (Nat.not_le.mp hlt)
  have hget := getElem?_walk_distance (s := s) hy
  rw [List.getElem?_eq_getElem (by rw [length_walk]; exact distance_lt hy)] at hget
  rw [Option.some.inj hget, hpy] at hmiss
  cases hmiss

/-- The search finds the hit that is nearest to `s`. -/
theorem find?_walk_eq_some : (walk N s).find? p = some x ↔
    x < N ∧ p x = true ∧ ∀ y < N, p y = true → distance N s x ≤ distance N s y := by
  refine ⟨nearest_of_find?_walk, ?_⟩
  rintro ⟨hx, hp, hnearest⟩
  cases hfind : (walk N s).find? p with
  | none =>
    rw [find?_walk_eq_none.mp hfind x hx] at hp
    cases hp
  | some y =>
    obtain ⟨hy, hpy, hnearest'⟩ := nearest_of_find?_walk hfind
    rw [distance_inj hy hx (Nat.le_antisymm (hnearest' x hx hp) (hnearest y hy hpy))]

end P4.Cycle
