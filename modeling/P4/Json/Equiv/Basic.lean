/-
  Traversals and the canonical form of JSON values.

  The traversals of `Json/Basic.lean` are put in terms of `List.map` and `List.all`, so that
  proofs about values go by `Json.induction` alone.  Reading a member of an object does not
  depend on the order of the members (`get?_canon`).
-/
import P4.Json.Parse
import Mathlib.Order.Fin.Basic

namespace P4

/-! ### The order of strings -/

namespace Str

theorem lt_irrefl (s : Str) : lt s s = false := by
  induction s with
  | nil => rfl
  | cons a s ih => simp [lt, ih]

theorem lt_trans {s t u : Str} (h₁ : lt s t = true) (h₂ : lt t u = true) : lt s u = true := by
  induction s generalizing t u with
  | nil =>
    cases u with
    | nil => cases t <;> simp [lt] at h₂
    | cons c u => rfl
  | cons a s ih =>
    cases t with
    | nil => simp [lt] at h₁
    | cons b t =>
      cases u with
      | nil => simp [lt] at h₂
      | cons c u =>
        simp only [lt, Bool.or_eq_true, decide_eq_true_eq, Bool.and_eq_true, beq_iff_eq] at *
        rcases h₁ with h₁ | ⟨rfl, h₁⟩ <;> rcases h₂ with h₂ | ⟨rfl, h₂⟩
        · exact Or.inl (h₁.trans h₂)
        · exact Or.inl h₁
        · exact Or.inl h₂
        · exact Or.inr ⟨rfl, ih h₁ h₂⟩

theorem lt_asymm {s t : Str} (h : lt s t = true) : lt t s = false := by
  cases h' : lt t s with
  | false => rfl
  | true => rw [← lt_irrefl s, lt_trans h h']

/-- Different strings are ordered one way or the other. -/
theorem lt_or_lt {s t : Str} (h : s ≠ t) : lt s t = true ∨ lt t s = true := by
  induction s generalizing t with
  | nil =>
    cases t with
    | nil => exact absurd rfl h
    | cons b t => exact Or.inl rfl
  | cons a s ih =>
    cases t with
    | nil => exact Or.inr rfl
    | cons b t =>
      simp only [lt, Bool.or_eq_true, decide_eq_true_eq, Bool.and_eq_true, beq_iff_eq]
      rcases lt_trichotomy a b with hab | rfl | hab
      · exact Or.inl (Or.inl hab)
      · rcases ih (fun he => h (by rw [he])) with h' | h'
        · exact Or.inl (Or.inr ⟨rfl, h'⟩)
        · exact Or.inr (Or.inr ⟨rfl, h'⟩)
      · exact Or.inr (Or.inl hab)

theorem le_iff {s t : Str} : le s t = true ↔ s = t ∨ lt s t = true := by
  rw [le, Bool.not_eq_true']
  constructor
  · intro h
    by_cases he : s = t
    · exact Or.inl he
    · exact Or.inr ((lt_or_lt he).resolve_right (by rw [h]; decide))
  · rintro (rfl | h)
    · exact lt_irrefl s
    · exact lt_asymm h

theorem le_total (s t : Str) : le s t = true ∨ le t s = true := by
  rw [le_iff, le_iff]
  by_cases h : s = t
  · exact Or.inl (Or.inl h)
  · exact (lt_or_lt h).imp Or.inr Or.inr

theorem le_trans {s t u : Str} (h₁ : le s t = true) (h₂ : le t u = true) : le s u = true := by
  rw [le_iff] at *
  rcases h₁ with rfl | h₁
  · exact h₂
  · rcases h₂ with rfl | h₂
    · exact Or.inr h₁
    · exact Or.inr (lt_trans h₁ h₂)

end Str

namespace Json

open Dict

variable {F : Type}

/-! ### Traversals -/

theorem allNodesList_eq (p : Json F → Bool) (l : List (Json F)) :
    allNodesList p l = l.all (allNodes p) := by
  induction l with
  | nil => rfl
  | cons v l ih => rw [allNodesList, ih, List.all_cons]

theorem allNodesMembers_eq (p : Json F → Bool) (m : Members F) :
    allNodesMembers p m = m.all fun kv => allNodes p kv.2 := by
  induction m with
  | nil => rfl
  | cons kv m ih =>
    obtain ⟨k, v⟩ := kv
    rw [allNodesMembers, ih, List.all_cons]

theorem allNodes_arr {p : Json F → Bool} {l : List (Json F)} :
    allNodes p (.arr l) = true ↔ p (.arr l) = true ∧ ∀ v ∈ l, allNodes p v = true := by
  rw [allNodes, Bool.and_eq_true, allNodesList_eq, List.all_eq_true]

theorem allNodes_obj {p : Json F → Bool} {m : Members F} :
    allNodes p (.obj m) = true ↔
      p (.obj m) = true ∧ ∀ kv ∈ m, allNodes p kv.2 = true := by
  rw [allNodes, Bool.and_eq_true, allNodesMembers_eq, List.all_eq_true]

theorem wellFormed_arr {l : List (Json F)} :
    wellFormed (.arr l) = true ↔ ∀ v ∈ l, wellFormed v = true := by
  rw [wellFormed, allNodes_arr]
  exact and_iff_right rfl

theorem wellFormed_obj {m : Members F} :
    wellFormed (.obj m) = true ↔ (keys m).Nodup ∧ (∀ k ∈ keys m, normal k = true) ∧
      ∀ kv ∈ m, wellFormed kv.2 = true := by
  rw [wellFormed, allNodes_obj, wellFormedNode, Bool.and_eq_true, decide_eq_true_eq,
    List.all_eq_true, and_assoc]
  rfl

theorem wellFormed_of_get? {m : Members F} {k : Str} {v : Json F}
    (hm : wellFormed (.obj m) = true) (h : get? m k = some v) : wellFormed v = true :=
  (wellFormed_obj.mp hm).2.2 (k, v) (get?_mem h)

/-! ### The canonical form -/

theorem canonList_eq (l : List (Json F)) : canonList l = l.map canon := by
  induction l with
  | nil => rfl
  | cons v l ih => rw [canonList, ih, List.map_cons]

theorem canonMembers_eq (m : Members F) : canonMembers m = m.map fun kv => (kv.1, kv.2.canon) := by
  induction m with
  | nil => rfl
  | cons kv m ih => rw [canonMembers, ih, List.map_cons]

theorem canon_arr (l : List (Json F)) : canon (.arr l) = .arr (l.map canon) := by
  rw [canon, canonList_eq]

theorem canon_obj (m : Members F) :
    canon (.obj m) = .obj (sortMembers (m.map fun kv => (kv.1, kv.2.canon))) := by
  rw [canon, canonMembers_eq]

theorem sortMembers_perm (m : Members F) : (sortMembers m).Perm m :=
  List.perm_insertionSort _ m

theorem mem_sortMembers {m : Members F} {kv : Str × Json F} : kv ∈ sortMembers m ↔ kv ∈ m :=
  (sortMembers_perm m).mem_iff

theorem keys_sortMembers_perm (m : Members F) : (keys (sortMembers m)).Perm (keys m) :=
  (sortMembers_perm m).map Prod.fst

theorem keys_map_canon (m : Members F) : keys (m.map fun kv => (kv.1, kv.2.canon)) = keys m := by
  rw [keys, keys, List.map_map]
  rfl

/-- Sorting looks at the keys only. -/
theorem sortMembers_map (f : Json F → Json F) (m : Members F) :
    sortMembers (m.map fun kv => (kv.1, f kv.2)) = (sortMembers m).map fun kv => (kv.1, f kv.2) :=
  (List.map_insertionSort (fun a b : Str × Json F => a.1.le b.1 = true) _
    (fun kv => (kv.1, f kv.2)) m fun _ _ _ _ => Iff.rfl).symm

theorem sortMembers_sortMembers (m : Members F) : sortMembers (sortMembers m) = sortMembers m := by
  have : Std.Total fun a b : Str × Json F => a.1.le b.1 = true :=
    ⟨fun a b => Str.le_total a.1 b.1⟩
  have : IsTrans (Str × Json F) fun a b => a.1.le b.1 = true := ⟨fun _ _ _ => Str.le_trans⟩
  exact (List.pairwise_insertionSort _ m).insertionSort_eq

theorem canon_canon (v : Json F) : v.canon.canon = v.canon := by
  induction v using Json.induction with
  | null => rfl
  | bool _ => rfl
  | int _ => rfl
  | float _ => rfl
  | str _ => rfl
  | arr l ih =>
    rw [canon_arr, canon_arr, List.map_map]
    exact congrArg _ (List.map_congr_left fun v hv => ih v hv)
  | obj m ih =>
    rw [canon_obj, canon_obj, ← sortMembers_map, sortMembers_sortMembers, List.map_map]
    refine congrArg (fun m => Json.obj (sortMembers m)) (List.map_congr_left fun kv hkv => ?_)
    rw [Function.comp, ih kv hkv]

/-- Reading a member of the canonical form. -/
theorem get?_canon {m : Members F} (h : (keys m).Nodup) (k : Str) :
    get? (sortMembers (m.map fun kv => (kv.1, kv.2.canon))) k = (get? m k).map canon := by
  have h' : (keys (m.map fun kv => (kv.1, kv.2.canon))).Nodup := by rwa [keys_map_canon]
  rw [get?_perm h' (sortMembers_perm _)]
  exact get?_map canon m k

theorem wellFormed_canon {v : Json F} : wellFormed v = true → wellFormed v.canon = true := by
  induction v using Json.induction with
  | null => exact id
  | bool _ => exact id
  | int _ => exact id
  | float _ => exact id
  | str _ => exact id
  | arr l ih =>
    rw [canon_arr, wellFormed_arr, wellFormed_arr]
    intro h v hv
    obtain ⟨w, hw, rfl⟩ := List.mem_map.mp hv
    exact ih w hw (h w hw)
  | obj m ih =>
    rw [canon_obj, wellFormed_obj, wellFormed_obj]
    rintro ⟨hnd, hk, hv⟩
    have hkeys := keys_sortMembers_perm (m.map fun kv => (kv.1, kv.2.canon))
    rw [keys_map_canon] at hkeys
    refine ⟨hkeys.nodup_iff.mpr hnd, fun k hk' => hk k (hkeys.mem_iff.mp hk'), ?_⟩
    intro kv hkv
    obtain ⟨kw, hkw, rfl⟩ := List.mem_map.mp (mem_sortMembers.mp hkv)
    exact ih kw hkw (hv kw hkw)

/-! ### Depth -/

theorem depthList_le {l : List (Json F)} {n : Nat} :
    depthList l ≤ n ↔ ∀ v ∈ l, v.depth ≤ n := by
  induction l with
  | nil => simp [depthList]
  | cons v l ih => rw [depthList, Nat.max_le, ih, List.forall_mem_cons]

theorem depthMembers_le {m : Members F} {n : Nat} :
    depthMembers m ≤ n ↔ ∀ kv ∈ m, kv.2.depth ≤ n := by
  induction m with
  | nil => simp [depthMembers]
  | cons kv m ih => rw [depthMembers, Nat.max_le, ih, List.forall_mem_cons]

theorem depth_obj_le {m : Members F} {n : Nat} :
    (Json.obj m).depth ≤ n + 1 ↔ ∀ kv ∈ m, kv.2.depth ≤ n := by
  rw [depth, Nat.add_le_add_iff_right, depthMembers_le]

/-- The order of members does not matter for the depth. -/
theorem depth_canon_le {v : Json F} : ∀ {n : Nat}, v.depth ≤ n → v.canon.depth ≤ n := by
  induction v using Json.induction with
  | arr l ih =>
    intro n h
    rw [depth] at h
    obtain ⟨n, rfl⟩ : ∃ k, n = k + 1 := ⟨n - 1, by omega⟩
    rw [Nat.add_le_add_iff_right, depthList_le] at h
    rw [canon_arr, depth, Nat.add_le_add_iff_right, depthList_le]
    intro w hw
    obtain ⟨v, hv, rfl⟩ := List.mem_map.mp hw
    exact ih v hv (h v hv)
  | obj m ih =>
    intro n h
    obtain ⟨n, rfl⟩ : ∃ k, n = k + 1 := ⟨n - 1, by rw [depth] at h; omega⟩
    rw [depth_obj_le] at h
    rw [canon_obj, depth_obj_le]
    intro kw hkw
    obtain ⟨kv, hkv, rfl⟩ := List.mem_map.mp (mem_sortMembers.mp hkw)
    exact ih kv hkv (h kv hkv)
  | _ => exact id

end Json

end P4
