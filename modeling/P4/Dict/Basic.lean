/-
  Insertion-ordered dictionaries.

  A dictionary is the list of its entries; `set` keeps an existing key where it stands and puts
  a new one at the end.  The keys of a dictionary that was built by these operations are
  distinct, and then looking a key up is membership (`get?_eq_some_iff`).
-/
import Mathlib.Data.List.Nodup

namespace P4

/-- The entries of a dictionary, in insertion order. -/
abbrev Dict (κ α : Type) := List (κ × α)

namespace Dict

variable {κ α β : Type}

/-- The keys, in insertion order. -/
def keys (d : Dict κ α) : List κ := d.map Prod.fst

/-- The values, in insertion order. -/
def values (d : Dict κ α) : List α := d.map Prod.snd

variable [DecidableEq κ]

/-- `d.get(key)` -/
def get? (d : Dict κ α) (key : κ) : Option α := d.lookup key

/-- `d[key] = value` -/
def set (d : Dict κ α) (key : κ) (value : α) : Dict κ α :=
  match d with
  | [] => [(key, value)]
  | (k, v) :: d => if k = key then (k, value) :: d else (k, v) :: set d key value

/-- The dictionary built from pairs in order: the last value of a key wins, and it stands
where the key first appeared. -/
def ofPairs (ps : List (κ × α)) : Dict κ α := ps.foldl (fun d kv => set d kv.1 kv.2) []

/-- `d.setdefault(key, value)`: the value that is there afterwards, and the dictionary. -/
def setdefault (d : Dict κ α) (key : κ) (value : α) : α × Dict κ α :=
  match get? d key with
  | some v => (v, d)
  | none => (value, set d key value)

/-! ### Keys -/

/-- A new key goes to the end. -/
theorem set_of_notMem {d : Dict κ α} {k : κ} (hk : k ∉ keys d) (v : α) :
    set d k v = d ++ [(k, v)] := by
  induction d with
  | nil => rfl
  | cons kw d ih =>
    obtain ⟨j, w⟩ := kw
    simp only [keys, List.map_cons, List.mem_cons, not_or] at hk
    rw [set, if_neg (Ne.symm hk.1), ih hk.2, List.cons_append]

theorem keys_set_of_mem {d : Dict κ α} {k : κ} (hk : k ∈ keys d) (v : α) :
    keys (set d k v) = keys d := by
  induction d with
  | nil => cases hk
  | cons kw d ih =>
    obtain ⟨j, w⟩ := kw
    rw [set]
    split_ifs with hj
    · rfl
    · rcases List.mem_cons.mp hk with h | h
      · exact absurd h.symm hj
      · exact congrArg (j :: ·) (ih h)

theorem keys_set_of_notMem {d : Dict κ α} {k : κ} (hk : k ∉ keys d) (v : α) :
    keys (set d k v) = keys d ++ [k] := by
  rw [set_of_notMem hk, keys, List.map_append]
  rfl

theorem nodup_keys_set {d : Dict κ α} (h : (keys d).Nodup) (k : κ) (v : α) :
    (keys (set d k v)).Nodup := by
  by_cases hk : k ∈ keys d
  · rwa [keys_set_of_mem hk]
  · rw [keys_set_of_notMem hk, List.nodup_append]
    refine ⟨h, List.nodup_singleton k, ?_⟩
    intro a ha b hb hab
    rw [hab, List.mem_singleton.mp hb] at ha
    exact hk ha

/-! ### Building from pairs -/

theorem foldl_set_of_nodup {d : Dict κ α} :
    ∀ acc : Dict κ α, (keys (acc ++ d)).Nodup →
      d.foldl (fun d kv => set d kv.1 kv.2) acc = acc ++ d := by
  induction d with
  | nil => intro acc _; rw [List.foldl_nil, List.append_nil]
  | cons kv d ih =>
    intro acc h
    have hk : kv.1 ∉ keys acc := by
      rw [keys, List.map_append, List.map_cons, List.nodup_append] at h
      intro hm
      exact h.2.2 _ hm _ (List.mem_cons_self ..) rfl
    rw [List.foldl_cons, set_of_notMem hk, ih _ (by rwa [List.append_assoc]), List.append_assoc,
      List.singleton_append]

/-- Distinct keys are kept as they stand. -/
theorem ofPairs_of_nodup {d : Dict κ α} (h : (keys d).Nodup) : ofPairs d = d :=
  foldl_set_of_nodup [] h

theorem mem_set {d : Dict κ α} {k : κ} {v : α} {kw : κ × α} (h : kw ∈ set d k v) :
    kw = (k, v) ∨ kw ∈ d := by
  induction d with
  | nil => exact Or.inl (by simpa [set] using h)
  | cons jw d ih =>
    obtain ⟨j, w⟩ := jw
    rw [set] at h
    split_ifs at h with hj
    · rcases List.mem_cons.mp h with rfl | h
      · exact Or.inl (by rw [hj])
      · exact Or.inr (List.mem_cons_of_mem _ h)
    · rcases List.mem_cons.mp h with rfl | h
      · exact Or.inr (List.mem_cons_self ..)
      · exact (ih h).imp id (List.mem_cons_of_mem _)

theorem foldl_set_spec {P : κ × α → Prop} (ps : List (κ × α)) (hps : ∀ kv ∈ ps, P kv) :
    ∀ acc : Dict κ α, (keys acc).Nodup → (∀ kv ∈ acc, P kv) →
      (keys (ps.foldl (fun d kv => set d kv.1 kv.2) acc)).Nodup ∧
        ∀ kv ∈ ps.foldl (fun d kv => set d kv.1 kv.2) acc, P kv := by
  induction ps with
  | nil => intro acc hnd hacc; exact ⟨hnd, hacc⟩
  | cons kv ps ih =>
    intro acc hnd hacc
    refine ih (fun kw hw => hps kw (List.mem_cons_of_mem _ hw)) _ (nodup_keys_set hnd _ _) ?_
    intro kw hw
    rcases mem_set hw with rfl | hw
    · exact hps kv (List.mem_cons_self ..)
    · exact hacc kw hw

/-- A dictionary built from pairs has distinct keys and no other entries. -/
theorem ofPairs_spec {P : κ × α → Prop} {ps : List (κ × α)} (hps : ∀ kv ∈ ps, P kv) :
    (keys (ofPairs ps)).Nodup ∧ ∀ kv ∈ ofPairs ps, P kv :=
  foldl_set_spec ps hps [] List.nodup_nil (fun _ h => nomatch h)

/-! ### Looking up -/

/-- Looking a key up in a dictionary with distinct keys is membership. -/
theorem get?_eq_some_iff {d : Dict κ α} (h : (keys d).Nodup) {k : κ} {v : α} :
    get? d k = some v ↔ (k, v) ∈ d := by
  induction d with
  | nil => simp [get?]
  | cons kw d ih =>
    obtain ⟨j, w⟩ := kw
    simp only [keys, List.map_cons, List.nodup_cons] at h
    rw [get?, List.lookup_cons]
    by_cases hk : k = j
    · subst hk
      simp only [beq_self_eq_true, Option.some.injEq, List.mem_cons, Prod.mk.injEq, true_and]
      refine ⟨fun hw => Or.inl hw.symm, ?_⟩
      rintro (hv | hv)
      · exact hv.symm
      · exact absurd (List.mem_map.mpr ⟨(k, v), hv, rfl⟩) h.1
    · rw [beq_eq_false_iff_ne.mpr hk, List.mem_cons, Prod.mk.injEq]
      simp only [hk, false_and, false_or]
      exact ih h.2

theorem get?_mem {d : Dict κ α} {k : κ} {v : α} (h : get? d k = some v) : (k, v) ∈ d := by
  obtain ⟨l₁, l₂, hd, -⟩ := List.lookup_eq_some_iff.mp h
  rw [hd]
  exact List.mem_append_right _ (List.mem_cons_self ..)

/-- Lookup does not depend on the order of the keys. -/
theorem get?_perm {d d' : Dict κ α} (h : (keys d).Nodup) (hp : d'.Perm d) (k : κ) :
    get? d' k = get? d k := by
  have h' : (keys d').Nodup := (hp.map Prod.fst).nodup_iff.mpr h
  apply Option.ext
  intro v
  rw [get?_eq_some_iff h', get?_eq_some_iff h, hp.mem_iff]

/-- Lookup after an update. -/
theorem get?_set (d : Dict κ α) (k j : κ) (v : α) :
    get? (set d k v) j = if j = k then some v else get? d j := by
  induction d with
  | nil =>
    by_cases hj : j = k
    · simp [set, get?, hj]
    · simp [set, get?, hj]
  | cons iw d ih =>
    obtain ⟨i, w⟩ := iw
    rw [set]
    by_cases hi : i = k
    · subst hi
      rw [if_pos rfl, get?, get?, List.lookup_cons, List.lookup_cons]
      by_cases hj : j = i
      · rw [hj, beq_self_eq_true, if_pos rfl]
      · rw [beq_eq_false_iff_ne.mpr hj, if_neg hj]
    · rw [if_neg hi, get?, get?, List.lookup_cons, List.lookup_cons]
      by_cases hj : j = i
      · rw [hj, beq_self_eq_true, if_neg hi]
      · rw [beq_eq_false_iff_ne.mpr hj]
        exact ih

theorem setdefault_fst (d : Dict κ α) (k : κ) (v : α) :
    (setdefault d k v).1 = (get? d k).getD v := by
  unfold setdefault
  cases get? d k <;> rfl

theorem get?_setdefault (d : Dict κ α) (k j : κ) (v : α) :
    get? (setdefault d k v).2 j = if j = k then some ((get? d k).getD v) else get? d j := by
  unfold setdefault
  cases hk : get? d k with
  | none => exact get?_set d k j v
  | some w =>
    by_cases hj : j = k
    · rw [if_pos hj, hj, hk]
      rfl
    · rw [if_neg hj]

theorem mem_keys_iff {d : Dict κ α} {k : κ} : k ∈ keys d ↔ ∃ v, get? d k = some v := by
  induction d with
  | nil => simp [keys, get?]
  | cons jw d ih =>
    obtain ⟨j, w⟩ := jw
    rw [keys, List.map_cons, List.mem_cons, get?, List.lookup_cons]
    by_cases hk : k = j
    · rw [hk, beq_self_eq_true]
      exact ⟨fun _ => ⟨w, rfl⟩, fun _ => Or.inl rfl⟩
    · rw [beq_eq_false_iff_ne.mpr hk]
      exact ⟨fun h => ih.mp (h.resolve_left hk), fun h => Or.inr (ih.mpr h)⟩

theorem get?_map (f : α → β) (d : Dict κ α) (k : κ) :
    get? (d.map fun kv => (kv.1, f kv.2)) k = (get? d k).map f := by
  induction d with
  | nil => rfl
  | cons kw d ih =>
    obtain ⟨j, w⟩ := kw
    rw [List.map_cons, get?, get?, List.lookup_cons, List.lookup_cons]
    by_cases hk : k = j
    · rw [hk, beq_self_eq_true]
      rfl
    · rw [beq_eq_false_iff_ne.mpr hk]
      exact ih

theorem map_set (f : α → β) (d : Dict κ α) (k : κ) (v : α) :
    (set d k v).map (fun kv => (kv.1, f kv.2)) =
      set (d.map fun kv => (kv.1, f kv.2)) k (f v) := by
  induction d with
  | nil => rfl
  | cons kw d ih =>
    obtain ⟨j, w⟩ := kw
    rw [set, List.map_cons, set]
    split_ifs
    · rfl
    · rw [List.map_cons, ih]

/-- Setting a key to the value that it has. -/
theorem set_eq_self_iff {d : Dict κ α} {k : κ} {v : α} : set d k v = d ↔ get? d k = some v := by
  induction d with
  | nil =>
    rw [set]
    exact iff_of_false (List.cons_ne_nil _ _) (Option.some_ne_none v).symm
  | cons kw d ih =>
    obtain ⟨j, w⟩ := kw
    rw [set, get?, List.lookup_cons]
    by_cases hj : j = k
    · rw [if_pos hj, hj, beq_self_eq_true, List.cons.injEq, Prod.mk.injEq, Option.some.injEq]
      constructor
      · rintro ⟨⟨-, rfl⟩, -⟩
        rfl
      · rintro rfl
        exact ⟨⟨rfl, rfl⟩, rfl⟩
    · rw [if_neg hj, beq_eq_false_iff_ne.mpr (Ne.symm hj), List.cons.injEq]
      exact (and_iff_right rfl).trans ih

/-- The last pair with a key is the one that is looked up. -/
theorem get?_ofPairs (ps : List (κ × α)) (k : κ) : get? (ofPairs ps) k = get? ps.reverse k := by
  have hfold : ∀ acc : Dict κ α, get? (ps.foldl (fun d kv => set d kv.1 kv.2) acc) k
      = (get? ps.reverse k).or (get? acc k) := by
    induction ps with
    | nil => intro acc; rfl
    | cons kv ps ih =>
      intro acc
      have hrev : get? (kv :: ps).reverse k = (get? ps.reverse k).or (get? [kv] k) := by
        rw [List.reverse_cons, get?, List.lookup_append]
        rfl
      have hlast : (get? [kv] k).or (get? acc k) = get? (set acc kv.1 kv.2) k := by
        rw [get?_set, get?, List.lookup_cons]
        by_cases hk : k = kv.1
        · simp [hk]
        · rw [if_neg hk, beq_false_of_ne hk]
          rfl
      rw [List.foldl_cons, ih, hrev, Option.or_assoc, hlast]
  have h := hfold []
  rwa [show get? ([] : Dict κ α) k = none from rfl, Option.or_none] at h

/-- Looking up in a dictionary that was made from a list of values with their keys. -/
theorem get?_map_key (key : α → κ) (f : α → β) (l : List α) (k : κ) :
    get? (l.map fun a => (key a, f a)) k = (l.find? fun a => key a = k).map f := by
  induction l with
  | nil => rfl
  | cons a l ih =>
    rw [List.map_cons, get?, List.lookup_cons, List.find?_cons]
    by_cases hk : key a = k
    · simp [hk]
    · rw [beq_false_of_ne (Ne.symm hk), decide_eq_false hk]
      exact ih

end Dict

end P4
