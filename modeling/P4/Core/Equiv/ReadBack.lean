/-
  Values without numbers pass through the crates unchanged.

  `serde_json` and JCS change nothing but numbers and the order of members, so a number-free
  value is read back as its canonical form (`readBack_of_numberFree`), and no value with a
  number is taken for one without (`numberFree_of_readBack`, `numberFree_of_doubleForm_eq`).
-/
import P4.Core.Laws
import P4.Core.Equiv.Envelope
import P4.Json.Equiv.Loads

namespace P4

namespace Json

open Dict

variable {F : Type}

/-! ### Leaves -/

theorem mapLeaves_arr (f : Json F → Json F) (l : List (Json F)) :
    mapLeaves f (.arr l) = .arr (l.map (mapLeaves f)) := by
  have h : ∀ l : List (Json F), mapLeavesList f l = l.map (mapLeaves f) := by
    intro l
    induction l with
    | nil => rfl
    | cons v l ih => rw [mapLeavesList, ih, List.map_cons]
  rw [mapLeaves, h]

theorem mapLeaves_obj (f : Json F → Json F) (m : Members F) :
    mapLeaves f (.obj m) = .obj (m.map fun kv => (kv.1, mapLeaves f kv.2)) := by
  have h : ∀ m : Members F, mapLeavesMembers f m = m.map fun kv => (kv.1, mapLeaves f kv.2) := by
    intro m
    induction m with
    | nil => rfl
    | cons kv m ih => rw [mapLeavesMembers, ih, List.map_cons]
  rw [mapLeaves, h]

theorem numberFree_arr {l : List (Json F)} :
    numberFree (.arr l) = true ↔ ∀ v ∈ l, numberFree v = true := by
  rw [numberFree, allNodes_arr]
  exact and_iff_right rfl

theorem numberFree_obj {m : Members F} :
    numberFree (.obj m) = true ↔ ∀ kv ∈ m, numberFree kv.2 = true := by
  rw [numberFree, allNodes_obj]
  exact and_iff_right rfl

/-- The order of members does not matter for a test of the leaves. -/
theorem allNodes_canon {p : Json F → Bool} (harr : ∀ l, p (.arr l) = true)
    (hobj : ∀ m, p (.obj m) = true) (v : Json F) :
    v.canon.allNodes p = true ↔ v.allNodes p = true := by
  induction v using Json.induction with
  | arr l ih =>
    rw [canon_arr, allNodes_arr, allNodes_arr]
    constructor
    · rintro ⟨-, h⟩
      exact ⟨harr l, fun v hv => (ih v hv).mp (h _ (List.mem_map_of_mem hv))⟩
    · rintro ⟨-, h⟩
      refine ⟨harr _, fun w hw => ?_⟩
      obtain ⟨v, hv, rfl⟩ := List.mem_map.mp hw
      exact (ih v hv).mpr (h v hv)
  | obj m ih =>
    rw [canon_obj, allNodes_obj, allNodes_obj]
    constructor
    · rintro ⟨-, h⟩
      refine ⟨hobj m, fun kv hkv => ?_⟩
      have hmem : (kv.1, kv.2.canon) ∈ sortMembers (m.map fun kv => (kv.1, kv.2.canon)) :=
        mem_sortMembers.mpr (List.mem_map.mpr ⟨kv, hkv, rfl⟩)
      exact (ih kv hkv).mp (h _ hmem)
    · rintro ⟨-, h⟩
      refine ⟨hobj _, fun kw hkw => ?_⟩
      obtain ⟨kv, hkv, rfl⟩ := List.mem_map.mp (mem_sortMembers.mp hkw)
      exact (ih kv hkv).mpr (h kv hkv)
  | _ => exact Iff.rfl

theorem numberFree_canon (v : Json F) : v.canon.numberFree = true ↔ v.numberFree = true :=
  allNodes_canon (fun _ => rfl) (fun _ => rfl) v

/-- An integer or a double. -/
def isNumeral : Json F → Bool
  | .int _ => true
  | .float _ => true
  | _ => false

theorem numberFree_of_isNumeral {v : Json F} (h : v.isNumeral = true) : v.numberFree = false := by
  cases v <;> first | rfl | cases h

/-- A leaf rewriting that keeps numbers numbers and everything else as it is. -/
structure NumberMap (f : Json F → Json F) : Prop where
  int : ∀ i, (f (.int i)).isNumeral = true
  float : ∀ x, (f (.float x)).isNumeral = true
  null : f .null = .null
  bool : ∀ b, f (.bool b) = .bool b
  str : ∀ s, f (.str s) = .str s

variable {f : Json F → Json F}

theorem numberFree_mapLeaves (hf : NumberMap f) (v : Json F) :
    (v.mapLeaves f).numberFree = true ↔ v.numberFree = true := by
  induction v using Json.induction with
  | null =>
    -- the other leaves stay, a number becomes a number
    show (f .null).numberFree = true ↔ _
    rw [hf.null]
  | bool b =>
    show (f (.bool b)).numberFree = true ↔ _
    rw [hf.bool]
  | str s =>
    show (f (.str s)).numberFree = true ↔ _
    rw [hf.str]
  | int i =>
    show (f (.int i)).numberFree = true ↔ _
    rw [numberFree_of_isNumeral (hf.int i)]
    exact Iff.rfl
  | float x =>
    show (f (.float x)).numberFree = true ↔ _
    rw [numberFree_of_isNumeral (hf.float x)]
    exact Iff.rfl
  | arr l ih =>
    rw [mapLeaves_arr, numberFree_arr, numberFree_arr]
    constructor
    · intro h v hv
      exact (ih v hv).mp (h _ (List.mem_map_of_mem hv))
    · intro h w hw
      obtain ⟨v, hv, rfl⟩ := List.mem_map.mp hw
      exact (ih v hv).mpr (h v hv)
  | obj m ih =>
    rw [mapLeaves_obj, numberFree_obj, numberFree_obj]
    constructor
    · intro h kv hkv
      exact (ih kv hkv).mp (h _ (List.mem_map.mpr ⟨kv, hkv, rfl⟩))
    · intro h kw hkw
      obtain ⟨kv, hkv, rfl⟩ := List.mem_map.mp hkw
      exact (ih kv hkv).mpr (h kv hkv)

/-- Without numbers there is nothing to round. -/
theorem mapLeaves_of_numberFree (hf : NumberMap f) {v : Json F} :
    v.numberFree = true → v.mapLeaves f = v := by
  induction v using Json.induction with
  | null => exact fun _ => hf.null
  | bool b => exact fun _ => hf.bool b
  | str s => exact fun _ => hf.str s
  | int i => exact fun h => nomatch h
  | float x => exact fun h => nomatch h
  | arr l ih =>
    rw [numberFree_arr, mapLeaves_arr]
    intro h
    have hl : l.map (mapLeaves f) = l.map id := List.map_congr_left fun v hv => ih v hv (h v hv)
    rw [hl, List.map_id]
  | obj m ih =>
    rw [numberFree_obj, mapLeaves_obj]
    intro h
    have hm : (m.map fun kv => (kv.1, mapLeaves f kv.2)) = m.map id :=
      List.map_congr_left fun kv hkv => Prod.ext rfl (ih kv hkv (h kv hkv))
    rw [hm, List.map_id]

/-! ### Reading and canonicalising -/

variable [Float64 F]

theorem numberMap_serdeLeaf : NumberMap (F := F) serdeLeaf := by
  constructor
  · intro i
    rw [serdeLeaf]
    split_ifs
    · rfl
    · split <;> rfl
  · exact fun _ => rfl
  · rfl
  · exact fun _ => rfl
  · exact fun _ => rfl

theorem numberMap_doubleLeaf : NumberMap (F := F) doubleLeaf := by
  constructor
  · exact fun _ => rfl
  · intro x
    rw [doubleLeaf]
    split <;> rfl
  · rfl
  · exact fun _ => rfl
  · exact fun _ => rfl

theorem readBack_eq_some {v w : Json F} (h : v.readBack = some w) :
    w = (v.mapLeaves serdeLeaf).canon := by
  rw [readBack] at h
  split_ifs at h
  exact (Option.some.inj h).symm

theorem numberFree_of_readBack {v w : Json F} (h : v.readBack = some w) :
    w.numberFree = true ↔ v.numberFree = true := by
  rw [readBack_eq_some h, numberFree_canon, numberFree_mapLeaves numberMap_serdeLeaf]

/-- A value without numbers is read as it is, in key order. -/
theorem readBack_of_numberFree {v w : Json F} (hv : v.numberFree = true)
    (h : v.readBack = some w) : w = v.canon := by
  rw [readBack_eq_some h, mapLeaves_of_numberFree numberMap_serdeLeaf hv]

theorem serdeNodes_canon {v : Json F} :
    v.allNodes serdeNode = true → v.canon.allNodes serdeNode = true := by
  induction v using Json.induction with
  | arr l ih =>
    rw [canon_arr, allNodes_arr, allNodes_arr]
    rintro ⟨-, h⟩
    refine ⟨rfl, fun w hw => ?_⟩
    obtain ⟨v, hv, rfl⟩ := List.mem_map.mp hw
    exact ih v hv (h v hv)
  | obj m ih =>
    rw [canon_obj, allNodes_obj, allNodes_obj]
    rintro ⟨hk, h⟩
    have hkeys := keys_sortMembers_perm (m.map fun kv => (kv.1, kv.2.canon))
    rw [keys_map_canon] at hkeys
    refine ⟨?_, fun kw hkw => ?_⟩
    · have hk' : (keys m).all Str.isScalar = true := hk
      show (keys (sortMembers _)).all Str.isScalar = true
      rw [List.all_eq_true] at hk' ⊢
      exact fun k hk => hk' k (hkeys.mem_iff.mp hk)
    · obtain ⟨kv, hkv, rfl⟩ := List.mem_map.mp (mem_sortMembers.mp hkw)
      exact ih kv hkv (h kv hkv)
  | _ => exact id

/-- What was read of a value without numbers is read again as it is. -/
theorem readBack_readBack {v w : Json F} (hv : v.numberFree = true)
    (h : v.readBack = some w) : w.readBack = some w := by
  have hw := readBack_of_numberFree hv h
  have hfree : w.numberFree = true := (numberFree_of_readBack h).mpr hv
  have hnodes : v.allNodes serdeNode = true := by
    rw [readBack] at h
    split_ifs at h with hn
    exact hn
  have hcanon : w.canon = w := by rw [hw, canon_canon]
  have hserde : w.allNodes serdeNode = true := by
    rw [hw]
    exact serdeNodes_canon hnodes
  rw [readBack, if_pos hserde, mapLeaves_of_numberFree numberMap_serdeLeaf hfree, hcanon]

/-- Integers within 64 bits are read as they are. -/
theorem serdeLeaf_of_integral {v : Json F} :
    v.integral = true → v.mapLeaves serdeLeaf = v := by
  induction v using Json.induction with
  | null => exact fun _ => rfl
  | bool b => exact fun _ => rfl
  | int i =>
    intro h
    have h' : fits64 i = true := h
    show serdeLeaf (.int i) = _
    rw [serdeLeaf, if_pos h']
  | float f => exact fun h => nomatch h
  | str s => exact fun _ => rfl
  | arr l ih =>
    rw [integral, allNodes_arr, mapLeaves_arr]
    rintro ⟨-, h⟩
    rw [List.map_congr_left fun w hw => ih w hw (h w hw), List.map_id']
  | obj m ih =>
    rw [integral, allNodes_obj, mapLeaves_obj]
    rintro ⟨-, h⟩
    have hmap : m.map (fun kv => (kv.1, kv.2.mapLeaves serdeLeaf)) = m.map id :=
      List.map_congr_left fun kv hkv => by rw [ih kv hkv (h kv hkv)]; rfl
    rw [hmap, List.map_id]

theorem serdeNodes_mapLeaves {v : Json F} : v.allNodes serdeNode = true →
    (v.mapLeaves serdeLeaf).integral = true →
      (v.mapLeaves serdeLeaf).allNodes serdeNode = true := by
  induction v using Json.induction with
  | int i =>
    intro h hint
    have h' : (fits64 i || (Float64.ofInt? (F := F) i).isSome) = true := h
    show (serdeLeaf (.int i : Json F)).allNodes serdeNode = true
    have hint' : (serdeLeaf (.int i : Json F)).integral = true := hint
    rw [serdeLeaf] at hint' ⊢
    -- an integer beyond 64 bits would have become a float
    split_ifs at hint' ⊢ with hfits
    · exact h
    · split at hint'
      · cases hint'
      · rename_i hnone
        rw [hnone, Option.isSome_none, Bool.or_false] at h'
        exact absurd h' hfits
  | arr l ih =>
    rw [mapLeaves_arr, integral, allNodes_arr, allNodes_arr, allNodes_arr]
    rintro ⟨-, h⟩ ⟨-, hint⟩
    refine ⟨rfl, fun w hw => ?_⟩
    obtain ⟨v, hv, rfl⟩ := List.mem_map.mp hw
    exact ih v hv (h v hv) (hint _ hw)
  | obj m ih =>
    rw [mapLeaves_obj, integral, allNodes_obj, allNodes_obj, allNodes_obj]
    rintro ⟨hk, h⟩ ⟨-, hint⟩
    refine ⟨?_, fun kw hkw => ?_⟩
    · have hkeys : keys (m.map fun kv => (kv.1, kv.2.mapLeaves serdeLeaf)) = keys m := by
        rw [keys, keys, List.map_map]
        rfl
      show (keys (m.map fun kv => (kv.1, kv.2.mapLeaves serdeLeaf))).all Str.isScalar = true
      rw [hkeys]
      exact hk
    · obtain ⟨kv, hkv, rfl⟩ := List.mem_map.mp hkw
      exact ih kv hkv (h kv hkv) (hint _ hkw)
  | _ => exact fun h _ => h

/-- What was read of a value whose numbers are integers is read again as it is. -/
theorem readBack_of_integral {v w : Json F} (h : v.readBack = some w)
    (hw : w.integral = true) : w.readBack = some w := by
  have hnodes : v.allNodes serdeNode = true := by
    rw [readBack] at h
    split_ifs at h with hn
    exact hn
  have hw' := readBack_eq_some h
  have hint : (v.mapLeaves serdeLeaf).integral = true := by
    rw [hw'] at hw
    exact (allNodes_canon (fun _ => rfl) (fun _ => rfl) _).mp hw
  have hserde : w.allNodes serdeNode = true := by
    rw [hw']
    exact serdeNodes_canon (serdeNodes_mapLeaves hnodes hint)
  have hcanon : w.canon = w := by rw [hw', canon_canon]
  rw [readBack, if_pos hserde, serdeLeaf_of_integral hw, hcanon]

/-- `serde_json` reads values that can be written and read again. -/
theorem wellFormed_mapLeaves_serdeLeaf {v : Json F} :
    v.wellFormed = true → (v.mapLeaves serdeLeaf).wellFormed = true := by
  induction v using Json.induction with
  | null => exact id
  | bool b => exact id
  | str s => exact id
  | float x => exact id
  | int i =>
    intro _
    show (serdeLeaf (.int i)).wellFormed = true
    -- an integer or a float, both of which are well formed
    rw [serdeLeaf]
    split_ifs
    · rfl
    · split <;> rfl
  | arr l ih =>
    rw [mapLeaves_arr, wellFormed_arr, wellFormed_arr]
    intro h w hw
    obtain ⟨v, hv, rfl⟩ := List.mem_map.mp hw
    exact ih v hv (h v hv)
  | obj m ih =>
    have hkeys : keys (m.map fun kv => (kv.1, mapLeaves serdeLeaf kv.2)) = keys m := by
      rw [keys, keys, List.map_map]
      rfl
    rw [mapLeaves_obj, wellFormed_obj, wellFormed_obj, hkeys]
    rintro ⟨hnd, hk, hv⟩
    refine ⟨hnd, hk, ?_⟩
    intro kw hkw
    obtain ⟨kv, hkv, rfl⟩ := List.mem_map.mp hkw
    exact ih kv hkv (hv kv hkv)

theorem wellFormed_of_readBack {v w : Json F} (hv : v.wellFormed = true)
    (h : v.readBack = some w) : w.wellFormed = true := by
  rw [readBack_eq_some h]
  exact wellFormed_canon (wellFormed_mapLeaves_serdeLeaf hv)

omit [Float64 F] in
/-- A change of numbers does not depend on the order of members. -/
theorem canon_mapLeaves {f : Json F → Json F} (hf : NumberMap f) (v : Json F) :
    (v.mapLeaves f).canon = v.canon.mapLeaves f := by
  have hnumeral : ∀ w : Json F, w.isNumeral = true → w.canon = w := by
    intro w hw
    cases w with
    | int i => rfl
    | float x => rfl
    | null | bool b | str s | arr l | obj m => cases hw
  induction v using Json.induction with
  | null =>
    show (f .null).canon = f .null
    rw [hf.null]
    rfl
  | bool b =>
    show (f (.bool b)).canon = f (.bool b)
    rw [hf.bool]
    rfl
  | str s =>
    show (f (.str s)).canon = f (.str s)
    rw [hf.str]
    rfl
  | int i => exact hnumeral _ (hf.int i)
  | float x => exact hnumeral _ (hf.float x)
  | arr l ih =>
    rw [mapLeaves_arr, canon_arr, canon_arr, mapLeaves_arr, List.map_map, List.map_map]
    exact congrArg _ (List.map_congr_left fun v hv => ih v hv)
  | obj m ih =>
    rw [mapLeaves_obj, canon_obj, canon_obj, mapLeaves_obj, List.map_map, ← sortMembers_map,
      List.map_map]
    -- the keys stay, so the members are sorted in the same order
    refine congrArg (fun m => Json.obj (sortMembers m)) (List.map_congr_left fun kv hkv => ?_)
    show (kv.1, (mapLeaves f kv.2).canon) = (kv.1, mapLeaves f kv.2.canon)
    rw [ih kv hkv]

/-- Rounding turns no number into something else. -/
theorem numberFree_of_doubleForm_eq {v w : Json F} (h : v.doubleForm = w.doubleForm)
    (hv : v.numberFree = true) : w.numberFree = true := by
  have hw : w.doubleForm.numberFree = true := by
    rw [← h, doubleForm, numberFree_canon, numberFree_mapLeaves numberMap_doubleLeaf]
    exact hv
  rwa [doubleForm, numberFree_canon, numberFree_mapLeaves numberMap_doubleLeaf] at hw

end Json

/-- The dictionary of an envelope that can be read is written and read back unchanged. -/
theorem wellFormed_toDict {F : Type} [Float64 F] {env : Envelope F} (h : Readable env) :
    (Json.obj env.toDict).wellFormed = true := by
  obtain ⟨v, hv, hread⟩ := h.payload
  have hpayload := Json.wellFormed_of_readBack hv hread
  have hstr : ∀ {s : Str}, s.isScalar = true → (Json.str s : Json F).wellFormed = true :=
    fun hs => Json.normal_of_isScalar hs
  rw [Json.wellFormed_obj]
  refine ⟨nodup_keys_toDict env, ?_, ?_⟩
  · exact fun k hk => Json.normal_of_isScalar (isScalar_keys_toDict env k hk)
  · intro kv hkv
    simp only [Envelope.toDict, List.mem_cons, List.not_mem_nil, or_false] at hkv
    rcases hkv with rfl | rfl | rfl | rfl | rfl | rfl | rfl
    · rfl
    · exact hstr h.sender
    · exact hstr h.recipient
    · rfl
    · exact hstr h.nonce
    · exact hpayload
    · exact hstr h.signature

end P4
