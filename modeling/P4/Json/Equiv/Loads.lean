/-
  Two facts about JSON text that hold for every value.

  * `loads_wellFormed`: what is read from text has distinct keys and normal strings, so it is
    printed and read back unchanged;
  * `print_inStyle`: printed text consists of printable ASCII characters and the white space
    of its style, so a one-line style prints no line break and no NUL.
-/
import P4.Json.Equiv.RoundTrip

namespace P4.Json

open Dict

/-! ### Surrogates -/

theorem units_ofNat_of_lt {u : Nat} (hu : u < 0x10000) : units (Fin.ofNat 0x110000 u) = [u] := by
  have hv : (Fin.ofNat 0x110000 u).val = u := Nat.mod_eq_of_lt (by omega)
  rw [units, hv, if_pos hu]

theorem units_ofNat_of_ge {u : Nat} (h : 0x10000 ≤ u) (hu : u < 0x110000) :
    units (Fin.ofNat 0x110000 u)
      = [0xD800 + (u - 0x10000) / 0x400, 0xDC00 + (u - 0x10000) % 0x400] := by
  have hv : (Fin.ofNat 0x110000 u).val = u := Nat.mod_eq_of_lt hu
  rw [units, hv, if_neg (by omega)]

/-- Joining the two units of a code point outside the basic plane. -/
theorem joinUnits_pair {u : Nat} (h : 0x10000 ≤ u) (hu : u < 0x110000) (us : List Nat) :
    joinUnits ((0xD800 + (u - 0x10000) / 0x400) :: (0xDC00 + (u - 0x10000) % 0x400) :: us)
      = Fin.ofNat 0x110000 u :: joinUnits us := by
  have hmod := Nat.mod_lt (u - 0x10000) (show 0 < 0x400 by decide)
  have hval : 0x10000 + (0xD800 + (u - 0x10000) / 0x400 - 0xD800) * 0x400
      + (0xDC00 + (u - 0x10000) % 0x400 - 0xDC00) = u := by omega
  rw [joinUnits, if_pos (by omega), hval]

/-- The first unit of a joined string is the first unit itself or a high surrogate. -/
theorem head_joinUnits (l : Nat) (us : List Nat) (hl : l < 0x110000) :
    ∃ x r, (joinUnits (l :: us)).flatMap units = x :: r ∧
      (x = l ∨ (0xD800 ≤ x ∧ x < 0xDC00)) := by
  have hsingle : ∀ t : Str, ∃ x r, (Fin.ofNat 0x110000 l :: t).flatMap units = x :: r ∧
      (x = l ∨ (0xD800 ≤ x ∧ x < 0xDC00)) := by
    intro t
    rw [List.flatMap_cons]
    by_cases h : l < 0x10000
    · rw [units_ofNat_of_lt h]
      exact ⟨l, _, rfl, Or.inl rfl⟩
    · rw [units_ofNat_of_ge (by omega) hl]
      exact ⟨_, _, rfl, Or.inr (by omega)⟩
  cases us with
  | nil => exact hsingle []
  | cons k us =>
    rw [joinUnits]
    split_ifs with hp
    · rw [List.flatMap_cons, units_ofNat_of_ge (by omega) (by omega)]
      exact ⟨_, _, rfl, Or.inr (by omega)⟩
    · exact hsingle _

/-- Joining surrogates does not change the code units. -/
theorem units_joinUnits {us : List Nat} (hus : ∀ u ∈ us, u < 0x10000) :
    (joinUnits us).flatMap units = us := by
  induction us using joinUnits.induct with
  | case1 h l us hp ih =>
    have hrest := ih fun u hu => hus u (List.mem_cons_of_mem _ (List.mem_cons_of_mem _ hu))
    rw [joinUnits, if_pos hp, List.flatMap_cons, units_ofNat_of_ge (by omega) (by omega), hrest]
    have h₁ : 0xD800 + (0x10000 + (h - 0xD800) * 0x400 + (l - 0xDC00) - 0x10000) / 0x400 = h := by
      omega
    have h₂ : 0xDC00 + (0x10000 + (h - 0xD800) * 0x400 + (l - 0xDC00) - 0x10000) % 0x400 = l := by
      omega
    rw [h₁, h₂]
    rfl
  | case2 h l us hp ih =>
    have hrest := ih fun u hu => hus u (List.mem_cons_of_mem _ hu)
    rw [joinUnits, if_neg hp, List.flatMap_cons, units_ofNat_of_lt (hus h (List.mem_cons_self ..)),
      hrest]
    rfl
  | case3 u =>
    rw [joinUnits, List.flatMap_singleton, units_ofNat_of_lt (hus u (List.mem_cons_self ..))]
  | case4 => rfl

/-- Every string is printed like one that text can be read as. -/
theorem printStr_normal (s : Str) : ∃ t, normal t = true ∧ printStr t = printStr s := by
  have hus : ∀ u ∈ s.flatMap units, u < 0x10000 := by
    intro u hu
    obtain ⟨c, -, hc⟩ := List.mem_flatMap.mp hu
    exact units_lt c u hc
  refine ⟨joinUnits (s.flatMap units), ?_, ?_⟩
  · rw [normal, units_joinUnits hus, beq_self_eq_true]
  · rw [printStr, units_joinUnits hus]
    rfl

/-- What is joined from UTF-16 units has no pair of surrogates left. -/
theorem normal_joinUnits (us : List Nat) (hus : ∀ u ∈ us, u < 0x110000) :
    joinUnits ((joinUnits us).flatMap units) = joinUnits us := by
  induction us using joinUnits.induct with
  | case1 h l us hp ih =>
    -- a joined pair is split into the same two units again
    rw [joinUnits, if_pos hp, List.flatMap_cons, units_ofNat_of_ge (by omega) (by omega),
      List.cons_append, List.cons_append, List.nil_append, joinUnits_pair (by omega) (by omega),
      ih (fun u hu => hus u (by simp [hu]))]
  | case2 h l us hp ih =>
    have hl := hus l (by simp)
    have hh := hus h (by simp)
    have ih' := ih (fun u hu => hus u (List.mem_cons_of_mem _ hu))
    rw [joinUnits, if_neg hp, List.flatMap_cons]
    by_cases hlt : h < 0x10000
    · obtain ⟨x, r, hx, hcase⟩ := head_joinUnits l us hl
      rw [units_ofNat_of_lt hlt, List.singleton_append, hx, joinUnits, ← hx, ih']
      rw [if_neg]
      rintro ⟨h1, h2, h3, h4⟩
      rcases hcase with rfl | hc
      · exact hp ⟨h1, h2, h3, h4⟩
      · omega
    · rw [units_ofNat_of_ge (by omega) hh, List.cons_append, List.cons_append, List.nil_append,
        joinUnits_pair (by omega) hh, ih']
  | case3 u =>
    have hu := hus u (by simp)
    rw [joinUnits, List.flatMap_cons, List.flatMap_nil, List.append_nil]
    by_cases hlt : u < 0x10000
    · rw [units_ofNat_of_lt hlt, joinUnits]
    · rw [units_ofNat_of_ge (by omega) hu, joinUnits_pair (by omega) hu, joinUnits]
  | case4 => rfl

/-- Text has no surrogates to be joined. -/
theorem normal_of_isScalar {s : Str} (hs : s.isScalar = true) : normal s = true := by
  show (joinUnits (s.flatMap units) == s) = true
  rw [beq_iff_eq]
  induction s with
  | nil => rfl
  | cons c s ih =>
    rw [Str.isScalar, List.all_cons, Bool.and_eq_true] at hs
    have hc : ¬(0xD800 ≤ c.val ∧ c.val < 0xE000) := by
      have := hs.1
      simp only [Str.isSurrogate, Bool.not_eq_true', Bool.and_eq_false_iff,
        decide_eq_false_iff_not] at this
      omega
    have hofNat : Fin.ofNat 0x110000 c.val = c := Fin.ext (Nat.mod_eq_of_lt c.isLt)
    have hrest := ih hs.2
    rw [List.flatMap_cons, units]
    split_ifs with hlt
    · rw [List.singleton_append]
      cases hus : s.flatMap units with
      | nil =>
        rw [hus] at hrest
        rw [joinUnits, hofNat, ← hrest]
        rfl
      | cons l us =>
        rw [hus] at hrest
        rw [joinUnits, if_neg (by omega), hofNat, hrest]
    · rw [List.cons_append, List.cons_append, List.nil_append,
        joinUnits_pair (by omega) c.isLt, hrest, hofNat]

/-! ### What is read is well formed -/

theorem hexVal_lt {c : Char} {n : Nat} (h : hexVal c = some n) : n < 16 := by
  unfold hexVal at h
  split_ifs at h with h1 h2 h3
  · have := h1.2
    rw [Char.le_def, UInt32.le_iff_toNat_le] at this
    change c.toNat ≤ 57 at this
    rw [Option.some.injEq] at h; omega
  · have := h2.2
    rw [Char.le_def, UInt32.le_iff_toNat_le] at this
    change c.toNat ≤ 102 at this
    rw [Option.some.injEq] at h; omega
  · have := h3.2
    rw [Char.le_def, UInt32.le_iff_toNat_le] at this
    change c.toNat ≤ 70 at this
    rw [Option.some.injEq] at h; omega

theorem hex4_lt {a b c d : Char} {u : Nat} (h : hex4 a b c d = some u) : u < 0x110000 := by
  unfold hex4 at h
  split at h
  · rename_i hw hx hy hz
    rw [Option.some.injEq] at h
    have := hexVal_lt hw
    have := hexVal_lt hx
    have := hexVal_lt hy
    have := hexVal_lt hz
    omega
  · cases h

theorem shortEscape_lt {c : Char} {u : Nat} (h : shortEscape c = some u) : u < 0x110000 := by
  unfold shortEscape at h
  split_ifs at h <;> (rw [Option.some.injEq] at h; omega)

theorem toNat_lt (c : Char) : c.toNat < 0x110000 := by
  have h := c.valid
  simp only [UInt32.isValidChar, Nat.isValidChar] at h
  change c.val.toNat < _
  omega

theorem parseUnits_lt {t : Text} :
    ∀ {us : List Nat} {r : Text}, parseUnits t = some (us, r) → ∀ u ∈ us, u < 0x110000 := by
  induction t using parseUnits.induct with
  | case1 t =>
    intro us r h
    rw [parseUnits, Option.some.injEq, Prod.mk.injEq] at h
    rw [← h.1]
    intro u hu
    cases hu
  | case2 a b c d t u us r hp hx ih =>
    -- `\uXXXX`
    intro us' r' h
    rw [parseUnits, hx, hp, Option.some.injEq, Prod.mk.injEq] at h
    rw [← h.1]
    intro v hv
    rcases List.mem_cons.mp hv with rfl | hv
    · exact hex4_lt hx
    · exact ih hp v hv
  | case3 a b c d t hx ih =>
    intro us r h
    rw [parseUnits] at h
    split at h
    · rename_i h1 h2
      exact absurd h2 (hx _ _ _ h1)
    · cases h
  | case4 e t hne u us r hp hx ih =>
    -- a short escape
    intro us' r' h
    rw [parseUnits, hx, hp, Option.some.injEq, Prod.mk.injEq] at h
    · rw [← h.1]
      intro v hv
      rcases List.mem_cons.mp hv with rfl | hv
      · exact shortEscape_lt hx
      · exact ih hp v hv
    · exact hne
  | case5 e t hne hx ih =>
    intro us r h
    rw [parseUnits] at h
    · split at h
      · rename_i h1 h2
        exact absurd h2 (hx _ _ _ h1)
      · cases h
    · exact hne
  | case6 c t hq hu he hc =>
    intro us r h
    rw [parseUnits, if_pos hc] at h
    · cases h
    · exact hq
    · exact hu
    · exact he
  | case7 c t hq hu he hc ih =>
    -- a character that stands for itself
    intro us r h
    rw [parseUnits, if_neg hc, Option.map_eq_some_iff] at h
    · obtain ⟨⟨us', r'⟩, hp, he'⟩ := h
      rw [Prod.mk.injEq] at he'
      rw [← he'.1]
      intro v hv
      rcases List.mem_cons.mp hv with rfl | hv
      · exact toNat_lt c
      · exact ih hp v hv
    · exact hq
    · exact hu
    · exact he
  | case8 => intro us r h; cases h

/-- A string that was parsed is normal. -/
theorem parseStr_normal {t : Text} {s : Str} {r : Text} (h : parseStr t = some (s, r)) :
    normal s = true := by
  rw [parseStr, Option.map_eq_some_iff] at h
  obtain ⟨⟨us, r'⟩, hp, he⟩ := h
  rw [Prod.mk.injEq] at he
  rw [← he.1, normal, beq_iff_eq]
  exact normal_joinUnits us (parseUnits_lt hp)

section

variable {F : Type} [JsonFloat F]

theorem wordVal_wellFormed {t : Text} {v : Json F} (h : wordVal t = some v) :
    wellFormed v = true := by
  unfold wordVal at h
  cases hi : intTok t with
  | some i =>
    rw [hi] at h
    split_ifs at h <;> (cases h; rfl)
  | none =>
    rw [hi] at h
    split_ifs at h
    · cases h; rfl
    · cases h; rfl
    · cases h; rfl
    · rw [Option.map_eq_some_iff] at h
      obtain ⟨f, -, rfl⟩ := h
      rfl

/-- One induction on the fuel for the three functions of the parser. -/
theorem parse_wellFormed (fuel : Nat) :
    (∀ t v r, parseValue fuel t = some (v, r) → wellFormed (F := F) v = true) ∧
    (∀ t l r, parseElems fuel t = some (l, r) → ∀ v ∈ l, wellFormed (F := F) v = true) ∧
    (∀ t m r, parseMembers fuel t = some (m, r) →
      ∀ kv ∈ m, normal kv.1 = true ∧ wellFormed (F := F) kv.2 = true) := by
  induction fuel with
  | zero =>
    refine ⟨?_, ?_, ?_⟩
    · intro t v r h; rw [parseValue] at h; cases h
    · intro t l r h; rw [parseElems] at h; cases h
    · intro t m r h; rw [parseMembers] at h
      · cases h
      · intro _ _ h0; cases h0
  | succ fuel ih =>
    obtain ⟨ihv, ihe, ihm⟩ := ih
    refine ⟨?_, ?_, ?_⟩
    · intro t v r h
      unfold parseValue at h
      split at h
      · cases ‹_ = 0›
      · rw [Option.map_eq_some_iff] at h
        obtain ⟨⟨s, r'⟩, hp, he⟩ := h
        cases he
        -- a string
        exact parseStr_normal hp
      · split at h
        · cases h; rfl
        · rw [Option.map_eq_some_iff] at h
          obtain ⟨⟨l, r'⟩, hp, he⟩ := h
          cases he
          cases ‹_ + 1 = _ + 1›
          -- an array with elements
          exact wellFormed_arr.mpr (ihe _ _ _ hp)
      · split at h
        · cases h; rfl
        · rw [Option.map_eq_some_iff] at h
          obtain ⟨⟨m, r'⟩, hp, he⟩ := h
          cases he
          cases ‹_ + 1 = _ + 1›
          -- an object: of two members with one key the later one stays
          obtain ⟨hnd, hm⟩ := ofPairs_spec (ihm _ _ _ hp)
          refine wellFormed_obj.mpr ⟨hnd, ?_, fun kv hkv => (hm kv hkv).2⟩
          intro k hk
          obtain ⟨kv, hkv, rfl⟩ := List.mem_map.mp hk
          exact (hm kv hkv).1
      · rw [Option.map_eq_some_iff] at h
        obtain ⟨v', hp, he⟩ := h
        cases he
        -- a number or a literal
        exact wordVal_wellFormed hp
    · intro t l r h
      rw [parseElems] at h
      split at h
      · cases h
      · rename_i v r' hv
        split at h
        · rw [Option.map_eq_some_iff] at h
          obtain ⟨⟨l', r''⟩, hp, he⟩ := h
          cases he
          intro w hw
          rcases List.mem_cons.mp hw with rfl | hw
          · exact ihv _ _ _ hv
          · exact ihe _ _ _ hp w hw
        · cases h
          intro w hw
          rw [List.mem_singleton] at hw
          exact hw ▸ ihv _ _ _ hv
        · cases h
    · intro t m r h
      unfold parseMembers at h
      split at h
      · cases ‹_ + 1 = _ + 1›
        split at h
        · cases h
        · rename_i k r' hk
          split at h
          · split at h
            · cases h
            · rename_i v r'' hv
              split at h
              · rw [Option.map_eq_some_iff] at h
                obtain ⟨⟨m', r''⟩, hp, he⟩ := h
                cases he
                intro kw hkw
                rcases List.mem_cons.mp hkw with rfl | hkw
                · exact ⟨parseStr_normal hk, ihv _ _ _ hv⟩
                · exact ihm _ _ _ hp kw hkw
              · cases h
                intro kw hkw
                rw [List.mem_singleton] at hkw
                exact hkw ▸ ⟨parseStr_normal hk, ihv _ _ _ hv⟩
              · cases h
          · cases h
      · cases h

/-- What `json.loads` returns can be printed and read back. -/
theorem loads_wellFormed {t : Text} {v : Json F} (h : loads t = some v) :
    wellFormed v = true := by
  unfold loads at h
  split at h
  · rename_i v' r hp
    split_ifs at h
    cases h
    exact (parse_wellFormed _).1 _ _ _ hp
  · cases h

/-! ### Printed text -/

/-- A printable ASCII character. -/
def Printable (c : Char) : Prop := 0x20 ≤ c.toNat ∧ c.toNat ≤ 0x7E

instance : DecidablePred Printable := fun c =>
  inferInstanceAs (Decidable (0x20 ≤ c.toNat ∧ c.toNat ≤ 0x7E))

theorem printable_of_word {t : Text} (h : t.all isWordChar = true) : ∀ c ∈ t, Printable c := by
  intro c hc
  have hw : (((decide ('A'.val ≤ c.val ∧ c.val ≤ 'Z'.val) ||
      ('a'.val ≤ c.val && c.val ≤ 'z'.val)) || ('0'.val ≤ c.val && c.val ≤ '9'.val)) ||
      c = '+' || c = '-' || c = '.') = true := List.all_eq_true.mp h c hc
  simp only [Bool.or_eq_true, Bool.and_eq_true, decide_eq_true_eq, UInt32.le_iff_toNat_le] at hw
  have hv : c.val.toNat = c.toNat := rfl
  rw [hv] at hw
  rcases hw with ((hw | rfl) | rfl) | rfl
  · rcases hw with (⟨h1, h2⟩ | ⟨h1, h2⟩) | ⟨h1, h2⟩ <;>
      (constructor <;> (simp at h1 h2; omega))
  · decide
  · decide
  · decide

theorem printUnit_printable (u : Nat) : ∀ c ∈ printUnit u, Printable c := by
  have hhex : ∀ n, Printable (hexDigit n) := by
    have h : ∀ d, d < 16 → Printable (Nat.digitChar d) := by decide
    exact fun n => h (n % 16) (Nat.mod_lt n (by decide))
  have hpair : ∀ a b : Char, Printable a → Printable b → ∀ c ∈ [a, b], Printable c := by
    intro a b ha hb c hc
    simp only [List.mem_cons, List.not_mem_nil, or_false] at hc
    rcases hc with rfl | rfl
    · exact ha
    · exact hb
  -- seven short escapes, the character itself, `\uXXXX`
  unfold printUnit
  split_ifs with h1 h2 h3 h4 h5 h6 h7 h8
  · exact hpair _ _ (by decide) (by decide)
  · exact hpair _ _ (by decide) (by decide)
  · exact hpair _ _ (by decide) (by decide)
  · exact hpair _ _ (by decide) (by decide)
  · exact hpair _ _ (by decide) (by decide)
  · exact hpair _ _ (by decide) (by decide)
  · exact hpair _ _ (by decide) (by decide)
  · intro c hc
    rw [List.mem_singleton] at hc
    rw [hc, Printable, toNat_ofNat_ascii (by omega)]
    exact h8
  · intro c hc
    simp only [escapeUnit, List.mem_cons, List.not_mem_nil, or_false] at hc
    rcases hc with rfl | rfl | rfl | rfl | rfl | rfl
    · decide
    · decide
    · exact hhex _
    · exact hhex _
    · exact hhex _
    · exact hhex _

/-- Every character of a printed string is visible ASCII or a space. -/
theorem printStr_printable (s : Str) : ∀ c ∈ printStr s, Printable c := by
  intro c hc
  simp only [printStr, List.mem_cons, List.mem_append, List.not_mem_nil, or_false] at hc
  rcases hc with rfl | hc | rfl
  · decide
  · obtain ⟨u, -, hu⟩ := List.mem_flatMap.mp hc
    exact printUnit_printable u c hu
  · decide

theorem length_printUnit_le (n : Nat) : (printUnit n).length ≤ 6 := by
  unfold printUnit
  split_ifs <;> simp [escapeUnit]

theorem length_printStr_le (s : Str) : (printStr s).length ≤ 12 * s.length + 2 := by
  -- a character has at most two units, a unit is printed as at most six characters
  have hunits : (s.flatMap units).length ≤ 2 * s.length := by
    induction s with
    | nil => simp
    | cons c s ih =>
      have hc : (units c).length ≤ 2 := by
        unfold units
        split_ifs <;> simp
      rw [List.flatMap_cons, List.length_append, List.length_cons]
      omega
  have hprint : ∀ us : List Nat, (us.flatMap printUnit).length ≤ 6 * us.length := by
    intro us
    induction us with
    | nil => simp
    | cons u us ih =>
      have hu := length_printUnit_le u
      rw [List.flatMap_cons, List.length_append, List.length_cons]
      omega
  have h := hprint (s.flatMap units)
  rw [printStr, List.length_cons, List.length_append, List.length_singleton]
  omega

/-- The characters a style puts between the tokens, or a printable one. -/
def InStyle (st : Style) (c : Char) : Prop :=
  Printable c ∨ (∃ n, c ∈ st.margin n) ∨ (∃ n, c ∈ st.comma n) ∨ c ∈ st.colon

theorem printElems_inStyle (st : Style) (n : Nat) {l : List (Json F)}
    (h : ∀ v ∈ l, ∀ n, ∀ c ∈ print st n v, InStyle st c) :
    ∀ c ∈ printElems st n l, InStyle st c := by
  induction l with
  | nil => intro c hc; cases hc
  | cons v l ih =>
    intro c hc
    simp only [printElems, List.mem_cons, List.mem_append] at hc
    rcases hc with rfl | hc | hc | hc
    · exact Or.inl (by decide)
    · exact Or.inr (Or.inr (Or.inl ⟨n, hc⟩))
    · exact h v (by simp) n c hc
    · exact ih (fun w hw => h w (by simp [hw])) c hc

theorem printMembers_inStyle (st : Style) (n : Nat) {m : Members F}
    (h : ∀ kv ∈ m, ∀ n, ∀ c ∈ print st n kv.2, InStyle st c) :
    ∀ c ∈ printMembers st n m, InStyle st c := by
  induction m with
  | nil => intro c hc; cases hc
  | cons kv m ih =>
    obtain ⟨k, v⟩ := kv
    intro c hc
    simp only [printMembers, List.mem_cons, List.mem_append] at hc
    rcases hc with rfl | hc | hc | rfl | hc | hc | hc
    · exact Or.inl (by decide)
    · exact Or.inr (Or.inr (Or.inl ⟨n, hc⟩))
    · exact Or.inl (printStr_printable k c hc)
    · exact Or.inl (by decide)
    · exact Or.inr (Or.inr (Or.inr hc))
    · exact h (k, v) (by simp) n c hc
    · exact ih (fun w hw => h w (by simp [hw])) c hc

/-- By induction on the value; only the style brings line breaks in. -/
theorem print_inStyle (st : Style) (v : Json F) : ∀ n, ∀ c ∈ print st n v, InStyle st c := by
  induction v using Json.induction with
  | null => intro n c hc; exact Or.inl (printable_of_word rfl c hc)
  | bool b => intro n c hc; cases b <;> exact Or.inl (printable_of_word rfl c hc)
  | int i => intro n c hc; exact Or.inl (printable_of_word (printInt_word i) c hc)
  | float f =>
    intro n c hc
    exact Or.inl (printable_of_word (isFloatTok_spec (JsonFloat.repr_tok f)).1 c hc)
  | str s => intro n c hc; exact Or.inl (printStr_printable s c hc)
  | arr l ih =>
    -- brackets, margins and commas stand between the elements
    intro n c hc
    cases l with
    | nil =>
      simp only [print, List.mem_cons, List.not_mem_nil, or_false] at hc
      rcases hc with rfl | rfl <;> exact Or.inl (by decide)
    | cons v l =>
      simp only [print, List.mem_cons, List.mem_append, List.not_mem_nil, or_false] at hc
      rcases hc with rfl | hc | hc | hc | hc | rfl
      · exact Or.inl (by decide)
      · exact Or.inr (Or.inl ⟨_, hc⟩)
      · exact ih v (by simp) _ c hc
      · exact printElems_inStyle st _ (fun w hw => ih w (by simp [hw])) c hc
      · exact Or.inr (Or.inl ⟨_, hc⟩)
      · exact Or.inl (by decide)
  | obj m ih =>
    -- braces, margins, commas, keys and colons stand between the values
    intro n c hc
    cases m with
    | nil =>
      simp only [print, List.mem_cons, List.not_mem_nil, or_false] at hc
      rcases hc with rfl | rfl <;> exact Or.inl (by decide)
    | cons kv m =>
      obtain ⟨k, v⟩ := kv
      simp only [print, List.mem_cons, List.mem_append, List.not_mem_nil, or_false] at hc
      rcases hc with rfl | hc | hc | rfl | hc | hc | hc | hc | rfl
      · exact Or.inl (by decide)
      · exact Or.inr (Or.inl ⟨_, hc⟩)
      · exact Or.inl (printStr_printable k c hc)
      · exact Or.inl (by decide)
      · exact Or.inr (Or.inr (Or.inr hc))
      · exact ih (k, v) (by simp) _ c hc
      · exact printMembers_inStyle st _ (fun w hw => ih w (by simp [hw])) c hc
      · exact Or.inr (Or.inl ⟨_, hc⟩)
      · exact Or.inl (by decide)

theorem dumpsCompact_printable (v : Json F) : ∀ c ∈ dumpsCompact v, Printable c := by
  intro c hc
  rcases print_inStyle compact v 0 c hc with h | ⟨n, h⟩ | ⟨n, h⟩ | h
  · exact h
  · cases h
  · cases h
  · cases h

/-- So the text is one line. -/
theorem dumpsSorted_printable (v : Json F) : ∀ c ∈ dumpsSorted v, Printable c := by
  intro c hc
  rcases print_inStyle spaced v.canon 0 c hc with h | ⟨n, h⟩ | ⟨n, h⟩ | h
  · exact h
  · cases h
  · rw [List.mem_singleton.mp h]; decide
  · rw [List.mem_singleton.mp h]; decide

end

end P4.Json
