/-
  Reading back what was printed.

  * `parseValue_print`: a well-formed value, printed in any style and followed by any text that
    does not continue a word, is read back, and exactly its own text is consumed;
  * `loads_print`: `loads (print st 0 v) = some v`.

  The induction is over the value; the fuel is bounded by the length of the printed text, of
  which every step of the parser consumes at least one character.
-/
import P4.Json.Equiv.Basic
import Mathlib.Tactic.IntervalCases

namespace P4.Json

open Dict

/-! ### White space and words -/

theorem skipWs_append {w : Text} (hw : w.all isWs = true) (t : Text) :
    skipWs (w ++ t) = skipWs t := by
  unfold skipWs
  exact List.dropWhile_append_of_pos (fun c hc => List.all_eq_true.mp hw c hc)

theorem skipWs_cons {c : Char} (hc : isWs c = false) (t : Text) : skipWs (c :: t) = c :: t := by
  simp [skipWs, hc]

/-- The text does not continue a word. -/
def Delimited (t : Text) : Prop := ∀ c r, t = c :: r → isWordChar c = false

theorem delimited_nil : Delimited [] := by
  intro c r h
  cases h

theorem delimited_cons {c : Char} (hc : isWordChar c = false) (t : Text) :
    Delimited (c :: t) := by
  intro c' r h
  cases h
  exact hc

/-- White space is no word character. -/
theorem isWordChar_of_isWs {c : Char} (hc : isWs c = true) : isWordChar c = false := by
  simp only [isWs, Bool.or_eq_true, decide_eq_true_eq] at hc
  rcases hc with ((rfl | rfl) | rfl) | rfl <;> decide

theorem delimited_append_ws {w : Text} (hw : w.all isWs = true) {t : Text} (ht : Delimited t) :
    Delimited (w ++ t) := by
  cases w with
  | nil => exact ht
  | cons c w =>
    rw [List.all_cons, Bool.and_eq_true] at hw
    exact delimited_cons (isWordChar_of_isWs hw.1) _

theorem takeWhile_word {w r : Text} (hw : w.all isWordChar = true) (hr : Delimited r) :
    (w ++ r).takeWhile isWordChar = w := by
  rw [List.takeWhile_append_of_pos (fun c hc => List.all_eq_true.mp hw c hc)]
  cases r with
  | nil => simp
  | cons c r => simp [hr c r rfl]

theorem dropWhile_word {w r : Text} (hw : w.all isWordChar = true) (hr : Delimited r) :
    (w ++ r).dropWhile isWordChar = r := by
  rw [List.dropWhile_append_of_pos (fun c hc => List.all_eq_true.mp hw c hc)]
  cases r with
  | nil => rfl
  | cons c r => simp [hr c r rfl]

/-- A word character opens no string and no container, and is no white space. -/
theorem isWordChar_ne {c : Char} (hc : isWordChar c = true) :
    c ≠ '"' ∧ c ≠ '[' ∧ c ≠ '\x7b' ∧ c ≠ ']' ∧ c ≠ '\x7d' ∧ isWs c = false := by
  refine ⟨?_, ?_, ?_, ?_, ?_, ?_⟩
  · rintro rfl; exact absurd hc (by decide)
  · rintro rfl; exact absurd hc (by decide)
  · rintro rfl; exact absurd hc (by decide)
  · rintro rfl; exact absurd hc (by decide)
  · rintro rfl; exact absurd hc (by decide)
  · cases h : isWs c with
    | false => rfl
    | true => rw [isWordChar_of_isWs h] at hc; cases hc

/-! ### Numbers -/

theorem isDigits_toDigits (n : Nat) : isDigits (Nat.toDigits 10 n) = true := by
  unfold isDigits
  rw [Bool.and_eq_true, Bool.not_eq_true', List.all_eq_true]
  refine ⟨?_, fun c hc => Nat.isDigit_of_mem_toDigits (by decide) (by decide) hc⟩
  rw [List.isEmpty_eq_false_iff]
  exact Nat.toDigits_ne_nil

/-- A positive number has no leading zero. -/
theorem head?_toDigits_ne_zero : ∀ n : Nat, 0 < n → (Nat.toDigits 10 n).head? ≠ some '0' := by
  intro n
  induction n using Nat.strong_induction_on with
  | _ n ih =>
  intro hn
  by_cases hlt : n < 10
  · rw [Nat.toDigits_of_lt_base hlt]
    interval_cases n <;> decide
  · rw [Nat.toDigits_of_base_le (by decide) (by omega), List.head?_append]
    have h := ih (n / 10) (by omega) (by omega)
    cases hd : (Nat.toDigits 10 (n / 10)).head? with
    | none => exact absurd (List.head?_eq_none_iff.mp hd) Nat.toDigits_ne_nil
    | some c => rw [hd] at h; simpa using h

theorem natTok_toDigits (n : Nat) : natTok (Nat.toDigits 10 n) = some n := by
  have hz : ((Nat.toDigits 10 n).head? != some '0' || (Nat.toDigits 10 n).length == 1) = true := by
    rcases Nat.eq_zero_or_pos n with rfl | hn
    · decide
    · rw [Bool.or_eq_true]
      exact Or.inl (bne_iff_ne.mpr (head?_toDigits_ne_zero n hn))
  unfold natTok
  rw [isDigits_toDigits, hz, Nat.ofDigitChars_ten_toDigits]
  rfl

theorem natTok_isDigits {t : Text} {n : Nat} (h : natTok t = some n) : isDigits t = true := by
  unfold natTok at h
  split_ifs at h with hd
  exact (Bool.and_eq_true _ _ ▸ hd).1

theorem isWordChar_of_isDigit {c : Char} (hc : c.isDigit = true) : isWordChar c = true := by
  simp [isWordChar, Char.isAlphanum, hc]

theorem isDigits_all {t : Text} (h : isDigits t = true) : t.all isWordChar = true := by
  rw [isDigits, Bool.and_eq_true, List.all_eq_true] at h
  rw [List.all_eq_true]
  exact fun c hc => isWordChar_of_isDigit (h.2 c hc)

theorem isDigits_cons {t : Text} (h : isDigits t = true) :
    ∃ c r, t = c :: r ∧ c.isDigit = true := by
  cases t with
  | nil => simp [isDigits] at h
  | cons c r => exact ⟨c, r, rfl, by simp [isDigits] at h; exact h.1⟩

/-- An integer is read back. -/
theorem intTok_printInt (i : Int) : intTok (printInt i) = some i := by
  unfold printInt
  split_ifs with hi
  · rw [intTok, natTok_toDigits, Option.map_some, Option.some.injEq, Int.ofNat_eq_natCast]
    omega
  · obtain ⟨c, r, hc, hd⟩ := isDigits_cons (isDigits_toDigits i.natAbs)
    have hne : c ≠ '-' := by rintro rfl; exact absurd hd (by decide)
    have h : intTok (Nat.toDigits 10 i.natAbs)
        = (natTok (Nat.toDigits 10 i.natAbs)).map fun n => Int.ofNat n := by
      rw [hc, intTok]
      intro t ht
      exact hne (List.cons.inj ht).1
    rw [h, natTok_toDigits, Option.map_some, Option.some.injEq, Int.ofNat_eq_natCast]
    omega

theorem printInt_word (i : Int) : (printInt i).all isWordChar = true := by
  have h := isDigits_all (isDigits_toDigits i.natAbs)
  unfold printInt
  split_ifs
  · rw [List.all_cons, h]; decide
  · exact h

theorem printInt_ne_nil (i : Int) : printInt i ≠ [] := by
  unfold printInt
  split_ifs
  · exact List.cons_ne_nil _ _
  · exact Nat.toDigits_ne_nil

/-- The token of an integer starts with a digit or a minus sign. -/
theorem intTok_head {t : Text} {i : Int} (h : intTok t = some i) :
    ∃ c r, t = c :: r ∧ (c.isDigit = true ∨ c = '-') := by
  unfold intTok at h
  split at h
  · exact ⟨_, _, rfl, Or.inr rfl⟩
  · rw [Option.map_eq_some_iff] at h
    obtain ⟨n, hn, -⟩ := h
    obtain ⟨c, r, hc, hd⟩ := isDigits_cons (natTok_isDigits hn)
    exact ⟨c, r, hc, Or.inl hd⟩

theorem isExpTail_word {t : Text} (h : isExpTail t = true) : t.all isWordChar = true := by
  unfold isExpTail at h
  split at h
  · rfl
  all_goals first
    | cases h
    | (simp only [List.all_cons, isDigits_all h, Bool.and_true]; decide)

theorem isFracTail_word {t : Text} (h : isFracTail t = true) : t.all isWordChar = true := by
  unfold isFracTail at h
  split at h
  · cases h
  · rename_i r
    rw [Bool.and_eq_true] at h
    rw [List.all_cons, ← List.takeWhile_append_dropWhile (p := Char.isDigit) (l := r),
      List.all_append, isDigits_all h.1, isExpTail_word h.2]
    decide
  · exact isExpTail_word h

/-- What `isFloatTok` says of a token that is not one of the three names: an optional sign, a
natural number, and a fraction or an exponent. -/
theorem isFloatTok_cases {t : Text} (h : isFloatTok t = true) :
    t = ['N', 'a', 'N'] ∨ t = ['I', 'n', 'f', 'i', 'n', 'i', 't', 'y'] ∨
      t = ['-', 'I', 'n', 'f', 'i', 'n', 'i', 't', 'y'] ∨
      ∃ ds tl, (t = ds ++ tl ∨ t = '-' :: (ds ++ tl)) ∧ isDigits ds = true ∧
        isFracTail tl = true ∧ (ds ++ tl).all Char.isDigit = false := by
  simp only [isFloatTok, Bool.or_eq_true, decide_eq_true_eq] at h
  rcases h with ((h | h) | h) | h
  · exact Or.inl h
  · exact Or.inr (Or.inl h)
  · exact Or.inr (Or.inr (Or.inl h))
  · refine Or.inr (Or.inr (Or.inr ?_))
    set body := if t.head? = some '-' then t.tail else t with hbody
    rw [Bool.and_eq_true, Option.isSome_iff_exists] at h
    obtain ⟨⟨n, hn⟩, htl⟩ := h
    refine ⟨body.takeWhile Char.isDigit, body.dropWhile Char.isDigit, ?_, natTok_isDigits hn, htl,
      ?_⟩
    · rw [List.takeWhile_append_dropWhile]
      by_cases hm : t.head? = some '-'
      · right
        rw [ite_cond_eq_true _ _ (eq_true hm)] at hbody
        rw [hbody]
        cases t with
        | nil => cases hm
        | cons c r =>
          rw [List.head?_cons, Option.some.injEq] at hm
          rw [hm, List.tail_cons]
      · left
        rw [ite_cond_eq_false _ _ (eq_false hm)] at hbody
        exact hbody.symm
    · -- the first character after the digits is no digit
      cases hdrop : body.dropWhile Char.isDigit with
      | nil => rw [hdrop] at htl; cases htl
      | cons c r =>
        have hc : c.isDigit = false := by
          have := List.head?_dropWhile_not Char.isDigit body
          rw [hdrop] at this
          simpa using this
        rw [List.all_append, List.all_cons, hc, Bool.false_and, Bool.and_false]

theorem natTok_eq_none {t : Text} (h : t.all Char.isDigit = false) : natTok t = none := by
  unfold natTok isDigits
  rw [h, Bool.and_false, Bool.false_and]
  rfl

/-- A token of a number that is no integer is a word, and no other word. -/
theorem isFloatTok_spec {t : Text} (h : isFloatTok t = true) :
    t.all isWordChar = true ∧ t ≠ [] ∧ intTok t = none ∧ t ≠ ['n', 'u', 'l', 'l'] ∧
      t ≠ ['t', 'r', 'u', 'e'] ∧ t ≠ ['f', 'a', 'l', 's', 'e'] := by
  rcases isFloatTok_cases h with rfl | rfl | rfl | ⟨ds, tl, ht, hds, htl, hnd⟩
  · decide
  · decide
  · decide
  · obtain ⟨c, r, hc, hd⟩ := isDigits_cons hds
    have hword : (ds ++ tl).all isWordChar = true := by
      rw [List.all_append, isDigits_all hds, isFracTail_word htl]
      rfl
    have hne : ds ++ tl ≠ [] := by rw [hc]; exact List.cons_ne_nil _ _
    -- no literal begins with a digit
    have hlit : ∀ (c' : Char) (r' : Text), ds ++ tl = c' :: r' → c'.isDigit = true := by
      intro c' r' he
      rw [hc, List.cons_append, List.cons.injEq] at he
      rw [← he.1]; exact hd
    -- without and with a minus
    rcases ht with rfl | rfl
    · refine ⟨hword, hne, ?_, ?_, ?_, ?_⟩
      · have hm : c ≠ '-' := by rintro rfl; exact absurd hd (by decide)
        have : intTok (ds ++ tl) = (natTok (ds ++ tl)).map fun n => Int.ofNat n := by
          rw [hc, List.cons_append, intTok]
          intro t' ht'
          exact hm (List.cons.inj ht').1
        rw [this, natTok_eq_none hnd]
        rfl
      · exact fun he => absurd (hlit _ _ he) (by decide)
      · exact fun he => absurd (hlit _ _ he) (by decide)
      · exact fun he => absurd (hlit _ _ he) (by decide)
    · refine ⟨?_, List.cons_ne_nil _ _, ?_, ?_, ?_, ?_⟩
      · rw [List.all_cons, hword]; decide
      · rw [intTok, natTok_eq_none hnd]; rfl
      · exact fun he => absurd (List.cons.inj he).1 (by decide)
      · exact fun he => absurd (List.cons.inj he).1 (by decide)
      · exact fun he => absurd (List.cons.inj he).1 (by decide)

/-! ### Strings -/

theorem hexVal_hexDigit (n : Nat) : hexVal (hexDigit n) = some (n % 16) := by
  have h : ∀ d, d < 16 → hexVal (Nat.digitChar d) = some d := by decide
  exact h (n % 16) (Nat.mod_lt n (by decide))

theorem hex4_hexDigit {n : Nat} (hn : n < 0x10000) :
    hex4 (hexDigit (n / 4096)) (hexDigit (n / 256)) (hexDigit (n / 16)) (hexDigit n)
      = some n := by
  unfold hex4
  simp only [hexVal_hexDigit, Option.some.injEq]
  omega

theorem toNat_ofNat_ascii {n : Nat} (hn : n < 0xD800) : (Char.ofNat n).toNat = n := by
  rw [Char.ofNat, dif_pos (Or.inl hn)]
  rfl

/-- One printed code unit is read back. -/
theorem parseUnits_printUnit {u : Nat} (hu : u < 0x10000) (t : Text) :
    parseUnits (printUnit u ++ t) = (parseUnits t).map fun p => (u :: p.1, p.2) := by
  have hshort : ∀ (e : Char) (v : Nat), e ≠ 'u' → shortEscape e = some v →
      parseUnits ('\\' :: e :: t) = (parseUnits t).map fun p => (v :: p.1, p.2) := by
    intro e v he hv
    rw [parseUnits, hv]
    · cases parseUnits t <;> rfl
    · intro a b c d t' h _
      exact he h
  unfold printUnit
  split_ifs with h1 h2 h3 h4 h5 h6 h7 h8
  · rw [h1]; exact hshort '"' _ (by decide) rfl
  · rw [h2]; exact hshort '\\' _ (by decide) rfl
  · rw [h3]; exact hshort 'n' _ (by decide) rfl
  · rw [h4]; exact hshort 'r' _ (by decide) rfl
  · rw [h5]; exact hshort 't' _ (by decide) rfl
  · rw [h6]; exact hshort 'f' _ (by decide) rfl
  · rw [h7]; exact hshort 'b' _ (by decide) rfl
  · -- a printable character stands for itself
    have hn := toNat_ofNat_ascii (n := u) (by omega)
    have hq : Char.ofNat u ≠ '"' := by
      intro h; rw [h] at hn; exact h1 hn.symm
    have hb : Char.ofNat u ≠ '\\' := by
      intro h; rw [h] at hn; exact h2 hn.symm
    rw [List.cons_append, List.nil_append, parseUnits, hn,
      if_neg (not_or.mpr ⟨by omega, hb⟩)]
    · exact hq
    · intro a b c d t' h _; exact hb h
    · intro e t' h _; exact hb h
  · unfold escapeUnit
    simp only [List.cons_append, List.nil_append]
    rw [parseUnits, hex4_hexDigit hu]
    cases parseUnits t <;> rfl

/-- The units of a string are read back up to the quote. -/
theorem parseUnits_print {us : List Nat} (hus : ∀ u ∈ us, u < 0x10000) (r : Text) :
    parseUnits (us.flatMap printUnit ++ '"' :: r) = some (us, r) := by
  induction us with
  | nil => simp [parseUnits]
  | cons u us ih =>
    rw [List.flatMap_cons, List.append_assoc, parseUnits_printUnit (hus u (by simp)),
      ih (fun v hv => hus v (by simp [hv]))]
    rfl

theorem units_lt (c : CodePoint) : ∀ u ∈ units c, u < 0x10000 := by
  intro u hu
  have hc := c.isLt
  unfold units at hu
  split_ifs at hu
  · rw [List.mem_singleton] at hu; omega
  · simp only [List.mem_cons, List.not_mem_nil, or_false] at hu; omega

/-- A string is read back, whatever stands after it. -/
theorem parseStr_printStr {s : Str} (hs : normal s = true) (r : Text) :
    ∃ t, printStr s ++ r = '"' :: t ∧ parseStr t = some (s, r) := by
  refine ⟨(s.flatMap units).flatMap printUnit ++ '"' :: r, ?_, ?_⟩
  · simp [printStr]
  · have hus : ∀ u ∈ s.flatMap units, u < 0x10000 := by
      intro u hu
      obtain ⟨c, -, hc⟩ := List.mem_flatMap.mp hu
      exact units_lt c u hc
    rw [parseStr, parseUnits_print hus, Option.map_some, beq_iff_eq.mp hs]

/-! ### Words -/

section

variable {F : Type} [JsonFloat F]

/-- The values whose text is a single word. -/
theorem parseValue_word {v : Json F} {w : Text} (hw : w.all isWordChar = true) (hne : w ≠ [])
    (hv : wordVal w = some v) {fuel : Nat} {r : Text} (hf : w.length ≤ fuel) (hr : Delimited r) :
    parseValue fuel (w ++ r) = some (v, r) := by
  have htk := takeWhile_word hw hr
  have hdr := dropWhile_word hw hr
  cases w with
  | nil => exact absurd rfl hne
  | cons c w =>
    rw [List.all_cons, Bool.and_eq_true] at hw
    obtain ⟨hq, ha, ho, -, -, -⟩ := isWordChar_ne hw.1
    cases fuel with
    | zero => exact absurd hf (by simp)
    | succ fuel =>
      rw [List.cons_append] at htk hdr ⊢
      rw [parseValue, htk, hdr, hv, Option.map_some]
      · exact fun t ht => hq (List.cons.inj ht).1
      · exact fun t ht => ha (List.cons.inj ht).1
      · exact fun t ht => ho (List.cons.inj ht).1

theorem wordVal_printInt (i : Int) : (wordVal (printInt i) : Option (Json F)) = some (.int i) := by
  obtain ⟨c, r, hc, hd⟩ := intTok_head (intTok_printInt i)
  have hlit : ∀ (c' : Char) (r' : Text), printInt i = c' :: r' →
      c'.isDigit = true ∨ c' = '-' := by
    intro c' r' he
    rw [hc, List.cons.injEq] at he
    rw [← he.1]; exact hd
  unfold wordVal
  rw [if_neg (fun he => absurd (hlit _ _ he) (by decide)),
    if_neg (fun he => absurd (hlit _ _ he) (by decide)),
    if_neg (fun he => absurd (hlit _ _ he) (by decide)), intTok_printInt]

/-- A number with a fraction or an exponent is read as one. -/
theorem wordVal_repr (f : F) : wordVal (JsonFloat.repr f) = some (Json.float f) := by
  obtain ⟨-, -, hi, hn, ht, hf⟩ := isFloatTok_spec (JsonFloat.repr_tok f)
  unfold wordVal
  rw [if_neg hn, if_neg ht, if_neg hf, hi, JsonFloat.repr_tok, JsonFloat.ofText_repr]
  rfl

/-- The first character of a printed value. -/
theorem print_head (st : Style) (n : Nat) (v : Json F) :
    ∃ c t, print st n v = c :: t ∧ isWs c = false ∧ c ≠ ']' ∧ c ≠ '\x7d' := by
  have hword : ∀ w : Text, w.all isWordChar = true → w ≠ [] →
      ∃ c t, w = c :: t ∧ isWs c = false ∧ c ≠ ']' ∧ c ≠ '\x7d' := by
    intro w hw hne
    cases w with
    | nil => exact absurd rfl hne
    | cons c w =>
      rw [List.all_cons, Bool.and_eq_true] at hw
      obtain ⟨-, -, -, h1, h2, h3⟩ := isWordChar_ne hw.1
      exact ⟨c, w, rfl, h3, h1, h2⟩
  cases v with
  | null => exact hword _ rfl (List.cons_ne_nil _ _)
  | bool b => cases b <;> exact hword _ rfl (List.cons_ne_nil _ _)
  | int i => exact hword _ (printInt_word i) (printInt_ne_nil i)
  | float f =>
    obtain ⟨h1, h2, -⟩ := isFloatTok_spec (JsonFloat.repr_tok f)
    exact hword _ h1 h2
  | str s => exact ⟨_, _, rfl, by decide, by decide, by decide⟩
  | arr l => cases l <;> exact ⟨_, _, rfl, by decide, by decide, by decide⟩
  | obj m => cases m <;> exact ⟨_, _, rfl, by decide, by decide, by decide⟩

theorem skipWs_print (st : Style) (n : Nat) (v : Json F) (r : Text) :
    skipWs (print st n v ++ r) = print st n v ++ r := by
  obtain ⟨c, t, hp, hc, -⟩ := print_head st n v
  rw [hp, List.cons_append, skipWs_cons hc]

theorem length_print_pos (st : Style) (n : Nat) (v : Json F) : 0 < (print st n v).length := by
  obtain ⟨c, t, hp, -⟩ := print_head st n v
  rw [hp, List.length_cons]
  omega

/-! ### Values -/

/-- `v` is read back from its text, whatever delimited text follows. -/
def ReadsBack (v : Json F) : Prop :=
  ∀ (st : Style) (n fuel : Nat) (r : Text), (print st n v).length ≤ fuel → Delimited r →
    parseValue fuel (print st n v ++ r) = some (v, r)

theorem delimited_elems (st : Style) (n k : Nat) (l : List (Json F)) (r : Text) :
    Delimited (printElems st n l ++ (st.margin k ++ (']' :: r))) := by
  cases l with
  | nil => exact delimited_append_ws (st.margin_ws k) (delimited_cons (by decide) _)
  | cons v l => exact delimited_cons (by decide) _

theorem delimited_members (st : Style) (n k : Nat) (m : Members F) (r : Text) :
    Delimited (printMembers st n m ++ (st.margin k ++ ('\x7d' :: r))) := by
  cases m with
  | nil => exact delimited_append_ws (st.margin_ws k) (delimited_cons (by decide) _)
  | cons kv m => exact delimited_cons (by decide) _

/-- By induction on the rest of the list. -/
theorem parseElems_print (st : Style) (n k : Nat) (r : Text) {l : List (Json F)} :
    ∀ (v : Json F) (fuel : Nat), ReadsBack v → (∀ w ∈ l, ReadsBack w) →
      (print st n v).length + (printElems st n l).length + 1 ≤ fuel →
      parseElems fuel (print st n v ++ (printElems st n l ++ (st.margin k ++ (']' :: r))))
        = some (v :: l, r) := by
  induction l with
  | nil =>
    -- the last element, and the closing bracket
    intro v fuel hv _ hf
    obtain ⟨fuel, rfl⟩ : ∃ f, fuel = f + 1 := ⟨fuel - 1, by omega⟩
    rw [parseElems, hv st n fuel _ (by omega) (delimited_elems st n k [] r)]
    simp only [printElems, List.nil_append]
    rw [skipWs_append (st.margin_ws k), skipWs_cons (by decide)]
    rfl
  | cons w l ih =>
    -- a comma, and the other elements
    intro v fuel hv hl hf
    obtain ⟨fuel, rfl⟩ : ∃ f, fuel = f + 1 := ⟨fuel - 1, by omega⟩
    have hpos := length_print_pos st n v
    simp only [printElems, List.length_cons, List.length_append] at hf
    have hw := ih w fuel (hl w (by simp)) (fun u hu => hl u (by simp [hu])) (by omega)
    rw [parseElems, hv st n fuel _ (by omega) (delimited_elems st n k (w :: l) r)]
    simp only [printElems, List.cons_append, List.append_assoc]
    rw [skipWs_cons (by decide)]
    simp only []
    rw [skipWs_append (st.comma_ws n), skipWs_print, hw]
    rfl

/-- By induction on the rest of the members. -/
theorem parseMembers_print (st : Style) (n k : Nat) (r : Text) {m : Members F} :
    ∀ (key : Str) (v : Json F) (fuel : Nat), normal key = true → ReadsBack v →
      (∀ j ∈ keys m, normal j = true) → (∀ kw ∈ m, ReadsBack kw.2) →
      (print st n v).length + (printMembers st n m).length + 1 ≤ fuel →
      parseMembers fuel (printStr key ++ (':' :: (st.colon ++ (print st n v ++
        (printMembers st n m ++ (st.margin k ++ ('\x7d' :: r))))))) = some ((key, v) :: m, r) := by
  induction m with
  | nil =>
    -- the last member, and the closing brace
    intro key v fuel hk hv _ _ hf
    obtain ⟨fuel, rfl⟩ : ∃ f, fuel = f + 1 := ⟨fuel - 1, by omega⟩
    obtain ⟨t, ht, hp⟩ := parseStr_printStr hk (':' :: (st.colon ++ (print st n v ++
        (printMembers st n ([] : Members F) ++ (st.margin k ++ ('\x7d' :: r))))))
    rw [ht, parseMembers, hp]
    simp only []
    rw [skipWs_cons (by decide)]
    simp only []
    rw [skipWs_append st.colon_ws, skipWs_print, hv st n fuel _ (by omega)
      (delimited_members st n k [] r)]
    simp only [printMembers, List.nil_append]
    rw [skipWs_append (st.margin_ws k), skipWs_cons (by decide)]
    rfl
  | cons kw m ih =>
    -- a comma, and the other members
    intro key v fuel hk hv hj hl hf
    obtain ⟨j, w⟩ := kw
    obtain ⟨fuel, rfl⟩ : ∃ f, fuel = f + 1 := ⟨fuel - 1, by omega⟩
    have hpos := length_print_pos st n v
    obtain ⟨t, ht, hp⟩ := parseStr_printStr hk (':' :: (st.colon ++ (print st n v ++
        (printMembers st n ((j, w) :: m) ++ (st.margin k ++ ('\x7d' :: r))))))
    simp only [printMembers, List.length_cons, List.length_append] at hf
    have hw := ih j w fuel (hj j (by simp [keys])) (hl (j, w) (by simp))
      (fun i hi => hj i (by simp only [keys, List.map_cons, List.mem_cons]; exact Or.inr hi))
      (fun u hu => hl u (by simp [hu])) (by omega)
    rw [ht, parseMembers, hp]
    simp only []
    rw [skipWs_cons (by decide)]
    simp only []
    rw [skipWs_append st.colon_ws, skipWs_print, hv st n fuel _ (by omega)
      (delimited_members st n k ((j, w) :: m) r)]
    simp only [printMembers, List.cons_append, List.append_assoc]
    rw [skipWs_cons (by decide)]
    simp only []
    rw [skipWs_append (st.comma_ws n), printStr, List.cons_append, skipWs_cons (by decide),
      ← List.cons_append, ← printStr, hw]
    rfl

/-- **Round trip**: a well-formed value is read back from its text. -/
theorem parseValue_print (v : Json F) : wellFormed v = true → ReadsBack v := by
  induction v using Json.induction with
  | null =>
    intro _ st n fuel r hf hr
    exact parseValue_word rfl (List.cons_ne_nil _ _) rfl hf hr
  | bool b =>
    intro _ st n fuel r hf hr
    cases b <;> exact parseValue_word rfl (List.cons_ne_nil _ _) rfl hf hr
  | int i =>
    intro _ st n fuel r hf hr
    exact parseValue_word (printInt_word i) (printInt_ne_nil i) (wordVal_printInt i) hf hr
  | float f =>
    intro _ st n fuel r hf hr
    obtain ⟨h1, h2, -⟩ := isFloatTok_spec (JsonFloat.repr_tok f)
    exact parseValue_word h1 h2 (wordVal_repr f) hf hr
  | str s =>
    intro hs st n fuel r hf hr
    obtain ⟨t, ht, hp⟩ := parseStr_printStr hs r
    obtain ⟨fuel, rfl⟩ : ∃ f, fuel = f + 1 :=
      ⟨fuel - 1, by have := length_print_pos st n (Json.str (F := F) s); omega⟩
    rw [print, ht, parseValue, hp]
    rfl
  | arr l ih =>
    intro hl st n fuel r hf hr
    rw [wellFormed_arr] at hl
    cases l with
    | nil =>
      obtain ⟨fuel, rfl⟩ : ∃ f, fuel = f + 1 := ⟨fuel - 1, by simp [print] at hf; omega⟩
      rfl
    | cons v l =>
      -- what follows the bracket is no closing bracket, so the elements are read
      obtain ⟨fuel, rfl⟩ : ∃ f, fuel = f + 1 := ⟨fuel - 1, by simp [print] at hf; omega⟩
      obtain ⟨c, t, hp, hc, hb, -⟩ := print_head st (n + 1) v
      have hv := parseElems_print st (n + 1) n r (l := l) v fuel
        (ih v (by simp) (hl v (by simp)))
        (fun w hw => ih w (by simp [hw]) (hl w (by simp [hw])))
        (by simp [print] at hf; omega)
      simp only [print, List.cons_append, List.append_assoc, List.nil_append]
      rw [parseValue, skipWs_append (st.margin_ws _), skipWs_print]
      rw [hp, List.cons_append] at hv ⊢
      split
      · rename_i h; exact absurd (List.cons.inj h).1 hb
      · rw [hv, Option.map_some]
  | obj m ih =>
    intro hm st n fuel r hf hr
    rw [wellFormed_obj] at hm
    obtain ⟨hnd, hkeys, hvals⟩ := hm
    cases m with
    | nil =>
      obtain ⟨fuel, rfl⟩ : ∃ f, fuel = f + 1 := ⟨fuel - 1, by simp [print] at hf; omega⟩
      rfl
    | cons kv m =>
      obtain ⟨k, v⟩ := kv
      -- the keys are distinct, so the pairs that were read are the members
      obtain ⟨fuel, rfl⟩ : ∃ f, fuel = f + 1 := ⟨fuel - 1, by simp [print] at hf; omega⟩
      have hv := parseMembers_print st (n + 1) n r (m := m) k v fuel (hkeys k (by simp [keys]))
        (ih (k, v) (by simp) (hvals (k, v) (by simp)))
        (fun j hj => hkeys j (by simp only [keys, List.map_cons, List.mem_cons]; exact Or.inr hj))
        (fun w hw => ih w (by simp [hw]) (hvals w (by simp [hw])))
        (by simp [print] at hf; omega)
      simp only [print, List.cons_append, List.append_assoc, List.nil_append]
      rw [parseValue, skipWs_append (st.margin_ws _)]
      rw [printStr, List.cons_append] at hv ⊢
      rw [skipWs_cons (by decide)]
      split
      · rename_i h; exact absurd (List.cons.inj h).1 (by decide)
      · rw [hv, Option.map_some, ofPairs_of_nodup hnd]

/-- `json.loads` inverts `json.dumps` in every style, also with white space after the text. -/
theorem loads_print_append (st : Style) {v : Json F} (hv : wellFormed v = true) {r : Text}
    (hr : r.all isWs = true) : loads (print st 0 v ++ r) = some v := by
  have hdel : Delimited r := by
    rw [← List.append_nil r]
    exact delimited_append_ws hr delimited_nil
  have h := parseValue_print v hv st 0 ((print st 0 v ++ r).length + 1) r
    (by rw [List.length_append]; omega) hdel
  have hws : skipWs r = [] := by
    rw [← List.append_nil r, skipWs_append hr]
    rfl
  rw [loads, skipWs_print, h]
  exact if_pos hws

/-- `json.loads` inverts `json.dumps` in every style. -/
theorem loads_print (st : Style) {v : Json F} (hv : wellFormed v = true) :
    loads (print st 0 v) = some v := by
  have h := loads_print_append st hv (r := []) rfl
  rwa [List.append_nil] at h

end

end P4.Json
