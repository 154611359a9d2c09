/-
  Base64 with the standard alphabet and padding.

  Three bytes are four digits of six bits; one or two bytes at the end are padded.  Decoding is
  strict: the padding must be there and the bits it leaves over must be zero.
-/
import Mathlib.Data.List.Basic

namespace P4.Base64

/-- The character of a digit. -/
def digit (n : Nat) : Char :=
  if n < 26 then Char.ofNat (65 + n)
  else if n < 52 then Char.ofNat (97 + (n - 26))
  else if n < 62 then Char.ofNat (48 + (n - 52))
  else if n = 62 then '+'
  else '/'

/-- The digit of a character. -/
def value (c : Char) : Option Nat :=
  let n := c.toNat
  if 65 ≤ n ∧ n < 91 then some (n - 65)
  else if 97 ≤ n ∧ n < 123 then some (n - 97 + 26)
  else if 48 ≤ n ∧ n < 58 then some (n - 48 + 52)
  else if c = '+' then some 62
  else if c = '/' then some 63
  else none

/-- The text of bytes. -/
def encode : List UInt8 → List Char
  | [] => []
  | [a] => [digit (a.toNat / 4), digit (a.toNat % 4 * 16), '=', '=']
  | [a, b] =>
    [digit (a.toNat / 4), digit (a.toNat % 4 * 16 + b.toNat / 16), digit (b.toNat % 16 * 4), '=']
  | a :: b :: c :: r =>
    digit (a.toNat / 4) :: digit (a.toNat % 4 * 16 + b.toNat / 16) ::
      digit (b.toNat % 16 * 4 + c.toNat / 64) :: digit (c.toNat % 64) :: encode r

/-- The bytes of a text. -/
def decode : List Char → Option (List UInt8)
  | [] => some []
  | w :: x :: y :: z :: r =>
    match value w, value x with
    | some i, some j =>
      if y = '=' ∧ z = '=' ∧ r = [] then
        if j % 16 = 0 then some [UInt8.ofNat (i * 4 + j / 16)] else none
      else match value y with
        | none => none
        | some k =>
          if z = '=' ∧ r = [] then
            if k % 4 = 0 then
              some [UInt8.ofNat (i * 4 + j / 16), UInt8.ofNat (j % 16 * 16 + k / 4)]
            else none
          else match value z, decode r with
            | some l, some rest =>
              some (UInt8.ofNat (i * 4 + j / 16) :: UInt8.ofNat (j % 16 * 16 + k / 4) ::
                UInt8.ofNat (k % 4 * 64 + l) :: rest)
            | _, _ => none
    | _, _ => none
  | _ => none

theorem value_digit : ∀ n < 64, value (digit n) = some n := by decide

theorem digit_ne_pad : ∀ n < 64, digit n ≠ '=' := by decide

theorem digit_printable : ∀ n < 64, 0x20 < (digit n).toNat ∧ (digit n).toNat < 0x7F := by decide

theorem ofNat_of_eq {a : UInt8} {n : Nat} (h : n = a.toNat) : UInt8.ofNat n = a := by
  rw [h]
  exact UInt8.ofNat_toNat

theorem decode_encode (b : List UInt8) : decode (encode b) = some b := by
  induction b using encode.induct with
  | case1 => rfl
  | case2 a =>
    -- one byte left: two digits and `==`
    have ha : a.toNat < 256 := a.toNat_lt
    rw [encode, decode, value_digit _ (by omega), value_digit _ (by omega)]
    dsimp only
    rw [if_pos ⟨rfl, rfl, rfl⟩, if_pos (by omega), ofNat_of_eq (a := a) (by omega)]
  | case3 a b =>
    -- two bytes left: three digits and `=`
    have ha : a.toNat < 256 := a.toNat_lt
    have hb : b.toNat < 256 := b.toNat_lt
    rw [encode, decode, value_digit _ (by omega), value_digit _ (by omega)]
    dsimp only
    rw [if_neg (fun h => digit_ne_pad _ (by omega) h.1), value_digit _ (by omega)]
    dsimp only
    rw [if_pos ⟨rfl, rfl⟩, if_pos (by omega), ofNat_of_eq (a := a) (by omega),
      ofNat_of_eq (a := b) (by omega)]
  | case4 a b c r ih =>
    -- three bytes in four digits
    have ha : a.toNat < 256 := a.toNat_lt
    have hb : b.toNat < 256 := b.toNat_lt
    have hc : c.toNat < 256 := c.toNat_lt
    rw [encode, decode, value_digit _ (by omega), value_digit _ (by omega)]
    dsimp only
    rw [if_neg (fun h => digit_ne_pad _ (by omega) h.1), value_digit _ (by omega)]
    dsimp only
    rw [if_neg (fun h => digit_ne_pad _ (by omega) h.1), value_digit _ (by omega), ih]
    dsimp only
    rw [ofNat_of_eq (a := a) (by omega), ofNat_of_eq (a := b) (by omega),
      ofNat_of_eq (a := c) (by omega)]

/-- The text needs no escaping, in JSON or anywhere else. -/
theorem encode_printable (b : List UInt8) :
    ∀ c ∈ encode b, 0x20 < c.toNat ∧ c.toNat < 0x7F := by
  have hpad : 0x20 < ('=' : Char).toNat ∧ ('=' : Char).toNat < 0x7F := by decide
  induction b using encode.induct with
  | case1 => exact fun c hc => nomatch hc
  | case2 a =>
    have ha : a.toNat < 256 := a.toNat_lt
    intro c hc
    simp only [encode, List.mem_cons, List.not_mem_nil, or_false] at hc
    rcases hc with rfl | rfl | rfl | rfl
    · exact digit_printable _ (by omega)
    · exact digit_printable _ (by omega)
    · exact hpad
    · exact hpad
  | case3 a b =>
    have ha : a.toNat < 256 := a.toNat_lt
    have hb : b.toNat < 256 := b.toNat_lt
    intro c hc
    simp only [encode, List.mem_cons, List.not_mem_nil, or_false] at hc
    rcases hc with rfl | rfl | rfl | rfl
    · exact digit_printable _ (by omega)
    · exact digit_printable _ (by omega)
    · exact digit_printable _ (by omega)
    · exact hpad
  | case4 a b c r ih =>
    have ha : a.toNat < 256 := a.toNat_lt
    have hb : b.toNat < 256 := b.toNat_lt
    have hc : c.toNat < 256 := c.toNat_lt
    intro d hd
    simp only [encode, List.mem_cons] at hd
    rcases hd with rfl | rfl | rfl | rfl | hd
    · exact digit_printable _ (by omega)
    · exact digit_printable _ (by omega)
    · exact digit_printable _ (by omega)
    · exact digit_printable _ (by omega)
    · exact ih d hd

theorem length_encode_le (b : List UInt8) : (encode b).length ≤ 4 * b.length := by
  induction b using encode.induct with
  | case1 => exact Nat.le_refl 0
  | case2 a => simp [encode]
  | case3 a b => simp [encode]
  | case4 a b c r ih =>
    simp only [encode, List.length_cons]
    omega

end P4.Base64
