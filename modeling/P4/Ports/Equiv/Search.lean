/-
  The search for ports finds the first free base, in cyclic order from the base of the seed.

  The loop is a search along `Cycle.walk` (`tryBases_onionBases`): no number of a port is too
  large for `bind`, so the only exception is the one after the last base.
-/
import P4.Core.Equiv.Binding
import P4.Cycle.Basic
import P4.Ports.Basic
import P4.Sample.Basic

namespace P4

variable {bind : Str → Nat → Bool}

/-! ### The seed -/

theorem hexVal_hexLut {n : Nat} (hn : n < 16) :
    Json.hexVal (Char.ofNat (hexLut n).val) = some n := by
  have h : ∀ d < 16, Json.hexVal (Char.ofNat (hexLut d).val) = some d := by decide
  exact h n hn

/-- The digits of bytes are read as a number with the first byte in front. -/
theorem foldlM_hexLower (b : List UInt8) (n : Nat) :
    (hexLower b).foldlM (fun n c => (Json.hexVal (Char.ofNat c.val)).map (16 * n + ·)) n =
      some (b.foldl (fun n x => 256 * n + x.toNat) n) := by
  induction b generalizing n with
  | nil => rfl
  | cons x b ih =>
    have hx := x.toNat_lt
    have hhigh := hexVal_hexLut (n := x.toNat / 16) (by omega)
    have hlow := hexVal_hexLut (n := x.toNat % 16) (by omega)
    have hbyte : 16 * (16 * n + x.toNat / 16) + x.toNat % 16 = 256 * n + x.toNat := by omega
    rw [show hexLower (x :: b) = hexLut (x.toNat / 16) :: hexLut (x.toNat % 16) :: hexLower b
      from rfl]
    simp only [List.foldlM_cons, hhigh, hlow, Option.map_some, Option.bind_eq_bind,
      Option.bind_some, hbyte, List.foldl_cons]
    exact ih _

theorem hexLower_take (b : List UInt8) (n : Nat) :
    (hexLower b).take (2 * n) = hexLower (b.take n) := by
  induction n generalizing b with
  | zero => rfl
  | succ n ih =>
    cases b with
    | nil => rfl
    | cons x b =>
      rw [List.take_succ_cons]
      exact congrArg (hexLut (x.toNat / 16) :: hexLut (x.toNat % 16) :: ·) (ih b)

/-- The seed is the number in the first four bytes of the digest. -/
theorem pathSeed_eq {sha256 : List UInt8 → FixedBytes 32} {path : List UInt8} {a b c d : UInt8}
    (h : (sha256 path).val.take 4 = [a, b, c, d]) :
    pathSeed sha256 path =
      .ok (a.toNat * 2 ^ 24 + b.toNat * 2 ^ 16 + c.toNat * 2 ^ 8 + d.toNat) := by
  rw [pathSeed, hexLower_take _ 4, h, intBase16, foldlM_hexLower]
  simp only [List.foldl_cons, List.foldl_nil, Except.ok.injEq]
  omega

/-- There is a seed, and it has 32 bits. -/
theorem exists_pathSeed (sha256 : List UInt8 → FixedBytes 32) (path : List UInt8) :
    ∃ seed < 2 ^ 32, pathSeed sha256 path = .ok seed := by
  have hlen : ((sha256 path).val.take 4).length = 4 := by
    rw [List.length_take, (sha256 path).property]
    rfl
  obtain ⟨a, b, c, d, h⟩ := List.length_eq_four.mp hlen
  refine ⟨_, ?_, pathSeed_eq h⟩
  have ha := a.toNat_lt
  have hb := b.toNat_lt
  have hc := c.toNat_lt
  have hd := d.toNat_lt
  omega

/-! ### The loop -/

/-- The three ports of a base are free. -/
def TrioFree (bind : Str → Nat → Bool) (base : Nat) : Prop :=
  bind localhost base = true ∧ bind localhost (base + 1) = true ∧ bind localhost (base + 2) = true

instance (bind : Str → Nat → Bool) (base : Nat) : Decidable (TrioFree bind base) :=
  inferInstanceAs (Decidable (_ ∧ _ ∧ _))

theorem isLocalPortFree_eq {port : Nat} (h : port ≤ 65535) (host : Str) :
    isLocalPortFree bind host port = .ok (bind host port) := by
  rw [isLocalPortFree, if_neg (Nat.not_lt.mpr h)]

theorem trioFree_eq {base : Nat} (h : base + 2 ≤ 65535) :
    trioFree bind base = .ok (decide (TrioFree bind base)) := by
  have hdecide : decide (TrioFree bind base) =
      (bind localhost base && (bind localhost (base + 1) && bind localhost (base + 2))) := by
    rw [Bool.eq_iff_iff, decide_eq_true_iff, Bool.and_eq_true, Bool.and_eq_true, TrioFree]
  rw [trioFree, isLocalPortFree_eq (by omega), isLocalPortFree_eq (by omega),
    isLocalPortFree_eq h, hdecide]
  cases bind localhost base with
  | false => rfl
  | true =>
    cases bind localhost (base + 1) with
    | false => rfl
    | true => rfl

/-- The loop returns the first base whose ports are free. -/
theorem tryBases_eq_ok {bases : List Nat} (h : ∀ b ∈ bases, b + 2 ≤ 65535)
    {trio : Nat × Nat × Nat} : tryBases bind bases = .ok trio ↔
      ∃ b, bases.find? (TrioFree bind ·) = some b ∧ trio = (b, b + 1, b + 2) := by
  induction bases with
  | nil =>
    constructor
    · intro hok
      cases hok
    · rintro ⟨b, hb, -⟩
      cases hb
  | cons b bases ih =>
    rw [List.forall_mem_cons] at h
    rw [tryBases, trioFree_eq h.1, List.find?_cons]
    cases decide (TrioFree bind b) with
    | true =>
      constructor
      · intro hok
        exact ⟨b, rfl, (Except.ok.inj hok).symm⟩
      · rintro ⟨c, hc, rfl⟩
        rw [← Option.some.inj hc]
        rfl
    | false => exact ih h.2

/-- The loop raises after the last base. -/
theorem tryBases_error_iff {bases : List Nat} (h : ∀ b ∈ bases, b + 2 ≤ 65535) :
    (∃ e, tryBases bind bases = .error e) ↔ bases.find? (TrioFree bind ·) = none := by
  induction bases with
  | nil => simp [tryBases]
  | cons b bases ih =>
    rw [List.forall_mem_cons] at h
    rw [tryBases, trioFree_eq h.1, List.find?_cons]
    cases decide (TrioFree bind b) with
    | true =>
      constructor
      · rintro ⟨e, he⟩
        cases he
      · intro hnone
        cases hnone
    | false => exact ih h.2

/-- The bases are a walk around the cycle, from that of the seed. -/
theorem onionBases_eq (seed : Nat) : onionBases seed = (Cycle.walk 30000 seed).map (20000 + ·) := by
  rw [onionBases, Cycle.walk, List.map_map]
  rfl

theorem mem_onionBases {seed b : Nat} : b ∈ onionBases seed ↔ 20000 ≤ b ∧ b ≤ 49999 := by
  rw [onionBases_eq, List.mem_map]
  constructor
  · rintro ⟨x, hx, rfl⟩
    have := Cycle.mem_walk.mp hx
    omega
  · rintro ⟨hlow, hhigh⟩
    exact ⟨b - 20000, Cycle.mem_walk.mpr (by omega), by omega⟩

/-- The three ports of `b` are free, and no base with free ports comes before it in cyclic order
from the base of the seed. -/
structure FirstTrio (bind : Str → Nat → Bool) (seed b : Nat) : Prop where
  low : 20000 ≤ b
  high : b ≤ 49999
  below : b + 2 < 65536
  free : TrioFree bind b
  first : ∀ c, 20000 ≤ c → c ≤ 49999 → TrioFree bind c →
    Cycle.distance 30000 seed (b - 20000) ≤ Cycle.distance 30000 seed (c - 20000)

/-- The first free one in this order. -/
theorem find?_onionBases {seed b : Nat} :
    (onionBases seed).find? (TrioFree bind ·) = some b ↔ FirstTrio bind seed b := by
  rw [onionBases_eq, List.find?_map, Option.map_eq_some_iff]
  constructor
  · rintro ⟨x, hx, rfl⟩
    obtain ⟨hlt, hfree, hnearest⟩ := Cycle.find?_walk_eq_some.mp hx
    refine ⟨by omega, by omega, by omega, of_decide_eq_true hfree, fun c hlow hhigh hc => ?_⟩
    rw [Nat.add_sub_cancel_left]
    apply hnearest (c - 20000) (by omega)
    rw [Function.comp_apply, Nat.add_sub_cancel' hlow]
    exact decide_eq_true hc
  · intro h
    have hhigh := h.high
    refine ⟨b - 20000, Cycle.find?_walk_eq_some.mpr ⟨by omega, ?_, fun y hy hfree => ?_⟩,
      Nat.add_sub_cancel' h.low⟩
    · rw [Function.comp_apply, Nat.add_sub_cancel' h.low]
      exact decide_eq_true h.free
    · have := h.first (20000 + y) (by omega) (by omega) (of_decide_eq_true hfree)
      rwa [Nat.add_sub_cancel_left] at this

/-- The search from any seed: the trio it returns, and when it raises. -/
theorem tryBases_onionBases (bind : Str → Nat → Bool) (seed : Nat) :
    (∀ trio, tryBases bind (onionBases seed) = .ok trio ↔
      ∃ b, FirstTrio bind seed b ∧ trio = (b, b + 1, b + 2)) ∧
    ((∃ e, tryBases bind (onionBases seed) = .error e) ↔
      ∀ b, 20000 ≤ b → b ≤ 49999 → ¬TrioFree bind b) := by
  have hports : ∀ b ∈ onionBases seed, b + 2 ≤ 65535 := by
    intro b hb
    have := mem_onionBases.mp hb
    omega
  constructor
  · intro trio
    rw [tryBases_eq_ok hports]
    simp only [find?_onionBases]
  · rw [tryBases_error_iff hports, List.find?_eq_none]
    simp only [mem_onionBases, decide_eq_true_iff, and_imp]

/-! ### `pick_onion_port_trio` -/

theorem pickOnionPortTrio_eq {sha256 : List UInt8 → FixedBytes 32} {path : Text} {seed : Nat}
    (h : pathSeed sha256 (encodeText path) = .ok seed) :
    pickOnionPortTrio sha256 bind (Str.ofText path) = tryBases bind (onionBases seed) := by
  rw [pickOnionPortTrio, encodeUtf8, Str.toText?_ofText]
  dsimp only [Bind.bind, Except.bind]
  rw [h]

/-- A path that UTF-8 cannot encode has no seed. -/
theorem pickOnionPortTrio_surrogate {stateDir : Str} (h : stateDir.isScalar = false)
    (sha256 : List UInt8 → FixedBytes 32) :
    pickOnionPortTrio sha256 bind stateDir =
      .error (.builtin (Str.lit "UnicodeEncodeError")) := by
  rw [pickOnionPortTrio, encodeUtf8, Str.toText?, h]
  rfl

/-- The search finds the first free base, whatever the seed, and raises only if there is none.

The loop walks once around the cycle of bases, from that of the seed. -/
theorem pickOnionPortTrio_complete (sha256 : List UInt8 → FixedBytes 32)
    (bind : Str → Nat → Bool) (stateDir : Text) :
    ∃ seed < 2 ^ 32, pathSeed sha256 (encodeText stateDir) = .ok seed ∧
      (∀ trio, pickOnionPortTrio sha256 bind (Str.ofText stateDir) = .ok trio ↔
        ∃ b, FirstTrio bind seed b ∧ trio = (b, b + 1, b + 2)) ∧
      ((∃ e, pickOnionPortTrio sha256 bind (Str.ofText stateDir) = .error e) ↔
        ∀ b, 20000 ≤ b → b ≤ 49999 → ¬TrioFree bind b) := by
  obtain ⟨seed, hlt, hseed⟩ := exists_pathSeed sha256 (encodeText stateDir)
  rw [pickOnionPortTrio_eq hseed]
  exact ⟨seed, hlt, hseed, tryBases_onionBases bind seed⟩

/-- The name of the directory has a byte that is not UTF-8: all ports are free, and the call
raises. -/
theorem pickOnionPortTrio_undecodable :
    pickOnionPortTrio (Sample.fit 32) (fun _ _ => true) [0x2F, 0xDCFF] =
        .error (.builtin (Str.lit "UnicodeEncodeError")) ∧
      ¬((∃ e, pickOnionPortTrio (Sample.fit 32) (fun _ _ => true) [0x2F, 0xDCFF] = .error e) ↔
        ∀ b, 20000 ≤ b → b ≤ 49999 → ¬TrioFree (fun _ _ => true) b) := by
  have hraises : pickOnionPortTrio (Sample.fit 32) (fun _ _ => true) [0x2F, 0xDCFF] =
      .error (.builtin (Str.lit "UnicodeEncodeError")) :=
    pickOnionPortTrio_surrogate (by decide) _
  refine ⟨hraises, fun h => ?_⟩
  exact h.mp ⟨_, hraises⟩ 20000 (Nat.le_refl _) (by decide) ⟨rfl, rfl, rfl⟩

end P4
