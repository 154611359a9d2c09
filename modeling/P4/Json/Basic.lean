/-
  JSON values with the string type of a scripting language.

  A string is a list of Unicode code points, lone surrogates included, and an object is the
  list of its members in insertion order.  The type `F` of the non-integral numbers is a
  parameter: nothing below looks inside it.

  `canon` sorts the members of every object by key; two values that differ only in the order
  of their members have the same canonical form (`Same`).
-/
import P4.Dict.Basic
import Mathlib.Algebra.Order.Ring.Int
import Mathlib.Data.List.Sort

namespace P4

/-! ### Strings -/

/-- A code point, in the range of `chr`: the surrogates are included. -/
abbrev CodePoint := Fin 0x110000

instance CodePoint.neZero : NeZero (0x110000 : Nat) := ⟨by decide⟩

instance CodePoint.lawfulBEq : LawfulBEq CodePoint := inferInstance

/-- A string: a sequence of code points. -/
abbrev Str := List CodePoint

/-- Text without surrogates, as a decoder of a UTF encoding returns it. -/
abbrev Text := List Char

namespace Str

/-- The code point of a character. -/
def ofChar (c : Char) : CodePoint := Fin.ofNat 0x110000 c.toNat

/-- Text is a string. -/
def ofText (t : Text) : Str := t.map ofChar

/-- A string literal. -/
def lit (s : String) : Str := ofText s.toList

/-- The surrogate code points `U+D800`–`U+DFFF`. -/
def isSurrogate (c : CodePoint) : Bool := 0xD800 ≤ c.val && c.val < 0xE000

/-- A string of Unicode scalar values: no surrogate occurs in it. -/
def isScalar (s : Str) : Bool := s.all fun c => !isSurrogate c

/-- Encoding as UTF text fails exactly on the surrogates. -/
def toText? (s : Str) : Option Text :=
  if s.isScalar then some (s.map fun c => Char.ofNat c.val) else none

/-- The order of strings: by code point at the first difference. -/
def lt : Str → Str → Bool
  | _, [] => false
  | [], _ :: _ => true
  | a :: s, b :: t => decide (a < b) || (a == b && lt s t)

/-- `s` does not come after `t`. -/
def le (s t : Str) : Bool := !lt t s

end Str

/-! ### Values -/

/-- A JSON value.  Integers are unbounded; `F` is the type of all other numbers. -/
inductive Json (F : Type) where
  | null
  | bool (b : Bool)
  | int (i : Int)
  | float (f : F)
  | str (s : Str)
  | arr (l : List (Json F))
  | obj (m : List (Str × Json F))

/-- The members of an object, in insertion order. -/
abbrev Members (F : Type) := Dict Str (Json F)

namespace Json

variable {F : Type}

/-- Induction over the nested type: an array or object is reached from all of its children. -/
theorem induction {P : Json F → Prop} (null : P .null) (bool : ∀ b, P (.bool b))
    (int : ∀ i, P (.int i)) (float : ∀ f, P (.float f)) (str : ∀ s, P (.str s))
    (arr : ∀ l, (∀ v ∈ l, P v) → P (.arr l))
    (obj : ∀ m, (∀ kv ∈ m, P kv.2) → P (.obj m)) (v : Json F) : P v := by
  refine @Json.rec F P (fun l => ∀ v ∈ l, P v) (fun m => ∀ kv ∈ m, P kv.2) (fun kv => P kv.2)
    null bool int float str arr obj ?_ ?_ ?_ ?_ ?_ v
  · intro v hv; cases hv
  · intro v l hv hl w hw
    rcases List.mem_cons.mp hw with rfl | hw
    · exact hv
    · exact hl w hw
  · intro kv hkv; cases hkv
  · intro kv m hkv hm w hw
    rcases List.mem_cons.mp hw with rfl | hw
    · exact hkv
    · exact hm w hw
  · intro k v hv; exact hv

/-! ### Decidable equality -/

mutual

/-- Equality test on values. -/
def beq [DecidableEq F] : Json F → Json F → Bool
  | .null, .null => true
  | .bool a, .bool b => a == b
  | .int a, .int b => a == b
  | .float a, .float b => decide (a = b)
  | .str a, .str b => a == b
  | .arr a, .arr b => beqList a b
  | .obj a, .obj b => beqMembers a b
  | _, _ => false

/-- Equality test on arrays. -/
def beqList [DecidableEq F] : List (Json F) → List (Json F) → Bool
  | [], [] => true
  | v :: l, w :: r => beq v w && beqList l r
  | _, _ => false

/-- Equality test on object members. -/
def beqMembers [DecidableEq F] : Members F → Members F → Bool
  | [], [] => true
  | (j, v) :: l, (k, w) :: r => j == k && (beq v w && beqMembers l r)
  | _, _ => false

end

theorem beqList_iff [DecidableEq F] {l : List (Json F)}
    (h : ∀ v ∈ l, ∀ w, v.beq w = true ↔ v = w) :
    ∀ r, beqList l r = true ↔ l = r := by
  induction l with
  | nil => intro r; cases r <;> simp [beqList]
  | cons v l ih =>
    intro r
    cases r with
    | nil => simp [beqList]
    | cons w r =>
      rw [beqList, Bool.and_eq_true, h v (by simp) w, ih (fun u hu => h u (by simp [hu])) r,
        List.cons.injEq]

theorem beqMembers_iff [DecidableEq F] {l : Members F}
    (h : ∀ kv ∈ l, ∀ w, kv.2.beq w = true ↔ kv.2 = w) :
    ∀ r, beqMembers l r = true ↔ l = r := by
  induction l with
  | nil => intro r; cases r <;> simp [beqMembers]
  | cons kv l ih =>
    intro r
    obtain ⟨j, v⟩ := kv
    cases r with
    | nil => simp [beqMembers]
    | cons kw r =>
      obtain ⟨k, w⟩ := kw
      rw [beqMembers, Bool.and_eq_true, Bool.and_eq_true, beq_iff_eq, h (j, v) (by simp) w,
        ih (fun u hu => h u (by simp [hu])) r, List.cons.injEq, Prod.mk.injEq, and_assoc]

theorem beq_iff [DecidableEq F] (v : Json F) : ∀ w, v.beq w = true ↔ v = w := by
  induction v using Json.induction with
  | null => intro w; cases w <;> simp [beq]
  | bool b => intro w; cases w <;> simp [beq]
  | int i => intro w; cases w <;> simp [beq]
  | float f => intro w; cases w <;> simp [beq]
  | str s => intro w; cases w <;> simp [beq]
  | arr l ih => intro w; cases w <;> simp [beq, beqList_iff ih]
  | obj m ih => intro w; cases w <;> simp [beq, beqMembers_iff ih]

instance [DecidableEq F] : DecidableEq (Json F) := fun v w =>
  decidable_of_iff _ (beq_iff v w)

/-! ### Traversals -/

mutual

/-- The predicate `p` holds at every node of the value. -/
def allNodes (p : Json F → Bool) : Json F → Bool
  | .arr l => p (.arr l) && allNodesList p l
  | .obj m => p (.obj m) && allNodesMembers p m
  | v => p v

/-- `allNodes` on the elements of an array. -/
def allNodesList (p : Json F → Bool) : List (Json F) → Bool
  | [] => true
  | v :: l => allNodes p v && allNodesList p l

/-- `allNodes` on the members of an object. -/
def allNodesMembers (p : Json F → Bool) : Members F → Bool
  | [] => true
  | (_, v) :: m => allNodes p v && allNodesMembers p m

end

mutual

/-- Rewrite every node that is neither an array nor an object. -/
def mapLeaves (f : Json F → Json F) : Json F → Json F
  | .arr l => .arr (mapLeavesList f l)
  | .obj m => .obj (mapLeavesMembers f m)
  | v => f v

/-- `mapLeaves` on the elements of an array. -/
def mapLeavesList (f : Json F → Json F) : List (Json F) → List (Json F)
  | [] => []
  | v :: l => mapLeaves f v :: mapLeavesList f l

/-- `mapLeaves` on the members of an object. -/
def mapLeavesMembers (f : Json F → Json F) : Members F → Members F
  | [] => []
  | (k, v) :: m => (k, mapLeaves f v) :: mapLeavesMembers f m

end

/-- The members in key order. -/
def sortMembers (m : Members F) : Members F :=
  m.insertionSort fun a b => a.1.le b.1 = true

mutual

/-- The value with the members of every object in key order. -/
def canon : Json F → Json F
  | .arr l => .arr (canonList l)
  | .obj m => .obj (sortMembers (canonMembers m))
  | v => v

/-- `canon` on the elements of an array. -/
def canonList : List (Json F) → List (Json F)
  | [] => []
  | v :: l => canon v :: canonList l

/-- `canon` on the values of the members; the members keep their places. -/
def canonMembers : Members F → Members F
  | [] => []
  | (k, v) :: m => (k, canon v) :: canonMembers m

end

/-- Equality of values as mappings: the order of members does not count. -/
def Same (v w : Json F) : Prop := v.canon = w.canon

/-- No number occurs in the value. -/
def numberFree : Json F → Bool := allNodes fun
  | .int _ => false
  | .float _ => false
  | _ => true

mutual

/-- How many arrays and objects are open at the deepest place of the value. -/
def depth : Json F → Nat
  | .arr l => depthList l + 1
  | .obj m => depthMembers m + 1
  | _ => 0

/-- The greatest depth of an element. -/
def depthList : List (Json F) → Nat
  | [] => 0
  | v :: l => max (depth v) (depthList l)

/-- The greatest depth of a member's value. -/
def depthMembers : Members F → Nat
  | [] => 0
  | (_, v) :: m => max (depth v) (depthMembers m)

end

end Json

end P4
