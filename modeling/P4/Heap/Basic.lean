/-
  Threads over a heap of values and a shared register.

  A program (`Prog`) reads and writes the register, allocates, reads and frees cells of the heap,
  and reports events; what it does next depends on what it read.  In a machine of threads
  (`threads`) the steps of the programs come in any order, and the allocator may return any
  address that is not in use, also one that was freed before.  A thread that reads or frees an
  address that is not in use is at fault (`Faulty`), and has no step.
-/
import P4.Run.Basic
import Mathlib.Logic.Function.Basic

namespace P4

/-- A program with the register type `ρ`, cells of type `ν`, events of type `ε` and a result of
type `α`. -/
inductive Prog (ρ ν ε α : Type) where
  | ret (a : α)
  | get (k : ρ → Prog ρ ν ε α)
  | put (r : ρ) (k : Prog ρ ν ε α)
  | alloc (x : ν) (k : Nat → Prog ρ ν ε α)
  | read (p : Nat) (k : ν → Prog ρ ν ε α)
  | free (p : Nat) (k : Prog ρ ν ε α)
  | emit (e : ε) (k : Prog ρ ν ε α)

/-- The cells in use. -/
abbrev Heap (ν : Type) := Nat → Option ν

/-- The empty heap. -/
def Heap.empty {ν : Type} : Heap ν := fun _ => none

namespace Prog

variable {ρ ν ε α β : Type}

/-- One program after the other. -/
def bind : Prog ρ ν ε α → (α → Prog ρ ν ε β) → Prog ρ ν ε β
  | ret a, f => f a
  | get k, f => get fun r => (k r).bind f
  | put r k, f => put r (k.bind f)
  | alloc x k, f => alloc x fun p => (k p).bind f
  | read p k, f => read p fun x => (k x).bind f
  | free p k, f => free p (k.bind f)
  | emit e k, f => emit e (k.bind f)

/-- The cell that the program uses next. -/
def access? : Prog ρ ν ε α → Option Nat
  | read p _ => some p
  | free p _ => some p
  | _ => none

/-- A program at its end has a result. -/
def result? : Prog ρ ν ε α → Option α
  | ret a => some a
  | _ => none

end Prog

/-- The threads, what is left of their programs, and what they share. -/
structure Threads (ι ρ ν ε α : Type) where
  register : ρ
  heap : Heap ν
  progs : ι → Prog ρ ν ε α

section

variable {ι ρ ν ε α : Type}

/-- The thread uses a cell that is not in use. -/
def Faulty (t : Threads ι ρ ν ε α) (i : ι) : Prop :=
  ∃ p, (t.progs i).access? = some p ∧ t.heap p = none

/-- Thread `i` goes on with `k`. -/
def Threads.goOn [DecidableEq ι] (t : Threads ι ρ ν ε α) (i : ι) (k : Prog ρ ν ε α) :
    Threads ι ρ ν ε α :=
  { t with progs := Function.update t.progs i k }

/-- A step of a thread; the address is the one that the allocator returns. -/
def threads [DecidableEq ι] : Machine (Threads ι ρ ν ε α) (ι × Nat) (ι × ε) := fun t a =>
  match t.progs a.1 with
  | .ret _ => none
  | .get k => some (t.goOn a.1 (k t.register), [])
  | .put r k => some ({ t with register := r }.goOn a.1 k, [])
  | .alloc x k =>
    match t.heap a.2 with
    | some _ => none
    | none => some ({ t with heap := Function.update t.heap a.2 (some x) }.goOn a.1 (k a.2), [])
  | .read p k => (t.heap p).map fun x => (t.goOn a.1 (k x), [])
  | .free p k =>
    (t.heap p).map fun _ => ({ t with heap := Function.update t.heap p none }.goOn a.1 k, [])
  | .emit e k => some (t.goOn a.1 k, [(a.1, e)])

end

end P4
