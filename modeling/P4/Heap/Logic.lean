/-
  Rules for threads that own the cells they use.

  `Prog.wp rely guar E Q` is a precondition of a program on the register and the cells that the
  thread owns: it uses no other cells, it changes the register as `guar` allows while the other
  threads change it as `rely` allows, every event has the property `E`, and the result, the
  register and the cells that it owns in the end have the property `Q`.

  Programs are put together by `Prog.wp_bind`.  Threads that rely on no more than the others
  guarantee, and own what is in use between them, never use a cell that is not in use, in any
  order of their steps (`adequacy`); what is in use at the end is what their programs end with.
-/
import P4.Heap.Basic

namespace P4

namespace Prog

variable {ρ ν ε α β : Type} {rely guar : ρ → ρ → Prop} {E : ε → Prop}

/-- The precondition of a program. -/
def wp (rely guar : ρ → ρ → Prop) (E : ε → Prop) (Q : α → ρ → Heap ν → Prop) :
    Prog ρ ν ε α → ρ → Heap ν → Prop
  | ret a, r, own => ∀ r', rely r r' → Q a r' own
  | get k, r, own => ∀ r', rely r r' → wp rely guar E Q (k r') r' own
  | put x k, r, own => ∀ r', rely r r' → guar r' x ∧ wp rely guar E Q k x own
  | alloc x k, r, own =>
    ∀ p, own p = none → wp rely guar E Q (k p) r (Function.update own p (some x))
  | read p k, r, own => ∃ x, own p = some x ∧ wp rely guar E Q (k x) r own
  | free p k, r, own =>
    (∃ x, own p = some x) ∧ wp rely guar E Q k r (Function.update own p none)
  | emit e k, r, own => E e ∧ wp rely guar E Q k r own

/-- The rule of consequence. -/
theorem wp_mono {Q Q' : α → ρ → Heap ν → Prop} (hQ : ∀ a r own, Q a r own → Q' a r own)
    {p : Prog ρ ν ε α} {r : ρ} {own : Heap ν} (h : wp rely guar E Q p r own) :
    wp rely guar E Q' p r own := by
  induction p generalizing r own with
  | ret a => exact fun r' hr => hQ _ _ _ (h r' hr)
  | get k ih => exact fun r' hr => ih r' (h r' hr)
  | put x k ih => exact fun r' hr => ⟨(h r' hr).1, ih (h r' hr).2⟩
  | alloc x k ih => exact fun p hp => ih p (h p hp)
  | read p k ih =>
    obtain ⟨x, hx, h⟩ := h
    exact ⟨x, hx, ih x h⟩
  | free p k ih => exact ⟨h.1, ih h.2⟩
  | emit e k ih => exact ⟨h.1, ih h.2⟩

/-- The rule of composition. -/
theorem wp_bind (hrefl : ∀ r, rely r r) {Q : β → ρ → Heap ν → Prop}
    {f : α → Prog ρ ν ε β} {p : Prog ρ ν ε α} {r : ρ} {own : Heap ν}
    (h : wp rely guar E (fun a r own => wp rely guar E Q (f a) r own) p r own) :
    wp rely guar E Q (p.bind f) r own := by
  induction p generalizing r own with
  | ret a => exact h r (hrefl r)
  | get k ih => exact fun r' hr => ih r' (h r' hr)
  | put x k ih => exact fun r' hr => ⟨(h r' hr).1, ih (h r' hr).2⟩
  | alloc x k ih => exact fun p hp => ih p (h p hp)
  | read p k ih =>
    obtain ⟨x, hx, h⟩ := h
    exact ⟨x, hx, ih x h⟩
  | free p k ih => exact ⟨h.1, ih h.2⟩
  | emit e k ih => exact ⟨h.1, ih h.2⟩

/-- What the other threads do to the register does not matter. -/
theorem wp_stable (htrans : ∀ r s t, rely r s → rely s t → rely r t)
    {Q : α → ρ → Heap ν → Prop} {p : Prog ρ ν ε α} {r s : ρ} {own : Heap ν} (hr : rely r s)
    (h : wp rely guar E Q p r own) : wp rely guar E Q p s own := by
  induction p generalizing own with
  | ret a => exact fun r' hr' => h r' (htrans _ _ _ hr hr')
  | get k _ => exact fun r' hr' => h r' (htrans _ _ _ hr hr')
  | put x k _ => exact fun r' hr' => h r' (htrans _ _ _ hr hr')
  | alloc x k ih => exact fun p hp => ih p (h p hp)
  | read p k ih =>
    obtain ⟨x, hx, h⟩ := h
    exact ⟨x, hx, ih x h⟩
  | free p k ih => exact ⟨h.1, ih h.2⟩
  | emit e k ih => exact ⟨h.1, ih h.2⟩

/-- The cells that a program uses next are its own. -/
theorem own_of_access {Q : α → ρ → Heap ν → Prop} {p : Prog ρ ν ε α} {r : ρ} {own : Heap ν}
    (h : wp rely guar E Q p r own) {q : Nat} (hq : p.access? = some q) : (own q).isSome = true := by
  cases p with
  | read p k =>
    cases hq
    obtain ⟨x, hx, -⟩ := h
    rw [hx]
    rfl
  | free p k =>
    cases hq
    obtain ⟨⟨x, hx⟩, -⟩ := h
    rw [hx]
    rfl
  | _ => cases hq

end Prog

/-! ### Threads -/

section

variable {ι ρ ν ε α : Type}

/-- What the threads own is in use, belongs to one of them, and there is nothing else. -/
structure Divided (heap : Heap ν) (own : ι → Heap ν) : Prop where
  inUse : ∀ i p x, own i p = some x → heap p = some x
  apart : ∀ i j p, i ≠ j → (own i p).isSome = true → own j p = none
  owned : ∀ p, (heap p).isSome = true → ∃ i, (own i p).isSome = true

theorem divided_empty : Divided (Heap.empty (ν := ν)) (fun _ : ι => Heap.empty) :=
  ⟨fun _ _ _ h => (nomatch h), fun _ _ _ _ _ => rfl, fun _ h => (nomatch h)⟩

variable [DecidableEq ι] {heap : Heap ν} {own : ι → Heap ν} {i : ι} {p : Nat}

/-- A thread is given a new cell. -/
theorem Divided.alloc (h : Divided heap own) (hp : heap p = none) (x : ν) :
    Divided (Function.update heap p (some x))
      (Function.update own i (Function.update (own i) p (some x))) := by
  have hnone : ∀ j, own j p = none := by
    intro j
    cases hj : own j p with
    | none => rfl
    | some y =>
      have huse := h.inUse j p y hj
      rw [hp] at huse
      cases huse
  refine ⟨?_, ?_, ?_⟩
  · intro j q y hy
    by_cases hj : j = i <;> by_cases hq : q = p
    · subst hj hq
      simpa using hy
    · subst hj
      rw [Function.update_self, Function.update_of_ne hq] at hy
      rw [Function.update_of_ne hq]
      exact h.inUse j q y hy
    · subst hq
      rw [Function.update_of_ne hj, hnone] at hy
      cases hy
    · rw [Function.update_of_ne hj] at hy
      rw [Function.update_of_ne hq]
      exact h.inUse j q y hy
  · intro j k q hjk hjq
    by_cases hq : q = p
    · subst hq
      by_cases hj : j = i
      · subst hj
        rw [Function.update_of_ne (Ne.symm hjk)]
        exact hnone k
      · rw [Function.update_of_ne hj, hnone] at hjq
        cases hjq
    · have hsame : ∀ l, Function.update own i (Function.update (own i) p (some x)) l q =
          own l q := by
        intro l
        by_cases hl : l = i
        · subst hl
          rw [Function.update_self, Function.update_of_ne hq]
        · rw [Function.update_of_ne hl]
      rw [hsame] at hjq ⊢
      exact h.apart j k q hjk hjq
  · intro q hq
    by_cases hqp : q = p
    · subst hqp
      exact ⟨i, by simp⟩
    · rw [Function.update_of_ne hqp] at hq
      obtain ⟨j, hj⟩ := h.owned q hq
      refine ⟨j, ?_⟩
      by_cases hji : j = i
      · subst hji
        rwa [Function.update_self, Function.update_of_ne hqp]
      · rwa [Function.update_of_ne hji]

/-- A thread frees a cell of its own. -/
theorem Divided.free (h : Divided heap own) (hp : (own i p).isSome = true) :
    Divided (Function.update heap p none)
      (Function.update own i (Function.update (own i) p none)) := by
  have hsame : ∀ l q, q ≠ p →
      Function.update own i (Function.update (own i) p none) l q = own l q := by
    intro l q hq
    by_cases hl : l = i
    · subst hl
      rw [Function.update_self, Function.update_of_ne hq]
    · rw [Function.update_of_ne hl]
  have hnone : ∀ l, Function.update own i (Function.update (own i) p none) l p = none := by
    intro l
    by_cases hl : l = i
    · subst hl
      simp
    · rw [Function.update_of_ne hl]
      exact h.apart i l p (Ne.symm hl) hp
  refine ⟨?_, ?_, ?_⟩
  · intro j q y hy
    by_cases hq : q = p
    · subst hq
      rw [hnone] at hy
      cases hy
    · rw [hsame j q hq] at hy
      rw [Function.update_of_ne hq]
      exact h.inUse j q y hy
  · intro j k q hjk hjq
    by_cases hq : q = p
    · subst hq
      exact hnone k
    · rw [hsame _ q hq] at hjq ⊢
      exact h.apart j k q hjk hjq
  · intro q hq
    by_cases hqp : q = p
    · subst hqp
      simp at hq
    · rw [Function.update_of_ne hqp] at hq
      obtain ⟨j, hj⟩ := h.owned q hq
      exact ⟨j, by rwa [hsame j q hqp]⟩

variable {rely guar : ι → ρ → ρ → Prop} {E : ε → Prop} {Q : ι → α → ρ → Heap ν → Prop}

/-- Every thread meets the precondition of what is left of its program. -/
structure Working (rely guar : ι → ρ → ρ → Prop) (E : ε → Prop)
    (Q : ι → α → ρ → Heap ν → Prop) (t : Threads ι ρ ν ε α) (own : ι → Heap ν) : Prop where
  divided : Divided t.heap own
  progs : ∀ i, (t.progs i).wp (rely i) (guar i) E (Q i) t.register (own i)

omit [DecidableEq ι] in
/-- A thread that is proved touches only what it owns. -/
theorem Working.not_faulty {t : Threads ι ρ ν ε α} (h : Working rely guar E Q t own) (i : ι) :
    ¬ Faulty t i := by
  rintro ⟨p, hp, hnone⟩
  have hown := Prog.own_of_access (h.progs i) hp
  obtain ⟨x, hx⟩ := Option.isSome_iff_exists.mp hown
  rw [h.divided.inUse i p x hx] at hnone
  cases hnone

/-- Thread `i` goes on, with the register and the cells of the other threads as they rely on. -/
theorem Working.goOn {t : Threads ι ρ ν ε α} (t' : Threads ι ρ ν ε α)
    (h : Working rely guar E Q t own)
    (htrans : ∀ i r s u, rely i r s → rely i s u → rely i r u)
    (hother : ∀ j, j ≠ i → rely j t.register t'.register) (hprogs : t'.progs = t.progs)
    {own' : Heap ν} (hdivided : Divided t'.heap (Function.update own i own'))
    {k : Prog ρ ν ε α} (hk : k.wp (rely i) (guar i) E (Q i) t'.register own') :
    Working rely guar E Q (t'.goOn i k) (Function.update own i own') := by
  refine ⟨hdivided, fun j => ?_⟩
  show (Function.update t'.progs i k j).wp _ _ _ _ t'.register _
  by_cases hj : j = i
  · subst hj
    rwa [Function.update_self, Function.update_self]
  · rw [Function.update_of_ne hj, Function.update_of_ne hj, hprogs]
    exact Prog.wp_stable (htrans j) (hother j hj) (h.progs j)

/-- Every step of a thread keeps the preconditions, and reports what `E` allows. -/
theorem Working.step {t t' : Threads ι ρ ν ε α} {a : ι × Nat} {out : List (ι × ε)}
    (h : Working rely guar E Q t own) (hrefl : ∀ i r, rely i r r)
    (htrans : ∀ i r s u, rely i r s → rely i s u → rely i r u)
    (hguar : ∀ i j r s, i ≠ j → guar i r s → rely j r s)
    (hs : threads t a = some (t', out)) :
    (∃ own', Working rely guar E Q t' own') ∧ ∀ e ∈ out, E e.2 := by
  obtain ⟨i, p⟩ := a
  have hprog := h.progs i
  have hsame : ∀ j, j ≠ i → rely j t.register t.register := fun j _ => hrefl j _
  have hself : Function.update own i (own i) = own := Function.update_eq_self i own
  have hdivided : Divided t.heap (Function.update own i (own i)) := by
    rw [hself]
    exact h.divided
  rw [threads] at hs
  cases hk : t.progs i with
  | ret a =>
    simp only [hk] at hs
    cases hs
  | get k =>
    simp only [hk] at hs hprog
    cases hs
    exact ⟨⟨_, h.goOn t htrans hsame rfl hdivided (hprog _ (hrefl i _))⟩, by simp⟩
  | put r k =>
    simp only [hk] at hs hprog
    cases hs
    obtain ⟨hg, hwp⟩ := hprog _ (hrefl i _)
    have hothers : ∀ j, j ≠ i → rely j t.register r := fun j hj => hguar i j _ _ (Ne.symm hj) hg
    exact ⟨⟨_, h.goOn { t with register := r } htrans hothers rfl hdivided hwp⟩, by simp⟩
  | alloc x k =>
    simp only [hk] at hs hprog
    split at hs
    · cases hs
    · rename_i hp
      cases hs
      have hnone : own i p = none := by
        cases hown : own i p with
        | none => rfl
        | some y =>
          rw [h.divided.inUse i p y hown] at hp
          cases hp
      exact ⟨⟨_, h.goOn { t with heap := Function.update t.heap p (some x) } htrans hsame
        rfl (h.divided.alloc hp x) (hprog p hnone)⟩, by simp⟩
  | read q k =>
    simp only [hk] at hs hprog
    obtain ⟨x, hx, hwp⟩ := hprog
    rw [h.divided.inUse i q x hx] at hs
    cases hs
    exact ⟨⟨_, h.goOn t htrans hsame rfl hdivided hwp⟩, by simp⟩
  | free q k =>
    simp only [hk] at hs hprog
    obtain ⟨⟨x, hx⟩, hwp⟩ := hprog
    rw [h.divided.inUse i q x hx] at hs
    cases hs
    have hsome : (own i q).isSome = true := by
      rw [hx]
      rfl
    exact ⟨⟨_, h.goOn { t with heap := Function.update t.heap q none } htrans hsame rfl
      (h.divided.free hsome) hwp⟩, by simp⟩
  | emit e k =>
    simp only [hk] at hs hprog
    cases hs
    refine ⟨⟨_, h.goOn t htrans hsame rfl hdivided hprog.2⟩, ?_⟩
    simpa using hprog.1

/-- Threads whose programs meet their preconditions on an empty heap: in every order of their
steps none of them is at fault, their events have the property `E`, and what is in use when one
of them has ended is what its program ends with and what the others own. -/
theorem adequacy {t : Threads ι ρ ν ε α} (hheap : t.heap = Heap.empty)
    (hrefl : ∀ i r, rely i r r) (htrans : ∀ i r s u, rely i r s → rely i s u → rely i r u)
    (hguar : ∀ i j r s, i ≠ j → guar i r s → rely j r s)
    (hprogs : ∀ i, (t.progs i).wp (rely i) (guar i) E (Q i) t.register Heap.empty)
    {as : List (ι × Nat)} {c : Config (Threads ι ρ ν ε α) (ι × ε)}
    (hrun : threads.run ⟨t, []⟩ as = some c) :
    (∃ own, Working rely guar E Q c.state own) ∧ ∀ e ∈ c.log, E e.2 := by
  have hstart : Working rely guar E Q t (fun _ => Heap.empty) :=
    ⟨by rw [hheap]; exact divided_empty, hprogs⟩
  refine Machine.run_invariant
    (P := fun c => (∃ own, Working rely guar E Q c.state own) ∧ ∀ e ∈ c.log, E e.2) ?_
    ⟨⟨_, hstart⟩, by simp⟩ hrun
  rintro d a d' ⟨⟨own, hown⟩, hlog⟩ hnext
  obtain ⟨out, hs, hlog'⟩ := Machine.next_eq_some.mp hnext
  obtain ⟨hnew, hout⟩ := hown.step hrefl htrans hguar hs
  refine ⟨hnew, fun e he => ?_⟩
  rw [hlog'] at he
  rcases List.mem_append.mp he with he | he
  · exact hout e (List.mem_reverse.mp he)
  · exact hlog e he

omit [DecidableEq ι] in
/-- When every program has ended and owns nothing, nothing is in use. -/
theorem Working.heap_empty {t : Threads ι ρ ν ε α} (h : Working rely guar E Q t own)
    (hrefl : ∀ i r, rely i r r) (hQ : ∀ i a r own, Q i a r own → own = Heap.empty)
    (hend : ∀ i, (t.progs i).result?.isSome = true) : t.heap = Heap.empty := by
  funext p
  cases hp : t.heap p with
  | none => rfl
  | some x =>
    obtain ⟨i, hi⟩ := h.divided.owned p (by rw [hp]; rfl)
    have hprog := h.progs i
    cases hk : t.progs i with
    | ret a =>
      rw [hk] at hprog
      rw [hQ i a _ _ (hprog _ (hrefl i _))] at hi
      cases hi
    | _ =>
      have hi' := hend i
      rw [hk] at hi'
      cases hi'

end

end P4
