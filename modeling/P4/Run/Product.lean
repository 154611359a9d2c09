/-
  Machines side by side, and what happens beside them.

  In `product` every machine has a state of its own and the actions come in any order; in
  `beside` something outside acts as well, which no machine sees but the log records.  A run
  of the whole is a run of each machine on its own, with its own part of the log
  (`Machine.run_component`), so what holds of every run of a machine holds of each of them in
  every run of the whole.
-/
import P4.Run.Basic
import Mathlib.Logic.Function.Basic

namespace P4

namespace Machine

variable {σ α ο ι β : Type} [DecidableEq ι]

/-- Machines side by side, each with its own state; an event says where it happened. -/
def product (m : Machine σ α ο) : Machine (ι → σ) (ι × α) (ι × ο) :=
  fun s a => (m (s a.1) a.2).map fun r =>
    (Function.update s a.1 r.1, r.2.map fun e => (a.1, e))

/-- A machine, and actions that happen beside it. -/
def beside (m : Machine σ α ο) (β : Type) : Machine σ (α ⊕ β) (ο ⊕ β) := fun s a =>
  match a with
  | .inl a => (m s a).map fun r => (r.1, r.2.map .inl)
  | .inr b => some (s, [.inr b])

/-- The event of machine `i`, if it is one. -/
def component? (i : ι) : (ι × ο) ⊕ β → Option ο
  | .inl (j, e) => if j = i then some e else none
  | .inr _ => none

/-- The log of machine `i`. -/
def component (i : ι) (log : List ((ι × ο) ⊕ β)) : List ο := log.filterMap (component? i)

theorem mem_component {i : ι} {e : ο} {log : List ((ι × ο) ⊕ β)} :
    e ∈ component i log ↔ .inl (i, e) ∈ log := by
  rw [component, List.mem_filterMap]
  constructor
  · rintro ⟨x, hx, h⟩
    rcases x with ⟨j, e'⟩ | b
    · have h' : (if j = i then some e' else none) = some e := h
      split_ifs at h' with hj
      rw [← hj, ← Option.some.inj h']
      exact hx
    · cases h
  · intro h
    exact ⟨_, h, if_pos rfl⟩

theorem component_append (i : ι) (l l' : List ((ι × ο) ⊕ β)) :
    component i (l ++ l') = component i l ++ component i l' :=
  List.filterMap_append

theorem component_cons_self (i : ι) (e : ο) (l : List ((ι × ο) ⊕ β)) :
    component i (.inl (i, e) :: l) = e :: component i l :=
  List.filterMap_cons_some (if_pos rfl)

/-- The part of machine `i` in the events of a step of machine `j`. -/
theorem component_map (i j : ι) (out : List ο) :
    component i ((out.map fun e => (j, e)).map (Sum.inl (β := β))) =
      if j = i then out else [] := by
  rw [component, List.map_map, List.filterMap_map]
  split_ifs with h
  · have hall : ∀ e, (component? i ∘ Sum.inl (β := β) ∘ fun e : ο => (j, e)) e = some e :=
      fun e => if_pos h
    rw [funext hall, List.filterMap_some]
  · have hall : ∀ e, (component? i ∘ Sum.inl (β := β) ∘ fun e : ο => (j, e)) e = none :=
      fun e => if_neg h
    rw [funext hall, List.filterMap_none]

variable {m : Machine σ α ο}

/-- A step of the whole is a step of one machine, with the others as they were, or happens
outside. -/
theorem beside_product_cases {s s' : ι → σ} {a : (ι × α) ⊕ β} {out : List ((ι × ο) ⊕ β)}
    (h : (m.product.beside β) s a = some (s', out)) :
    (∃ i b t o, a = .inl (i, b) ∧ m (s i) b = some (t, o) ∧ s' = Function.update s i t ∧
      out = (o.map fun e => (i, e)).map .inl) ∨
    ∃ b, a = .inr b ∧ s' = s ∧ out = [.inr b] := by
  rcases a with ⟨i, b⟩ | b
  · obtain ⟨⟨t, o⟩, hm, heq⟩ := Option.map_eq_some_iff.mp h
    obtain ⟨⟨u, o'⟩, hm', heq'⟩ := Option.map_eq_some_iff.mp hm
    cases heq'
    cases heq
    exact Or.inl ⟨i, b, u, o', rfl, hm', rfl, rfl⟩
  · cases h
    exact Or.inr ⟨b, rfl, rfl, rfl⟩

/-- A run of the whole is a run of each machine, with its own part of the log. -/
theorem run_component {s : ι → σ} {as : List ((ι × α) ⊕ β)}
    {c : Config (ι → σ) ((ι × ο) ⊕ β)} (h : (m.product.beside β).run ⟨s, []⟩ as = some c)
    (i : ι) : ∃ bs, m.run ⟨s i, []⟩ bs = some ⟨c.state i, component i c.log⟩ := by
  refine run_invariant (m := m.product.beside β)
    (P := fun c => ∃ bs, m.run ⟨s i, []⟩ bs = some ⟨c.state i, component i c.log⟩)
    ?_ ⟨[], rfl⟩ h
  rintro c a c' ⟨bs, hbs⟩ hnext
  obtain ⟨out, hstep, hlog⟩ := next_eq_some.mp hnext
  rcases beside_product_cases hstep with ⟨j, b, t, o, rfl, hm, hstate, rfl⟩ | ⟨b, rfl, hstate, rfl⟩
  · rw [hlog, component_append, ← List.map_reverse, ← List.map_reverse, component_map, hstate]
    by_cases hj : j = i
    · subst hj
      rw [if_pos rfl, Function.update_self]
      exact ⟨bs ++ [b], run_snoc hbs hm⟩
    · rw [if_neg hj, Function.update_of_ne (Ne.symm hj), List.nil_append]
      exact ⟨bs, hbs⟩
  · rw [hlog, hstate]
    exact ⟨bs, hbs⟩

end Machine

end P4
