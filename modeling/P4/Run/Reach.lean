/-
  What a machine can still do.

  `Reaches` goes from one configuration to another by steps that meet a condition, so a result
  of this form says that nothing that happened before stands in the way.  It is put together from
  single steps (`Reaches.of_step`, `Reaches.trans`); a measure that some step lowers as long as it
  is positive can be brought to zero (`Reaches.exhaust`).
-/
import P4.Run.Product
import Mathlib.Data.List.Infix

namespace P4

namespace Machine

section

variable {σ α ο : Type} {m : Machine σ α ο} {ok : Config σ ο → α → Prop} {c d e : Config σ ο}

/-- The machine can get from `c` to `d` by steps that meet `ok`. -/
def Reaches (m : Machine σ α ο) (ok : Config σ ο → α → Prop) (c d : Config σ ο) : Prop :=
  ∃ as, m.run c as = some d ∧ m.Meets ok c as

theorem meets_append {as bs : List α} (h : m.run c as = some d) (has : m.Meets ok c as)
    (hbs : m.Meets ok d bs) : m.Meets ok c (as ++ bs) := by
  induction as generalizing c with
  | nil =>
    cases h
    exact hbs
  | cons a as ih =>
    obtain ⟨c', hn, hrun⟩ := run_cons.mp h
    exact meets_cons hn has.1 (ih hrun (has.2 c' hn))

theorem Reaches.refl (c : Config σ ο) : Reaches m ok c c := ⟨[], rfl, trivial⟩

theorem Reaches.trans (h : Reaches m ok c d) (h' : Reaches m ok d e) : Reaches m ok c e := by
  obtain ⟨as, has, hmeets⟩ := h
  obtain ⟨bs, hbs, hmeets'⟩ := h'
  refine ⟨as ++ bs, ?_, meets_append has hmeets hmeets'⟩
  rw [run_append, has]
  exact hbs

theorem Reaches.of_step {a : α} {s : σ} {out : List ο} (h : m c.state a = some (s, out))
    (ha : ok c a) : Reaches m ok c ⟨s, out.reverse ++ c.log⟩ := by
  have hn : m.next c a = some ⟨s, out.reverse ++ c.log⟩ := next_eq_some.mpr ⟨out, h, rfl⟩
  exact ⟨[a], run_cons.mpr ⟨_, hn, rfl⟩, meets_cons hn ha trivial⟩

/-- What is in the log stays there. -/
theorem Reaches.log (h : Reaches m ok c d) : c.log <:+ d.log := by
  obtain ⟨as, has, -⟩ := h
  refine run_invariant (P := fun d => c.log <:+ d.log) ?_ (List.suffix_refl _) has
  intro d a d' hd hn
  obtain ⟨out, -, hlog⟩ := next_eq_some.mp hn
  rw [hlog]
  exact hd.trans (List.suffix_append _ _)

/-- A measure that can always be lowered can be brought to zero. -/
theorem Reaches.exhaust {P : Config σ ο → Prop} {μ : Config σ ο → Nat}
    (hlower : ∀ c, P c → μ c ≠ 0 → ∃ d, Reaches m ok c d ∧ P d ∧ μ d < μ c) (hc : P c) :
    ∃ d, Reaches m ok c d ∧ P d ∧ μ d = 0 := by
  induction hμ : μ c using Nat.strong_induction_on generalizing c with
  | _ k ih =>
    by_cases hzero : μ c = 0
    · exact ⟨c, .refl c, hc, hzero⟩
    · obtain ⟨d, hcd, hd, hlt⟩ := hlower c hc hzero
      obtain ⟨e, hde, he, hend⟩ := ih (μ d) (hμ ▸ hlt) hd rfl
      exact ⟨e, hcd.trans hde, he, hend⟩

end

section

variable {σ α ο ι β : Type} [DecidableEq ι] {m : Machine σ α ο}

/-- A step of one machine is a step of the whole. -/
theorem beside_product_step {s : ι → σ} {i : ι} {a : α} {t : σ} {out : List ο}
    (h : m (s i) a = some (t, out)) :
    (m.product.beside β) s (.inl (i, a)) =
      some (Function.update s i t, (out.map fun e => (i, e)).map .inl) := by
  simp only [beside, product, h, Option.map_some]

end

end Machine

end P4
