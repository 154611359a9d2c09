/-
  Counting over runs.

  Some events earn and some events spend, and a stock holds what was earned and is not spent
  yet.  Where the stock after a step covers what the step spends (`Covers`), no run spends more
  than it has earned (`Machine.tally_run`).  The stock may be the number of the entries of a list
  with a property (`countP_set_add`).
-/
import P4.Run.Basic
import Mathlib.Data.List.Basic

namespace P4

section

variable {ο α : Type} {spend earn : ο → Bool}

/-- What is spent and the stock afterwards are covered by what is earned and the stock before. -/
def Covers (spend earn : ο → Bool) (before after : Nat) (out : List ο) : Prop :=
  out.countP spend + after ≤ out.countP earn + before

theorem Covers.append {k l m : Nat} {out out' : List ο} (h : Covers spend earn k l out)
    (h' : Covers spend earn l m out') : Covers spend earn k m (out ++ out') := by
  unfold Covers at *
  simp only [List.countP_append]
  omega

theorem Covers.reverse {k l : Nat} {out : List ο} (h : Covers spend earn k l out) :
    Covers spend earn k l out.reverse := by
  unfold Covers at *
  simpa using h

/-- One entry of a list is replaced. -/
theorem countP_set_add {p : α → Bool} {l : List α} {t : Nat} {old : α} (h : l[t]? = some old)
    (new : α) : (l.set t new).countP p + (p old).toNat = l.countP p + (p new).toNat := by
  induction l generalizing t with
  | nil => simp at h
  | cons a l ih =>
    cases t with
    | zero =>
      rw [List.getElem?_cons_zero, Option.some.injEq] at h
      rw [List.set_cons_zero, List.countP_cons, List.countP_cons, h]
      cases p old <;> cases p new <;> simp
    | succ t =>
      have hrest := ih (List.getElem?_cons_succ ▸ h)
      rw [List.set_cons_succ, List.countP_cons, List.countP_cons]
      omega

end

namespace Machine

variable {σ α ο : Type} {m : Machine σ α ο} {spend earn : ο → Bool}

/-- Where every step that a run can take is covered, the whole run is. -/
theorem tally_run (stock : σ → Nat) {s : σ} {as : List α} {c : Config σ ο}
    (hstep : ∀ bs d a s' out, m.run ⟨s, []⟩ bs = some d → m d.state a = some (s', out) →
      Covers spend earn (stock d.state) (stock s') out)
    (h : m.run ⟨s, []⟩ as = some c) : Covers spend earn (stock s) (stock c.state) c.log := by
  -- the run so far is kept, since a step is covered only where a run leads
  have hinv : (∃ bs, m.run ⟨s, []⟩ bs = some c) ∧
      Covers spend earn (stock s) (stock c.state) c.log := by
    refine run_invariant (P := fun d => (∃ bs, m.run ⟨s, []⟩ bs = some d) ∧
      Covers spend earn (stock s) (stock d.state) d.log) ?_ ⟨⟨[], rfl⟩, Nat.le_refl _⟩ h
    rintro d a d' ⟨⟨bs, hbs⟩, hd⟩ hnext
    obtain ⟨out, hout, hlog⟩ := next_eq_some.mp hnext
    refine ⟨⟨bs ++ [a], ?_⟩, ?_⟩
    · have hsnoc := run_snoc hbs hout
      rwa [← hlog] at hsnoc
    · have hcovered := hd.reverse.append (hstep bs d a _ out hbs hout)
      have hreverse := hcovered.reverse
      rwa [List.reverse_append, List.reverse_reverse, ← hlog] at hreverse
  exact hinv.2

end Machine

end P4
