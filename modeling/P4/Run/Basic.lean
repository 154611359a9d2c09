/-
  Runs of a state machine that puts out events.

  A `Machine` is a partial step function; `none` means that the action cannot happen in the
  state.  A `Config` is a state with the log of everything put out so far, the latest event
  first, so that the past of an event is what stands after it in the log.

  The rules: what every step keeps, every run keeps (`Machine.run_invariant`), also when the
  steps are known to meet a condition (`Machine.run_invariant_of_meets`); the events of a run have
  a property exactly when its steps meet the condition for it (`Machine.log_iff_meets`).  `Along`
  is a property of every event of a log and its past.
-/
import Mathlib.Data.List.Basic

namespace P4

/-- A state machine with states `σ`, actions `α` and events `ο`; the events of a step are
listed in the order in which they happen. -/
abbrev Machine (σ α ο : Type) := σ → α → Option (σ × List ο)

/-- A state and the events so far, the latest first. -/
structure Config (σ ο : Type) where
  state : σ
  log : List ο

/-! ### Logs -/

section

variable {ο : Type} {P : List ο → ο → Prop}

/-- Every event of a log stands in the relation `P` to its past. -/
def Along (P : List ο → ο → Prop) : List ο → Prop
  | [] => True
  | e :: past => P past e ∧ Along P past

instance Along.decidable [∀ past e, Decidable (P past e)] : ∀ log, Decidable (Along P log)
  | [] => inferInstanceAs (Decidable True)
  | _ :: past => @instDecidableAnd _ _ _ (Along.decidable past)

theorem Along.of_append {late early : List ο} (h : Along P (late ++ early)) : Along P early := by
  induction late with
  | nil => exact h
  | cons e late ih => exact ih h.2

/-- What is known of an event of the log. -/
theorem Along.event {late early : List ο} {e : ο} (h : Along P (late ++ e :: early)) :
    P early e :=
  h.of_append.1

/-- New events that rest on the log alone. -/
theorem Along.append (hmono : ∀ past past' e, past ⊆ past' → P past e → P past' e)
    {new log : List ο} (h : Along P log) (hnew : ∀ e ∈ new, P log e) : Along P (new ++ log) := by
  induction new with
  | nil => exact h
  | cons e new ih =>
    rw [List.forall_mem_cons] at hnew
    exact ⟨hmono log _ e (List.subset_append_right new log) hnew.1, ih hnew.2⟩

end

/-! ### Runs -/

namespace Machine

variable {σ α ο : Type}

/-- One step, with the log. -/
def next (m : Machine σ α ο) (c : Config σ ο) (a : α) : Option (Config σ ο) :=
  (m c.state a).map fun r => { state := r.1, log := r.2.reverse ++ c.log }

/-- A run: the actions happen one after the other. -/
def run (m : Machine σ α ο) (c : Config σ ο) : List α → Option (Config σ ο)
  | [] => some c
  | a :: as => (m.next c a).bind fun c' => run m c' as

/-- Every step of the run meets the condition `ok` where it happens. -/
def Meets (m : Machine σ α ο) (ok : Config σ ο → α → Prop) (c : Config σ ο) : List α → Prop
  | [] => True
  | a :: as => ok c a ∧ ∀ c', m.next c a = some c' → Meets m ok c' as

variable {m : Machine σ α ο}

instance Meets.decidable {ok : Config σ ο → α → Prop} [∀ c a, Decidable (ok c a)] :
    ∀ (c : Config σ ο) (as : List α), Decidable (m.Meets ok c as)
  | _, [] => inferInstanceAs (Decidable True)
  | c, a :: as =>
    match h : m.next c a with
    | none => decidable_of_iff (ok c a) ⟨fun ha => ⟨ha, fun c' hc' => by rw [h] at hc'; cases hc'⟩,
        And.left⟩
    | some d =>
      have : Decidable (m.Meets ok d as) := Meets.decidable d as
      decidable_of_iff (ok c a ∧ m.Meets ok d as)
        ⟨fun ha => ⟨ha.1, fun c' hc' => by rw [h] at hc'; cases hc'; exact ha.2⟩,
          fun ha => ⟨ha.1, ha.2 d h⟩⟩

/-- A step is a transition whose events go on top of the log. -/
theorem next_eq_some {c c' : Config σ ο} {a : α} :
    m.next c a = some c' ↔
      ∃ out, m c.state a = some (c'.state, out) ∧ c'.log = out.reverse ++ c.log := by
  rw [next, Option.map_eq_some_iff]
  constructor
  · rintro ⟨⟨s, out⟩, h, rfl⟩
    exact ⟨out, h, rfl⟩
  · rintro ⟨out, h, hlog⟩
    refine ⟨(c'.state, out), h, ?_⟩
    rw [← hlog]

theorem run_cons {c c' : Config σ ο} {a : α} {as : List α} :
    m.run c (a :: as) = some c' ↔ ∃ d, m.next c a = some d ∧ m.run d as = some c' := by
  rw [run, Option.bind_eq_some_iff]

theorem run_append (c : Config σ ο) (as bs : List α) :
    m.run c (as ++ bs) = (m.run c as).bind fun d => m.run d bs := by
  induction as generalizing c with
  | nil => rfl
  | cons a as ih =>
    rw [List.cons_append, run, run]
    cases m.next c a with
    | none => rfl
    | some d => exact ih d

/-- A run with one more step. -/
theorem run_snoc {c d : Config σ ο} {as : List α} {a : α} {s : σ} {out : List ο}
    (h : m.run c as = some d) (hs : m d.state a = some (s, out)) :
    m.run c (as ++ [a]) = some ⟨s, out.reverse ++ d.log⟩ := by
  rw [run_append, h, Option.bind_some]
  exact run_cons.mpr ⟨_, next_eq_some.mpr ⟨out, hs, rfl⟩, rfl⟩

theorem meets_cons {ok : Config σ ο → α → Prop} {c c' : Config σ ο} {a : α} {as : List α}
    (hn : m.next c a = some c') (ha : ok c a) (has : m.Meets ok c' as) :
    m.Meets ok c (a :: as) := by
  refine ⟨ha, fun d hd => ?_⟩
  rw [hn] at hd
  rwa [← Option.some.inj hd]

theorem meets_of_forall {ok : α → Prop} {as : List α} (h : ∀ a ∈ as, ok a) (c : Config σ ο) :
    m.Meets (fun _ a => ok a) c as := by
  induction as generalizing c with
  | nil => trivial
  | cons a as ih =>
    rw [List.forall_mem_cons] at h
    exact ⟨h.1, fun c' _ => ih h.2 c'⟩

/-- What every step that meets `ok` keeps holds after every run whose steps meet `ok`. -/
theorem run_invariant_of_meets {P : Config σ ο → Prop} {ok : Config σ ο → α → Prop}
    (hstep : ∀ c a c', P c → ok c a → m.next c a = some c' → P c') {c c' : Config σ ο}
    {as : List α} (hc : P c) (hok : m.Meets ok c as) (h : m.run c as = some c') : P c' := by
  induction as generalizing c with
  | nil =>
    cases h
    exact hc
  | cons a as ih =>
    obtain ⟨d, hd, h⟩ := run_cons.mp h
    exact ih (hstep c a d hc hok.1 hd) (hok.2 d hd) h

/-- Where the events of a step have a property exactly when the step meets a condition, the
events of a run have it exactly when all its steps do. -/
theorem log_iff_meets {I : σ → Prop} {P : ο → Prop} {ok : Config σ ο → α → Prop}
    (hI : ∀ s a s' out, I s → m s a = some (s', out) → I s')
    (hstep : ∀ c a s out, I c.state → m c.state a = some (s, out) →
      ((∀ e ∈ out, P e) ↔ ok c a)) {c c' : Config σ ο} {as : List α} (hc : I c.state)
    (h : m.run c as = some c') :
    (∀ e ∈ c'.log, P e) ↔ (∀ e ∈ c.log, P e) ∧ m.Meets ok c as := by
  induction as generalizing c with
  | nil =>
    cases h
    rw [Meets, and_true]
  | cons a as ih =>
    obtain ⟨d, hd, h⟩ := run_cons.mp h
    obtain ⟨out, hout, hlog⟩ := next_eq_some.mp hd
    have hmeets : m.Meets ok c (a :: as) ↔ ok c a ∧ m.Meets ok d as := by
      rw [Meets, hd]
      simp only [Option.some.injEq, forall_eq']
    rw [ih (hI _ _ _ _ hc hout) h, hmeets, ← hstep c a _ out hc hout, hlog]
    simp only [List.mem_append, List.mem_reverse, or_imp, forall_and]
    rw [← and_assoc, and_comm (a := ∀ e ∈ out, P e)]

/-- What every step keeps holds after every run. -/
theorem run_invariant {P : Config σ ο → Prop}
    (hstep : ∀ c a c', P c → m.next c a = some c' → P c') {c c' : Config σ ο}
    {as : List α} (hc : P c) (h : m.run c as = some c') : P c' := by
  induction as generalizing c with
  | nil =>
    cases h
    exact hc
  | cons a as ih =>
    obtain ⟨d, hd, h⟩ := run_cons.mp h
    exact ih (hstep c a d hc hd) h

end Machine

end P4
