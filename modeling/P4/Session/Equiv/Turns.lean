/-
  The turns of coroutines.

  A step of a session takes at most one coroutine from one place to another, and everything that
  is reported belongs to it (`Turn`).  A coroutine that does not exist yet counts as finished, so
  the number of coroutines at a place changes by that one turn (`turn_step`).
-/
import P4.Run.Tally
import P4.Session.Equiv.Basic

namespace P4

variable {F : Type}

/-- The coroutine that an action continues. -/
def SessionAct.index? : SessionAct F → Option Nat
  | .acquire t _ => some t
  | .closed t _ => some t
  | .gathered t => some t
  | .replied t _ => some t
  | .applied t => some t
  | .raised t => some t
  | _ => none

/-- A coroutine gets the lock, or has closed the previous connection. -/
def SessionAct.enters : SessionAct F → Bool
  | .acquire _ _ => true
  | .closed _ _ => true
  | _ => false

/-- An action that starts a coroutine continues none. -/
theorem SessionAct.index?_of_task? {a : SessionAct F} {task : Task F} (h : a.task? = some task) :
    a.index? = none := by
  cases a <;> first | rfl | cases h

namespace SessionWorld

variable {w w' : SessionWorld F}

/-- The place of a coroutine before and after an action, and what it reports. -/
inductive Turn : SessionAct F → Task F → Task F → List (SessionEvent F) → Prop
  /-- it ends, or there is none -/
  | ends (a old) : Turn a old .finished []
  | called (a task) : a.task? = some task → Turn a .finished task []
  | moves (t a old new) : Moves t a old new → Turn a old new []
  /-- a connection is made and an offer is prepared -/
  | prepares (a phase) : a.enters = true → phase = .lock ∨ phase = .closing →
    Turn a (.initiate phase) (.initiate .negotiating) []
  /-- an offer is taken up, and perhaps turns out to be incomplete -/
  | takes (a msg phase sid new) : a.enters = true → phase = .lock ∨ phase = .closing →
    new = .offer msg .negotiating ∨ new = .finished →
    Turn a (.offer msg phase) new [.took msg sid]
  | applies (t sid reply) :
    Turn (.applied t) (.initiate (.applying reply)) .finished [.applied sid reply]

/-! ### Actions that leave one way to go -/

section

variable {old new : Task F} {out : List (SessionEvent F)} {t : Nat} {msg : Members F}

theorem Turn.callOffer (h : Turn (.callOffer msg) old new out) :
    (new = .offer msg .lock ∨ new = .finished) ∧ out = [] := by
  cases h with
  | ends => simp
  | called a task htask =>
    cases htask
    simp
  | moves t a old new hm => cases hm
  | prepares a phase ha => simp [SessionAct.enters] at ha
  | takes a msg phase sid new ha => simp [SessionAct.enters] at ha

/-- Up to its next `await`, a coroutine that has entered closes a connection. -/
theorem Moves.closes {a : SessionAct F} (h : Moves t a old new) (hg : ∀ u, a ≠ .gathered u)
    (hr : ∀ u reply, a ≠ .replied u reply) :
    (old = .initiate .lock ∧ new = .initiate .closing) ∨
      (∃ msg, old = .offer msg .lock ∧ new = .offer msg .closing) ∨
      (old = .drop .lock ∧ new = .drop .closing) := by
  cases h with
  | closeInitiate => simp
  | closeOffer sid msg => simp
  | closeDrop => simp
  | gathered => exact absurd rfl (hg t)
  | replied reply => exact absurd rfl (hr t reply)

theorem Turn.raised (h : Turn (.raised t) old new out) : new = .finished ∧ out = [] := by
  cases h with
  | ends => simp
  | called a task htask => cases htask
  | moves t a old new hm => cases hm
  | prepares a phase ha => simp [SessionAct.enters] at ha
  | takes a msg phase sid new ha => simp [SessionAct.enters] at ha

theorem Turn.gathered (h : Turn (.gathered t) old new out) :
    (old = .initiate .negotiating ∧ new = .initiate .requesting ∨ new = .finished) ∧
      out = [] := by
  cases h with
  | ends => simp
  | called a task htask => cases htask
  | moves t a old new hm =>
    cases hm
    simp
  | prepares a phase ha => simp [SessionAct.enters] at ha
  | takes a msg phase sid new ha => simp [SessionAct.enters] at ha

theorem Turn.replied (h : Turn (.replied t msg) old new out) :
    (new = .initiate (.applying msg) ∨ new = .finished) ∧ out = [] := by
  cases h with
  | ends => simp
  | called a task htask => cases htask
  | moves t a old new hm =>
    cases hm
    simp
  | prepares a phase ha => simp [SessionAct.enters] at ha
  | takes a msg phase sid new ha => simp [SessionAct.enters] at ha

end

/-! ### Steps -/

/-- The coroutine that a step takes from one place to another. -/
structure Turns (w w' : SessionWorld F) (a : SessionAct F) (old new : Task F)
    (out : List (SessionEvent F)) : Prop where
  turn : Turn a old new out
  oldIs : ∀ t, a.index? = some t → w.tasks[t]? = some old
  count : ∀ place : Task F → Bool, place .finished = false →
    w'.tasks.countP place + (place old).toNat = w.tasks.countP place + (place new).toNat

/-- The coroutine `t` is taken to another place. -/
theorem turns_set {a : SessionAct F} {t : Nat} {old new : Task F} {out : List (SessionEvent F)}
    (ht : w.tasks[t]? = some old) (hw' : w'.tasks = w.tasks.set t new) (hturn : Turn a old new out)
    (ha : a.index? = some t) : Turns w w' a old new out := by
  refine ⟨hturn, ?_, ?_⟩
  · intro u hu
    rw [ha, Option.some.injEq] at hu
    rwa [← hu]
  · intro place _
    rw [hw']
    exact countP_set_add ht new

/-- No coroutine is taken anywhere. -/
theorem turns_same {a : SessionAct F} (hw' : w'.tasks = w.tasks) (ha : a.index? = none) :
    Turns w w' a .finished .finished [] := by
  refine ⟨.ends a .finished, ?_, ?_⟩
  · intro u hu
    rw [ha] at hu
    exact absurd hu nofun
  · intro place _
    rw [hw']

/-- What `_handle_offer` does with an offer once the previous connection is closed. -/
theorem turns_startOffer {v : SessionWorld F} {a : SessionAct F} {t : Nat} {msg : Members F}
    {phase : OfferPhase} (ht : w.tasks[t]? = some (.offer msg phase)) (hv : v.tasks = w.tasks)
    (hphase : phase = .lock ∨ phase = .closing) (ha : a.index? = some t)
    (henters : a.enters = true) :
    ∃ new, Turns w (v.startOffer t msg).1 a (.offer msg phase) new (v.startOffer t msg).2 := by
  have hset : ∀ task, v.tasks.set t task = w.tasks.set t task := by
    intro task
    rw [hv]
  unfold startOffer
  dsimp only
  split
  · exact ⟨_, turns_set ht (hset _) (.ends a _) ha⟩
  · rename_i sid _
    split
    · exact ⟨_, turns_set ht (hset _) (.takes a msg phase sid _ henters hphase (Or.inl rfl)) ha⟩
    · exact ⟨_, turns_set ht (hset _) (.takes a msg phase sid _ henters hphase (Or.inr rfl)) ha⟩

theorem startInitiate_tasks {t : Nat} {sid : Str} :
    (w.startInitiate t sid).1.tasks = w.tasks.set t (.initiate .negotiating) := by
  show (wireDatachannel _ _ _).tasks.set t _ = _
  rw [wireDatachannel_tasks]
  rfl

/-- Every step is the turn of one coroutine. -/
theorem turn_step {a : SessionAct F} {out : List (SessionEvent F)}
    (hs : step w a = some (w', out)) : ∃ old new, Turns w w' a old new out := by
  have hentered : ∀ t (task : Task F), (w.entered t).tasks.set t task = w.tasks.set t task := by
    intro t task
    rw [entered_tasks]
  cases step_outcome hs with
  | called a task htask =>
    refine ⟨.finished, task, .called a task htask, ?_, ?_⟩
    · intro t ht
      rw [SessionAct.index?_of_task? htask] at ht
      exact absurd ht nofun
    · intro place hplace
      simp [hplace, List.countP_singleton, Bool.toNat, Bool.cond_eq_ite]
  | connected t sid hl ht hc => exact ⟨_, _, turns_set ht rfl (.ends _ _) rfl⟩
  | closes t sid task task' hl ht hm hpc =>
    exact ⟨_, _, turns_set ht (hentered t task') (.moves t _ _ _ hm) rfl⟩
  | dials t sid hl ht hc hpc =>
    refine ⟨_, _, turns_set ht ?_ (.prepares _ _ rfl (Or.inl rfl)) rfl⟩
    rw [startInitiate_tasks, hentered]
  | redials t sid ht =>
    exact ⟨_, _, turns_set ht startInitiate_tasks (.prepares _ _ rfl (Or.inr rfl)) rfl⟩
  | answers t sid msg hl ht hpc =>
    obtain ⟨new, hnew⟩ :=
      turns_startOffer (a := .acquire t sid) ht entered_tasks (Or.inl rfl) rfl rfl
    exact ⟨_, new, hnew⟩
  | reanswers t sid msg ht =>
    obtain ⟨new, hnew⟩ := turns_startOffer (a := .closed t sid) ht rfl (Or.inr rfl) rfl rfl
    exact ⟨_, new, hnew⟩
  | drops t sid hl ht => exact ⟨_, _, turns_set ht (hentered t _) (.ends _ _) rfl⟩
  | dropped t sid ht => exact ⟨_, _, turns_set ht rfl (.ends _ _) rfl⟩
  | offers t ht => exact ⟨_, _, turns_set ht rfl (.moves t _ _ _ .gathered) rfl⟩
  | answered t msg ht => exact ⟨_, _, turns_set ht rfl (.ends _ _) rfl⟩
  | replied t reply ht => exact ⟨_, _, turns_set ht rfl (.moves t _ _ _ (.replied reply)) rfl⟩
  | applied t reply ht => exact ⟨_, _, turns_set ht rfl (.applies t _ reply) rfl⟩
  | raised t task ht => exact ⟨_, _, turns_set ht rfl (.ends _ _) rfl⟩
  | connectionStateChange =>
    exact ⟨_, _, turns_same onConnectionstatechange_tasks rfl⟩
  | dataChannel => exact ⟨_, _, turns_same wireDatachannel_tasks rfl⟩
  | channelOpen => exact ⟨_, _, turns_same markOpen_tasks rfl⟩
  | channelClose => exact ⟨_, _, turns_same rfl rfl⟩
  | setContact => exact ⟨_, _, turns_same rfl rfl⟩
  | shutdown => exact ⟨_, _, turns_same closeSessionPc_tasks rfl⟩

end SessionWorld

end P4
