/-
  The session lock is never lost.

  Whoever holds the lock is a coroutine that is still in the locked part (`Released`), so it can
  go on; when the coroutines have ended, the lock is free (`drained_of_finished`).  On a session at
  rest `_initiate_with_contact` and `_handle_offer` get as far as their local descriptions,
  whatever is left of earlier connections (`run_initiate`, `run_offer`).
-/
import P4.Session.Equiv.Turns

namespace P4

variable {F : Type}

/-- The coroutine has not ended. -/
def Task.alive : Task F → Bool
  | .finished => false
  | _ => true

theorem Task.eq_finished {task : Task F} (h : Task.alive task = false) : task = .finished := by
  unfold Task.alive at h
  split at h
  · rfl
  · cases h

namespace SessionWorld

variable {w w' : SessionWorld F} {t : Nat}

/-! ### The holder of the lock -/

/-- The lock is free, or a coroutine in the locked part has it. -/
def Released (w : SessionWorld F) : Prop :=
  ∀ t, w.lock = some t → ∃ task, w.tasks[t]? = some task ∧ task.holding = true

theorem released_new (contact : Ref (Contact F)) (role : Role) : Released (new contact role) := by
  intro t ht
  cases ht

/-- Code that leaves the coroutines and the lock alone. -/
theorem Released.of_frame (h : Released w) (ht : w'.tasks = w.tasks) (hl : w'.lock = w.lock) :
    Released w' := by
  intro t hlock
  rw [hl] at hlock
  rw [ht]
  exact h t hlock

/-- A coroutine ends, and the lock that it holds is free. -/
theorem Released.finish (h : Released w) (t : Nat) : Released (w.finish t) := by
  intro u hu
  rw [SessionWorld.finish] at hu
  dsimp only at hu
  split_ifs at hu with hl
  have hne : t ≠ u := by
    rintro rfl
    exact hl hu
  obtain ⟨task, htask, hh⟩ := h u hu
  exact ⟨task, by rw [SessionWorld.finish, List.getElem?_set_ne hne, htask], hh⟩

/-- The owner of the lock ends. -/
theorem released_finish (hl : w.lock = some t) : Released (w.finish t) := by
  intro u hu
  rw [SessionWorld.finish, if_pos hl] at hu
  cases hu

/-- The owner of the lock waits at another place of the locked part. -/
theorem released_suspend (hl : w.lock = some t) (ht : t < w.tasks.length) {task : Task F}
    (hh : task.holding = true) : Released (w.suspend t task) := by
  intro u hu
  have hut : t = u := Option.some.inj (hl.symm.trans hu)
  rw [← hut, suspend, List.getElem?_set_self ht]
  exact ⟨task, rfl, hh⟩

theorem released_startInitiate (hl : w.lock = some t) (ht : t < w.tasks.length) (sid : Str) :
    Released (w.startInitiate t sid).1 := by
  refine released_suspend (w := ((w.createPc true).setSessionId (.str sid)).wireDatachannel _ _)
    ?_ ?_ rfl
  · rw [wireDatachannel_lock]
    exact hl
  · rw [wireDatachannel_tasks]
    exact ht

theorem released_startOffer (hl : w.lock = some t) (ht : t < w.tasks.length) (msg : Members F) :
    Released (w.startOffer t msg).1 := by
  unfold startOffer
  dsimp only
  split
  · exact released_finish hl
  · split
    · exact released_suspend (w := (w.createPc false).setSessionId _) hl ht rfl
    · exact released_finish hl

/-- No step loses the lock. -/
theorem released_step {a : SessionAct F} {out : List (SessionEvent F)} (hlocked : Locked w)
    (h : Released w) (hs : step w a = some (w', out)) : Released w' := by
  have hlt : ∀ {t : Nat} {task : Task F}, w.tasks[t]? = some task → t < w.tasks.length :=
    fun ht => (List.getElem?_eq_some_iff.mp ht).1
  have hlt' : ∀ {t : Nat} {task : Task F}, w.tasks[t]? = some task →
      t < (w.entered t).tasks.length := by
    intro t task ht
    rw [entered_tasks]
    exact hlt ht
  cases step_outcome hs with
  | called a task htask =>
    intro t ht
    obtain ⟨task', htask', hh⟩ := h t ht
    exact ⟨task', by rw [List.getElem?_append_left (hlt htask'), htask'], hh⟩
  -- the owner of the lock goes on inside the locked part
  | closes t sid task task' hl ht hm =>
    refine released_suspend rfl (hlt' ht) ?_
    cases hm <;> rfl
  | dials t sid hl ht => exact released_startInitiate rfl (hlt' ht) _
  | redials t sid ht => exact released_startInitiate (hlocked.holder t _ ht rfl) (hlt ht) _
  | answers t sid msg hl ht => exact released_startOffer rfl (hlt' ht) msg
  | reanswers t sid msg ht => exact released_startOffer (hlocked.holder t _ ht rfl) (hlt ht) msg
  | offers t ht => exact released_suspend (hlocked.holder t _ ht rfl) (hlt ht) rfl
  | replied t reply ht => exact released_suspend (hlocked.holder t _ ht rfl) (hlt ht) rfl
  -- a coroutine ends, and frees the lock if it holds it
  | connected t => exact h.finish t
  | drops t sid hl => exact released_finish rfl
  | dropped t => exact h.finish t
  | answered t => exact h.finish t
  | applied t reply =>
    apply Released.finish
    exact h.of_frame rfl rfl
  | raised t => exact h.finish t
  -- callbacks have no part in it
  | connectionStateChange p st => exact h.of_frame (by simp) (by simp)
  | dataChannel p rs => exact h.of_frame (by simp) (by simp)
  | channelOpen d => exact h.of_frame (by simp [setReadyState]) (by simp [setReadyState])
  | channelClose d => exact h.of_frame rfl rfl
  | setContact contact role => exact h.of_frame rfl rfl
  | shutdown => exact h.of_frame (by simp) (by simp)

/-! ### Ending the coroutines -/

/-- No coroutine works on the session. -/
structure Drained (w : SessionWorld F) : Prop where
  lock : w.lock = none
  tasks : ∀ (t : Nat) (task : Task F), w.tasks[t]? = some task → task = .finished

/-- The session without its coroutines. -/
theorem drained_of_finished (h : Released w) (hall : w.tasks.countP Task.alive = 0) :
    Drained w := by
  have htasks : ∀ (t : Nat) (task : Task F), w.tasks[t]? = some task → task = .finished := by
    intro t task ht
    have hnot := List.countP_eq_zero.mp hall task (List.mem_of_getElem? ht)
    exact Task.eq_finished (by simpa using hnot)
  refine ⟨?_, htasks⟩
  cases hl : w.lock with
  | none => rfl
  | some t =>
    obtain ⟨task, ht, hh⟩ := h t hl
    rw [htasks t task ht] at hh
    cases hh

/-- A coroutine that has not ended can end. -/
theorem step_raised {task : Task F} (ht : w.tasks[t]? = some task) (ha : Task.alive task = true) :
    step w (.raised t) = some (w.finish t, []) := by
  simp only [step, ht]
  cases task with
  | finished => cases ha
  | _ => rfl

theorem countP_finish {task : Task F} (ht : w.tasks[t]? = some task) (ha : task.alive = true) :
    (w.finish t).tasks.countP Task.alive + 1 = w.tasks.countP Task.alive := by
  have h := countP_set_add (p := Task.alive) ht .finished
  rw [ha] at h
  exact h

/-! ### A handshake on a session at rest -/

/-- A coroutine is called. -/
def call (w : SessionWorld F) (task : Task F) : SessionWorld F :=
  { w with tasks := w.tasks ++ [task] }

theorem getElem?_call (w : SessionWorld F) (task : Task F) :
    (w.call task).tasks[w.tasks.length]? = some task := by
  simp [call]

/-- The actions that take coroutine `t` into the locked part. -/
def entering (w : SessionWorld F) (t : Nat) (sid : Text) : List (SessionAct F) :=
  if w.session.pc.isSome then [.acquire t sid, .closed t sid] else [.acquire t sid]

theorem startInitiate_spec (w : SessionWorld F) (ht : t < w.tasks.length) (sid : Str) :
    (w.startInitiate t sid).1.tasks[t]? = some (.initiate .negotiating) ∧
      (w.startInitiate t sid).1.session.currentSessionId = .str sid := by
  constructor
  · rw [startInitiate_tasks, List.getElem?_set_self ht]
  · show (wireDatachannel _ _ _).session.currentSessionId = _
    rw [wireDatachannel_sessionId]
    rfl

theorem lt_length_call (w : SessionWorld F) (task : Task F) :
    w.tasks.length < (w.call task).tasks.length := by
  simp [call]

/-- One step as a run. -/
theorem run_one {v v' : SessionWorld F} {a : SessionAct F} {as : List (SessionAct F)}
    {out : List (SessionEvent F)} {c : Config (SessionWorld F) (SessionEvent F)}
    (h : step v a = some (v', [])) (hrun : Machine.run step ⟨v', out⟩ as = some c) :
    Machine.run step ⟨v, out⟩ (a :: as) = some c :=
  Machine.run_cons.mpr ⟨_, Machine.next_eq_some.mpr ⟨[], h, rfl⟩, hrun⟩

/-- On a session at rest that is not connected, `_initiate_with_contact` gets as far as its local
description. -/
theorem run_initiate (hd : Drained w) (hc : w.session.connected = false) (sid : Text) :
    ∃ w', Machine.run step ⟨w.call (.initiate .lock), []⟩ (w.entering w.tasks.length sid)
        = some ⟨w', []⟩ ∧
      w'.tasks[w.tasks.length]? = some (.initiate .negotiating) ∧
      w'.session.currentSessionId = .str (Str.ofText sid) ∧ w'.owner = w.owner := by
  have htask := getElem?_call w (.initiate .lock)
  have hlock : (w.call (.initiate .lock)).lock = none := hd.lock
  have hconn : (w.call (.initiate .lock)).session.connected = false := hc
  have hlt : w.tasks.length < ((w.call (.initiate .lock)).entered w.tasks.length).tasks.length := by
    rw [entered_tasks]
    exact lt_length_call w _
  rw [entering]
  split_ifs with hpc
  · -- the previous connection is closed first
    have hpc' : (w.call (.initiate .lock)).session.pc.isSome = true := hpc
    let v := ((w.call (.initiate .lock)).entered w.tasks.length).suspend w.tasks.length
      (.initiate .closing)
    have h₁ : step (w.call (.initiate .lock)) (.acquire w.tasks.length sid) = some (v, []) := by
      simp only [step, hlock, Option.isSome_none, Bool.false_eq_true, if_false, enter, htask,
        hconn, hpc', if_true]
      rfl
    have hv : v.tasks[w.tasks.length]? = some (.initiate .closing) :=
      List.getElem?_set_self hlt
    have h₂ : step v (.closed w.tasks.length sid) =
        some ((v.startInitiate w.tasks.length (Str.ofText sid)).1, []) := by
      simp only [step, resume, hv]
      rfl
    have hvlt : w.tasks.length < v.tasks.length := (List.getElem?_eq_some_iff.mp hv).1
    obtain ⟨hnew, hsid⟩ := v.startInitiate_spec hvlt (Str.ofText sid)
    refine ⟨_, run_one h₁ (run_one h₂ rfl), hnew, hsid, ?_⟩
    rw [owner_startInitiate]
    exact entered_owner (t := w.tasks.length)
  · have hpc' : (w.call (.initiate .lock)).session.pc.isSome = false := by
      show w.session.pc.isSome = false
      simpa using hpc
    have h₁ : step (w.call (.initiate .lock)) (.acquire w.tasks.length sid) =
        some ((((w.call (.initiate .lock)).entered w.tasks.length).startInitiate w.tasks.length
          (Str.ofText sid)).1, []) := by
      simp only [step, hlock, Option.isSome_none, Bool.false_eq_true, if_false, enter, htask,
        hconn, hpc']
      rfl
    obtain ⟨hnew, hsid⟩ := startInitiate_spec _ hlt (Str.ofText sid)
    refine ⟨_, run_one h₁ rfl, hnew, hsid, ?_⟩
    rw [owner_startInitiate]
    exact entered_owner (t := w.tasks.length)

/-- The offer that `_handle_offer` takes up has all the members it reads. -/
structure Complete (msg : Members F) (sid : Json F) : Prop where
  sessionId : Dict.get? ((payloadOf msg).getD []) Field.sessionId = some sid
  sdp : (Dict.get? ((payloadOf msg).getD []) Field.sdp).isSome = true
  sdpType : (Dict.get? ((payloadOf msg).getD []) Field.sdpType).isSome = true

theorem startOffer_spec (w : SessionWorld F) (ht : t < w.tasks.length) {msg : Members F}
    {sid : Json F} (h : Complete msg sid) :
    ∃ w', w.startOffer t msg = (w', [.took msg sid]) ∧
      w'.tasks[t]? = some (.offer msg .negotiating) ∧ w'.session.currentSessionId = sid ∧
      w'.owner = w.owner := by
  obtain ⟨sdp, hsdp⟩ := Option.isSome_iff_exists.mp h.sdp
  obtain ⟨type, htype⟩ := Option.isSome_iff_exists.mp h.sdpType
  refine ⟨((w.createPc false).setSessionId sid).suspend t (.offer msg .negotiating), ?_,
    List.getElem?_set_self ht, rfl, rfl⟩
  unfold startOffer
  simp only [h.sessionId, hsdp, htype]

/-- On a session at rest, `_handle_offer` takes a complete offer up. -/
theorem run_offer (hd : Drained w) {msg : Members F} {sid : Json F} (h : Complete msg sid)
    (fresh : Text) :
    ∃ w', Machine.run step ⟨w.call (.offer msg .lock), []⟩ (w.entering w.tasks.length fresh)
        = some ⟨w', [.took msg sid]⟩ ∧
      w'.tasks[w.tasks.length]? = some (.offer msg .negotiating) ∧
      w'.session.currentSessionId = sid ∧ w'.owner = w.owner := by
  have htask := getElem?_call w (.offer msg .lock)
  have hlock : (w.call (.offer msg .lock)).lock = none := hd.lock
  have hlt : w.tasks.length <
      ((w.call (.offer msg .lock)).entered w.tasks.length).tasks.length := by
    rw [entered_tasks]
    exact lt_length_call w _
  rw [entering]
  split_ifs with hpc
  · -- the previous connection is closed first
    have hpc' : (w.call (.offer msg .lock)).session.pc.isSome = true := hpc
    let v := ((w.call (.offer msg .lock)).entered w.tasks.length).suspend w.tasks.length
      (.offer msg .closing)
    have h₁ : step (w.call (.offer msg .lock)) (.acquire w.tasks.length fresh) = some (v, []) := by
      simp only [step, hlock, Option.isSome_none, Bool.false_eq_true, if_false, enter, htask,
        hpc', if_true]
      rfl
    have hv : v.tasks[w.tasks.length]? = some (.offer msg .closing) :=
      List.getElem?_set_self hlt
    have hvlt : w.tasks.length < v.tasks.length := (List.getElem?_eq_some_iff.mp hv).1
    obtain ⟨w', hstart, hnew, hsid, howner⟩ := v.startOffer_spec hvlt h
    have h₂ : step v (.closed w.tasks.length fresh) = some (w', [.took msg sid]) := by
      simp only [step, resume, hv, hstart]
    refine ⟨w', run_one h₁ ?_, hnew, hsid, howner.trans (entered_owner (t := w.tasks.length))⟩
    exact Machine.run_cons.mpr ⟨_, Machine.next_eq_some.mpr ⟨_, h₂, rfl⟩, rfl⟩
  · have hpc' : (w.call (.offer msg .lock)).session.pc.isSome = false := by
      show w.session.pc.isSome = false
      simpa using hpc
    obtain ⟨w', hstart, hnew, hsid, howner⟩ := startOffer_spec _ hlt h
    have h₁ : step (w.call (.offer msg .lock)) (.acquire w.tasks.length fresh) =
        some (w', [.took msg sid]) := by
      simp only [step, hlock, Option.isSome_none, Bool.false_eq_true, if_false, enter, htask,
        hpc']
      exact congrArg some hstart
    refine ⟨w', ?_, hnew, hsid, howner.trans (entered_owner (t := w.tasks.length))⟩
    exact Machine.run_cons.mpr ⟨_, Machine.next_eq_some.mpr ⟨_, h₁, rfl⟩, rfl⟩

end SessionWorld

end P4
