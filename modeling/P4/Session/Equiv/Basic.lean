/-
  The session lock: what each stretch of code leaves alone, and who works on a session.

  A coroutine that got past `async with session.lock` holds the lock until it ends
  (`Locked.holder`), so at most one of them is between an `await` and the next inside the
  locked part.  While one of them waits for the old connection to close, `session.pc` is
  `None` (`Locked.closing`): nothing else can install a connection.
-/
import P4.Session.Equiv.Step

namespace P4

variable {F : Type}

/-- The coroutine is inside `async with session.lock`. -/
def Task.holding : Task F → Bool
  | .initiate .lock => false
  | .initiate _ => true
  | .offer _ .lock => false
  | .offer _ _ => true
  | .drop .lock => false
  | .drop _ => true
  | .finished => false

/-- The coroutine is inside `_close_session_pc`. -/
def Task.closing : Task F → Bool
  | .initiate .closing => true
  | .offer _ .closing => true
  | .drop .closing => true
  | _ => false

theorem Task.holding_of_closing {task : Task F} (h : task.closing = true) :
    task.holding = true := by
  unfold Task.closing at h
  split at h <;> first | rfl | cases h

namespace SessionWorld

variable {w w' : SessionWorld F} {t u p d : Nat}

/-! ### What the pieces of code leave alone -/

@[simp]
theorem markOpen_tasks : w.markOpen.tasks = w.tasks := by unfold markOpen; split <;> rfl

@[simp]
theorem markOpen_lock : w.markOpen.lock = w.lock := by unfold markOpen; split <;> rfl

@[simp]
theorem markOpen_pcs : w.markOpen.pcs = w.pcs := by unfold markOpen; split <;> rfl

@[simp]
theorem markOpen_dcs : w.markOpen.dcs = w.dcs := by unfold markOpen; split <;> rfl

@[simp]
theorem markOpen_pc : w.markOpen.session.pc = w.session.pc := by unfold markOpen; split <;> rfl

@[simp]
theorem markOpen_dc : w.markOpen.session.dc = w.session.dc := by unfold markOpen; split <;> rfl

@[simp]
theorem markOpen_connected : w.markOpen.session.connected = true := by
  unfold markOpen
  split
  · assumption
  · rfl

@[simp]
theorem markOpen_sessionId :
    w.markOpen.session.currentSessionId = w.session.currentSessionId := by
  unfold markOpen; split <;> rfl

variable {rs : ReadyState}

@[simp]
theorem wireDatachannel_tasks : (w.wireDatachannel p rs).tasks = w.tasks := by
  unfold wireDatachannel; split <;> simp

@[simp]
theorem wireDatachannel_lock : (w.wireDatachannel p rs).lock = w.lock := by
  unfold wireDatachannel; split <;> simp

@[simp]
theorem wireDatachannel_pcs : (w.wireDatachannel p rs).pcs = w.pcs := by
  unfold wireDatachannel; split <;> simp

@[simp]
theorem wireDatachannel_dcs :
    (w.wireDatachannel p rs).dcs = w.dcs ++ [{ pc := p, readyState := rs }] := by
  unfold wireDatachannel; split <;> simp

@[simp]
theorem wireDatachannel_pc : (w.wireDatachannel p rs).session.pc = w.session.pc := by
  unfold wireDatachannel; split <;> simp

@[simp]
theorem wireDatachannel_dc : (w.wireDatachannel p rs).session.dc = some w.dcs.length := by
  unfold wireDatachannel; split <;> simp

@[simp]
theorem wireDatachannel_sessionId :
    (w.wireDatachannel p rs).session.currentSessionId = w.session.currentSessionId := by
  unfold wireDatachannel; split <;> simp

/-- A channel that is not open yet does not mark the session as connected. -/
theorem wireDatachannel_connected (hrs : rs ≠ .opened) :
    (w.wireDatachannel p rs).session.connected = w.session.connected := by
  rw [wireDatachannel, if_neg hrs]

@[simp]
theorem closeSessionPc_tasks : w.closeSessionPc.tasks = w.tasks := by
  unfold closeSessionPc; split <;> rfl

@[simp]
theorem closeSessionPc_lock : w.closeSessionPc.lock = w.lock := by
  unfold closeSessionPc; split <;> rfl

@[simp]
theorem closeSessionPc_dcs : w.closeSessionPc.dcs = w.dcs := by
  unfold closeSessionPc; split <;> rfl

@[simp]
theorem closeSessionPc_length_pcs : w.closeSessionPc.pcs.length = w.pcs.length := by
  unfold closeSessionPc; split <;> simp [callClose]

@[simp]
theorem closeSessionPc_session : w.closeSessionPc.session =
    { w.session with pc := none, dc := none, connected := false } := by
  unfold closeSessionPc; split <;> rfl

@[simp]
theorem entered_tasks : (w.entered t).tasks = w.tasks := closeSessionPc_tasks

@[simp]
theorem entered_dcs : (w.entered t).dcs = w.dcs := closeSessionPc_dcs

@[simp]
theorem entered_length_pcs : (w.entered t).pcs.length = w.pcs.length := closeSessionPc_length_pcs

@[simp]
theorem entered_session : (w.entered t).session =
    { w.session with pc := none, dc := none, connected := false } := closeSessionPc_session

variable {st : ConnState}

@[simp]
theorem onConnectionstatechange_tasks : (w.onConnectionstatechange p st).tasks = w.tasks := by
  unfold onConnectionstatechange; split <;> rfl

@[simp]
theorem onConnectionstatechange_lock : (w.onConnectionstatechange p st).lock = w.lock := by
  unfold onConnectionstatechange; split <;> rfl

@[simp]
theorem onConnectionstatechange_dcs : (w.onConnectionstatechange p st).dcs = w.dcs := by
  unfold onConnectionstatechange; split <;> rfl

@[simp]
theorem onConnectionstatechange_length_pcs :
    (w.onConnectionstatechange p st).pcs.length = w.pcs.length := by
  unfold onConnectionstatechange; split <;> simp [callClose]

@[simp]
theorem onConnectionstatechange_sessionId :
    (w.onConnectionstatechange p st).session.currentSessionId = w.session.currentSessionId := by
  unfold onConnectionstatechange; split <;> rfl

/-- The callback stores no connection in the session. -/
theorem onConnectionstatechange_pc (h : w.session.pc = none) :
    (w.onConnectionstatechange p st).session.pc = none := by
  unfold onConnectionstatechange
  split <;> simp [callClose, h]

/-! ### The lock -/

/-- Every coroutine in the locked part holds the lock, and while one closes the old connection
there is no current one. -/
structure Locked (w : SessionWorld F) : Prop where
  holder : ∀ (t : Nat) (task : Task F),
    w.tasks[t]? = some task → task.holding = true → w.lock = some t
  closing : ∀ (t : Nat) (task : Task F),
    w.tasks[t]? = some task → task.closing = true → w.session.pc = none

/-- No coroutine other than `t` is in the locked part. -/
def Alone (w : SessionWorld F) (t : Nat) : Prop :=
  ∀ (u : Nat) (task : Task F), w.tasks[u]? = some task → task.holding = true → u = t

/-- Whoever gets the lock is the only one in the locked part. -/
theorem Locked.alone (h : Locked w) (hl : w.lock = none ∨ w.lock = some t) : Alone w t := by
  intro u task hu hh
  have hu' := h.holder u task hu hh
  rcases hl with hl | hl <;> rw [hl] at hu'
  · cases hu'
  · exact (Option.some.inj hu').symm

/-- A coroutine in the locked part is alone there. -/
theorem Locked.alone_of_holding (h : Locked w) {task : Task F} (ht : w.tasks[t]? = some task)
    (hh : task.holding = true) : Alone w t :=
  h.alone (Or.inr (h.holder t task ht hh))

theorem Alone.entered (h : Alone w t) : Alone (w.entered t) t := by
  intro u task hu
  rw [entered_tasks] at hu
  exact h u task hu

theorem suspend_tasks {task task' : Task F} (h : (w.suspend t task).tasks[u]? = some task') :
    task' = task ∧ u = t ∨ u ≠ t ∧ w.tasks[u]? = some task' := by
  rw [suspend, List.getElem?_set] at h
  split_ifs at h with h₁ h₂
  · exact Or.inl ⟨(Option.some.inj h).symm, h₁.symm⟩
  · exact Or.inr ⟨Ne.symm h₁, h⟩

theorem finish_tasks {task : Task F} (h : (w.finish t).tasks[u]? = some task) :
    task = .finished ∨ u ≠ t ∧ w.tasks[u]? = some task := by
  rw [finish, List.getElem?_set] at h
  split_ifs at h with h₁ h₂
  · exact Or.inl (Option.some.inj h).symm
  · exact Or.inr ⟨Ne.symm h₁, h⟩

/-- The owner of the lock goes on to its next `await`. -/
theorem locked_suspend (ha : Alone w t) (hl : w.lock = some t) {task : Task F}
    (hc : task.closing = true → w.session.pc = none) : Locked (w.suspend t task) := by
  constructor
  · intro u task' hu hh
    rcases suspend_tasks hu with ⟨-, rfl⟩ | ⟨hne, hu⟩
    · exact hl
    · exact absurd (ha u task' hu hh) hne
  · intro u task' hu hh
    rcases suspend_tasks hu with ⟨rfl, -⟩ | ⟨hne, hu⟩
    · exact hc hh
    · exact absurd (ha u task' hu (Task.holding_of_closing hh)) hne

/-- The owner of the lock ends. -/
theorem locked_finish (ha : Alone w t) : Locked (w.finish t) := by
  constructor
  · intro u task' hu hh
    rcases finish_tasks hu with rfl | ⟨hne, hu⟩
    · cases hh
    · exact absurd (ha u task' hu hh) hne
  · intro u task' hu hh
    rcases finish_tasks hu with rfl | ⟨hne, hu⟩
    · cases hh
    · exact absurd (ha u task' hu (Task.holding_of_closing hh)) hne

/-- Any coroutine ends. -/
theorem Locked.finish (h : Locked w) (t : Nat) : Locked (w.finish t) := by
  by_cases hl : w.lock = some t
  · exact locked_finish (h.alone (Or.inr hl))
  · constructor
    · intro u task' hu hh
      rw [SessionWorld.finish, if_neg hl]
      rcases finish_tasks hu with rfl | ⟨-, hu⟩
      · cases hh
      · exact h.holder u task' hu hh
    · intro u task' hu hh
      rcases finish_tasks hu with rfl | ⟨-, hu⟩
      · cases hh
      · exact h.closing u task' hu hh

/-- Code that leaves the coroutines and the lock alone and stores no connection. -/
theorem Locked.of_frame (h : Locked w) (ht : w'.tasks = w.tasks) (hl : w'.lock = w.lock)
    (hp : w.session.pc = none → w'.session.pc = none) : Locked w' := by
  constructor
  · intro t task hu
    rw [ht] at hu
    rw [hl]
    exact h.holder t task hu
  · intro t task hu hc
    rw [ht] at hu
    exact hp (h.closing t task hu hc)

/-- A new coroutine waits for the lock. -/
theorem Locked.call (h : Locked w) {task : Task F} (hh : task.holding = false) :
    Locked { w with tasks := w.tasks ++ [task] } := by
  have hold : ∀ (t : Nat) (task' : Task F), (w.tasks ++ [task])[t]? = some task' →
      task'.holding = true → w.tasks[t]? = some task' := by
    intro t task' ht hh'
    rw [List.getElem?_append] at ht
    split_ifs at ht with hlt
    · exact ht
    · have hmem : task' ∈ [task] := List.mem_of_getElem? ht
      rw [List.mem_singleton.mp hmem, hh] at hh'
      cases hh'
  constructor
  · intro t task' ht hh'
    exact h.holder t task' (hold t task' ht hh') hh'
  · intro t task' ht hc
    exact h.closing t task' (hold t task' ht (Task.holding_of_closing hc)) hc

theorem locked_startInitiate (ha : Alone w t) (hl : w.lock = some t) (sid : Str) :
    Locked (w.startInitiate t sid).1 := by
  refine locked_suspend (w := ((w.createPc true).setSessionId (.str sid)).wireDatachannel _ _)
    ?_ ?_ (fun h => nomatch h)
  · intro u task hu
    rw [wireDatachannel_tasks] at hu
    exact ha u task hu
  · rw [wireDatachannel_lock]
    exact hl

theorem locked_startOffer (ha : Alone w t) (hl : w.lock = some t) (msg : Members F) :
    Locked (w.startOffer t msg).1 := by
  unfold startOffer
  dsimp only
  split
  · exact locked_finish ha
  · split
    · refine locked_suspend (w := (w.createPc false).setSessionId _) ?_ hl ?_
      · exact ha
      · intro h
        cases h
    · exact locked_finish ha

/-- The owner of the lock waits at another place of the locked part. -/
theorem Locked.suspend (h : Locked w) {task task' : Task F} (ht : w.tasks[t]? = some task)
    (hh : task.holding = true) (hc : task'.closing = false) : Locked (w.suspend t task') := by
  refine locked_suspend (h.alone_of_holding ht hh) (h.holder t task ht hh) ?_
  intro hc'
  rw [hc] at hc'
  cases hc'

/-- A coroutine starts outside the locked part. -/
theorem holding_of_task? {a : SessionAct F} {task : Task F} (h : a.task? = some task) :
    task.holding = false := by
  cases a <;> cases h <;> rfl

/-- Every step keeps the lock discipline. -/
theorem locked_step {a : SessionAct F} {out : List (SessionEvent F)} (h : Locked w)
    (hs : step w a = some (w', out)) : Locked w' := by
  cases step_outcome hs with
  | called a task htask => exact h.call (holding_of_task? htask)
  -- the owner of the lock waits for the old connection, or makes its own
  | closes t sid task task' hl =>
    refine locked_suspend (h.alone (Or.inl hl)).entered rfl fun _ => ?_
    rw [entered_session]
  | dials t sid hl => exact locked_startInitiate (h.alone (Or.inl hl)).entered rfl _
  | redials t sid ht =>
    exact locked_startInitiate (h.alone_of_holding ht rfl) (h.holder t _ ht rfl) _
  | answers t sid msg hl => exact locked_startOffer (h.alone (Or.inl hl)).entered rfl msg
  | reanswers t sid msg ht =>
    exact locked_startOffer (h.alone_of_holding ht rfl) (h.holder t _ ht rfl) msg
  | offers t ht => exact h.suspend ht rfl rfl
  | replied t reply ht => exact h.suspend ht rfl rfl
  -- a coroutine ends, and releases the lock if it holds it
  | connected t => exact h.finish t
  | drops t sid hl => exact locked_finish (h.alone (Or.inl hl)).entered
  | dropped t => exact h.finish t
  | answered t => exact h.finish t
  | applied t reply =>
    apply Locked.finish
    exact h.of_frame rfl rfl id
  | raised t => exact h.finish t
  -- callbacks run without the lock, and none of them stores a connection
  | connectionStateChange p st => exact h.of_frame (by simp) (by simp) onConnectionstatechange_pc
  | dataChannel p rs => exact h.of_frame (by simp) (by simp) (by simp)
  | channelOpen d =>
    exact h.of_frame (by simp [setReadyState]) (by simp [setReadyState]) (by simp [setReadyState])
  | channelClose d => exact h.of_frame rfl rfl id
  | setContact contact role => exact h.of_frame rfl rfl id
  | shutdown => exact h.of_frame (by simp) (by simp) (by simp)

theorem locked_new (contact : Ref (Contact F)) (role : Role) : Locked (new contact role) := by
  constructor
  · intro t task ht
    cases ht
  · intro t task ht
    cases ht

/-! ### The contact and the role -/

/-- The contact of a session and its role. -/
def owner (w : SessionWorld F) : Ref (Contact F) × Role := (w.session.contact, w.session.role)

@[simp]
theorem markOpen_owner : w.markOpen.owner = w.owner := by unfold markOpen; split <;> rfl

@[simp]
theorem wireDatachannel_owner : (w.wireDatachannel p rs).owner = w.owner := by
  unfold wireDatachannel
  split
  · rw [markOpen_owner]
    rfl
  · rfl

@[simp]
theorem closeSessionPc_owner : w.closeSessionPc.owner = w.owner := by
  rw [owner, closeSessionPc_session]
  rfl

@[simp]
theorem onConnectionstatechange_owner : (w.onConnectionstatechange p st).owner = w.owner := by
  unfold onConnectionstatechange; split <;> rfl

theorem owner_startInitiate (sid : Str) : (w.startInitiate t sid).1.owner = w.owner := by
  unfold startInitiate
  dsimp only
  show (wireDatachannel _ _ _).owner = _
  rw [wireDatachannel_owner]
  rfl

theorem owner_startOffer (msg : Members F) : (w.startOffer t msg).1.owner = w.owner := by
  unfold startOffer
  dsimp only
  split
  · rfl
  · split <;> rfl

@[simp]
theorem entered_owner : (w.entered t).owner = w.owner := closeSessionPc_owner

/-- Only an update of the contact changes the contact and the role of a session. -/
theorem owner_step {a : SessionAct F} {out : List (SessionEvent F)}
    (ha : ∀ contact role, a ≠ .setContact contact role) (hs : step w a = some (w', out)) :
    w'.owner = w.owner := by
  cases step_outcome hs with
  | called => rfl
  -- the coroutines read the contact and the role, and write neither
  | connected => rfl
  | closes t => exact entered_owner (t := t)
  | dials => rw [owner_startInitiate, entered_owner]
  | redials => exact owner_startInitiate _
  | answers => rw [owner_startOffer, entered_owner]
  | reanswers => exact owner_startOffer _
  | drops t => exact entered_owner (t := t)
  | dropped => rfl
  | offers => rfl
  | answered => rfl
  | replied => rfl
  | applied => rfl
  | raised => rfl
  | connectionStateChange => exact onConnectionstatechange_owner
  | dataChannel => exact wireDatachannel_owner
  | channelOpen => exact markOpen_owner
  | channelClose => rfl
  | setContact contact role => exact absurd rfl (ha contact role)
  | shutdown => exact closeSessionPc_owner

end SessionWorld

end P4
