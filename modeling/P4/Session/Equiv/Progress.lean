/-
  What a step does to the coroutines of a session and to its session id.

  `Progress` lists the possibilities; the session id changes in two of them only, when a
  coroutine that holds the lock starts an offer of its own or takes one up.
-/
import P4.Session.Equiv.Basic

namespace P4

namespace SessionWorld

variable {F : Type} {w w' : SessionWorld F}

/-- What a step does to the coroutines and the session id, and what it reports. -/
inductive Progress (w w' : SessionWorld F) (a : SessionAct F) : List (SessionEvent F) → Prop
  /-- neither changes -/
  | same : w'.tasks = w.tasks → w'.session.currentSessionId = w.session.currentSessionId →
    Progress w w' a []
  /-- a coroutine is started -/
  | called (task) : a.task? = some task → w'.tasks = w.tasks ++ [task] →
    w'.session.currentSessionId = w.session.currentSessionId → Progress w w' a []
  /-- a coroutine waits at another place -/
  | moved (t task task') : w.tasks[t]? = some task → Moves t a task task' →
    w'.tasks = w.tasks.set t task' →
    w'.session.currentSessionId = w.session.currentSessionId → Progress w w' a []
  /-- a coroutine ends -/
  | ended (t) : w'.tasks = w.tasks.set t .finished →
    w'.session.currentSessionId = w.session.currentSessionId → Progress w w' a []
  /-- an offer is prepared under a new session id -/
  | started (t phase sid) : w.tasks[t]? = some (.initiate phase) → Alone w t →
    w'.tasks = w.tasks.set t (.initiate .negotiating) →
    w'.session.currentSessionId = .str (Str.ofText sid) → Progress w w' a []
  /-- the session id of an offer is taken over -/
  | took (t msg phase sid task) : w.tasks[t]? = some (.offer msg phase) → Alone w t →
    Dict.get? ((payloadOf msg).getD []) Field.sessionId = some sid →
    task = .offer msg .negotiating ∨ task = .finished → w'.tasks = w.tasks.set t task →
    w'.session.currentSessionId = sid → Progress w w' a [.took msg sid]
  /-- an answer is applied -/
  | applied (t reply) : w.tasks[t]? = some (.initiate (.applying reply)) →
    w'.tasks = w.tasks.set t .finished →
    w'.session.currentSessionId = w.session.currentSessionId →
    Progress w w' a [.applied w.session.currentSessionId reply]

/-- The code after the old connection is closed, started in a world `v` that has the coroutines
and the session id of `w`. -/
theorem progress_startInitiate {v : SessionWorld F} {a : SessionAct F} {t : Nat}
    {phase : InitiatePhase F} {sid : Text} (htask : w.tasks[t]? = some (.initiate phase))
    (ha : Alone w t) (hv : v.tasks = w.tasks) :
    Progress w (v.startInitiate t (Str.ofText sid)).1 a
      (v.startInitiate t (Str.ofText sid)).2 := by
  refine .started t phase sid htask ha ?_ ?_
  · show (wireDatachannel _ _ _).tasks.set t (Task.initiate InitiatePhase.negotiating) = _
    rw [wireDatachannel_tasks, ← hv]
    rfl
  · show (wireDatachannel _ _ _).session.currentSessionId = _
    rw [wireDatachannel_sessionId]
    rfl

theorem progress_startOffer {v : SessionWorld F} {a : SessionAct F} {t : Nat}
    {msg : Members F} {phase : OfferPhase} (htask : w.tasks[t]? = some (.offer msg phase))
    (ha : Alone w t) (hv : v.tasks = w.tasks)
    (hid : v.session.currentSessionId = w.session.currentSessionId) :
    Progress w (v.startOffer t msg).1 a (v.startOffer t msg).2 := by
  have hset : ∀ task, v.tasks.set t task = w.tasks.set t task := by
    intro task
    rw [hv]
  unfold startOffer
  dsimp only
  split
  · exact .ended t (hset _) hid
  · rename_i sid hsid
    split
    · exact .took t msg phase sid _ htask ha hsid (Or.inl rfl) (hset _) rfl
    · exact .took t msg phase sid _ htask ha hsid (Or.inr rfl) (hset _) rfl

/-- Every step makes one of the possible kinds of progress. -/
theorem progress_step {a : SessionAct F} {out : List (SessionEvent F)} (h : Locked w)
    (hs : step w a = some (w', out)) : Progress w w' a out := by
  have hentered : ∀ (t : Nat) (task : Task F), (w.entered t).tasks.set t task =
      w.tasks.set t task := by
    intro t task
    rw [entered_tasks]
  have hid : ∀ t, (w.entered t).session.currentSessionId = w.session.currentSessionId := by
    intro t
    rw [entered_session]
  cases step_outcome hs with
  | called a task htask => exact .called task htask rfl rfl
  | closes t sid task task' hl ht hm =>
    exact .moved t task task' ht hm (hentered t task') (hid t)
  | dials t sid hl ht => exact progress_startInitiate ht (h.alone (Or.inl hl)) entered_tasks
  | redials t sid ht => exact progress_startInitiate ht (h.alone_of_holding ht rfl) rfl
  | answers t sid msg hl ht =>
    exact progress_startOffer ht (h.alone (Or.inl hl)) entered_tasks (hid t)
  | reanswers t sid msg ht => exact progress_startOffer ht (h.alone_of_holding ht rfl) rfl rfl
  -- an initiator goes on to send its offer, and to apply the reply
  | offers t ht => exact .moved t _ _ ht .gathered rfl rfl
  | replied t reply ht => exact .moved t _ _ ht (.replied reply) rfl rfl
  | applied t reply ht => exact .applied t reply ht rfl rfl
  -- the other coroutines end
  | connected t => exact .ended t rfl rfl
  | drops t => exact .ended t (hentered t _) (hid t)
  | dropped t => exact .ended t rfl rfl
  | answered t => exact .ended t rfl rfl
  | raised t => exact .ended t rfl rfl
  -- callbacks touch neither the coroutines nor the session id
  | connectionStateChange =>
    exact .same onConnectionstatechange_tasks onConnectionstatechange_sessionId
  | dataChannel => exact .same wireDatachannel_tasks wireDatachannel_sessionId
  | channelOpen => exact .same markOpen_tasks markOpen_sessionId
  | channelClose => exact .same rfl rfl
  | setContact => exact .same rfl rfl
  | shutdown =>
    refine .same closeSessionPc_tasks ?_
    rw [closeSessionPc_session]

end SessionWorld

end P4
