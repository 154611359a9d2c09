/-
  Everything a session can do in one step.

  `Step` lists the outcomes of `SessionWorld.step`, with what was found before it; the invariants
  of sessions are proved from it, one case each.  A coroutine that gets the lock first runs
  `_close_session_pc`, which leaves the session as in `entered`.
-/
import P4.Session.Basic

namespace P4

variable {F : Type}

/-- The coroutine that an action starts. -/
def SessionAct.task? : SessionAct F → Option (Task F)
  | .callInitiate => some (.initiate .lock)
  | .callOffer msg => some (.offer msg .lock)
  | .callDrop => some (.drop .lock)
  | _ => none

namespace SessionWorld

variable {w w' : SessionWorld F}

/-- The action takes coroutine `t` from one `await` to the next. -/
inductive Moves (t : Nat) : SessionAct F → Task F → Task F → Prop
  | closeInitiate (sid) : Moves t (.acquire t sid) (.initiate .lock) (.initiate .closing)
  | closeOffer (sid msg) : Moves t (.acquire t sid) (.offer msg .lock) (.offer msg .closing)
  | closeDrop (sid) : Moves t (.acquire t sid) (.drop .lock) (.drop .closing)
  | gathered : Moves t (.gathered t) (.initiate .negotiating) (.initiate .requesting)
  | replied (reply) :
    Moves t (.replied t reply) (.initiate .requesting) (.initiate (.applying reply))

/-- Coroutine `t` has the lock, and `_close_session_pc` has run up to its `await`. -/
def entered (w : SessionWorld F) (t : Nat) : SessionWorld F :=
  { w.closeSessionPc with lock := some t }

/-- The outcomes of a step. -/
inductive Step (w : SessionWorld F) :
    SessionAct F → SessionWorld F → List (SessionEvent F) → Prop
  /-- a coroutine is called -/
  | called (a task) : a.task? = some task → Step w a { w with tasks := w.tasks ++ [task] } []
  /-- an initiator finds the session connected -/
  | connected (t sid) : w.lock = none → w.tasks[t]? = some (.initiate .lock) →
    w.session.connected = true → Step w (.acquire t sid) (w.finish t) []
  /-- the old connection has to be closed first -/
  | closes (t sid task task') : w.lock = none → w.tasks[t]? = some task →
    Moves t (.acquire t sid) task task' → w.session.pc.isSome = true →
    Step w (.acquire t sid) ((w.entered t).suspend t task') []
  /-- an initiator makes its connection, with nothing to close or after that -/
  | dials (t sid) : w.lock = none → w.tasks[t]? = some (.initiate .lock) →
    w.session.connected = false → w.session.pc = none →
    Step w (.acquire t sid) ((w.entered t).startInitiate t (Str.ofText sid)).1 []
  | redials (t sid) : w.tasks[t]? = some (.initiate .closing) →
    Step w (.closed t sid) (w.startInitiate t (Str.ofText sid)).1 []
  /-- an answerer makes its connection, with nothing to close or after that -/
  | answers (t sid msg) : w.lock = none → w.tasks[t]? = some (.offer msg .lock) →
    w.session.pc = none →
    Step w (.acquire t sid) ((w.entered t).startOffer t msg).1 ((w.entered t).startOffer t msg).2
  | reanswers (t sid msg) : w.tasks[t]? = some (.offer msg .closing) →
    Step w (.closed t sid) (w.startOffer t msg).1 (w.startOffer t msg).2
  /-- `drop_peer` ends, with nothing to close or after that -/
  | drops (t sid) : w.lock = none → w.tasks[t]? = some (.drop .lock) →
    Step w (.acquire t sid) ((w.entered t).finish t) []
  | dropped (t sid) : w.tasks[t]? = some (.drop .closing) →
    Step w (.closed t sid) (w.finish t) []
  /-- the description is there: an initiator sends its offer, an answerer ends -/
  | offers (t) : w.tasks[t]? = some (.initiate .negotiating) →
    Step w (.gathered t) (w.suspend t (.initiate .requesting)) []
  | answered (t msg) : w.tasks[t]? = some (.offer msg .negotiating) →
    Step w (.gathered t) (w.finish t) []
  /-- the answer is there, and then applied -/
  | replied (t reply) : w.tasks[t]? = some (.initiate .requesting) →
    Step w (.replied t reply) (w.suspend t (.initiate (.applying reply))) []
  | applied (t reply) : w.tasks[t]? = some (.initiate (.applying reply)) →
    Step w (.applied t) ({ w with session := { w.session with state := .answerApplied } }.finish t)
      [.applied w.session.currentSessionId reply]
  /-- a coroutine ends early -/
  | raised (t task) : w.tasks[t]? = some task → Step w (.raised t) (w.finish t) []
  /-- a callback runs -/
  | connectionStateChange (p st) : p < w.pcs.length →
    Step w (.connectionStateChange p st) (w.onConnectionstatechange p st) []
  | dataChannel (p rs pc) : w.pcs[p]? = some pc → pc.initiator = false →
    Step w (.dataChannel p rs) (w.wireDatachannel p rs) []
  | channelOpen (d dc) : w.dcs[d]? = some dc → dc.readyState = .connecting →
    Step w (.channelOpen d) (w.setReadyState d .opened).markOpen []
  | channelClose (d dc) : w.dcs[d]? = some dc →
    Step w (.channelClose d) (w.setReadyState d .closed).onClose []
  /-- an update of the contact -/
  | setContact (contact role) : Step w (.setContact contact role)
    { w with session := { w.session with contact := contact, role := role } } []
  | shutdown : Step w .shutdown w.closeSessionPc []

theorem enter_outcome {t : Nat} {sid : Text} {out : List (SessionEvent F)} (hl : w.lock = none)
    (h : w.enter t (Str.ofText sid) = some (w', out)) : Step w (.acquire t sid) w' out := by
  unfold enter at h
  dsimp only at h
  split at h
  · -- `_initiate_with_contact`: connected already, an old connection to close, or none
    rename_i ht
    split_ifs at h with hc hp
    · cases h
      exact .connected t sid hl ht hc
    · cases h
      exact .closes t sid _ _ hl ht (.closeInitiate sid) hp
    · cases h
      exact .dials t sid hl ht (by simpa using hc) (Option.not_isSome_iff_eq_none.mp hp)
  · -- `_handle_offer`
    rename_i msg ht
    split_ifs at h with hp
    · cases h
      exact .closes t sid _ _ hl ht (.closeOffer sid msg) hp
    · have hs := Step.answers t sid msg hl ht (Option.not_isSome_iff_eq_none.mp hp)
      rwa [show (w.entered t).startOffer t msg = (w', out) from Option.some.inj h] at hs
  · -- `drop_peer`
    rename_i ht
    split_ifs at h with hp
    · cases h
      exact .closes t sid _ _ hl ht (.closeDrop sid) hp
    · cases h
      exact .drops t sid hl ht
  · cases h

theorem resume_outcome {t : Nat} {sid : Text} {out : List (SessionEvent F)}
    (h : w.resume t (Str.ofText sid) = some (w', out)) : Step w (.closed t sid) w' out := by
  unfold resume at h
  split at h
  · rename_i ht
    cases h
    exact .redials t sid ht
  · rename_i msg ht
    have hs := Step.reanswers t sid msg ht
    rwa [Option.some.inj h] at hs
  · rename_i ht
    cases h
    exact .dropped t sid ht
  · cases h

/-- Every step has one of the outcomes. -/
theorem step_outcome {a : SessionAct F} {out : List (SessionEvent F)}
    (h : step w a = some (w', out)) : Step w a w' out := by
  cases a with
  | callInitiate =>
    cases h
    exact .called _ _ rfl
  | callOffer msg =>
    cases h
    exact .called _ _ rfl
  | callDrop =>
    cases h
    exact .called _ _ rfl
  | acquire t sid =>
    rw [step] at h
    split_ifs at h with hl
    exact enter_outcome (Option.not_isSome_iff_eq_none.mp hl) h
  | closed t sid => exact resume_outcome h
  | gathered t =>
    simp only [step] at h
    split at h
    · rename_i ht
      cases h
      exact .offers t ht
    · rename_i msg ht
      cases h
      exact .answered t msg ht
    · cases h
  | replied t reply =>
    simp only [step] at h
    split at h
    · rename_i ht
      cases h
      exact .replied t reply ht
    · cases h
  | applied t =>
    simp only [step] at h
    split at h
    · rename_i reply ht
      cases h
      exact .applied t reply ht
    · cases h
  | raised t =>
    simp only [step] at h
    split at h
    · cases h
    · cases h
    · rename_i task _ ht
      cases h
      exact .raised t task ht
  | connectionStateChange p st =>
    simp only [step] at h
    split_ifs at h with hp
    cases h
    exact .connectionStateChange p st hp
  | dataChannel p rs =>
    simp only [step] at h
    split at h
    · rename_i pc hp
      split_ifs at h with hi
      cases h
      exact .dataChannel p rs pc hp (by simpa using hi)
    · cases h
  | channelOpen d =>
    simp only [step] at h
    split at h
    · rename_i dc hd
      split_ifs at h with hr
      cases h
      exact .channelOpen d dc hd hr
    · cases h
  | channelClose d =>
    simp only [step] at h
    split at h
    · rename_i dc hd
      split_ifs at h
      cases h
      exact .channelClose d dc hd
    · cases h
  | setContact contact role =>
    cases h
    exact .setContact contact role
  | shutdown =>
    cases h
    exact .shutdown

end SessionWorld

end P4
