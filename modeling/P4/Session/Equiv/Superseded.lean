/-
  Callbacks of connections that are no longer current.

  Each callback closes over the `Session` object, and only one of its assignments asks whether
  the connection is still current (`if session.pc is pc` in `on_connectionstatechange`).  So a
  callback of an earlier connection leaves the session alone exactly when it finds there what
  it writes (`superseded_unchanged_iff`), and the close of the old connection in the ordinary
  reconnect is a case where it does not (`superseded_changes_session`).
-/
import P4.Session.Equiv.Connectivity

namespace P4

namespace SessionWorld

variable {F : Type} {w w' : SessionWorld F} {p q d : Nat}

/-- `session.pc`, `session.dc`, `session.connected` and `session.state` -/
def link (w : SessionWorld F) : Option Nat × Option Nat × Bool × SessionState :=
  (w.session.pc, w.session.dc, w.session.connected, w.session.state)

/-- The action is a callback of connection `p` or of a channel that belongs to it. -/
def CallbackOf (w : SessionWorld F) (p : Nat) : SessionAct F → Prop
  | .connectionStateChange p' _ => p' = p
  | .channelOpen d => ∃ dc, w.dcs[d]? = some dc ∧ dc.pc = p
  | .channelClose d => ∃ dc, w.dcs[d]? = some dc ∧ dc.pc = p
  | _ => False

/-- The callback would write what the session already holds. -/
def Redundant (w : SessionWorld F) : SessionAct F → Prop
  | .connectionStateChange _ st => w.session.state = .conn st ∧
    (st.terminal = true → w.session.connected = false ∧ w.session.dc = none)
  | .channelOpen _ => w.session.connected = true
  | .channelClose _ => w.session.connected = false ∧ w.session.state = .channelClosed ∧
    w.session.dc = none
  | _ => True

/-- What the callback of another connection writes. -/
theorem link_onConnectionstatechange {st : ConnState} (hp : w.session.pc ≠ some p) :
    (w.onConnectionstatechange p st).link =
      if st.terminal then (w.session.pc, none, false, .conn st)
      else (w.session.pc, w.session.dc, w.session.connected, .conn st) := by
  unfold onConnectionstatechange link
  cases st.terminal
  · rfl
  · simp [callClose, if_neg hp]

/-- What the callback of a channel writes. -/
theorem link_markOpen : w.markOpen.link =
    if w.session.connected then w.link
    else (w.session.pc, w.session.dc, true, .conn .connected) := by
  unfold markOpen
  split <;> rfl

/-- A connection that is not current changes the session unless its callback is redundant. -/
theorem link_step_iff {a : SessionAct F} {out : List (SessionEvent F)}
    (hq : w.session.pc = some q) (hp : p ≠ q) (ha : CallbackOf w p a)
    (hs : step w a = some (w', out)) : w'.link = w.link ↔ Redundant w a := by
  have hne : w.session.pc ≠ some p := by
    rw [hq]
    exact fun h => hp (Option.some.inj h).symm
  cases step_outcome hs with
  | connectionStateChange p' st =>
    obtain rfl : p' = p := ha
    rw [link_onConnectionstatechange hne, link, Redundant]
    -- a terminal state also clears the channel and the flag
    cases st.terminal
    · simp only [Bool.false_eq_true, if_false, Prod.mk.injEq, true_and, false_implies, and_true]
      exact eq_comm
    · simp only [if_true, Prod.mk.injEq, true_and, forall_const]
      constructor
      · rintro ⟨hd, hc, hst⟩
        exact ⟨hst.symm, hc.symm, hd.symm⟩
      · rintro ⟨hst, hc, hd⟩
        exact ⟨hd.symm, hc.symm, hst.symm⟩
  | channelOpen d =>
    rw [link_markOpen, Redundant]
    -- `_mark_open` does nothing on a session that is connected
    cases hc : w.session.connected
    · simp [setReadyState, link, hc]
    · simp [setReadyState, link, hc]
  | channelClose d =>
    rw [Redundant]
    constructor
    · intro h
      simp only [link, onClose, setReadyState, Prod.mk.injEq, true_and] at h
      exact ⟨h.2.1.symm, h.2.2.symm, h.1.symm⟩
    · rintro ⟨hc, hst, hd⟩
      simp [link, onClose, setReadyState, hc, hst, hd]
  | called a task htask => cases a <;> first | exact absurd ha id | cases htask
  | _ => exact absurd ha id

/-- In every state of every run, a callback of a connection `p` made before the current
connection `q` leaves the session's connection, channel, flag and state unchanged if and only
if it is redundant.

The assignments of each callback are compared one by one with what is there (`link_step_iff`). -/
theorem superseded_unchanged_iff (contact : Ref (Contact F)) (role : Role)
    {as : List (SessionAct F)} {c c' : Config (SessionWorld F) (SessionEvent F)}
    {a : SessionAct F} (_h : (step (F := F)).run ⟨new contact role, []⟩ as = some c)
    (hq : c.state.session.pc = some q) (hp : p < q) (ha : CallbackOf c.state p a)
    (hn : (step (F := F)).next c a = some c') :
    c'.state.link = c.state.link ↔ Redundant c.state a := by
  obtain ⟨out, hs, -⟩ := Machine.next_eq_some.mp hn
  exact link_step_iff hq (Nat.ne_of_lt hp) ha hs

/-- Up to the installation of the second connection. -/
def supersedeRun : List (SessionAct Empty) :=
  [.callInitiate, .acquire 0 ['a'], .raised 0, .callInitiate, .acquire 1 ['b'], .closed 1 ['b']]

/-- A connection that reports its end a second time. -/
theorem superseded_unchanged_iff_closed_twice : ∃ c c',
    (step (F := Empty)).run ⟨new someContact .initiator, []⟩
      (supersedeRun ++ [.connectionStateChange 0 .closed]) = some c ∧
    (step (F := Empty)).next c (.connectionStateChange 0 .closed) = some c' ∧
    c.state.session.pc = some 1 ∧ c'.state.link = c.state.link := by
  obtain ⟨c, hc⟩ : ∃ c, (step (F := Empty)).run ⟨new someContact .initiator, []⟩
      (supersedeRun ++ [.connectionStateChange 0 .closed]) = some c := ⟨_, rfl⟩
  obtain ⟨c', hc'⟩ : ∃ c', (step (F := Empty)).next c (.connectionStateChange 0 .closed) =
      some c' := by
    cases hc
    exact ⟨_, rfl⟩
  have hq : c.state.session.pc = some 1 := by
    cases hc
    rfl
  have hred : Redundant c.state (.connectionStateChange 0 .closed) := by
    cases hc
    exact ⟨rfl, fun _ => ⟨rfl, rfl⟩⟩
  have key := superseded_unchanged_iff (p := 0) someContact .initiator hc hq (by decide)
    (show CallbackOf c.state 0 (.connectionStateChange 0 .closed) from rfl) hc'
  exact ⟨c, c', hc, hc', hq, key.mpr hred⟩

/-- The close of the replaced connection reaches the session of the new one. -/
theorem superseded_changes_session : ¬ ∀ (contact : Ref (Contact Empty)) (role : Role)
    (as : List (SessionAct Empty)) (c c' : Config (SessionWorld Empty) (SessionEvent Empty))
    (a : SessionAct Empty) (p q : Nat),
    (step (F := Empty)).run ⟨new contact role, []⟩ as = some c → c.state.session.pc = some q →
    p < q → CallbackOf c.state p a → (step (F := Empty)).next c a = some c' →
    c'.state.link = c.state.link := by
  intro h
  have hlink := h someContact .initiator supersedeRun _ _ (.connectionStateChange 0 .closed) 0 1
    rfl rfl (by decide) rfl rfl
  exact absurd hlink (by decide)

end SessionWorld

end P4
