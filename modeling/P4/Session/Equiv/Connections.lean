/-
  No connection of a session is left open behind its back.

  `_close_session_pc` and the terminal branch of `on_connectionstatechange` take the connection
  out of `session.pc` and call `close()` on it before they wait for anything, and a new one is
  made only in the locked part, after the old one was taken out.  So a connection that was not
  closed is the current one (`Live`), whatever runs in between.
-/
import P4.Session.Equiv.Connectivity

namespace P4

namespace SessionWorld

variable {F : Type} {w w' : SessionWorld F} {t p : Nat}

/-- Every connection on which `close()` was not called is the current one. -/
def Live (w : SessionWorld F) : Prop :=
  ∀ (p : Nat) (pc : PeerConnection), w.pcs[p]? = some pc → pc.closeCalled = false →
    w.session.pc = some p

theorem Live.of_frame (h : Live w) (hpcs : w'.pcs = w.pcs) (hpc : w'.session.pc = w.session.pc) :
    Live w' := by
  intro p pc hp hopen
  rw [hpcs] at hp
  rw [hpc]
  exact h p pc hp hopen

/-- A connection that is open after a call of `close()` was open before, and is another one. -/
theorem open_of_callClose {q : Nat} {pc : PeerConnection}
    (hq : (w.callClose p).pcs[q]? = some pc) (hopen : pc.closeCalled = false) :
    q ≠ p ∧ w.pcs[q]? = some pc := by
  have hq' : (w.pcs.modify p fun pc => { pc with closeCalled := true })[q]? = some pc := hq
  rw [List.getElem?_modify] at hq'
  split_ifs at hq' with heq
  · obtain ⟨old, -, rfl⟩ := Option.map_eq_some_iff.mp hq'
    cases hopen
  · exact ⟨Ne.symm heq, by simpa using hq'⟩

/-- The current connection is closed and taken out together. -/
theorem Live.closeSessionPc (h : Live w) : Live w.closeSessionPc := by
  intro q pc hq hopen
  unfold SessionWorld.closeSessionPc at hq
  split at hq
  · rename_i p hp
    obtain ⟨hne, hq'⟩ := open_of_callClose hq hopen
    have hcur := h q pc hq' hopen
    rw [hp] at hcur
    exact absurd (Option.some.inj hcur).symm hne
  · rename_i hnone
    have hcur := h q pc hq hopen
    rw [hnone] at hcur
    cases hcur

/-- Where there was none, the new connection is the only one. -/
theorem Live.createPc (h : Live w) (hnone : w.session.pc = none) (initiator : Bool) :
    Live (w.createPc initiator) := by
  intro q pc hq hopen
  have hq' : (w.pcs ++ [{ initiator := initiator }])[q]? = some pc := hq
  rw [List.getElem?_append] at hq'
  split_ifs at hq' with hlt
  · have hcur := h q pc hq' hopen
    rw [hnone] at hcur
    cases hcur
  · have hidx : q = w.pcs.length := by
      have hsome := List.getElem?_eq_some_iff.mp hq'
      obtain ⟨hbound, -⟩ := hsome
      rw [List.length_singleton] at hbound
      omega
    rw [hidx]
    rfl

/-- A connection that is taken out is closed. -/
theorem Live.onConnectionstatechange (h : Live w) (p : Nat) (st : ConnState) :
    Live (w.onConnectionstatechange p st) := by
  unfold SessionWorld.onConnectionstatechange
  dsimp only
  split
  · intro q pc hq hopen
    obtain ⟨hne, hq'⟩ := open_of_callClose hq hopen
    have hcur := h q pc hq' hopen
    show (if w.session.pc = some p then none else w.session.pc) = some q
    rw [if_neg, hcur]
    rw [hcur]
    exact fun heq => hne (Option.some.inj heq)
  · exact h.of_frame rfl rfl

/-! ### Steps -/

theorem Live.startInitiate (h : Live w) (hnone : w.session.pc = none) (sid : Str) :
    Live (w.startInitiate t sid).1 := by
  refine (h.createPc hnone true).of_frame ?_ ?_
  · show (SessionWorld.wireDatachannel _ _ _).pcs = _
    rw [wireDatachannel_pcs]
    rfl
  · show (SessionWorld.wireDatachannel _ _ _).session.pc = _
    rw [wireDatachannel_pc]
    rfl

theorem Live.startOffer (h : Live w) (hnone : w.session.pc = none) (msg : Members F) :
    Live (w.startOffer t msg).1 := by
  have hcreated := h.createPc hnone false
  unfold SessionWorld.startOffer
  dsimp only
  split
  · exact hcreated.of_frame rfl rfl
  · split <;> exact hcreated.of_frame rfl rfl

theorem Live.entered (h : Live w) (t : Nat) : Live (w.entered t) :=
  h.closeSessionPc.of_frame rfl rfl

theorem entered_pc : (w.entered t).session.pc = none := by rw [entered_session]

theorem live_step {a : SessionAct F} {out : List (SessionEvent F)} (h : Live w) (hl : Locked w)
    (hs : step w a = some (w', out)) : Live w' := by
  cases step_outcome hs with
  | called => exact h.of_frame rfl rfl
  -- `_close_session_pc` and the start of a new connection
  | closes t => exact (h.entered t).of_frame rfl rfl
  | dials t sid => exact (h.entered t).startInitiate entered_pc _
  | redials t sid ht => exact h.startInitiate (hl.closing t _ ht rfl) _
  | answers t sid msg => exact (h.entered t).startOffer entered_pc msg
  | reanswers t sid msg ht => exact h.startOffer (hl.closing t _ ht rfl) msg
  | drops t => exact (h.entered t).of_frame rfl rfl
  -- a connection gathers, answers and applies under a handle that is already stored
  | offers => exact h.of_frame rfl rfl
  | replied => exact h.of_frame rfl rfl
  | applied => exact h.of_frame rfl rfl
  | connected => exact h.of_frame rfl rfl
  | dropped => exact h.of_frame rfl rfl
  | answered => exact h.of_frame rfl rfl
  | raised => exact h.of_frame rfl rfl
  | connectionStateChange p st => exact h.onConnectionstatechange p st
  | dataChannel => exact h.of_frame wireDatachannel_pcs wireDatachannel_pc
  | channelOpen => exact h.of_frame markOpen_pcs markOpen_pc
  | channelClose => exact h.of_frame rfl rfl
  | setContact => exact h.of_frame rfl rfl
  -- the current connection is closed before it is forgotten
  | shutdown => exact h.closeSessionPc

/-- A step leaves `session.pc` as it is, clears it, or finds it cleared. -/
theorem pc_step {a : SessionAct F} {out : List (SessionEvent F)} (hl : Locked w)
    (hs : step w a = some (w', out)) :
    w'.session.pc = w.session.pc ∨ w'.session.pc = none ∨ w.session.pc = none := by
  cases step_outcome hs with
  | called => exact Or.inl rfl
  -- the old connection is taken out, or there was none
  | closes t => exact Or.inr (Or.inl (entered_pc (t := t)))
  | dials t sid _ _ _ hp => exact Or.inr (Or.inr hp)
  | redials t sid ht => exact Or.inr (Or.inr (hl.closing t _ ht rfl))
  | answers t sid msg _ _ hp => exact Or.inr (Or.inr hp)
  | reanswers t sid msg ht => exact Or.inr (Or.inr (hl.closing t _ ht rfl))
  | drops t => exact Or.inr (Or.inl (entered_pc (t := t)))
  | offers => exact Or.inl rfl
  | replied => exact Or.inl rfl
  | applied => exact Or.inl rfl
  | connected => exact Or.inl rfl
  | dropped => exact Or.inl rfl
  | answered => exact Or.inl rfl
  | raised => exact Or.inl rfl
  | connectionStateChange p st =>
    unfold onConnectionstatechange
    dsimp only
    split
    · show (if w.session.pc = some p then none else w.session.pc) = _ ∨
        (if w.session.pc = some p then none else w.session.pc) = none ∨ _
      -- a terminal state clears `session.pc` only for its own connection
      split_ifs
      · exact Or.inr (Or.inl rfl)
      · exact Or.inl rfl
    · exact Or.inl rfl
  | dataChannel => exact Or.inl wireDatachannel_pc
  | channelOpen => exact Or.inl markOpen_pc
  | channelClose => exact Or.inl rfl
  | setContact => exact Or.inl rfl
  | shutdown => exact Or.inr (Or.inl (by simp))

/-! ### Runs -/

/-- In every state of every run, a connection that was not closed is the current one, and the
next step stores another connection only when there is none.

`Live` is kept because only the holder of the lock makes a connection, after it has closed and
taken out the one before (`pc_step`). -/
theorem at_most_one_live (contact : Ref (Contact F)) (role : Role) {as : List (SessionAct F)}
    {c : Config (SessionWorld F) (SessionEvent F)}
    (h : (step (F := F)).run ⟨new contact role, []⟩ as = some c) :
    Live c.state ∧
      ∀ (a : SessionAct F) (w' : SessionWorld F) (out : List (SessionEvent F)) (p : Nat),
        step c.state a = some (w', out) → w'.session.pc = some p → c.state.session.pc ≠ some p →
          c.state.session.pc = none := by
  have hnew : Live (new contact role) := by
    intro p pc hp
    cases hp
  have key : Live c.state ∧ Locked c.state := by
    refine Machine.run_invariant (P := fun c => Live c.state ∧ Locked c.state) ?_
      ⟨hnew, locked_new contact role⟩ h
    rintro d a d' ⟨hlive, hl⟩ hnext
    obtain ⟨out, hs, -⟩ := Machine.next_eq_some.mp hnext
    exact ⟨live_step hlive hl hs, locked_step hl hs⟩
  refine ⟨key.1, fun a w' out p hs hp hne => ?_⟩
  rcases pc_step key.2 hs with heq | hnone | hnone
  · rw [← heq] at hne
    exact absurd hp hne
  · rw [hnone] at hp
    cases hp
  · exact hnone

theorem at_most_one_live_reconnect :
    ∃ c, (step (F := Empty)).run ⟨new someContact .initiator, []⟩ staleCallbackRun = some c ∧
      c.state.pcs.map PeerConnection.closeCalled = [true, false] ∧ Live c.state := by
  have hrun : ((step (F := Empty)).run ⟨new someContact .initiator, []⟩ staleCallbackRun).map
      (fun c => c.state.pcs.map PeerConnection.closeCalled) = some [true, false] := by
    rfl
  obtain ⟨c, hc, hpcs⟩ := Option.map_eq_some_iff.mp hrun
  exact ⟨c, hc, hpcs, (at_most_one_live someContact .initiator hc).1⟩

end SessionWorld

end P4
