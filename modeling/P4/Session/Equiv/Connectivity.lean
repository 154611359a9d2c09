/-
  When a connected session has a usable channel.

  `session.connected` is set by `mark_open`, whichever channel calls it, and the callbacks of a
  connection or channel write to the session whether or not they belong to the current
  connection.  A callback of an earlier connection can therefore clear `session.dc` while the
  channel of the new one is still opening; when that channel opens, the session is connected
  and has no channel (`stale_close_disconnects`).

  In every run in which the callbacks that run are `Current`, a connected session has an open
  channel of its current connection (`connectivity_of_current`).  The invariant is
  `Channels`: a channel of the current connection that is still connecting is `session.dc`,
  and it is the only channel of its connection.
-/
import P4.Session.Equiv.Basic

namespace P4

namespace SessionWorld

variable {F : Type} {w w' : SessionWorld F} {t p d e : Nat}

/-! ### The invariant -/

/-- A connected session has a channel of its current connection that has opened and has not
closed. -/
def Connectivity (w : SessionWorld F) : Prop :=
  w.session.connected = true → ∃ d dc, w.session.dc = some d ∧ w.dcs[d]? = some dc ∧
    w.session.pc = some dc.pc ∧ dc.readyState = .opened

/-- The callback belongs to the current connection or finds nothing that it would spoil.

A connection that ends finds itself current, or no channel in the session; a channel that
opens finds its connection current, or the session connected; a channel that closes finds its
connection current, or no channel in the session; and a channel is announced by the current
connection when no channel of that connection is still connecting, and it is open or the
first one. -/
def Current (w : SessionWorld F) : SessionAct F → Prop
  | .connectionStateChange p st =>
    st.terminal = true → w.session.pc = some p ∨ w.session.dc = none
  | .channelOpen d => ∀ dc, w.dcs[d]? = some dc →
    w.session.pc = some dc.pc ∨ w.session.connected = true
  | .channelClose d => ∀ dc, w.dcs[d]? = some dc →
    w.session.pc = some dc.pc ∨ w.session.dc = none
  | .dataChannel p rs => w.session.pc = some p ∧
    (∀ dc ∈ w.dcs, dc.pc = p → dc.readyState ≠ .connecting) ∧
    (rs = .opened ∨ ∀ dc ∈ w.dcs, dc.pc ≠ p)
  | _ => True

/-- The invariant of the runs whose callbacks are `Current`. -/
structure Channels (w : SessionWorld F) : Prop where
  connectivity : Connectivity w
  dc_lt : ∀ (d : Nat) (dc : DataChannel), w.dcs[d]? = some dc → dc.pc < w.pcs.length
  current : ∀ (d : Nat) (dc : DataChannel), w.dcs[d]? = some dc → w.session.pc = some dc.pc →
    dc.readyState = .connecting → w.session.dc = some d
  unique : ∀ (d e : Nat) (dc ec : DataChannel), w.dcs[d]? = some dc →
    dc.readyState = .connecting → w.dcs[e]? = some ec → ec.pc = dc.pc → e = d

/-! ### Lists of channels -/

theorem getElem?_snoc {α : Type} {l : List α} {a b : α} {i : Nat}
    (h : (l ++ [a])[i]? = some b) : l[i]? = some b ∨ i = l.length ∧ b = a := by
  rw [List.getElem?_append] at h
  split_ifs at h with hi
  · exact Or.inl h
  · have hb : b ∈ [a] := List.mem_of_getElem? h
    have hlt := (List.getElem?_eq_some_iff.mp h).1
    rw [List.length_singleton] at hlt
    exact Or.inr ⟨by omega, List.mem_singleton.mp hb⟩

theorem setReadyState_dcs {rs : ReadyState} {ec : DataChannel}
    (h : (w.setReadyState d rs).dcs[e]? = some ec) :
    (e = d ∧ ec.readyState = rs ∧ ∃ dc, w.dcs[d]? = some dc ∧ ec.pc = dc.pc) ∨
      e ≠ d ∧ w.dcs[e]? = some ec := by
  rw [setReadyState, List.getElem?_modify] at h
  split_ifs at h with hd
  · subst hd
    obtain ⟨dc, hdc, rfl⟩ := Option.map_eq_some_iff.mp h
    exact Or.inl ⟨rfl, rfl, dc, hdc, rfl⟩
  · exact Or.inr ⟨Ne.symm hd, by simpa using h⟩

theorem setReadyState_dcs_self {rs : ReadyState} {dc : DataChannel} (h : w.dcs[d]? = some dc) :
    (w.setReadyState d rs).dcs[d]? = some { dc with readyState := rs } := by
  rw [setReadyState, List.getElem?_modify_eq, h]
  rfl

theorem setReadyState_dcs_ne {rs : ReadyState} (h : d ≠ e) :
    (w.setReadyState d rs).dcs[e]? = w.dcs[e]? := by
  show (w.dcs.modify d _)[e]? = w.dcs[e]?
  simp [h]

/-! ### Steps -/

/-- Code that leaves the channels and what the session says of them alone. -/
theorem Channels.of_frame (h : Channels w) (hp : w'.session.pc = w.session.pc)
    (hd : w'.session.dc = w.session.dc) (hc : w'.session.connected = w.session.connected)
    (hn : w'.pcs.length = w.pcs.length) (hdcs : w'.dcs = w.dcs) : Channels w' := by
  constructor
  · unfold Connectivity
    rw [hp, hd, hc, hdcs]
    exact h.connectivity
  · rw [hdcs, hn]
    exact h.dc_lt
  · rw [hdcs, hp, hd]
    exact h.current
  · rw [hdcs]
    exact h.unique

/-- The session gives up its connection and its channel. -/
theorem Channels.disconnect (h : Channels w) (hp : w'.session.pc = none)
    (hc : w'.session.connected = false) (hn : w'.pcs.length = w.pcs.length)
    (hdcs : w'.dcs = w.dcs) : Channels w' := by
  constructor
  · intro hc'
    rw [hc] at hc'
    cases hc'
  · rw [hdcs, hn]
    exact h.dc_lt
  · intro d dc _ hpc
    rw [hp] at hpc
    cases hpc
  · rw [hdcs]
    exact h.unique

theorem Channels.closeSessionPc (h : Channels w) : Channels w.closeSessionPc :=
  h.disconnect (by simp) (by simp) (by simp) (by simp)

/-- A session that is not connected gets a new connection. -/
theorem Channels.createPc (h : Channels w) (hc : w.session.connected = false) (i : Bool) :
    Channels (w.createPc i) := by
  have hlen : (w.createPc i).pcs.length = w.pcs.length + 1 := by
    rw [SessionWorld.createPc, List.length_append, List.length_singleton]
  constructor
  · intro hc'
    have hc'' : w.session.connected = true := hc'
    rw [hc] at hc''
    cases hc''
  · intro d dc hd
    have := h.dc_lt d dc hd
    omega
  · intro d dc hd hpc
    -- the new connection has no channel yet
    have hlt := h.dc_lt d dc hd
    have hnew : w.pcs.length = dc.pc := Option.some.inj hpc
    omega
  · exact h.unique

/-- A channel of the current connection is stored in the session. -/
theorem Channels.dataChannel (h : Channels w) {rs : ReadyState} (hlt : p < w.pcs.length)
    (hok : Current w (.dataChannel p rs)) : Channels (w.wireDatachannel p rs) := by
  obtain ⟨hp, hnone, hfirst⟩ := hok
  have hold : ∀ (d : Nat) (dc : DataChannel), w.dcs[d]? = some dc →
      dc.readyState = .connecting → dc.pc ≠ p :=
    fun d dc hd hr hpc => hnone dc (List.mem_of_getElem? hd) hpc hr
  constructor
  · intro hc
    by_cases hrs : rs = .opened
    · refine ⟨w.dcs.length, { pc := p, readyState := rs }, wireDatachannel_dc, ?_, ?_, hrs⟩
      · rw [wireDatachannel_dcs, List.getElem?_concat_length]
      · rw [wireDatachannel_pc, hp]
    · -- the connection had no channel, so the session was not connected
      rw [wireDatachannel_connected hrs] at hc
      obtain ⟨d, dc, -, hd, hpc, -⟩ := h.connectivity hc
      rw [hp] at hpc
      exact absurd (Option.some.inj hpc).symm
        ((hfirst.resolve_left hrs) dc (List.mem_of_getElem? hd))
  · intro d dc hd
    rw [wireDatachannel_dcs] at hd
    rw [wireDatachannel_pcs]
    rcases getElem?_snoc hd with hd | ⟨-, rfl⟩
    · exact h.dc_lt d dc hd
    · exact hlt
  · intro d dc hd hpc hr
    rw [wireDatachannel_dcs] at hd
    rw [wireDatachannel_pc, hp] at hpc
    rw [wireDatachannel_dc]
    rcases getElem?_snoc hd with hd | ⟨rfl, -⟩
    · exact absurd (Option.some.inj hpc).symm (hold d dc hd hr)
    · rfl
  · intro d e dc ec hd hr he hpc
    rw [wireDatachannel_dcs] at hd he
    rcases getElem?_snoc hd with hd | ⟨rfl, rfl⟩ <;> rcases getElem?_snoc he with he | ⟨rfl, rfl⟩
    · exact h.unique d e dc ec hd hr he hpc
    · exact absurd hpc.symm (hold d dc hd hr)
    · rcases hfirst with hopen | hfirst
      · rw [hopen] at hr
        cases hr
      · exact absurd hpc (hfirst ec (List.mem_of_getElem? he))
    · rfl

theorem Channels.startInitiate (h : Channels w) (hc : w.session.connected = false)
    (sid : Str) : Channels (w.startInitiate t sid).1 := by
  have h₁ := h.createPc hc true
  have h₂ : Channels ((w.createPc true).setSessionId (.str sid)) :=
    h₁.of_frame rfl rfl rfl rfl rfl
  have hlen : ((w.createPc true).setSessionId (.str sid)).pcs.length - 1 = w.pcs.length := by
    simp [SessionWorld.createPc, setSessionId]
  have hnew : ∀ dc ∈ w.dcs, dc.pc ≠ w.pcs.length := by
    intro dc hdc
    obtain ⟨d, hd⟩ := List.mem_iff_getElem?.mp hdc
    exact Nat.ne_of_lt (h.dc_lt d dc hd)
  have h₃ : Channels (SessionWorld.wireDatachannel _ w.pcs.length .connecting) :=
    h₂.dataChannel (by simp [SessionWorld.createPc, setSessionId])
      ⟨rfl, fun dc hdc hpc => absurd hpc (hnew dc hdc), Or.inr hnew⟩
  rw [SessionWorld.startInitiate]
  dsimp only
  rw [hlen]
  exact h₃.of_frame rfl rfl rfl rfl rfl

theorem Channels.startOffer (h : Channels w) (hc : w.session.connected = false)
    (msg : Members F) : Channels (w.startOffer t msg).1 := by
  have h₁ := h.createPc hc false
  unfold SessionWorld.startOffer
  dsimp only
  split
  · exact h₁.of_frame rfl rfl rfl rfl rfl
  · split
    · exact h₁.of_frame rfl rfl rfl rfl rfl
    · exact h₁.of_frame rfl rfl rfl rfl rfl

theorem Channels.entered (h : Channels w) (t : Nat) : Channels (w.entered t) :=
  h.closeSessionPc.of_frame rfl rfl rfl rfl rfl

theorem entered_connected : (w.entered t).session.connected = false := by rw [entered_session]

/-- A session without a connection is not connected. -/
theorem Connectivity.not_connected (h : Connectivity w) (hp : w.session.pc = none) :
    w.session.connected = false := by
  rw [Bool.eq_false_iff]
  intro hc
  obtain ⟨d, dc, -, -, hpc, -⟩ := h hc
  rw [hp] at hpc
  cases hpc

/-- The old connection was taken out before the coroutine waited for its end. -/
theorem Channels.closing (h : Channels w) (hl : Locked w) {task : Task F}
    (ht : w.tasks[t]? = some task) (hc : task.closing = true) : w.session.connected = false :=
  h.connectivity.not_connected (hl.closing t task ht hc)

theorem Channels.onConnectionstatechange (h : Channels w) {st : ConnState}
    (hok : Current w (.connectionStateChange p st)) :
    Channels (w.onConnectionstatechange p st) := by
  cases hst : st.terminal with
  | false =>
    rw [SessionWorld.onConnectionstatechange, hst]
    exact h.of_frame rfl rfl rfl rfl rfl
  | true =>
    have hc : (w.onConnectionstatechange p st).session.connected = false := by
      rw [SessionWorld.onConnectionstatechange, if_pos hst]
      rfl
    by_cases hp : w.session.pc = some p
    · refine h.disconnect ?_ hc (by simp) (by simp)
      rw [SessionWorld.onConnectionstatechange, if_pos hst]
      exact if_pos hp
    · -- a stale connection: the session has no channel that could be lost
      have hd : w.session.dc = none := (hok hst).resolve_left hp
      have hpc : (w.onConnectionstatechange p st).session.pc = w.session.pc := by
        rw [SessionWorld.onConnectionstatechange, if_pos hst]
        exact if_neg hp
      have hdc : (w.onConnectionstatechange p st).session.dc = w.session.dc := by
        rw [SessionWorld.onConnectionstatechange, if_pos hst, hd]
        rfl
      have hconn : w.session.connected = false := by
        rw [Bool.eq_false_iff]
        intro hcon
        obtain ⟨d, dc, hd', -⟩ := h.connectivity hcon
        rw [hd] at hd'
        cases hd'
      exact h.of_frame hpc hdc (by rw [hc, hconn]) (by simp) (by simp)

theorem Channels.channelOpen (h : Channels w) {dc : DataChannel} (hdc : w.dcs[d]? = some dc)
    (hr : dc.readyState = .connecting) (hok : Current w (.channelOpen d)) :
    Channels (w.setReadyState d .opened).markOpen := by
  constructor
  · intro _
    rw [markOpen_dcs, markOpen_dc, markOpen_pc]
    -- the channel is one of the current connection, or the session was connected before
    rcases hok dc hdc with hp | hc
    · exact ⟨d, { dc with readyState := .opened }, h.current d dc hdc hp hr,
        setReadyState_dcs_self hdc, hp, rfl⟩
    · obtain ⟨e, ec, he, hec, hp, hopen⟩ := h.connectivity hc
      have hne : d ≠ e := by
        rintro rfl
        rw [hdc] at hec
        rw [Option.some.inj hec, hopen] at hr
        cases hr
      exact ⟨e, ec, he, by rw [setReadyState_dcs_ne hne, hec], hp, hopen⟩
  · intro e ec he
    rw [markOpen_dcs] at he
    rw [markOpen_pcs]
    rcases setReadyState_dcs he with ⟨-, -, dc', hdc', hpc⟩ | ⟨-, he⟩
    · rw [hpc]
      exact h.dc_lt d dc' hdc'
    · exact h.dc_lt e ec he
  · intro e ec he hp hcon
    rw [markOpen_dcs] at he
    rw [markOpen_pc] at hp
    rw [markOpen_dc]
    -- the opened channel is no longer connecting, the others are as they were
    rcases setReadyState_dcs he with ⟨-, hopen, -⟩ | ⟨-, he⟩
    · rw [hopen] at hcon
      cases hcon
    · exact h.current e ec he hp hcon
  · intro e f ec fc he hcon hf hpc
    rw [markOpen_dcs] at he hf
    rcases setReadyState_dcs he with ⟨-, hopen, -⟩ | ⟨-, he'⟩
    · rw [hopen] at hcon
      cases hcon
    · rcases setReadyState_dcs hf with ⟨rfl, -, dc', hdc', hpc'⟩ | ⟨-, hf'⟩
      · exact h.unique e f ec dc' he' hcon hdc' (hpc'.symm.trans hpc)
      · exact h.unique e f ec fc he' hcon hf' hpc

theorem Channels.channelClose (h : Channels w) {dc : DataChannel} (hdc : w.dcs[d]? = some dc)
    (hok : Current w (.channelClose d)) : Channels (w.setReadyState d .closed).onClose := by
  constructor
  · intro hc
    cases hc
  · intro e ec he
    rcases setReadyState_dcs he with ⟨-, -, dc', hdc', hpc⟩ | ⟨-, he⟩
    · rw [hpc]
      exact h.dc_lt d dc' hdc'
    · exact h.dc_lt e ec he
  · intro e ec he hp hcon
    rcases setReadyState_dcs he with ⟨-, hclosed, -⟩ | ⟨hne, he⟩
    · rw [hclosed] at hcon
      cases hcon
    · rcases hok dc hdc with hcur | hnone
      · -- two channels of the current connection, one of them still connecting
        have hpp : some ec.pc = some dc.pc := Eq.trans (Eq.symm hp) hcur
        exact absurd (h.unique e d ec dc he hcon hdc (Option.some.inj hpp).symm).symm hne
      · have := h.current e ec he hp hcon
        rw [hnone] at this
        cases this
  · intro e f ec fc he hcon hf hpc
    rcases setReadyState_dcs he with ⟨-, hclosed, -⟩ | ⟨-, he'⟩
    · rw [hclosed] at hcon
      cases hcon
    · rcases setReadyState_dcs hf with ⟨rfl, -, dc', hdc', hpc'⟩ | ⟨-, hf'⟩
      · exact h.unique e f ec dc' he' hcon hdc' (hpc'.symm.trans hpc)
      · exact h.unique e f ec fc he' hcon hf' hpc

/-- A step whose callback is `Current` keeps the invariant. -/
theorem channels_step {a : SessionAct F} {out : List (SessionEvent F)} (h : Channels w)
    (hl : Locked w) (hok : Current w a) (hs : step w a = some (w', out)) : Channels w' := by
  cases step_outcome hs with
  | called => exact h.of_frame rfl rfl rfl rfl rfl
  | closes t => exact (h.entered t).of_frame rfl rfl rfl rfl rfl
  | dials t sid => exact (h.entered t).startInitiate entered_connected _
  | redials t sid ht => exact h.startInitiate (h.closing hl ht rfl) _
  | answers t sid msg => exact (h.entered t).startOffer entered_connected msg
  | reanswers t sid msg ht => exact h.startOffer (h.closing hl ht rfl) msg
  | drops t => exact (h.entered t).of_frame rfl rfl rfl rfl rfl
  -- the coroutines move on without a word to the channels
  | offers => exact h.of_frame rfl rfl rfl rfl rfl
  | replied => exact h.of_frame rfl rfl rfl rfl rfl
  | applied => exact h.of_frame rfl rfl rfl rfl rfl
  | connected => exact h.of_frame rfl rfl rfl rfl rfl
  | dropped => exact h.of_frame rfl rfl rfl rfl rfl
  | answered => exact h.of_frame rfl rfl rfl rfl rfl
  | raised => exact h.of_frame rfl rfl rfl rfl rfl
  -- here and in the next three the callback must be `Current`
  | connectionStateChange p st => exact h.onConnectionstatechange hok
  | dataChannel p rs pc hp => exact h.dataChannel (List.getElem?_eq_some_iff.mp hp).1 hok
  | channelOpen d dc hd hr => exact h.channelOpen hd hr hok
  | channelClose d dc hd => exact h.channelClose hd hok
  | setContact => exact h.of_frame rfl rfl rfl rfl rfl
  | shutdown => exact h.closeSessionPc

theorem channels_new (contact : Ref (Contact F)) (role : Role) : Channels (new contact role) := by
  constructor
  · intro hc
    cases hc
  · intro d dc hd
    cases hd
  · intro d dc hd
    cases hd
  · intro d e dc ec hd
    cases hd

/-! ### Runs -/

/-- In every run whose callbacks are `Current`, a connected session has an open channel of its
current connection.

The invariant is `Channels`, with the lock (`Locked`), under which no other coroutine replaces the
connection that one is working on. -/
theorem connectivity_of_current (contact : Ref (Contact F)) (role : Role)
    {as : List (SessionAct F)} {c : Config (SessionWorld F) (SessionEvent F)}
    (hok : (step (F := F)).Meets (fun c a => Current c.state a) ⟨new contact role, []⟩ as)
    (h : (step (F := F)).run ⟨new contact role, []⟩ as = some c) : Connectivity c.state := by
  have key : Channels c.state ∧ Locked c.state := by
    refine Machine.run_invariant_of_meets (P := fun c => Channels c.state ∧ Locked c.state) ?_
      ⟨channels_new contact role, locked_new contact role⟩ hok h
    rintro c a c' ⟨hch, hl⟩ hcur hnext
    obtain ⟨out, hs, -⟩ := Machine.next_eq_some.mp hnext
    exact ⟨channels_step hch hl hcur hs, locked_step hl hs⟩
  exact key.1.connectivity

/-- The first offer fails after its connection was made; the second closes that connection and
makes its own; the callback of the closed connection runs; the answer is applied and the new
channel opens. -/
def staleCallbackRun : List (SessionAct Empty) :=
  [.callInitiate, .acquire 0 ['a'], .raised 0, .callInitiate, .acquire 1 ['b'], .closed 1 ['b'],
    .connectionStateChange 0 .closed, .gathered 1, .replied 1 [], .applied 1, .channelOpen 1]

/-- A contact for concrete runs. -/
def someContact : Ref (Contact Empty) where
  oid := 0
  val := { peerId := .str [112], publicKeyB64 := .str [107]
           rendezvous := { transport := .str [], address := .str [], port := .int 0 } }

/-- In general the session can be connected without a channel. -/
theorem stale_close_disconnects : ¬ ∀ (contact : Ref (Contact Empty)) (role : Role)
    (as : List (SessionAct Empty)) (c : Config (SessionWorld Empty) (SessionEvent Empty)),
    (step (F := Empty)).run ⟨new contact role, []⟩ as = some c → Connectivity c.state := by
  intro h
  have hrun : ((step (F := Empty)).run ⟨new someContact .initiator, []⟩ staleCallbackRun).map
      (fun c => (c.state.session.connected, c.state.session.dc)) = some (true, none) := by
    rfl
  obtain ⟨c, hc, hdata⟩ := Option.map_eq_some_iff.mp hrun
  have hconn : c.state.session.connected = true := congrArg Prod.fst hdata
  have hdc : c.state.session.dc = none := congrArg Prod.snd hdata
  obtain ⟨d, dc, hd, -⟩ := h someContact .initiator staleCallbackRun c hc hconn
  rw [hdc] at hd
  cases hd

/-- A connection that opens its channel, fails and is closed, and a second one that opens its
channel: every callback is `Current`. -/
def reconnectRun : List (SessionAct Empty) :=
  [.callInitiate, .acquire 0 ['a'], .gathered 0, .replied 0 [], .applied 0, .channelOpen 0,
    .connectionStateChange 0 .failed, .connectionStateChange 0 .closed, .callInitiate,
    .acquire 1 ['b'], .gathered 1, .replied 1 [], .applied 1, .channelOpen 1]

theorem connectivity_of_current_reconnect :
    ∃ c, (step (F := Empty)).run ⟨new someContact .initiator, []⟩ reconnectRun = some c ∧
      c.state.session.connected = true ∧ Connectivity c.state := by
  have hok : (step (F := Empty)).Meets (fun c a => Current c.state a)
      ⟨new someContact .initiator, []⟩ reconnectRun := by
    iterate 5 refine Machine.meets_cons rfl trivial ?_
    refine Machine.meets_cons rfl (fun dc hdc => Or.inl (by cases hdc; rfl)) ?_
    refine Machine.meets_cons rfl (fun _ => Or.inl rfl) ?_
    refine Machine.meets_cons rfl (fun _ => Or.inr rfl) ?_
    iterate 5 refine Machine.meets_cons rfl trivial ?_
    refine Machine.meets_cons rfl (fun dc hdc => Or.inl (by cases hdc; rfl)) ?_
    trivial
  exact ⟨_, rfl, rfl, connectivity_of_current someContact .initiator hok rfl⟩

end SessionWorld

end P4
