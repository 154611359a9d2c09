/-
  Which steps make a peer connection.

  `_create_pc` is reached by a coroutine that has the session lock and no connection left to
  close; no other stretch of code appends to `pcs` (`length_pcs_step`).  A step of a node makes a
  connection exactly when it lets such a coroutine go on (`exists_newPc_iff`).
-/
import P4.Node.Equiv.Acceptance
import P4.Session.Equiv.Basic
import P4.Turn.Basic

namespace P4

/-! ### Sessions -/

namespace SessionWorld

variable {F : Type} {w w' : SessionWorld F} {t : Nat}

/-- `_create_pc` is reached: by a coroutine that gets the lock when there is no connection to
close, or that has closed it. -/
def createsPc (w : SessionWorld F) : SessionAct F → Bool
  | .acquire t _ =>
    match w.tasks[t]? with
    | some (.initiate .lock) => !w.session.connected && w.session.pc.isNone
    | some (.offer _ .lock) => w.session.pc.isNone
    | _ => false
  | .closed t _ =>
    match w.tasks[t]? with
    | some (.initiate .closing) => true
    | some (.offer _ .closing) => true
    | _ => false
  | _ => false

theorem length_pcs_startInitiate (sid : Str) :
    (w.startInitiate t sid).1.pcs.length = w.pcs.length + 1 := by
  show (SessionWorld.wireDatachannel _ _ _).pcs.length = _
  rw [wireDatachannel_pcs]
  exact List.length_append

theorem length_pcs_startOffer (msg : Members F) :
    (w.startOffer t msg).1.pcs.length = w.pcs.length + 1 := by
  unfold startOffer
  dsimp only
  split
  · exact List.length_append
  · split <;> exact List.length_append

/-- A step makes one connection or none. -/
theorem length_pcs_step {a : SessionAct F} {out : List (SessionEvent F)}
    (h : step w a = some (w', out)) :
    w'.pcs.length = w.pcs.length + (w.createsPc a).toNat := by
  cases step_outcome h with
  | called a task htask => cases a <;> first | rfl | cases htask
  -- a coroutine with the lock closes the old connection first, if there is one
  | connected t sid hl ht hc => simp [createsPc, ht, hc, finish]
  | closes t sid task task' hl ht hm hp =>
    obtain ⟨p, hp⟩ := Option.isSome_iff_exists.mp hp
    cases hm <;> simp [createsPc, ht, hp, suspend]
  | dials t sid hl ht hc hp =>
    rw [length_pcs_startInitiate, entered_length_pcs]
    simp [createsPc, ht, hc, hp]
  | redials t sid ht =>
    rw [length_pcs_startInitiate]
    simp [createsPc, ht]
  | answers t sid msg hl ht hp =>
    rw [length_pcs_startOffer, entered_length_pcs]
    simp [createsPc, ht, hp]
  | reanswers t sid msg ht =>
    rw [length_pcs_startOffer]
    simp [createsPc, ht]
  | drops t sid hl ht => simp [createsPc, ht, finish]
  | dropped t sid ht => simp [createsPc, ht, finish]
  -- nothing else makes a connection
  | offers => rfl
  | answered => rfl
  | replied => rfl
  | applied => rfl
  | raised => rfl
  | connectionStateChange => exact onConnectionstatechange_length_pcs
  | dataChannel => exact congrArg List.length wireDatachannel_pcs
  | channelOpen => exact congrArg List.length markOpen_pcs
  | channelClose => rfl
  | setContact => rfl
  | shutdown => exact closeSessionPc_length_pcs

/-- The steps that carry data for the node to check make no connection. -/
theorem createsPc_of_not_isInternal {a : SessionAct F} (h : a.isInternal = false) :
    w.createsPc a = false := by
  cases a with
  | acquire t sid => cases h
  | closed t sid => cases h
  | _ => rfl

end SessionWorld

/-! ### Nodes -/

namespace Node

section

variable {F : Type} [Crates F] {n n' : Node F} {p : Str}

/-- `_create_pc` is reached in the session of a peer. -/
def createsPc (n : Node F) : Act F → Bool
  | .session p act => (Dict.get? n.sessions p).any (·.createsPc act)
  | _ => false

theorem pcCount_of_get? {w : SessionWorld F} (hw : Dict.get? n.sessions p = some w) :
    n.pcCount p = w.pcs.length := by
  rw [pcCount, hw, Option.map_some, Option.getD_some]

theorem pcCount_set {w : SessionWorld F} (h : n'.sessions = Dict.set n.sessions p w) (q : Str) :
    n'.pcCount q = if q = p then w.pcs.length else n.pcCount q := by
  rw [pcCount, h, Dict.get?_set]
  split_ifs with hq
  · rw [Option.map_some, Option.getD_some]
  · rfl

theorem mem_newPcs {q : Str} : q ∈ n.newPcs n' ↔ n.pcCount q < n'.pcCount q := by
  rw [newPcs, List.mem_filter, decide_eq_true_iff, and_iff_right_iff_imp]
  intro hlt
  rw [Dict.mem_keys_iff]
  cases hget : Dict.get? n'.sessions q with
  | none => simp [pcCount, hget] at hlt
  | some w => exact ⟨w, rfl⟩

/-- A step of a session makes a connection when `createsPc` says so. -/
theorem pcCount_stepSession {act : SessionAct F} {out : List (Event F)} {w : SessionWorld F}
    (hw : Dict.get? n.sessions p = some w) (hs : n.stepSession p act = some (n', out)) (q : Str) :
    n'.pcCount q = n.pcCount q + if q = p then (w.createsPc act).toNat else 0 := by
  obtain ⟨v, w', o, hv, hstep, rfl, -⟩ := stepSession_eq_some.mp hs
  rw [hw] at hv
  cases hv
  rw [pcCount_set rfl, SessionWorld.length_pcs_step hstep]
  split_ifs with hq
  · rw [hq, pcCount_of_get? hw]
  · rfl

/-- The step of a session makes no connection. -/
theorem pcCount_stepSession_quiet {act : SessionAct F} {out : List (Event F)}
    (hact : act.isInternal = false) (hs : n.stepSession p act = some (n', out)) (q : Str) :
    n'.pcCount q = n.pcCount q := by
  obtain ⟨w, -, -, hw, -, -, -⟩ := stepSession_eq_some.mp hs
  rw [pcCount_stepSession hw hs, SessionWorld.createsPc_of_not_isInternal hact, Bool.toNat_false,
    ite_self, Nat.add_zero]

theorem pcCount_addSession (contact : Ref (Contact F)) (role : Role) (q : Str) :
    (n.addSession contact p role).pcCount q = n.pcCount q := by
  unfold addSession
  split
  · rename_i hnone
    rw [pcCount_set rfl]
    split_ifs with hq
    · rw [hq, pcCount, hnone]
      rfl
    · rfl
  · rename_i w hw
    dsimp only
    rw [pcCount_set rfl]
    split_ifs with hq
    · rw [hq, pcCount_of_get? hw]
    · rfl

end

section

variable {F : Type} [DecidableEq F] [Float64 F] [Crates F] {n n' : Node F}

theorem pcCount_addContact (invite : Json F) (writeOk : Bool) (q : Str) :
    (n.addContact invite writeOk).2.pcCount q = n.pcCount q := by
  unfold addContact
  dsimp only
  split
  · rfl
  · split
    · rfl
    · split
      · rfl
      · split
        · rfl
        · split
          · rfl
          · split
            · rfl
            -- the contact is in the map and the file is written
            · exact pcCount_addSession _ _ q

variable [PyRepr F]

/-- An action other than a step of a session makes no connection. -/
theorem pcCount_step_of_ne {a : Act F} {out : List (Event F)} (h : step n a = some (n', out))
    (ha : ∀ p act, a ≠ .session p act) (q : Str) : n'.pcCount q = n.pcCount q := by
  cases a with
  | inbound stream now replyMs random =>
    cases step_outcome h with
    | unread => rfl
    | rejected => rfl
    | accepted _ _ _ _ msg rest sender recipient nonce contact _ out hread hacc hd =>
      rcases dispatch_cases hd with ⟨rfl, -⟩ | ⟨payload, -, -, hs⟩ | ⟨payload, -, -, rfl, -⟩
      · rfl
      · exact pcCount_stepSession_quiet rfl hs q
      · rfl
    | session _ p act _ out rest hin => cases hin
  | answer p t desc now random =>
    simp only [step, answerOffer] at h
    split at h
    · obtain ⟨⟨n₁, out₁⟩, hs, heq⟩ := Option.map_eq_some_iff.mp h
      cases heq
      exact pcCount_stepSession_quiet rfl hs q
    · cases h
  | dial p =>
    simp only [step] at h
    split at h
    · cases h
    · split_ifs at h
      exact pcCount_stepSession_quiet rfl h q
  | request p t desc now random online =>
    simp only [step, requestOffer] at h
    split at h
    · split at h
      · exact pcCount_stepSession_quiet rfl h q
      · split_ifs at h
        · obtain ⟨⟨n₁, out₁⟩, hs, heq⟩ := Option.map_eq_some_iff.mp h
          cases heq
          exact pcCount_stepSession_quiet rfl hs q
        · obtain ⟨⟨n₁, out₁⟩, hs, heq⟩ := Option.map_eq_some_iff.mp h
          cases heq
          exact pcCount_stepSession_quiet rfl hs q
    · cases h
  | reply p t stream now =>
    -- the replay window may have changed before the session goes on
    simp only [step, receiveReply] at h
    split at h
    · split at h
      · exact pcCount_stepSession_quiet rfl h q
      · split at h
        · exact pcCount_stepSession_quiet rfl h q
        · split at h
          · rename_i e replay hval
            exact pcCount_stepSession_quiet (n := { n with replay := replay }) rfl h q
          · rename_i replay hval
            obtain ⟨⟨n₁, out₁⟩, hs, heq⟩ := Option.map_eq_some_iff.mp h
            cases heq
            refine pcCount_stepSession_quiet (n := { n with replay := replay }) ?_ hs q
            split_ifs <;> rfl
    · cases h
  | drop p =>
    have hs : n.stepSession p .callDrop = some (n', out) := h
    exact pcCount_stepSession_quiet rfl hs q
  | raised p t e =>
    simp only [step] at h
    split at h
    · obtain ⟨⟨n₁, out₁⟩, hs, heq⟩ := Option.map_eq_some_iff.mp h
      cases heq
      exact pcCount_stepSession_quiet rfl hs q
    · exact pcCount_stepSession_quiet rfl h q
  | session p act => exact absurd rfl (ha p act)
  | addContact invite writeOk =>
    simp only [step, Option.some.injEq] at h
    cases h
    exact pcCount_addContact invite.val writeOk q

/-- A step makes a connection exactly when it reaches `_create_pc`. -/
theorem exists_newPc_iff {a : Act F} {out : List (Event F)} (h : step n a = some (n', out)) :
    (∃ q, q ∈ n.newPcs n') ↔ n.createsPc a = true := by
  simp only [mem_newPcs]
  by_cases ha : ∃ p act, a = .session p act
  · obtain ⟨p, act, rfl⟩ := ha
    simp only [step] at h
    split_ifs at h
    obtain ⟨⟨n₁, out₁⟩, hs, heq⟩ := Option.map_eq_some_iff.mp h
    cases heq
    obtain ⟨w, -, -, hw, -, -, -⟩ := stepSession_eq_some.mp hs
    simp only [pcCount_stepSession hw hs, createsPc, hw, Option.any_some]
    cases w.createsPc act with
    | false => simp
    | true =>
      constructor
      · intro _
        rfl
      · intro _
        exact ⟨p, by simp⟩
  · have hne : ∀ p act, a ≠ .session p act := fun p act he => ha ⟨p, act, he⟩
    simp only [pcCount_step_of_ne h hne, Nat.lt_irrefl, exists_false, false_iff]
    cases a with
    | session p act => exact absurd rfl (hne p act)
    | _ => exact Bool.false_ne_true

end

end Node

end P4
