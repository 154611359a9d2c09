/-
  When the credentials of a peer connection are still good.

  All peer connections of a node are made with the credentials of its start, which are stale once
  their lifetime is over (`turnExpiry_iceConfig`).  A run has only connections with good
  credentials exactly when every step that makes one comes before that (`made_fresh_iff`); a node
  that has to reconnect later does so with stale ones (`stale_on_reconnect`).
-/
import P4.Json.Equiv.RoundTrip
import P4.Sample.Equiv.Laws
import P4.Turn.Equiv.CreatePc
import Mathlib.Data.Rat.Cast.Order
import Mathlib.Data.Rat.Floor

namespace P4

/-! ### The expiry in a username -/

/-- The number in front of the first colon. -/
def usernameExpiry (username : Str) : Option Int :=
  (Str.toText? (username.takeWhile (· ≠ Str.ofChar ':'))).bind Json.intTok

/-- The expiry in the TURN username of a configuration. -/
def RTCConfiguration.turnExpiry (config : RTCConfiguration) : Option Int :=
  (config.iceServers.findSome? RTCIceServer.username).bind usernameExpiry

/-- The credentials of the connection are good when it is made. -/
def PcMade.Fresh (e : PcMade) : Prop :=
  ∃ expiry, e.iceConfig.turnExpiry = some expiry ∧ e.time ≤ expiry

/-- A TURN server with a shared secret, and no static username and password. -/
structure RuntimeConfig.RestSecret (cfg : RuntimeConfig) : Prop where
  server : isSet cfg.turnServer = true
  secret : isSet cfg.turnSecret = true
  username : isSet cfg.turnUsername = false
  password : isSet cfg.turnPassword = false

/-- A number is read back up to its end or to a colon. -/
theorem usernameExpiry_printInt (x : Int) {rest : Str}
    (hrest : rest = [] ∨ ∃ hint, rest = Str.ofChar ':' :: hint) :
    usernameExpiry (Str.ofText (Json.printInt x) ++ rest) = some x := by
  have hdigits : ∀ c ∈ Str.ofText (Json.printInt x), decide (c ≠ Str.ofChar ':') = true := by
    intro c hc
    obtain ⟨d, hd, rfl⟩ := List.mem_map.mp hc
    rw [decide_eq_true_iff]
    intro heq
    have hcolon : d = ':' := Char.toNat_inj.mp (by rw [← Str.ofChar_val, heq, Str.ofChar_val])
    have hword := List.all_eq_true.mp (Json.printInt_word x) d hd
    rw [hcolon] at hword
    exact absurd hword (by decide)
  have htail : rest.takeWhile (fun c => decide (c ≠ Str.ofChar ':')) = [] := by
    rcases hrest with rfl | ⟨hint, rfl⟩
    · rfl
    · exact List.takeWhile_cons_of_neg (by simp)
  rw [usernameExpiry, List.takeWhile_append_of_pos hdigits, htail, List.append_nil,
    Str.toText?_ofText, Option.bind_some, Json.intTok_printInt]

/-- The time of expiry is read back from the user name. -/
theorem usernameExpiry_restUsername (expiry : Int) (hint : Str) :
    usernameExpiry (restUsername expiry hint) = some expiry := by
  rw [restUsername]
  split_ifs
  · have hread := usernameExpiry_printInt expiry (Or.inl rfl)
    rwa [List.append_nil] at hread
  · rw [List.append_assoc]
    exact usernameExpiry_printInt expiry (Or.inr ⟨hint, rfl⟩)

theorem restUsername_ne_nil (expiry : Int) (hint : Str) : restUsername expiry hint ≠ [] := by
  intro h
  have hread := usernameExpiry_restUsername expiry hint
  rw [h] at hread
  cases hread

/-! ### The credentials of the start -/

variable {hmacSha1 : List UInt8 → List UInt8 → FixedBytes 20} {cfg : RuntimeConfig} {now : ℚ}

theorem isSet_some {s : Str} (h : s ≠ []) : isSet (some s) = true := by simpa [isSet] using h

theorem b64e_ne_nil {b : List UInt8} (hb : b ≠ []) : b64e b ≠ [] := by
  intro h
  rw [b64e, Str.ofText, List.map_eq_nil_iff] at h
  have hdecode := Base64.decode_encode b
  rw [h] at hdecode
  exact hb (Option.some.inj hdecode).symm

/-- The username has the time of the call and the lifetime in it. -/
theorem deriveTurnRestCredentials_ok {secret hint : Str} {ttl : Int} {credentials : Str × Str}
    (h : deriveTurnRestCredentials hmacSha1 secret ttl hint now = .ok credentials) :
    0 < ttl ∧ usernameExpiry credentials.1 = some (truncate now + ttl) ∧
      credentials.1 ≠ [] ∧ credentials.2 ≠ [] := by
  unfold deriveTurnRestCredentials at h
  split_ifs at h with httl
  dsimp only at h
  obtain ⟨key, -, h⟩ := except_bind_ok.mp h
  obtain ⟨msg, -, h⟩ := except_bind_ok.mp h
  obtain rfl := Except.ok.inj h
  refine ⟨Int.not_le.mp httl, usernameExpiry_restUsername _ _, restUsername_ne_nil _ _,
    b64e_ne_nil fun hnil => ?_⟩
  have hlen := (hmacSha1 (encodeText key) (encodeText msg)).property
  rw [hnil] at hlen
  cases hlen

/-- With a shared secret the configuration has the derived username, with a lifetime in it. -/
theorem turnExpiry_iceConfig (hcfg : cfg.RestSecret) {config : RTCConfiguration × TurnMode}
    (h : cfg.iceConfig hmacSha1 now = .ok config) :
    config.1.turnExpiry = some (truncate now + cfg.turnTtlSeconds) ∧ 0 < cfg.turnTtlSeconds := by
  unfold RuntimeConfig.iceConfig at h
  dsimp only at h
  rw [if_pos hcfg.server] at h
  obtain ⟨⟨username, password, mode⟩, hcred, h⟩ := except_bind_ok.mp h
  obtain rfl := Except.ok.inj h
  rw [RuntimeConfig.turnCredentials, hcfg.username, hcfg.password, hcfg.secret] at hcred
  obtain ⟨credentials, hderive, hcred⟩ := except_bind_ok.mp hcred
  obtain ⟨httl, hexpiry, huser, hpassword⟩ := deriveTurnRestCredentials_ok hderive
  cases hcred
  simp only [isSet_some huser, isSet_some hpassword, Bool.and_self, if_true]
  refine ⟨?_, httl⟩
  -- a STUN server has no username
  split_ifs
  · exact hexpiry
  · exact hexpiry

/-! ### Runs -/

section

variable {F : Type} [DecidableEq F] [Float64 F] [Crates F] [PyRepr F]

namespace TurnNode

omit [PyRepr F] in
/-- The configuration is computed first. -/
theorem start_ok {identity : Identity F} {file : Option Text} {s : TurnNode F}
    (h : start hmacSha1 cfg identity file now = .ok s) :
    cfg.iceConfig hmacSha1 now = .ok (s.iceConfig, s.turnMode) := by
  obtain ⟨⟨config, mode⟩, hconfig, h⟩ := except_bind_ok.mp h
  obtain ⟨node, -, h⟩ := except_bind_ok.mp h
  cases h
  exact hconfig

theorem step_eq_some {s s' : TurnNode F} {a : TimedAct F} {out : List PcMade} :
    step s a = some (s', out) ↔ ∃ n' o, Node.step s.node a.act = some (n', o) ∧
      s' = { s with node := n' } ∧ out = (s.node.newPcs n').map fun peer =>
        { time := a.time, peer := peer, iceConfig := s.iceConfig } := by
  rw [step, Option.map_eq_some_iff]
  constructor
  · rintro ⟨⟨n', o⟩, hstep, heq⟩
    cases heq
    exact ⟨n', o, hstep, rfl, rfl⟩
  · rintro ⟨n', o, hstep, rfl, rfl⟩
    exact ⟨(n', o), hstep, rfl⟩

/-- No step changes the configuration. -/
theorem step_iceConfig {s s' : TurnNode F} {a : TimedAct F} {out : List PcMade}
    (h : step s a = some (s', out)) : s'.iceConfig = s.iceConfig := by
  obtain ⟨n', o, -, rfl, -⟩ := step_eq_some.mp h
  rfl

/-- The connections of a step are good exactly when it makes none or comes in time. -/
theorem step_fresh_iff {s s' : TurnNode F} {a : TimedAct F} {out : List PcMade} {expiry : Int}
    (hexpiry : s.iceConfig.turnExpiry = some expiry) (h : step s a = some (s', out)) :
    (∀ e ∈ out, e.Fresh) ↔ (s.node.createsPc a.act = true → a.time ≤ expiry) := by
  obtain ⟨n', o, hstep, -, rfl⟩ := step_eq_some.mp h
  have hfresh : ∀ peer, PcMade.Fresh { time := a.time, peer := peer, iceConfig := s.iceConfig } ↔
      a.time ≤ expiry := by
    intro peer
    rw [PcMade.Fresh]
    simp only [hexpiry, Option.some.injEq, exists_eq_left']
  rw [List.forall_mem_map, ← Node.exists_newPc_iff hstep]
  simp only [hfresh, forall_exists_index]

end TurnNode

/-- The credentials of all peer connections of a run are good exactly when every step that makes
one comes no later than the lifetime after the start.

No step changes the configuration of the start, so each connection is judged by the clock of the
step that makes it (`TurnNode.step_fresh_iff`). -/
theorem made_fresh_iff {identity : Identity F} {file : Option Text} {s : TurnNode F}
    {as : List (TimedAct F)} {c : Config (TurnNode F) PcMade} (hcfg : cfg.RestSecret)
    (hstart : TurnNode.start hmacSha1 cfg identity file now = .ok s)
    (hrun : Machine.run TurnNode.step ⟨s, []⟩ as = some c) :
    (∀ e ∈ c.log, e.Fresh) ↔ Machine.Meets TurnNode.step
      (fun d a => d.state.node.createsPc a.act = true →
        a.time ≤ (truncate now + cfg.turnTtlSeconds : Int)) ⟨s, []⟩ as := by
  have hexpiry : s.iceConfig.turnExpiry = some (truncate now + cfg.turnTtlSeconds) :=
    (turnExpiry_iceConfig hcfg (TurnNode.start_ok hstart)).1
  -- every state of the run has the configuration of the start
  have hlog := Machine.log_iff_meets (m := TurnNode.step) (P := PcMade.Fresh)
    (I := fun d => d.iceConfig = s.iceConfig) (c := ⟨s, []⟩)
    (fun d a d' out hd hstep => (TurnNode.step_iceConfig hstep).trans hd)
    (fun d a d' out hd hstep => TurnNode.step_fresh_iff (hd ▸ hexpiry) hstep) rfl hrun
  rw [hlog, and_iff_right_iff_imp]
  intro _ e he
  cases he

end

/-! ### A reconnect -/

namespace Sample

/-- A TURN server with a shared secret, and credentials for half a minute. -/
def turnConfig : RuntimeConfig where
  stunServer := Str.ofText ['s', 't', 'u', 'n']
  turnServer := some (Str.ofText ['t', 'u', 'r', 'n'])
  turnUsername := none
  turnPassword := none
  turnSecret := some (Str.ofText ['k'])
  turnTtlSeconds := 30
  turnUser := Str.ofText ['p', '4']

theorem restSecret_turnConfig : turnConfig.RestSecret := ⟨rfl, rfl, rfl, rfl⟩

/-- The first node, started at 1000. -/
def turnStart : Except Exc (TurnNode Empty) :=
  TurnNode.start (fun key msg => fit 20 (key ++ msg)) turnConfig (identity 1) none 1000

/-- The node gets a contact and makes a connection at once. -/
def connecting : List (TimedAct Empty) :=
  [⟨1000, .addContact (invited 2) true⟩,
   ⟨1001, .dial (identity 2).peerId⟩,
   ⟨1001, .session (identity 2).peerId (.acquire 0 ['s'])⟩]

/-- The offer is not answered, and the node makes the next connection at 1038. -/
def reconnecting : List (TimedAct Empty) :=
  connecting ++
  [⟨1032, .raised (identity 2).peerId 0 (.builtin (Str.lit "TimeoutError"))⟩,
   ⟨1037, .dial (identity 2).peerId⟩,
   ⟨1037, .session (identity 2).peerId (.acquire 1 ['t'])⟩,
   ⟨1038, .session (identity 2).peerId (.closed 1 ['t'])⟩]

end Sample

/-- The second connection of the run has the credentials of the start, which are stale by then. -/
theorem stale_on_reconnect : ∃ s c e, Sample.turnConfig.RestSecret ∧
    0 < Sample.turnConfig.turnTtlSeconds ∧ Sample.turnStart = .ok s ∧
    Machine.run TurnNode.step ⟨s, []⟩ Sample.reconnecting = some c ∧ e ∈ c.log ∧ ¬ e.Fresh := by
  obtain ⟨s, hs⟩ := Sample.exists_ok (x := Sample.turnStart) (by decide +kernel)
  have hruns : Sample.turnStart.toOption.any (fun s =>
      (Machine.run TurnNode.step ⟨s, []⟩ Sample.reconnecting).any fun c =>
        c.log.any fun e => e.iceConfig.turnExpiry = some 1030 && 1030 < e.time) = true := by
    decide +kernel
  rw [hs, Except.toOption, Option.any_some] at hruns
  obtain ⟨c, hc, hlog⟩ := (Option.any_eq_true _ _).mp hruns
  obtain ⟨e, he, hstale⟩ := List.any_eq_true.mp hlog
  rw [Bool.and_eq_true, decide_eq_true_eq, decide_eq_true_eq] at hstale
  refine ⟨s, c, e, Sample.restSecret_turnConfig, by decide, hs, hc, he, ?_⟩
  rintro ⟨expiry, hexpiry, hle⟩
  rw [hstale.1] at hexpiry
  cases hexpiry
  exact absurd hle (not_le.mpr (by exact_mod_cast hstale.2))

theorem made_fresh_iff_sample : ∃ s c, Sample.turnStart = .ok s ∧
    Machine.run TurnNode.step ⟨s, []⟩ Sample.connecting = some c ∧ c.log ≠ [] ∧
    ∀ e ∈ c.log, e.Fresh := by
  obtain ⟨s, hs⟩ := Sample.exists_ok (x := Sample.turnStart) (by decide +kernel)
  have hruns : Sample.turnStart.toOption.any (fun s =>
      ((Machine.run TurnNode.step ⟨s, []⟩ Sample.connecting).any fun c => !c.log.isEmpty) &&
        decide (Machine.Meets TurnNode.step (fun d a => d.state.node.createsPc a.act = true →
          a.time ≤ (truncate 1000 + Sample.turnConfig.turnTtlSeconds : Int)) ⟨s, []⟩
            Sample.connecting)) = true := by
    decide +kernel
  rw [hs, Except.toOption, Option.any_some, Bool.and_eq_true] at hruns
  obtain ⟨hrun, hmeets⟩ := hruns
  obtain ⟨c, hc, hlog⟩ := (Option.any_eq_true _ _).mp hrun
  refine ⟨s, c, hs, hc, ?_, ?_⟩
  · intro hnil
    rw [hnil] at hlog
    cases hlog
  · exact (made_fresh_iff Sample.restSecret_turnConfig hs hc).mpr (of_decide_eq_true hmeets)

end P4
