/-
  TURN credentials: the ICE configuration of a node, and the peer connections made with it.

  The username of the credentials carries the second up to which the TURN server takes them.
  `P4Node.__init__` computes the configuration, and every `_create_pc` of the node is given that
  one.  Times are in seconds, as `time.time()` has them; HMAC-SHA1 is a parameter.
-/
import P4.Identity.Basic
import P4.Node.Basic
import Mathlib.Algebra.Order.Ring.Rat

namespace P4

/-! ### Credentials -/

/-- `int(t)` of a time -/
def truncate (t : ℚ) : Int := t.num.tdiv t.den

/-- `f"{expiry}:{user_hint}" if user_hint else str(expiry)` -/
def restUsername (expiry : Int) (userHint : Str) : Str :=
  if userHint.isEmpty then Str.ofText (Json.printInt expiry)
  else Str.ofText (Json.printInt expiry) ++ Str.lit ":" ++ userHint

section

variable (hmacSha1 : List UInt8 → List UInt8 → FixedBytes 20)

/-- `derive_turn_rest_credentials`, with the clock reading `now`. -/
def deriveTurnRestCredentials (sharedSecret : Str) (ttlSeconds : Int) (userHint : Str) (now : ℚ) :
    Except Exc (Str × Str) :=
  if ttlSeconds ≤ 0 then .error (.runtime (Str.lit "--turn-ttl-seconds must be > 0"))
  else do
    let expiry := truncate now + ttlSeconds
    let username := restUsername expiry userHint
    let key ← encodeUtf8 sharedSecret
    let msg ← encodeUtf8 username
    return (username, b64e (hmacSha1 (encodeText key) (encodeText msg)).val)

/-! ### The ICE configuration -/

/-- `class RTCIceServer` -/
structure RTCIceServer where
  urls : List Str
  username : Option Str := none
  credential : Option Str := none
deriving DecidableEq

/-- `class RTCConfiguration` -/
structure RTCConfiguration where
  iceServers : List RTCIceServer
deriving DecidableEq

/-- `_turn_mode` -/
inductive TurnMode where
  | none
  | restSecret
  | staticCreds
  | noAuth
deriving DecidableEq

/-- The options of `class RuntimeConfig` for STUN and TURN. -/
structure RuntimeConfig where
  stunServer : Str
  turnServer : Option Str
  turnUsername : Option Str
  turnPassword : Option Str
  turnSecret : Option Str
  turnTtlSeconds : Int
  turnUser : Str

/-- `bool(v)` of an option -/
def isSet (v : Option Str) : Bool := v.any (!·.isEmpty)

/-- `turn_username`, `turn_password` and `_turn_mode` in `__init__`, when there is a TURN
server. -/
def RuntimeConfig.turnCredentials (cfg : RuntimeConfig) (now : ℚ) :
    Except Exc (Option Str × Option Str × TurnMode) :=
  if isSet cfg.turnUsername ^^ isSet cfg.turnPassword then
    .error (.runtime (Str.lit "Provide both --turn-username and --turn-password, or neither."))
  else if !isSet cfg.turnUsername && !isSet cfg.turnPassword && isSet cfg.turnSecret then do
    let credentials ← deriveTurnRestCredentials hmacSha1 (cfg.turnSecret.getD [])
      cfg.turnTtlSeconds cfg.turnUser now
    return (some credentials.1, some credentials.2, .restSecret)
  else if isSet cfg.turnUsername && isSet cfg.turnPassword then
    .ok (cfg.turnUsername, cfg.turnPassword, .staticCreds)
  else .ok (cfg.turnUsername, cfg.turnPassword, .noAuth)

/-- `_ice_config` and `_turn_mode`, as `__init__` computes them. -/
def RuntimeConfig.iceConfig (cfg : RuntimeConfig) (now : ℚ) :
    Except Exc (RTCConfiguration × TurnMode) :=
  let stun : List RTCIceServer :=
    if cfg.stunServer.isEmpty then [] else [{ urls := [cfg.stunServer] }]
  if isSet cfg.turnServer then do
    let url := cfg.turnServer.getD []
    let (turnUsername, turnPassword, mode) ← cfg.turnCredentials hmacSha1 now
    let turn : RTCIceServer :=
      if isSet turnUsername && isSet turnPassword then
        { urls := [url], username := turnUsername, credential := turnPassword }
      else { urls := [url] }
    return ({ iceServers := stun ++ [turn] }, mode)
  else .ok ({ iceServers := stun }, .none)

end

/-! ### Nodes with their configuration -/

/-- A node with what `__init__` has stored for its peer connections. -/
structure TurnNode (F : Type) [Crates F] where
  iceConfig : RTCConfiguration
  turnMode : TurnMode
  node : Node F

/-- An action of a node, and when it happens. -/
structure TimedAct (F : Type) where
  time : ℚ
  act : Act F

/-- `_create_pc` made a peer connection for `peer`. -/
structure PcMade where
  time : ℚ
  peer : Str
  iceConfig : RTCConfiguration
deriving DecidableEq

section

variable {F : Type} [DecidableEq F] [Float64 F] [Crates F] [PyRepr F]

/-- How many peer connections were ever made for a peer. -/
def Node.pcCount (n : Node F) (peer : Str) : Nat :=
  ((Dict.get? n.sessions peer).map (·.pcs.length)).getD 0

/-- The peers for which a step from `n` to `n'` made a peer connection. -/
def Node.newPcs (n n' : Node F) : List Str :=
  (Dict.keys n'.sessions).filter fun peer => n.pcCount peer < n'.pcCount peer

namespace TurnNode

/-- `P4Node(cfg)` at the time `now`, and `run` up to the main loop. -/
def start (hmacSha1 : List UInt8 → List UInt8 → FixedBytes 20) (cfg : RuntimeConfig)
    (identity : Identity F) (file : Option Text) (now : ℚ) : Except Exc (TurnNode F) := do
  let (iceConfig, turnMode) ← cfg.iceConfig hmacSha1 now
  let node ← Node.boot identity file
  return { iceConfig := iceConfig, turnMode := turnMode, node := node }

/-- The steps of the node; a new peer connection is `RTCPeerConnection(self._ice_config)`. -/
def step : Machine (TurnNode F) (TimedAct F) PcMade := fun s a =>
  (Node.step s.node a.act).map fun r =>
    ({ s with node := r.1 }, (s.node.newPcs r.1).map fun peer =>
      { time := a.time, peer := peer, iceConfig := s.iceConfig })

end TurnNode

end

end P4
