/-
  How the relay reads a command and writes a reply: `connection_control_process_inbuf` in
  `feature/control/control.c`, `control_cmd_parse_args` and `handle_control_command` in
  `feature/control/control_cmd.c`, `control_write_reply_lines` in `feature/control/control_proto.c`
  and `handle_control_authenticate` in `feature/control/control_auth.c`.

  Commands of one line only; nobody has asked for a cookie with `AUTHCHALLENGE`.  What the relay
  does for a command is a table of handlers, so that the relay's state is a parameter.
-/
import P4.Control.Basic
import P4.Control.Kvline

namespace P4

/-! ### Strings -/

/-- The bytes of a string literal, or of any characters below 256. -/
def bytesOf (t : Text) : List UInt8 := t.map fun c => UInt8.ofNat c.toNat

/-- Bytes as characters, to write them with the functions on text. -/
def charsOf (s : List UInt8) : Text := s.map fun c => Char.ofNat c.toNat

/-- A string literal. -/
def ascii (s : String) : List UInt8 := bytesOf s.toList

/-- `TOR_TOLOWER` -/
def torToLower (c : UInt8) : UInt8 := if 65 ≤ c.toNat ∧ c.toNat ≤ 90 then c + 32 else c

/-- `!strcasecmp(a, b)` -/
def strcasecmp (a b : List UInt8) : Bool := a.map torToLower = b.map torToLower

/-- The loop of `smartlist_split_string`, for at most as many pieces as `fuel` says; `left` is the
number of pieces that may still come, if there is a limit. -/
def splitPieces (sep : UInt8) (skipSpace ignoreBlank : Bool) :
    Nat → Option Nat → List UInt8 → List (List UInt8)
  | 0, _, _ => []
  | fuel + 1, left, cp =>
    let cp := if skipSpace then cp.dropWhile torIsSpace else cp
    let piece := if left = some 1 then cp else cp.takeWhile (· ≠ sep)
    let rest := cp.drop piece.length
    let piece := if skipSpace then piece.rdropWhile torIsSpace else piece
    let blank := piece.isEmpty && ignoreBlank
    let more :=
      if rest.isEmpty then []
      else splitPieces sep skipSpace ignoreBlank fuel (if blank then left else left.map (· - 1))
        (rest.drop 1)
    if blank then more else piece :: more

/-- `smartlist_split_string`, for a separator of one character; `SPLIT_STRIP_SPACE` is not set. -/
def smartlistSplitString (sep : UInt8) (skipSpace ignoreBlank : Bool) (max : Option Nat)
    (str : List UInt8) : List (List UInt8) :=
  splitPieces sep skipSpace ignoreBlank (str.length + 1) max str

/-! ### Arguments -/

/-- `control_cmd_syntax_t`; no `maxArgs` is `UINT_MAX`. -/
structure ControlSyntax where
  minArgs : Nat := 0
  maxArgs : Option Nat := some 0
  acceptKeywords : Bool := false
  allowedKeywords : Option (List (List UInt8)) := none
  kvlineFlags : KvFlags := {}

/-- `control_cmd_args_t` -/
structure ControlArgs where
  args : List (List UInt8)
  kwargs : List ConfigLine := []
  rawBody : List UInt8 := []

/-- `%u` -/
def printNat (n : Nat) : List UInt8 := bytesOf (Nat.toDigits 10 n)

/-- `kvline_check_keyword_args`: the error. -/
def kvlineCheckKeywordArgs (kwargs : List ConfigLine) (syn : ControlSyntax) :
    Option (List UInt8) :=
  if kwargs.isEmpty then some (ascii "Cannot parse keyword argument(s)")
  else match syn.allowedKeywords with
    | none => none
    | some allowed =>
      (kwargs.find? fun line => !allowed.any (strcasecmp line.key)).map fun line =>
        ascii "Unrecognized keyword argument " ++ escForLog line.key

/-- `control_cmd_parse_args`, without `want_cmddata`. -/
def controlCmdParseArgs (syn : ControlSyntax) (body : List UInt8) :
    Except (List UInt8) ControlArgs :=
  if body.dropLast.contains 10 then .error (ascii "Unexpected body")
  else
    let cmdline := body.takeWhile (· ≠ 0)
    let args := smartlistSplitString 32 true true (syn.maxArgs.map (· + 1)) cmdline
    let tooMany := syn.maxArgs.any (· < args.length)
    if args.length < syn.minArgs then
      .error (ascii "Need at least " ++ printNat syn.minArgs ++ ascii " argument(s)")
    else if tooMany && !syn.acceptKeywords then
      .error (ascii "Cannot accept more than " ++ printNat (syn.maxArgs.getD 0) ++
        ascii " argument(s)")
    else if tooMany then
      -- the last one is the rest of the line
      let kwargs := kvlineParse syn.kvlineFlags (args.getLast?.getD [])
      match kvlineCheckKeywordArgs kwargs syn with
      | some err => .error err
      | none => .ok { args := args.dropLast, kwargs := kwargs, rawBody := body }
    else .ok { args := args, rawBody := body }

/-! ### Replies -/

/-- `control_write_reply` -/
def writeReply (code : Nat) (c : Char) (s : List UInt8) : List UInt8 :=
  bytesOf (controlWriteReply code c (charsOf s))

/-- `control_write_endreply` -/
def controlWriteEndreply (code : Nat) (s : List UInt8) : List UInt8 := writeReply code ' ' s

/-- `control_write_midreply` -/
def controlWriteMidreply (code : Nat) (s : List UInt8) : List UInt8 := writeReply code '-' s

/-- `control_write_data` -/
def controlWriteData (data : List UInt8) : List UInt8 :=
  bytesOf (writeEscapedData (charsOf data))

/-- `send_control_done` -/
def sendControlDone : List UInt8 := controlWriteEndreply 250 (ascii "OK")

/-- `control_reply_line_t` -/
structure ReplyLine where
  code : Nat
  flags : KvFlags
  kvline : List ConfigLine

/-- `control_reply_add_one_kv` makes this line. -/
def oneKv (code : Nat) (key val : List UInt8) : ReplyLine :=
  ⟨code, { raw := true }, [⟨key, val⟩]⟩

/-- `control_reply_add_str` makes this line. -/
def replyStr (code : Nat) (s : List UInt8) : ReplyLine :=
  ⟨code, { omitKeys := true, raw := true }, [⟨[], s⟩]⟩

/-- `control_write_reply_line`; `none` when there is nothing to print. -/
def controlWriteReplyLine (line : ReplyLine) (lastone : Bool) : Option (List UInt8) :=
  match line.kvline with
  | [] => none
  | kv :: _ =>
    if kv.value.any fun c => c = 13 || c = 10 then
      some (writeReply line.code '+' (kv.key ++ [61]) ++ controlWriteData kv.value)
    else (kvlineEncode line.flags line.kvline).map fun s =>
      if lastone then controlWriteEndreply line.code s else controlWriteMidreply line.code s

/-- `control_write_reply_lines` -/
def controlWriteReplyLines : List ReplyLine → Option (List UInt8)
  | [] => some []
  | line :: lines => (controlWriteReplyLine line lines.isEmpty).bind fun first =>
      (controlWriteReplyLines lines).map fun rest => first ++ rest

/-! ### Commands -/

/-- A connection to the control port, and the relay behind it. -/
structure ControlConn (σ : Type) where
  relay : σ
  /-- `CONTROL_CONN_STATE_OPEN` -/
  isOpen : Bool := false
  /-- `marked_for_close` -/
  closing : Bool := false

/-- What a handler does: the connection afterwards, and the reply; `none` is a crash. -/
abbrev ControlHandler (σ : Type) :=
  ControlConn σ → ControlArgs → ControlConn σ × Option (List UInt8)

/-- `control_cmd_def_t` -/
structure ControlCmdDef (σ : Type) where
  name : List UInt8
  syn : ControlSyntax
  handler : ControlHandler σ

section

variable {σ : Type}

/-- `handle_single_control_command` -/
def handleSingleControlCommand (cmd : ControlCmdDef σ) (conn : ControlConn σ)
    (name body : List UInt8) : ControlConn σ × Option (List UInt8) :=
  match controlCmdParseArgs cmd.syn body with
  | .error err =>
    (conn, some (controlWriteEndreply 512
      (ascii "Bad arguments to " ++ name ++ ascii ": " ++ err)))
  | .ok args => cmd.handler conn args

/-- `handle_control_command` -/
def handleControlCommand (commands : List (ControlCmdDef σ)) (conn : ControlConn σ)
    (name body : List UInt8) : ControlConn σ × Option (List UInt8) :=
  match commands.find? fun cmd => strcasecmp name cmd.name with
  | some cmd => handleSingleControlCommand cmd conn name body
  | none => (conn, some (controlWriteEndreply 510
      (ascii "Unrecognized command \"" ++ name ++ ascii "\"")))

/-- `control_split_incoming_command`: the command and its arguments. -/
def controlSplitIncomingCommand (line : List UInt8) : List UInt8 × List UInt8 :=
  let name := line.takeWhile fun c => !torIsSpace c
  (name, (line.drop name.length).dropWhile torIsSpace)

/-- `connection_control_process_inbuf`, when a line has arrived. -/
def processLine (commands : List (ControlCmdDef σ)) (conn : ControlConn σ) (line : List UInt8) :
    ControlConn σ × Option (List UInt8) :=
  let (name, body) := controlSplitIncomingCommand line
  if conn.closing then (conn, some [])
  else if strcasecmp name (ascii "QUIT") then
    ({ conn with closing := true }, some (controlWriteEndreply 250 (ascii "closing connection")))
  -- `is_valid_initial_command`
  else if !conn.isOpen &&
      !List.any [ascii "PROTOCOLINFO", ascii "AUTHCHALLENGE", ascii "AUTHENTICATE"]
        (strcasecmp name) then
    ({ conn with closing := true },
      some (controlWriteEndreply 514 (ascii "Authentication required.")))
  else handleControlCommand commands conn name body

/-! ### AUTHENTICATE -/

/-- `authenticate_syntax` -/
def authenticateSyntax : ControlSyntax where
  acceptKeywords := true
  kvlineFlags := { omitKeys := true, quotedQstring := true }

/-- `base16_decode`, all of it -/
def base16Decode : List UInt8 → Option (List UInt8)
  | [] => some []
  | [_] => none
  | a :: b :: s => do
    let x ← hexDecodeDigit a
    let y ← hexDecodeDigit b
    let rest ← base16Decode s
    return UInt8.ofNat (x * 16 + y) :: rest

/-- `handle_control_authenticate`; `stronger` is the check of a cookie or of a hashed password,
with its error, where the configuration asks for one. -/
def handleControlAuthenticate (stronger : Option (List UInt8 → Option (List UInt8))) :
    ControlHandler σ := fun conn args =>
  let refuse (code : Nat) (err : List UInt8) : ControlConn σ × Option (List UInt8) :=
    ({ conn with closing := true }, some (controlWriteEndreply code err))
  let check (password : List UInt8) : ControlConn σ × Option (List UInt8) :=
    match stronger.bind (· password) with
    | none => ({ conn with isOpen := true }, some sendControlDone)
    | some err => refuse 515 (ascii "Authentication failed: " ++ err)
  match args.kwargs with
  | [] => check []
  | [kwarg] =>
    if kwarg.key ≠ [] then
      refuse 512 (ascii "AUTHENTICATE does not accept keyword arguments.")
    else if args.rawBody.contains 34 then check kwarg.value
    else match base16Decode kwarg.value with
      | some password => check password
      | none => refuse 551 (ascii "Invalid hexadecimal encoding.  Maybe you tried a plain text " ++
          ascii "password?  If so, the standard requires that you put it in double quotes.")
  | _ => refuse 512 (ascii "Too many arguments to AUTHENTICATE.")

/-- The entry of `CONTROL_COMMANDS`. -/
def authenticateCmd (stronger : Option (List UInt8 → Option (List UInt8))) : ControlCmdDef σ :=
  ⟨ascii "authenticate", authenticateSyntax, handleControlAuthenticate stronger⟩

end

end P4
