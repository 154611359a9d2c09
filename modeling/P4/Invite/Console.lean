/-
  The invite of a node, and the console that takes the invites of others.

  A node prints its invite when it starts and on `/invite`.  The console is a machine on the lines
  that are typed: `_stdin_loop` reads commands, and after `/add-invite` the lines up to a single
  dot.  What a line asks the node for is the event of the step.
-/
import P4.Invite.Basic
import P4.Json.Equiv.Loads
import P4.Node.Basic
import P4.Onion.Basic
import P4.Run.Basic

namespace P4

section

variable {F : Type}

/-! ### The invite -/

/-- What `_setup_rendezvous` goes by: the mode, with the service id of the relay in the mode
`onion` and the configured host and port in the mode `direct`. -/
inductive Mode where
  | onion (serviceId : Text)
  | direct (advertiseHost : Str) (signalPort : Int)

/-- `self.own_rendezvous` -/
def Mode.ownRendezvous : Mode → Rendezvous F
  | onion serviceId =>
    { transport := .str Kind.onion
      address := .str (Str.ofText (onionAddress serviceId))
      port := .int 80 }
  | direct advertiseHost signalPort =>
    { transport := .str Kind.direct
      address := .str advertiseHost
      port := .int signalPort }

/-- `build_invite` -/
def buildInvite [Crates F] (identity : Identity F) (ownRendezvous : Rendezvous F) : Json F :=
  .obj [(Field.peerId, .str identity.peerId), (Field.publicKeyB64, .str identity.publicKeyB64),
    (Field.rendezvous, ownRendezvous.toDict)]

/-- The text that is printed for others. -/
def inviteText [Crates F] [JsonFloat F] (identity : Identity F) (mode : Mode) : Text :=
  Json.dumpsIndented (buildInvite identity mode.ownRendezvous)

/-! ### Commands -/

/-- What a line asks the node for. -/
inductive Request (F : Type) where
  | help
  | peers
  | invite
  /-- `_add_contact_from_invite_payload` -/
  | addContact (invite : Loaded F)
  /-- the file cannot be read, or the text is no JSON -/
  | unreadable
  | usage
  /-- `send_chat` -/
  | send (peerId text : Text)
  /-- `drop_peer` -/
  | drop (peerId : Text)
  /-- `stop` -/
  | stop
  | unknown

/-- `json.loads(raw)`, where the value is an invite. -/
def loadInvite [JsonFloat F] (raw : Text) : Option (Loaded F) :=
  match h : Json.loads raw with
  | some v => some ⟨v, Json.loads_wellFormed h⟩
  | none => none

/-- `_add_contact_from_json_text` -/
def addContactFromJsonText [JsonFloat F] (rawJson : Text) : Request F :=
  match loadInvite (lstripBom rawJson) with
  | some invite => .addContact invite
  | none => .unreadable

/-- `text.strip('"')` -/
def stripQuotes (text : Text) : Text :=
  ((text.dropWhile (· = '"')).reverse.dropWhile (· = '"')).reverse

/-- `_add_contact_from_file`; `files` has the bytes of the files that can be read. -/
def addContactFromFile [JsonFloat F] (native : ByteOrder) (files : Text → Option (List UInt8))
    (pathText : Text) : Request F :=
  match files (stripQuotes (strip pathText)) with
  | none => .unreadable
  | some raw =>
    match readInviteFile native raw with
    | .ok text =>
      match loadInvite text with
      | some invite => .addContact invite
      | none => .unreadable
    | .error _ => .unreadable

/-- What the console reads next. -/
inductive Prompt where
  /-- `input("p4> ")` -/
  | command
  /-- `input("invite> ")`, after these lines -/
  | invite (lines : List Text)
  /-- `_stdin_loop` has ended -/
  | closed
deriving DecidableEq

/-- `_handle_command`, up to the reading of more lines. -/
def handleCommand [JsonFloat F] (native : ByteOrder) (files : Text → Option (List UInt8))
    (line : Text) : Prompt × List (Request F) :=
  if line = "/help".toList then (.command, [.help])
  else if line = "/peers".toList then (.command, [.peers])
  else if line = "/invite".toList then (.command, [.invite])
  else if "/add-file ".toList.isPrefixOf line then
    let pathText := afterFirst ' ' line
    if (strip pathText).isEmpty then (.command, [.usage])
    else (.command, [addContactFromFile native files pathText])
  else if "/add-json ".toList.isPrefixOf line then
    let rawJson := afterFirst ' ' line
    if (strip rawJson).isEmpty then (.command, [.usage])
    else (.command, [addContactFromJsonText rawJson])
  else if line = "/add-invite".toList then (.invite [], [])
  else if line = "/quit".toList then (.closed, [.stop])
  else if "/send ".toList.isPrefixOf line then
    let rest := afterFirst ' ' line
    if ' ' ∈ rest then (.command, [.send (rest.takeWhile (· ≠ ' ')) (afterFirst ' ' rest)])
    else (.command, [.usage])
  else if "/drop ".toList.isPrefixOf line then
    (.command, [.drop (strip (afterFirst ' ' line))])
  else (.command, [.unknown])

/-- `_stdin_loop` and `_read_invite_multiline_from_stdin`, a line at a time; `none` is the end of
the input. -/
def Prompt.step [JsonFloat F] (native : ByteOrder) (files : Text → Option (List UInt8)) :
    Machine Prompt (Option Text) (Request F) := fun prompt line =>
  match prompt, line with
  | .closed, _ => none
  | .command, none => some (.closed, [.stop])
  | .command, some line =>
    if (strip line).isEmpty then some (.command, [])
    else some (handleCommand native files (strip line))
  -- `EOFError` is not caught where the lines of an invite are read
  | .invite _, none => some (.closed, [])
  | .invite lines, some line =>
    if strip line = ['.'] then
      some (.command, [addContactFromJsonText (['\n'].intercalate lines)])
    else some (.invite (lines ++ [line]), [])

end

end P4
