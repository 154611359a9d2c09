/-
  The onion address of a state directory: `run` and `invite` in onion mode.

  The relay is asked for a service with `ADD_ONION`, with the key that was stored or with `NEW`.
  Its service id and a new key are then written to two files, one after the other, each opened
  (which empties it), written and closed; the process can die between any two of these steps.
  An invite prints the address from the file of the service id.

  Of the relay no more is modelled than its reply to `ADD_ONION`: the service id is a function
  of the key, and `NEW` is answered with a key that the relay draws.
-/
import Mathlib.Data.List.Basic
import P4.Json.Basic
import P4.Run.Basic

namespace P4

/-! ### Text -/

/-- `c.isspace()` -/
def isSpace (c : Char) : Bool :=
  (0x09 ≤ c.toNat && c.toNat ≤ 0x0D) || (0x1C ≤ c.toNat && c.toNat ≤ 0x20) || c.toNat = 0x85 ||
    c.toNat = 0xA0 || c.toNat = 0x1680 || (0x2000 ≤ c.toNat && c.toNat ≤ 0x200A) ||
    c.toNat = 0x2028 || c.toNat = 0x2029 || c.toNat = 0x202F || c.toNat = 0x205F ||
    c.toNat = 0x3000

/-- `text.strip()` -/
def strip (text : Text) : Text := ((text.dropWhile isSpace).reverse.dropWhile isSpace).reverse

/-- `text.split(sep, 1)[1]`, for a text in which the separator occurs. -/
def afterFirst (sep : Char) (text : Text) : Text := (text.dropWhile (· ≠ sep)).drop 1

/-- A word: some visible ASCII characters. -/
def visible (text : Text) : Bool :=
  !text.isEmpty && text.all fun c => 0x20 < c.toNat && c.toNat < 0x7F

/-! ### The relay -/

/-- A key that the relay has drawn. -/
abbrev KeyBlob := { k : Text // visible k = true }

/-- `key_spec` of `_onionrelay_add_onion_service` -/
def keySpec (existingBlob : Option Text) : Text :=
  match existingBlob with
  | some blob => "ED25519-V3:".toList ++ blob
  | none => "NEW:ED25519-V3".toList

/-- The lines of the reply to `ADD_ONION`; `serviceId` is the service id of a key and `none`
when the relay refuses the key. -/
def addOnion (serviceId : Text → Option Text) (spec : Text) (drawn : KeyBlob) :
    Option (List Text) :=
  if spec = "NEW:ED25519-V3".toList then
    (serviceId drawn.val).map fun sid =>
      ["ServiceID=".toList ++ sid, "PrivateKey=ED25519-V3:".toList ++ drawn.val, "OK".toList]
  else (serviceId (afterFirst ':' spec)).map fun sid =>
    ["ServiceID=".toList ++ sid, "OK".toList]

/-- The loop over the lines in `_onionrelay_add_onion_service`: `service_id` and
`new_key_blob`. -/
def parseReply (lines : List Text) : Option Text × Option Text :=
  lines.foldl (fun found line =>
    if "ServiceID=".toList.isPrefixOf line then (some (strip (afterFirst '=' line)), found.2)
    else if "PrivateKey=".toList.isPrefixOf line then
      let value := strip (afterFirst '=' line)
      if "ED25519-V3:".toList.isPrefixOf value then (found.1, some (strip (afterFirst ':' value)))
      else found
    else found) (none, none)

/-! ### Files -/

/-- `onion_service_id.txt` and `onion_v3_key_blob.txt` -/
structure OnionFiles where
  id : Option Text
  key : Option Text
deriving DecidableEq

/-- A step of a process on the files. -/
inductive FileOp where
  | openId
  | writeId (text : Text)
  | closeId
  | openKey
  | writeKey (text : Text)
  | closeKey
  /-- the process raises -/
  | raise
deriving DecidableEq

/-- What a step leaves behind. -/
def FileOp.apply (files : OnionFiles) : FileOp → OnionFiles
  | openId => { files with id := some [] }
  | writeId text => { files with id := some text }
  | openKey => { files with key := some [] }
  | writeKey text => { files with key := some text }
  | closeId => files
  | closeKey => files
  | raise => files

/-- `_load_onion_key_blob`, from the contents of the file. -/
def loadOnionKeyBlob (file : Option Text) : Option Text :=
  match file with
  | none => none
  | some text => if (strip text).isEmpty then none else some (strip text)

/-- The end of `_onionrelay_add_onion_service`: the files are written. -/
def storeOnion (serviceId : Text) (newKeyBlob existingBlob : Option Text) : List FileOp :=
  [.openId, .writeId (serviceId ++ ['\n']), .closeId] ++
    match newKeyBlob, existingBlob with
    | some blob, _ => [.openKey, .writeKey (blob ++ ['\n']), .closeKey]
    | none, none => [.raise]
    | none, some _ => []

/-! ### Commands -/

/-- The two commands. -/
inductive OnionCommand where
  | run
  | invite
deriving DecidableEq

/-- A process: its command, the service id it got from the relay, if it asked for one, and what
it has still to do to the files. -/
structure OnionProcess where
  command : OnionCommand
  serviceId : Text
  todo : List FileOp

/-- The files, and the process that uses them. -/
structure OnionDir where
  files : OnionFiles
  process : Option OnionProcess := none

/-- What happens on the directory. -/
inductive OnionAct where
  /-- a command is started; the key is the one that `NEW` would be answered with -/
  | start (command : OnionCommand) (drawn : KeyBlob)
  /-- the process takes its next step on the files -/
  | advance
  /-- the process has taken all of them and prints its invite -/
  | finish
  /-- the process dies -/
  | die
deriving DecidableEq

/-- Addresses that are seen outside. -/
inductive OnionEvent where
  /-- `run` has registered the address with the relay -/
  | registered (address : Text)
  /-- the address was printed in an invite -/
  | printed (address : Text)
deriving DecidableEq

/-- `f"{service_id}.onion"` -/
def onionAddress (serviceId : Text) : Text := serviceId ++ ".onion".toList

namespace OnionDir

/-- `_onionrelay_add_onion_service` up to the files; an exception leaves the directory as it
is. -/
def addService (serviceId : Text → Option Text) (command : OnionCommand) (drawn : KeyBlob)
    (s : OnionDir) : OnionDir × List OnionEvent :=
  let existingBlob := loadOnionKeyBlob s.files.key
  match addOnion serviceId (keySpec existingBlob) drawn with
  | none => (s, [])
  | some lines =>
    match parseReply lines with
    | (some sid, newKeyBlob) =>
      if sid.isEmpty then (s, [])
      else
        let process : OnionProcess :=
          { command := command
            serviceId := sid
            todo := storeOnion sid (newKeyBlob.filter fun blob => !blob.isEmpty) existingBlob }
        ({ s with process := some process },
          match command with
          | .run => [.registered (onionAddress sid)]
          | .invite => [])
    | (none, _) => (s, [])

/-- The steps of the commands, one command at a time; `none` when the step cannot happen. -/
def step (serviceId : Text → Option Text) : Machine OnionDir OnionAct OnionEvent := fun s a =>
  match a, s.process with
  | .start .run drawn, none => some (s.addService serviceId .run drawn)
  | .start .invite drawn, none =>
    -- `cmd_invite` and `ensure_onion_identity_async` look for the two files
    if s.files.id.isSome && s.files.key.isSome then
      some ({ s with process := some { command := .invite, serviceId := [], todo := [] } }, [])
    else some (s.addService serviceId .invite drawn)
  | .advance, some p =>
    match p.todo with
    | [] => none
    | .raise :: _ => some ({ s with process := none }, [])
    | op :: todo =>
      some ({ files := op.apply s.files, process := some { p with todo := todo } }, [])
  | .finish, some p =>
    match p.todo with
    | [] =>
      match p.command with
      | .run => some ({ s with process := none }, [.printed (onionAddress p.serviceId)])
      | .invite =>
        -- `build_invite_from_state`
        match s.files.id with
        | none => some ({ s with process := none }, [])
        | some text => some ({ s with process := none }, [.printed (onionAddress (strip text))])
    | _ => none
  | .die, some _ => some ({ s with process := none }, [])
  | _, _ => none

end OnionDir

end P4
