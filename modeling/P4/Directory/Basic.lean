/-
  A state directory: `contacts.json` and the processes that use it.

  One node may be running on the directory, and any number of `add-contact` commands.  A step
  is one read of the file, one atomic replacement of it, or one change of the memory of one
  process, and the steps of different processes come in any order.  The node reads the file
  when it starts and never again; a command reads it once.

  An exception in a console command ends `_stdin_loop` and with it all further commands of that
  node, but not the node.  The peer ids here are such that the line printed at the end of an add,
  of the node or of a command, can be printed; that it cannot changes neither the file nor the
  maps (`Node.addContact_eq`).
-/
import P4.Node.Basic

namespace P4

section

variable {F : Type} [DecidableEq F] [Float64 F]

/-! ### Adding a contact, step by step -/

namespace Node

variable [Crates F]

/-- `_add_contact_from_invite_payload` up to `_save_contacts`: the node with the new contact in
its map; `none` when the invite is refused with a message. -/
def pin (n : Node F) (invite : Json F) : Except Exc (Option (Node F × Ref (Contact F))) :=
  match Contact.fromDict invite with
  | .error _ => .ok none
  | .ok c =>
    if c.peerId.eqStr n.identity.peerId then .ok none
    else match c.peerId.key? with
    | none => .error .typeError
    | some key =>
      let contact : Ref (Contact F) := { oid := n.nextOid, val := c }
      .ok (some ({ n with contacts := Dict.set n.contacts key contact,
                          nextOid := n.nextOid + 1 }, contact))

/-- `_save_contacts` and the rest of `_add_contact_from_invite_payload`, where its line can be
printed: the text that replaced the file, if any, how the call ends, and the node afterwards. -/
def save (n : Node F) (contact : Ref (Contact F)) (writeOk : Bool) :
    Option Text × Except Exc Unit × Node F :=
  match contactsText n.contacts with
  | .error e => (none, .error e, n)
  | .ok text =>
    if !writeOk then (none, .error (.builtin (Str.lit "OSError")), n)
    else
      let n := { n with contactsFile := some text }
      match roleOf n.identity.peerId contact.val.peerId with
      | .error e => (some text, .error e, n)
      | .ok (p, role) => (some text, .ok (), n.addSession contact p role)

end Node

/-- A dictionary of contacts as a contact map; `load_contacts` makes new objects. -/
def refs (contacts : Dict (Key F) (Contact F)) : Dict (Key F) (Ref (Contact F)) :=
  contacts.map fun kc => (kc.1, { oid := 0, val := kc.2 })

/-- The text that `cmd_add_contact` writes, from the contents of the file. -/
def addContactText (own : Str) (invite : Json F) (file : Option Text) : Except Exc Text := do
  let contact ← Contact.fromDict invite
  if contact.peerId.eqStr own then .error (.runtime (Str.lit "Cannot add yourself as contact"))
  else
    let contacts ← loadContacts file
    let key ← typed contact.peerId.key?
    contactsText (refs (Dict.set contacts key contact))

/-- `cmd_add_contact`, on a directory that nothing else uses and for a peer id that can be
printed: how it ends, and the file afterwards. -/
def cmdAddContact (own : Str) (invite : Json F) (file : Option Text) (writeOk : Bool) :
    Except Exc Unit × Option Text :=
  match addContactText own invite file with
  | .error e => (.error e, file)
  | .ok text =>
    if writeOk then (.ok (), some text) else (.error (.builtin (Str.lit "OSError")), file)

end

/-! ### Processes -/

/-- Where `_stdin_loop` of a node is. -/
inductive Console (F : Type) where
  /-- waiting for a line -/
  | idle
  /-- the contact is in the map and `_save_contacts` is next -/
  | saving (contact : Ref (Contact F))
  /-- ended by an exception -/
  | ended

/-- A running node. -/
structure Process (F : Type) [Crates F] where
  node : Node F
  console : Console F := .idle

/-- Where a process of `cmd_add_contact` is. -/
inductive Command (F : Type) where
  /-- `load_contacts` is next -/
  | loading (contact : Contact F)
  /-- the contact is not yet in the dictionary -/
  | updating (contact : Contact F) (contacts : Dict (Key F) (Contact F))
  /-- `save_contacts` is next -/
  | saving (contact : Contact F) (contacts : Dict (Key F) (Contact F))
  | ended (result : Except Exc Unit)

/-- `contacts.json` and the processes on its directory. -/
structure Directory (F : Type) [Crates F] where
  contactsFile : Option Text
  running : Option (Process F) := none
  /-- the commands, in the order in which they were started -/
  commands : List (Command F) := []

/-- A process of the directory. -/
inductive Actor where
  | node
  | command (t : Nat)
deriving DecidableEq

/-- What happens to the store. -/
inductive StoreEvent (F : Type) where
  /-- the process read the file -/
  | read (who : Actor)
  /-- the process replaced the file -/
  | replaced (who : Actor)
  /-- an add of the contact succeeded -/
  | added (contact : Contact F)
deriving DecidableEq

/-- A step of one of the processes. -/
inductive DirectoryAct (F : Type) where
  /-- a node starts: `_load_contacts` -/
  | start
  /-- the node ends -/
  | stop
  /-- the node does something else than adding a contact -/
  | act (a : Act F)
  /-- `/add-json`, `/add-file` or `/add-invite`, up to `_save_contacts` -/
  | add (invite : Loaded F)
  /-- `_save_contacts`; `writeOk` says whether the file can be written -/
  | save (writeOk : Bool)
  /-- `add-contact` is started -/
  | command (invite : Loaded F)
  /-- command `t` reads the file -/
  | read (t : Nat)
  /-- command `t` puts its contact into its dictionary -/
  | update (t : Nat)
  /-- command `t` replaces the file -/
  | replace (t : Nat) (writeOk : Bool)

namespace Directory

variable {F : Type} [DecidableEq F] [Float64 F] [Crates F] [PyRepr F]

/-- Command `t` is now at `cmd`. -/
def setCommand (d : Directory F) (t : Nat) (cmd : Command F) : Directory F :=
  { d with commands := d.commands.set t cmd }

/-- `_save_contacts` of the running node. -/
def saveNode (d : Directory F) (n : Node F) (contact : Ref (Contact F)) (writeOk : Bool) :
    Directory F × List (StoreEvent F) :=
  match n.save contact writeOk with
  | (none, _, n') => ({ d with running := some { node := n', console := .ended } }, [])
  | (some text, .error _, n') =>
    ({ d with contactsFile := some text, running := some { node := n', console := .ended } },
      [.replaced .node])
  | (some text, .ok (), n') =>
    ({ d with contactsFile := some text, running := some { node := n', console := .idle } },
      [.replaced .node, .added contact.val])

/-- `save_contacts` of command `t`, and its end. -/
def saveCommand (d : Directory F) (t : Nat) (contact : Contact F)
    (contacts : Dict (Key F) (Contact F)) (writeOk : Bool) : Directory F × List (StoreEvent F) :=
  match contactsText (refs contacts) with
  | .error e => (d.setCommand t (.ended (.error e)), [])
  | .ok text =>
    if writeOk then
      ({ d.setCommand t (.ended (.ok ())) with contactsFile := some text },
        [.replaced (.command t), .added contact])
    else (d.setCommand t (.ended (.error (.builtin (Str.lit "OSError")))), [])

/-- The steps of the processes on the directory of the identity `me`; `none` when the step
cannot happen. -/
def step (me : Identity F) : Machine (Directory F) (DirectoryAct F) (StoreEvent F) := fun d a =>
  match a with
  | .start =>
    match d.running with
    | some _ => none
    | none =>
      match Node.boot me d.contactsFile with
      | .error _ => some (d, [.read .node])
      | .ok n => some ({ d with running := some { node := n } }, [.read .node])
  | .stop => some ({ d with running := none }, [])
  | .act a =>
    match d.running with
    | some { node := n, console := console } =>
      match console with
      | .saving _ => none
      | _ =>
        if a.isAdd then none
        else (Node.step n a).map fun r =>
          ({ d with running := some { node := r.1, console := console } }, [])
    | none => none
  | .add invite =>
    match d.running with
    | some { node := n, console := .idle } =>
      match n.pin invite.val with
      | .error _ => some ({ d with running := some { node := n, console := .ended } }, [])
      | .ok none => some (d, [])
      | .ok (some (n', contact)) =>
        some ({ d with running := some { node := n', console := .saving contact } }, [])
    | _ => none
  | .save writeOk =>
    match d.running with
    | some { node := n, console := .saving contact } => some (d.saveNode n contact writeOk)
    | _ => none
  | .command invite =>
    match Contact.fromDict invite.val with
    | .error e => some ({ d with commands := d.commands ++ [.ended (.error e)] }, [])
    | .ok c =>
      if c.peerId.eqStr me.peerId then
        let e : Exc := .runtime (Str.lit "Cannot add yourself as contact")
        some ({ d with commands := d.commands ++ [.ended (.error e)] }, [])
      else some ({ d with commands := d.commands ++ [.loading c] }, [])
  | .read t =>
    match d.commands[t]? with
    | some (.loading c) =>
      match loadContacts d.contactsFile with
      | .error e => some (d.setCommand t (.ended (.error e)), [.read (.command t)])
      | .ok contacts => some (d.setCommand t (.updating c contacts), [.read (.command t)])
    | _ => none
  | .update t =>
    match d.commands[t]? with
    | some (.updating c contacts) =>
      match typed c.peerId.key? with
      | .error e => some (d.setCommand t (.ended (.error e)), [])
      | .ok key => some (d.setCommand t (.saving c (Dict.set contacts key c)), [])
    | _ => none
  | .replace t writeOk =>
    match d.commands[t]? with
    | some (.saving c contacts) => some (d.saveCommand t c contacts writeOk)
    | _ => none

end Directory

end P4
