/-
  `atomic_write_json` on `contacts.json`, one file operation at a time.

  `Directory` replaces the file in one step.  Here the text goes to `contacts.json.tmp`, a path
  that the node and the commands share, piece by piece; `tmp.write_text` closes the temporary file
  again, and `tmp.replace` then renames it.  Any of these operations can raise, and a process can
  be killed between any two of them; what it has written stays (there is no power failure).  What
  the processes do in memory are the steps of `Directory`.
-/
import P4.Directory.Basic
import P4.File.Basic

namespace P4

/-- A state directory, with its file system. -/
structure DiskDirectory (F : Type) [Crates F] where
  disk : Disk Actor Char
  running : Option (Process F) := none
  commands : List (Command F) := []
  /-- the commands that were killed -/
  killed : List Nat := []

/-- A step of one of the processes. -/
inductive DiskAct (F : Type) where
  /-- a step that does not write -/
  | other (a : DirectoryAct F)
  /-- `tmp.write_text` opens the temporary file -/
  | open (who : Actor)
  /-- the next `n` characters are written -/
  | write (who : Actor) (n : Nat)
  /-- `tmp.write_text` closes the temporary file, with all characters written -/
  | close (who : Actor)
  /-- `tmp.replace(path)` -/
  | rename (who : Actor)
  /-- `contactsText` or a file operation raises -/
  | fail (who : Actor)
  /-- the process is killed -/
  | kill (who : Actor)

section

variable {F : Type} [DecidableEq F] [Float64 F]

/-- The step is one of `_save_contacts` or `save_contacts`. -/
def DirectoryAct.isSave {F : Type} : DirectoryAct F → Bool
  | .save _ => true
  | .replace _ _ => true
  | _ => false

/-- The process that takes the step, where it is there already. -/
def DirectoryAct.actor? {F : Type} : DirectoryAct F → Option Actor
  | .start => none
  | .command _ => none
  | .stop | .act _ | .add _ | .save _ => some .node
  | .read t | .update t | .replace t _ => some (.command t)

/-- The whole of `_save_contacts` or `save_contacts`. -/
def Actor.save (who : Actor) (writeOk : Bool) : DirectoryAct F :=
  match who with
  | .node => .save writeOk
  | .command t => .replace t writeOk

/-- The text that the process has to write. -/
def Directory.saving? [Crates F] (d : Directory F) : Actor → Option Text
  | .node =>
    match d.running with
    | some { node := n, console := .saving _ } => (contactsText n.contacts).toOption
    | _ => none
  | .command t =>
    match d.commands[t]? with
    | some (.saving _ contacts) => (contactsText (refs contacts)).toOption
    | _ => none

namespace DiskDirectory

variable [Crates F]

/-- The directory, as the processes see it. -/
def view (s : DiskDirectory F) : Directory F where
  contactsFile := s.disk.read
  running := s.running
  commands := s.commands

/-- The processes are now as in `d`. -/
def become (s : DiskDirectory F) (d : Directory F) : DiskDirectory F :=
  { s with running := d.running, commands := d.commands }

/-- The process has not been killed. -/
def isAlive (s : DiskDirectory F) : Actor → Bool
  | .node => true
  | .command t => t ∉ s.killed

/-- Nothing runs; the temporary file may be there from before. -/
def quiet (file temp : Option Text) : DiskDirectory F where
  disk := Disk.start file temp

variable [PyRepr F]

/-- The steps of the processes on the directory of the identity `me`; `none` when the step
cannot happen. -/
def step (me : Identity F) : Machine (DiskDirectory F) (DiskAct F) (StoreEvent F) := fun s a =>
  match a with
  | .other a =>
    -- a process in `atomic_write_json` takes no other step
    if a.isSave || a.actor?.any (fun who => !s.isAlive who || (s.disk.handles who).isSome) then none
    else (Directory.step me s.view a).map fun r => (s.become r.1, r.2)
  | .open who =>
    match s.view.saving? who with
    | none => none
    | some text =>
      if s.isAlive who then
        (s.disk.step '\x00' (.open who text)).map fun r => ({ s with disk := r.1 }, [])
      else none
  | .write who n => (s.disk.step '\x00' (.write who n)).map fun r => ({ s with disk := r.1 }, [])
  | .close who => (s.disk.step '\x00' (.close who)).map fun r => ({ s with disk := r.1 }, [])
  | .rename who =>
    match s.disk.step '\x00' (.rename who) with
    | none => none
    | some (disk, replaced) =>
      (Directory.step me s.view (who.save !replaced.isEmpty)).map fun r =>
        ({ s.become r.1 with disk := disk }, r.2)
  | .fail who =>
    if s.isAlive who then
      (Directory.step me s.view (who.save false)).map fun r =>
        ({ s.become r.1 with disk := s.disk.setHandle who none }, r.2)
    else none
  | .kill .node => some ({ s with disk := s.disk.setHandle .node none, running := none }, [])
  | .kill (.command t) =>
    if t < s.commands.length then
      some ({ s with disk := s.disk.setHandle (.command t) none, killed := t :: s.killed }, [])
    else none

/-- The processes between opening and renaming the temporary file. -/
def writers (s : DiskDirectory F) : List Actor :=
  (.node :: (List.range s.commands.length).map .command).filter fun who =>
    (s.disk.handles who).isSome

end DiskDirectory

end

end P4
