/-
  The file operations of `atomic_write_json` add up to one replacement.

  Where one process at a time is between opening and renaming the temporary file, every run of
  `DiskDirectory`, with processes that are killed or get exceptions between any two operations, is
  a run of `Directory` with the same events (`disk_refines_directory`).  So what holds of
  `contacts.json` in every run of `Directory` holds at every moment, whatever is killed: it can be
  loaded (`contacts_survive_kills`).  Two processes that are there at the same time share the
  temporary file, and can leave a file that cannot be loaded, also when the first of them has
  closed it before the second opens it (`overlapping_writes_tear`).
-/
import P4.Directory.Disk
import P4.Directory.Equiv.Updates
import P4.Run.Reach
import P4.Sample.Equiv.Laws

namespace P4

section

variable {F : Type} [DecidableEq F] [Float64 F] [Crates F] [PyRepr F] {me : Identity F}

namespace Directory

variable {d d' : Directory F} {a : DirectoryAct F} {out : List (StoreEvent F)}

/-! ### Steps that write, and others -/

/-- A step that does not write leaves the file as it is. -/
theorem contactsFile_of_other (h : step me d a = some (d', out)) (ha : a.isSave = false) :
    d'.contactsFile = d.contactsFile := by
  cases step_outcome h with
  | saved | savedRaised | replaced => cases ha
  | skipped | started | stopped | acted | broken | pinned | refused | issued | failed | read
    | updated => rfl

omit [PyRepr F] [DecidableEq F] in
theorem saving?_addCommand {cmd : Command F} {who : Actor} {text : Text}
    (h : d.saving? who = some text) :
    saving? { d with commands := d.commands ++ [cmd] } who = some text := by
  cases who with
  | node => exact h
  | command t =>
    simp only [saving?] at h ⊢
    split at h
    · rename_i c contacts ht
      rw [List.getElem?_append_left (List.getElem?_eq_some_iff.mp ht).1, ht]
      exact h
    · cases h

omit [PyRepr F] [DecidableEq F] in
theorem saveNode_spec (d : Directory F) (n : Node F) (contact : Ref (Contact F)) (writeOk : Bool) :
    (d.saveNode n contact writeOk).1.commands = d.commands ∧
      (writeOk = false → (d.saveNode n contact writeOk).1.contactsFile = d.contactsFile) ∧
      (writeOk = true → ∀ text, contactsText n.contacts = .ok text →
        (d.saveNode n contact writeOk).1.contactsFile = some text) := by
  unfold saveNode Node.save
  cases contactsText n.contacts with
  | error e => exact ⟨rfl, fun _ => rfl, fun _ text h => nomatch h⟩
  | ok text =>
    cases writeOk with
    | false => exact ⟨rfl, fun _ => rfl, fun h => nomatch h⟩
    | true =>
      cases hrole : roleOf n.identity.peerId contact.val.peerId <;>
        simp [hrole]

omit [PyRepr F] [DecidableEq F] in
/-- A save of a command ends it and touches nothing else but the file. -/
theorem saveCommand_spec (d : Directory F) (t : Nat) (c : Contact F)
    (contacts : Dict (Key F) (Contact F)) (writeOk : Bool) :
    ∃ file result, (d.saveCommand t c contacts writeOk).1 =
        { d.setCommand t (.ended result) with contactsFile := file } ∧
      (writeOk = false → file = d.contactsFile) ∧
      (writeOk = true → ∀ text, contactsText (refs contacts) = .ok text → file = some text) := by
  unfold saveCommand
  cases contactsText (refs contacts) with
  | error e => exact ⟨_, _, rfl, fun _ => rfl, fun _ text h => nomatch h⟩
  | ok text =>
    cases writeOk with
    | false => exact ⟨_, _, rfl, fun _ => rfl, fun h => nomatch h⟩
    | true => exact ⟨some text, .ok (), rfl, by simp⟩

/-- The node's steps leave the commands alone. -/
theorem commands_of_node (h : step me d a = some (d', out))
    (ha : a = .start ∨ a.actor? = some .node) : d'.commands = d.commands := by
  cases a with
  | start =>
    simp only [step] at h
    split at h
    · cases h
    · split at h <;> cases h <;> rfl
  | stop =>
    cases h
    rfl
  | act b =>
    simp only [step] at h
    split at h
    · split at h
      · cases h
      · split_ifs at h
        obtain ⟨r, -, hr⟩ := Option.map_eq_some_iff.mp h
        cases hr
        rfl
    · cases h
  | add invite =>
    simp only [step] at h
    split at h
    · split at h <;> cases h <;> rfl
    · cases h
  | save writeOk =>
    simp only [step] at h
    split at h
    · rename_i n contact hrunning
      have hspec := (d.saveNode_spec n contact writeOk).1
      rw [Option.some.inj h] at hspec
      exact hspec
    · cases h
  | command | read | update | replace => simp [DirectoryAct.actor?] at ha

/-- The commands' steps leave the node alone. -/
theorem running_of_command (h : step me d a = some (d', out)) (hstart : a ≠ .start)
    (ha : a.actor? ≠ some .node) : d'.running = d.running := by
  cases a with
  | start => exact absurd rfl hstart
  | command invite =>
    simp only [step] at h
    split at h
    · cases h
      rfl
    · split_ifs at h <;> cases h <;> rfl
  | read t =>
    simp only [step] at h
    split at h
    · split at h <;> cases h <;> rfl
    · cases h
  | update t =>
    simp only [step] at h
    split at h
    · split at h <;> cases h <;> rfl
    · cases h
  | replace t writeOk =>
    simp only [step] at h
    split at h
    · rename_i c contacts ht
      obtain ⟨file, result, hspec, -⟩ := d.saveCommand_spec t c contacts writeOk
      rw [Option.some.inj h] at hspec
      rw [show d' = _ from hspec]
      rfl
    · cases h
  | stop | act | add | save => exact absurd rfl ha

/-- A command's step changes that command. -/
theorem commands_of_command {t : Nat} (h : step me d a = some (d', out))
    (ha : a.actor? = some (.command t)) : ∃ cmd, d'.commands = d.commands.set t cmd := by
  cases a with
  | read u =>
    cases ha
    simp only [step] at h
    split at h
    · split at h <;> cases h <;> exact ⟨_, rfl⟩
    · cases h
  | update u =>
    cases ha
    simp only [step] at h
    split at h
    · split at h <;> cases h <;> exact ⟨_, rfl⟩
    · cases h
  | replace u writeOk =>
    cases ha
    simp only [step] at h
    split at h
    · rename_i c contacts ht
      obtain ⟨file, result, hspec, -⟩ := d.saveCommand_spec t c contacts writeOk
      rw [Option.some.inj h] at hspec
      rw [show d' = _ from hspec]
      exact ⟨_, rfl⟩
    · cases h
  | start | stop | act | add | save | command => simp [DirectoryAct.actor?] at ha

/-- A process that has a text to write has it until it takes a step itself. -/
theorem saving?_of_other (h : step me d a = some (d', out)) {who : Actor}
    (hwho : a.actor? ≠ some who) {text : Text} (hsaving : d.saving? who = some text) :
    d'.saving? who = some text := by
  cases who with
  | node =>
    have hstart : a ≠ .start := by
      rintro rfl
      simp only [step] at h
      split at h
      · cases h
      · rename_i hnone
        simp [saving?, hnone] at hsaving
    simp only [saving?, running_of_command h hstart hwho] at hsaving ⊢
    exact hsaving
  | command t =>
    by_cases hnode : a = .start ∨ a.actor? = some .node
    · simp only [saving?, commands_of_node h hnode] at hsaving ⊢
      exact hsaving
    · cases hactor : a.actor? with
      | none =>
        cases a with
        | command invite =>
          simp only [step] at h
          split at h
          · cases h
            exact saving?_addCommand hsaving
          · split_ifs at h <;> cases h <;> exact saving?_addCommand hsaving
        | start | stop | act | add | save | read | update | replace =>
          simp [DirectoryAct.actor?] at hnode hactor
      | some w =>
        cases w with
        | node => exact absurd (Or.inr hactor) hnode
        | command u =>
          obtain ⟨cmd, hcommands⟩ := commands_of_command h hactor
          have hne : u ≠ t := by
            rintro rfl
            exact hwho hactor
          simp only [saving?, hcommands, List.getElem?_set_ne hne] at hsaving ⊢
          exact hsaving

/-- No command is forgotten. -/
theorem length_commands_le (h : step me d a = some (d', out)) :
    d.commands.length ≤ d'.commands.length := by
  cases step_outcome h with
  | refused | issued =>
    rw [List.length_append]
    exact Nat.le_add_right _ _
  | failed | read | updated | replaced => exact (List.length_set).ge
  | skipped | started | stopped | acted | broken | pinned | saved | savedRaised => exact le_rfl

/-- What the whole of `_save_contacts` or `save_contacts` does to the file. -/
theorem save_outcome {who : Actor} {writeOk : Bool}
    (h : step me d (who.save writeOk) = some (d', out)) :
    (writeOk = false → d'.contactsFile = d.contactsFile) ∧
      (writeOk = true → ∀ text, d.saving? who = some text → d'.contactsFile = some text) := by
  have hok : ∀ {x : Except Exc Text} {text : Text}, x.toOption = some text → x = .ok text := by
    intro x text hx
    cases x with
    | error e => cases hx
    | ok t => rw [Option.some.inj hx]
  cases who with
  | node =>
    simp only [step, Actor.save] at h
    split at h
    · rename_i n contact hrunning
      obtain ⟨-, hfalse, htrue⟩ := d.saveNode_spec n contact writeOk
      rw [Option.some.inj h] at hfalse htrue
      refine ⟨hfalse, fun hwrite text hsaving => htrue hwrite text ?_⟩
      simp only [saving?, hrunning] at hsaving
      exact hok hsaving
    · cases h
  | command t =>
    simp only [step, Actor.save] at h
    split at h
    · rename_i c contacts ht
      obtain ⟨file, result, hspec, hfalse, htrue⟩ := d.saveCommand_spec t c contacts writeOk
      rw [Option.some.inj h] at hspec
      rw [show d' = _ from hspec]
      refine ⟨hfalse, fun hwrite text hsaving => htrue hwrite text ?_⟩
      simp only [saving?, ht] at hsaving
      exact hok hsaving
    · cases h

end Directory

/-! ### One replacement -/

namespace DiskDirectory

variable {ok : Dict (Key F) (Ref (Contact F)) → Contact F → Prop} {file : Option Text}

/-- One process at a time is between opening and renaming the temporary file, and contacts are put
into maps under the condition `ok`. -/
def Admits (ok : Dict (Key F) (Ref (Contact F)) → Contact F → Prop)
    (c : Config (DiskDirectory F) (StoreEvent F)) : DiskAct F → Prop
  | .other a => Directory.Admits ok ⟨c.state.view, c.log⟩ a
  | .open _ => c.state.writers = []
  | _ => True

instance (ok : Dict (Key F) (Ref (Contact F)) → Contact F → Prop)
    [∀ contacts c, Decidable (ok contacts c)] (c : Config (DiskDirectory F) (StoreEvent F)) :
    ∀ a, Decidable (Admits ok c a)
  | .other a => inferInstanceAs (Decidable (Directory.Admits ok ⟨c.state.view, c.log⟩ a))
  | .open _ => inferInstanceAs (Decidable (c.state.writers = []))
  | .write _ _ | .close _ | .rename _ | .fail _ | .kill _ => inferInstanceAs (Decidable True)

/-- Where a run of `Directory` has got to, this directory is too. -/
structure Simulates (me : Identity F) (ok : Dict (Key F) (Ref (Contact F)) → Contact F → Prop)
    (file : Option Text) (c : Config (DiskDirectory F) (StoreEvent F)) : Prop where
  apart : c.state.disk.Apart
  /-- a writer is at the text that it has to write -/
  writes : ∀ who text, c.state.disk.text? who = some text →
    c.state.view.saving? who = some text
  killed : ∀ t ∈ c.state.killed, t < c.state.commands.length
  run : Machine.Reaches (Directory.step me) (Directory.Admits ok) ⟨Directory.quiet file, []⟩
    ⟨c.state.view, c.log⟩

omit [DecidableEq F] [PyRepr F] in
/-- Only the commands of the directory write. -/
theorem lt_of_writes {s : DiskDirectory F}
    (hwrites : ∀ who text, s.disk.text? who = some text → s.view.saving? who = some text)
    {t : Nat} {handle : Handle Char} (h : s.disk.handles (.command t) = some handle) :
    t < s.commands.length := by
  have hsaving := hwrites (.command t) handle.text (by rw [Disk.text?, h]; rfl)
  simp only [Directory.saving?] at hsaving
  split at hsaving
  · rename_i c contacts ht
    exact (List.getElem?_eq_some_iff.mp ht).1
  · cases hsaving

omit [DecidableEq F] [PyRepr F] in
theorem handles_of_writers {s : DiskDirectory F}
    (hwrites : ∀ who text, s.disk.text? who = some text → s.view.saving? who = some text)
    (h : s.writers = []) (who : Actor) : s.disk.handles who = none := by
  cases hwho : s.disk.handles who with
  | none => rfl
  | some handle =>
    have hmem : who ∈ s.writers := by
      rw [writers, List.mem_filter, hwho]
      refine ⟨?_, rfl⟩
      cases who with
      | node => exact List.mem_cons_self
      | command t =>
        apply List.mem_cons_of_mem
        apply List.mem_map_of_mem
        rw [List.mem_range]
        exact lt_of_writes hwrites hwho
    rw [h] at hmem
    cases hmem

/-- A step that is one of `Directory`. -/
theorem Simulates.matched {c : Config (DiskDirectory F) (StoreEvent F)} {s : DiskDirectory F}
    {b : DirectoryAct F} {out : List (StoreEvent F)} (h : Simulates me ok file c)
    (hb : Directory.Admits ok ⟨c.state.view, c.log⟩ b)
    (hstep : Directory.step me c.state.view b = some (s.view, out)) (hapart : s.disk.Apart)
    (hkilled : s.killed = c.state.killed)
    (hwrites : ∀ who text, s.disk.text? who = some text → s.view.saving? who = some text) :
    Simulates me ok file ⟨s, out.reverse ++ c.log⟩ := by
  refine ⟨hapart, hwrites, ?_, h.run.trans (Machine.Reaches.of_step hstep hb)⟩
  show ∀ t ∈ s.killed, t < s.commands.length
  rw [hkilled]
  exact fun t ht => (h.killed t ht).trans_le (Directory.length_commands_le hstep)

/-- A step of the file system that the processes do not see. -/
theorem Simulates.stutter {c : Config (DiskDirectory F) (StoreEvent F)} {s : DiskDirectory F}
    (h : Simulates me ok file c) (hview : s.view = c.state.view) (hapart : s.disk.Apart)
    (hkilled : ∀ t ∈ s.killed, t < c.state.commands.length)
    (hwrites : ∀ who text, s.disk.text? who = some text →
      c.state.view.saving? who = some text) : Simulates me ok file ⟨s, c.log⟩ := by
  have hcommands : s.commands = c.state.commands := congrArg Directory.commands hview
  refine ⟨hapart, ?_, ?_, ?_⟩
  · rw [hview]
    exact hwrites
  · rw [hcommands]
    exact hkilled
  · rw [hview]
    exact h.run

omit [DecidableEq F] [Float64 F] [PyRepr F] in
/-- The texts that are left when one writer is no longer at the temporary file. -/
theorem text?_of_left {s : DiskDirectory F} {disk : Disk Actor Char} {who w : Actor}
    {text : Text} (hleft : disk.text? = Function.update s.disk.text? who none)
    (htext : disk.text? w = some text) : w ≠ who ∧ s.disk.text? w = some text := by
  rw [hleft] at htext
  rcases Disk.update_eq_some htext with ⟨-, hnone⟩ | hold
  · cases hnone
  · exact hold

omit [PyRepr F] in
theorem admits_save (c : Config (Directory F) (StoreEvent F)) (who : Actor) (writeOk : Bool) :
    Directory.Admits ok c (who.save writeOk) := by
  intro x hx
  cases who <;> cases hx

omit [Float64 F] [Crates F] [PyRepr F] [DecidableEq F] in
theorem actor?_save_ne {who w : Actor} {writeOk : Bool} (h : w ≠ who) :
    (who.save (F := F) writeOk).actor? ≠ some w := by
  cases who <;> simpa [Actor.save, DirectoryAct.actor?] using h.symm

section

variable {c : Config (DiskDirectory F) (StoreEvent F)} {s : DiskDirectory F}
  {out : List (StoreEvent F)} {who : Actor}

/-- What is no file operation is the same step of the directory. -/
theorem Simulates.other {a : DirectoryAct F} (h : Simulates me ok file c)
    (ha : Admits ok c (.other a)) (hstep : step me c.state (.other a) = some (s, out)) :
    Simulates me ok file ⟨s, out.reverse ++ c.log⟩ := by
  simp only [step] at hstep
  split_ifs at hstep with hguard
  simp only [Bool.or_eq_true, not_or, Bool.not_eq_true] at hguard
  obtain ⟨hsave, hactor⟩ := hguard
  obtain ⟨⟨d, out'⟩, hd, heq⟩ := Option.map_eq_some_iff.mp hstep
  obtain ⟨rfl, rfl⟩ := Prod.mk.inj heq
  -- the file is as it was, so what the processes see is `d`
  have hview : (c.state.become d).view = d := by
    show Directory.mk c.state.disk.read d.running d.commands = d
    rw [show c.state.disk.read = d.contactsFile from
      (Directory.contactsFile_of_other hd hsave).symm]
  refine h.matched ha (by rw [hview]; exact hd) h.apart rfl fun w text htext => ?_
  rw [hview]
  apply Directory.saving?_of_other hd _ (h.writes w text htext)
  intro hw
  -- a writer takes no other step
  rw [hw] at hactor
  obtain ⟨handle, hhandle, -⟩ := Option.map_eq_some_iff.mp htext
  simp [show c.state.disk.handles w = some handle from hhandle] at hactor

/-- Opening is not seen in the directory. -/
theorem Simulates.open (h : Simulates me ok file c) (ha : Admits ok c (.open who))
    (hstep : step me c.state (.open who) = some (s, out)) :
    Simulates me ok file ⟨s, out.reverse ++ c.log⟩ := by
  simp only [step] at hstep
  split at hstep
  · cases hstep
  · rename_i text hsaving
    split_ifs at hstep
    obtain ⟨⟨disk, gone⟩, hdisk, heq⟩ := Option.map_eq_some_iff.mp hstep
    obtain ⟨rfl, rfl⟩ := Prod.mk.inj heq
    obtain ⟨hapart, heffect⟩ :=
      h.apart.step (a := .open who text) (handles_of_writers h.writes ha) hdisk
    cases heffect with
    | opened _ _ _ hnone hread htext =>
      refine h.stutter (by simp [view, hread]) hapart h.killed fun w text' hw => ?_
      rw [show disk.text? w = _ from congrFun htext w] at hw
      rcases Disk.update_eq_some hw with ⟨rfl, hnew⟩ | ⟨-, hold⟩
      · rw [← Option.some.inj hnew]
        exact hsaving
      · exact h.writes w text' hold

/-- Nor is a piece that is written. -/
theorem Simulates.write {n : Nat} (h : Simulates me ok file c)
    (hstep : step me c.state (.write who n) = some (s, out)) :
    Simulates me ok file ⟨s, out.reverse ++ c.log⟩ := by
  simp only [step] at hstep
  obtain ⟨⟨disk, gone⟩, hdisk, heq⟩ := Option.map_eq_some_iff.mp hstep
  obtain ⟨rfl, rfl⟩ := Prod.mk.inj heq
  obtain ⟨hapart, heffect⟩ := h.apart.step (a := .write who n) trivial hdisk
  cases heffect with
  | wrote _ _ _ hread htext =>
    refine h.stutter (by simp [view, hread]) hapart h.killed fun w text hw => ?_
    rw [show disk.text? w = _ from congrFun htext w] at hw
    exact h.writes w text hw

/-- Nor is closing. -/
theorem Simulates.close (h : Simulates me ok file c)
    (hstep : step me c.state (.close who) = some (s, out)) :
    Simulates me ok file ⟨s, out.reverse ++ c.log⟩ := by
  simp only [step] at hstep
  obtain ⟨⟨disk, gone⟩, hdisk, heq⟩ := Option.map_eq_some_iff.mp hstep
  obtain ⟨rfl, rfl⟩ := Prod.mk.inj heq
  obtain ⟨hapart, heffect⟩ := h.apart.step (a := .close who) trivial hdisk
  cases heffect with
  | closed _ _ hread htext =>
    refine h.stutter (by simp [view, hread]) hapart h.killed fun w text hw => ?_
    rw [show disk.text? w = _ from congrFun htext w] at hw
    exact h.writes w text hw

/-- Renaming is the save that succeeds. -/
theorem Simulates.rename (h : Simulates me ok file c)
    (hstep : step me c.state (.rename who) = some (s, out)) :
    Simulates me ok file ⟨s, out.reverse ++ c.log⟩ := by
  simp only [step] at hstep
  split at hstep
  · cases hstep
  · rename_i disk replaced hdisk
    obtain ⟨hapart, heffect⟩ := h.apart.step (a := .rename who) trivial hdisk
    obtain ⟨⟨d, out'⟩, hd, heq⟩ := Option.map_eq_some_iff.mp hstep
    obtain ⟨rfl, rfl⟩ := Prod.mk.inj heq
    cases heffect with
    | replaced _ text _ htext hread hleft =>
      have hcontents : d.contactsFile = some text :=
        (Directory.save_outcome hd).2 rfl text (h.writes who text htext)
      have hview : ({ c.state.become d with disk := disk } : DiskDirectory F).view = d := by
        show Directory.mk disk.read d.running d.commands = d
        rw [show disk.read = d.contactsFile from hread.trans hcontents.symm]
      refine h.matched (admits_save _ who true) (by rw [hview]; exact hd) hapart rfl
        fun w text' hw => ?_
      obtain ⟨hne, hold⟩ := text?_of_left hleft hw
      rw [hview]
      exact Directory.saving?_of_other hd (actor?_save_ne hne) (h.writes w text' hold)

/-- An exception on the way is the save that fails. -/
theorem Simulates.fail (h : Simulates me ok file c)
    (hstep : step me c.state (.fail who) = some (s, out)) :
    Simulates me ok file ⟨s, out.reverse ++ c.log⟩ := by
  simp only [step] at hstep
  split_ifs at hstep
  obtain ⟨⟨d, out'⟩, hd, heq⟩ := Option.map_eq_some_iff.mp hstep
  obtain ⟨rfl, rfl⟩ := Prod.mk.inj heq
  have hstop : Disk.step '\x00' c.state.disk (.stop who) =
      some (c.state.disk.setHandle who none, []) := rfl
  have hview : ({ c.state.become d with disk := c.state.disk.setHandle who none } :
      DiskDirectory F).view = d := by
    show Directory.mk c.state.disk.read d.running d.commands = d
    rw [show c.state.disk.read = d.contactsFile from ((Directory.save_outcome hd).1 rfl).symm]
  refine h.matched (admits_save _ who false) (by rw [hview]; exact hd)
    (h.apart.step (a := .stop who) trivial hstop).1 rfl fun w text hw => ?_
  obtain ⟨hne, hold⟩ := text?_of_left (Disk.text?_setHandle c.state.disk who none) hw
  rw [hview]
  exact Directory.saving?_of_other hd (actor?_save_ne hne) (h.writes w text hold)

/-- A process that is killed is gone in both. -/
theorem Simulates.kill (h : Simulates me ok file c)
    (hstep : step me c.state (.kill who) = some (s, out)) :
    Simulates me ok file ⟨s, out.reverse ++ c.log⟩ := by
  have hstop : Disk.step '\x00' c.state.disk (.stop who) =
      some (c.state.disk.setHandle who none, []) := rfl
  have hapart := (h.apart.step (a := .stop who) trivial hstop).1
  have hleft : ∀ w text, (c.state.disk.setHandle who none).text? w = some text →
      w ≠ who ∧ c.state.disk.text? w = some text := fun w text hw =>
    text?_of_left (Disk.text?_setHandle c.state.disk who none) hw
  cases who with
  | node =>
    obtain ⟨rfl, rfl⟩ := Prod.mk.inj (Option.some.inj hstep)
    refine h.matched (b := .stop) (fun x hx => nomatch hx) rfl hapart rfl fun w text hw => ?_
    obtain ⟨hne, hold⟩ := hleft w text hw
    cases w with
    | node => exact absurd rfl hne
    | command t => exact h.writes _ text hold
  | command t =>
    simp only [step] at hstep
    split_ifs at hstep with hlt
    obtain ⟨rfl, rfl⟩ := Prod.mk.inj (Option.some.inj hstep)
    -- the command is left where it was and takes no further step
    refine h.stutter rfl hapart ?_ fun w text hw => h.writes w text (hleft w text hw).2
    intro u hu
    rcases List.mem_cons.mp hu with rfl | hu
    · exact hlt
    · exact h.killed u hu

end

/-- Every step is matched by one of `Directory`, or the processes do not see it. -/
theorem Simulates.step {c c' : Config (DiskDirectory F) (StoreEvent F)} {a : DiskAct F}
    (h : Simulates me ok file c) (ha : Admits ok c a)
    (hnext : (step me).next c a = some c') : Simulates me ok file c' := by
  obtain ⟨out, hstep, hlog⟩ := Machine.next_eq_some.mp hnext
  rw [show c' = ⟨c'.state, out.reverse ++ c.log⟩ by rw [← hlog]]
  cases a with
  | other a => exact h.other ha hstep
  | «open» who => exact h.open ha hstep
  | write who n => exact h.write hstep
  | close who => exact h.close hstep
  | rename who => exact h.rename hstep
  | fail who => exact h.fail hstep
  | kill who => exact h.kill hstep

theorem simulates_quiet (me : Identity F)
    (ok : Dict (Key F) (Ref (Contact F)) → Contact F → Prop) (file temp : Option Text) :
    Simulates me ok file ⟨quiet file temp, []⟩ := by
  refine ⟨Disk.apart_start file temp, fun who text htext => (nomatch htext),
    fun t ht => (nomatch ht), ?_⟩
  have hview : (quiet (F := F) file temp).view = Directory.quiet file := by
    show Directory.mk (Disk.start file temp).read none [] = _
    rw [Disk.read_start]
    rfl
  rw [hview]
  exact Machine.Reaches.refl _

/-- What holds of a whole run. -/
theorem simulates_run {me : Identity F} {temp : Option Text} {as : List (DiskAct F)}
    {c : Config (DiskDirectory F) (StoreEvent F)}
    (hok : Machine.Meets (DiskDirectory.step me) (Admits ok) ⟨quiet file temp, []⟩ as)
    (h : Machine.run (DiskDirectory.step me) ⟨quiet file temp, []⟩ as = some c) :
    Simulates me ok file c :=
  Machine.run_invariant_of_meets (P := Simulates me ok file)
    (fun _ _ _ hc ha hnext => hc.step ha hnext) (simulates_quiet me ok file temp) hok h

/-! ### A command after a crash -/

/-- The directory with one more command. -/
def withCommand (s : DiskDirectory F) (cmd : Command F) : DiskDirectory F :=
  { s with commands := s.commands ++ [cmd] }

end DiskDirectory

/-! ### Results -/

/-- In every run on a state directory in which one process at a time is between opening and
renaming the temporary file, with exceptions and kills between any two file operations and
whatever was left of the temporary file from before, the processes see `contacts.json` and each
other as in a run in which the file is replaced in one step, with the same events.

The simulation keeps the temporary file apart from `contacts.json` and a prefix of the one text
that is being written: until the rename nobody sees it, and the rename is the replacement. -/
theorem disk_refines_directory {me : Identity F}
    {ok : Dict (Key F) (Ref (Contact F)) → Contact F → Prop} {file temp : Option Text}
    {as : List (DiskAct F)} {c : Config (DiskDirectory F) (StoreEvent F)}
    (hok : Machine.Meets (DiskDirectory.step me) (DiskDirectory.Admits ok)
      ⟨DiskDirectory.quiet file temp, []⟩ as)
    (h : Machine.run (DiskDirectory.step me) ⟨DiskDirectory.quiet file temp, []⟩ as = some c) :
    Machine.Reaches (Directory.step me) (Directory.Admits ok) ⟨Directory.quiet file, []⟩
      ⟨c.state.view, c.log⟩ :=
  (DiskDirectory.simulates_run hok h).run

end

/-! ### Samples -/

namespace Sample

/-- The steps of a command up to `save_contacts`. -/
def commandStart (t : Nat) (invite : Loaded Empty) : List (DiskAct Empty) :=
  [.other (.command invite), .other (.read t), .other (.update t)]

/-- A command is killed while it writes, and so is a node, and the next command adds its
contact. -/
def killedAdds : List (DiskAct Empty) :=
  commandStart 0 (invited 1) ++ [.open (.command 0), .write (.command 0) 5, .kill (.command 0)] ++
    [.other .start, .other (.add (invited 3)), .open .node, .kill .node] ++
    commandStart 1 (invited 4) ++
    [.open (.command 1), .write (.command 1) 7, .write (.command 1) 1000, .close (.command 1),
      .rename (.command 1)]

/-- A command opens the temporary file after another has closed it and before that renames it, and
is killed. -/
def tornAdds : List (DiskAct Empty) :=
  commandStart 0 (invited 1) ++ commandStart 1 (invited 3) ++
    [.open (.command 0), .write (.command 0) 1000, .close (.command 0), .open (.command 1),
      .rename (.command 0), .kill (.command 1)]

theorem killedAdds_ok : Machine.Meets (DiskDirectory.step (identity 2))
      (DiskDirectory.Admits StringFirst) ⟨DiskDirectory.quiet none (some ['[']), []⟩ killedAdds ∧
    (Machine.run (DiskDirectory.step (identity 2))
      ⟨DiskDirectory.quiet none (some ['[']), []⟩ killedAdds).isSome = true := by
  decide +kernel

end Sample

theorem disk_refines_directory_sample : ∃ c,
    Machine.run (DiskDirectory.step (Sample.identity 2))
      ⟨DiskDirectory.quiet none (some ['[']), []⟩ Sample.killedAdds = some c ∧
    Machine.Reaches (Directory.step (Sample.identity 2)) (Directory.Admits StringFirst)
      ⟨Directory.quiet none, []⟩ ⟨c.state.view, c.log⟩ := by
  obtain ⟨hok, hrun⟩ := Sample.killedAdds_ok
  obtain ⟨c, hc⟩ := Option.isSome_iff_exists.mp hrun
  exact ⟨c, hc, disk_refines_directory hok hc⟩

/-- Two commands that are at the temporary file at the same time can leave an empty file, though
each of them has it open alone. -/
theorem overlapping_writes_tear : ∃ c,
    Machine.run (DiskDirectory.step (Sample.identity 2)) ⟨DiskDirectory.quiet none none, []⟩
      Sample.tornAdds = some c ∧
    c.state.writers = [] ∧ c.state.disk.read = some [] ∧
    ¬ ∃ n, Node.boot (Sample.identity 2) c.state.disk.read = .ok n := by
  have htorn : (Machine.run (DiskDirectory.step (Sample.identity 2))
      ⟨DiskDirectory.quiet none none, []⟩ Sample.tornAdds).map (fun c =>
        (decide (c.state.writers = []), decide (c.state.disk.read = some []))) =
      some (true, true) := by
    decide +kernel
  have hempty : (Node.boot (Sample.identity 2) (some [])).isOk = false := by decide +kernel
  obtain ⟨c, hc, hvalues⟩ := Option.map_eq_some_iff.mp htorn
  simp only [Prod.mk.injEq, decide_eq_true_eq] at hvalues
  refine ⟨c, hc, hvalues.1, hvalues.2, ?_⟩
  rintro ⟨n, hn⟩
  rw [hvalues.2] at hn
  rw [hn] at hempty
  cases hempty

end P4
