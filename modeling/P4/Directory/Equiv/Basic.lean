/-
  What the processes on a state directory can do.

  `addContact_eq` and `cmdAddContact_run` say that the steps of the machine, one after the
  other, are the two ways of adding a contact.  `Step` lists the outcomes of a step, and
  `Keeps` is the rule for invariants of the file and of the maps that the processes hold.
-/
import P4.Directory.Basic
import P4.Node.Equiv.Store

namespace P4

open Json

variable {F : Type} [DecidableEq F] [Float64 F]

/-! ### Dictionaries of contacts -/

omit [Float64 F] in
theorem refs_set (contacts : Dict (Key F) (Contact F)) (k : Key F) (c : Contact F) :
    refs (Dict.set contacts k c) = Dict.set (refs contacts) k { oid := 0, val := c } :=
  Dict.map_set _ contacts k c

omit [DecidableEq F] [Float64 F] in
theorem keys_refs (contacts : Dict (Key F) (Contact F)) :
    Dict.keys (refs contacts) = Dict.keys contacts := by
  rw [Dict.keys, Dict.keys, refs, List.map_map]
  rfl

omit [Float64 F] in
theorem get?_refs (contacts : Dict (Key F) (Contact F)) (k : Key F) :
    Dict.get? (refs contacts) k = (Dict.get? contacts k).map fun c => { oid := 0, val := c } :=
  Dict.get?_map (fun c : Contact F => ({ oid := 0, val := c } : Ref (Contact F))) contacts k

/-- What `load_contacts` returns is keyed by its own peer ids. -/
theorem loadContacts_spec {file : Option Text} {d : Dict (Key F) (Contact F)}
    (h : loadContacts file = .ok d) :
    ∃ l, readContacts file = .ok l ∧ Keyed (refs d) ∧ ∀ kc ∈ d, kc.2 ∈ l := by
  obtain ⟨l, hread, h⟩ := except_bind_ok.mp h
  obtain ⟨pairs, hpairs, h⟩ := except_bind_ok.mp h
  have hd : Dict.ofPairs pairs = d := Except.ok.inj h
  have hpair : ∀ kc ∈ pairs, kc.2.peerId.key? = some kc.1 ∧ kc.2 ∈ l := by
    intro kc hkc
    obtain ⟨c, hc, hcp⟩ := (except_mapM_mem hpairs).2 kc hkc
    obtain ⟨key, hkey, hcp⟩ := except_bind_ok.mp hcp
    cases hcp
    refine ⟨?_, hc⟩
    unfold typed at hkey
    split at hkey
    · rename_i hsome
      rw [hsome, Except.ok.inj hkey]
    · cases hkey
  obtain ⟨hnodup, hspec⟩ := Dict.ofPairs_spec hpair
  rw [hd] at hnodup hspec
  refine ⟨l, hread, ⟨?_, ?_⟩, fun kc hkc => (hspec kc hkc).2⟩
  · rw [keys_refs]
    exact hnodup
  · intro kc hkc
    obtain ⟨jc, hjc, rfl⟩ := List.mem_map.mp hkc
    exact ⟨(hspec jc hjc).1, Node.sound_readContacts hread jc.2 (hspec jc hjc).2⟩

/-! ### Adding a contact -/

namespace Node

variable [Crates F]

/-- A contact is put into the map under its key. -/
theorem pin_eq_some {n n' : Node F} {invite : Json F} {contact : Ref (Contact F)}
    (h : n.pin invite = .ok (some (n', contact))) :
    ∃ key, Contact.fromDict invite = .ok contact.val ∧ contact.val.peerId.key? = some key ∧
      n'.contacts = Dict.set n.contacts key contact := by
  unfold pin at h
  split at h
  · cases h
  · rename_i c hc
    split_ifs at h
    · cases h
    · split at h
      · cases h
      · rename_i key hkey
        cases h
        exact ⟨key, hc, hkey, rfl⟩

/-- The two parts of `_add_contact_from_invite_payload`, one after the other: how they end, and
the node afterwards. -/
def pinSave (n : Node F) (invite : Json F) (writeOk : Bool) : Except Exc Unit × Node F :=
  match n.pin invite with
  | .error e => (.error e, n)
  | .ok none => (.ok (), n)
  | .ok (some (n', contact)) => (n'.save contact writeOk).2

/-- `_add_contact_from_invite_payload` is its two parts: the node is afterwards the same whatever
can be printed, and the call ends in the same way where its lines can be. -/
theorem addContact_eq (n : Node F) (invite : Json F) (writeOk : Bool) (stdout : Str → Bool) :
    (n.addContact invite writeOk stdout).2 = (n.pinSave invite writeOk).2 ∧
      n.addContact invite writeOk (fun _ => true) = n.pinSave invite writeOk := by
  unfold addContact pinSave pin
  cases Contact.fromDict invite with
  | error e => exact ⟨rfl, rfl⟩
  | ok c =>
    dsimp only
    -- an invite of the node itself is ignored
    by_cases hown : c.peerId.eqStr n.identity.peerId = true
    · simp [hown, printLine]
    · simp only [if_neg hown]
      cases c.peerId.key? with
      | none => exact ⟨rfl, rfl⟩
      | some key =>
        -- the map is changed: what follows is `save`
        unfold save
        dsimp only
        cases contactsText (Dict.set n.contacts key { oid := n.nextOid, val := c }) with
        | error e => exact ⟨rfl, rfl⟩
        | ok text =>
          cases writeOk with
          | false => exact ⟨rfl, rfl⟩
          | true =>
            dsimp only
            cases roleOf n.identity.peerId c.peerId with
            | error e => exact ⟨rfl, rfl⟩
            | ok pr => exact ⟨rfl, rfl⟩

omit [DecidableEq F] [Float64 F] in
/-- The session of the contact is put in order without a change to the map. -/
theorem contacts_addSession (n : Node F) (contact : Ref (Contact F)) (p : Str) (role : Role) :
    (n.addSession contact p role).contacts = n.contacts := by
  unfold addSession
  split <;> rfl

omit [DecidableEq F] in
/-- The map is not changed by its being written. -/
theorem save_spec {n n' : Node F} {contact : Ref (Contact F)} {writeOk : Bool}
    {written : Option Text} {result : Except Exc Unit}
    (h : n.save contact writeOk = (written, result, n')) :
    n'.contacts = n.contacts ∧ (∀ text ∈ written, contactsText n.contacts = .ok text) ∧
      (written.isSome = true → ((∃ p, contact.val.peerId = .str p) ↔ result = .ok ())) ∧
      (written = none → result ≠ .ok ()) := by
  unfold save at h
  split at h
  · cases h
    -- sorting or serialising has failed: nothing is written
    exact ⟨rfl, fun _ ht => (nomatch ht), fun hw => (nomatch hw), fun _ hr => (nomatch hr)⟩
  · rename_i text htext
    split_ifs at h
    · cases h
      -- the write has failed
      exact ⟨rfl, fun _ ht => (nomatch ht), fun hw => (nomatch hw), fun _ hr => (nomatch hr)⟩
    · dsimp only at h
      split at h
      · -- written, and the role comparison has raised
        rename_i e hrole
        cases h
        refine ⟨rfl, fun t ht => ?_, fun _ => ⟨?_, fun hr => nomatch hr⟩, fun hw => nomatch hw⟩
        · cases ht
          exact htext
        · rintro ⟨p, hp⟩
          rw [hp] at hrole
          cases hrole
      · -- written, and the sessions are put in order
        rename_i p role hrole
        cases h
        refine ⟨contacts_addSession _ _ _ _, fun t ht => ?_, fun _ => ⟨fun _ => rfl, fun _ => ?_⟩,
          fun hw => nomatch hw⟩
        · cases ht
          exact htext
        · unfold roleOf at hrole
          split at hrole
          · rename_i q hq
            exact ⟨q, hq⟩
          · cases hrole

variable [PyRepr F]

/-- Nothing but an add changes the contact map. -/
theorem contacts_step {n n' : Node F} {a : Act F} {out : List (Event F)}
    (h : step n a = some (n', out)) (ha : a.isAdd = false) : n'.contacts = n.contacts := by
  cases step_outcome h with
  | unread => rfl
  | rejected => rfl
  | accepted stream now replyMs random msg rest sender recipient nonce contact n' out hread hacc
      hd =>
    rcases dispatch_cases hd with ⟨rfl, -⟩ | ⟨payload, -, -, hs⟩ | ⟨payload, -, -, rfl, -⟩
    · rfl
    · exact (frame_stepSession hs).contacts
    · rfl
  | answered p t desc now random w msg n' out ht hs => exact (frame_stepSession hs).contacts
  | dialed p w n' out hw hm hs => exact (frame_stepSession hs).contacts
  | requested p t desc now random online w envelope n' out act sent ht henv hact hs =>
    exact (frame_stepSession hs).contacts
  | replied p t stream now w reply rest sender recipient nonce contact n' out act ht hread hacc
      hact hs => exact (frame_stepSession hs).contacts
  | session a p act n' out rest hin hact hrest hs => exact (frame_stepSession hs).contacts
  | addContact invite writeOk => cases ha

end Node

namespace Directory

variable [Crates F] [PyRepr F] {me : Identity F}

/-! ### Outcomes -/

/-- The outcomes of a step. -/
inductive Step (me : Identity F) (d : Directory F) :
    DirectoryAct F → Directory F → List (StoreEvent F) → Prop
  /-- nothing changes -/
  | skipped (a) (out : List (StoreEvent F)) : (out = [] ∨ out = [.read .node] ∧ d.running = none) →
    Step me d a d out
  /-- a node has started -/
  | started (n) : d.running = none → Node.boot me d.contactsFile = .ok n →
    Step me d .start { d with running := some { node := n } } [.read .node]
  /-- the node has ended -/
  | stopped : Step me d .stop { d with running := none } []
  /-- the node did something else -/
  | acted (a n n' console) : d.running = some { node := n, console := console } →
    (∀ contact, console ≠ .saving contact) → n'.contacts = n.contacts →
    Step me d (.act a) { d with running := some { node := n', console := console } } []
  /-- an exception has ended the console, before the file was replaced -/
  | broken (a n n' console) : d.running = some { node := n, console := console } →
    n'.contacts = n.contacts →
    Step me d a { d with running := some { node := n', console := .ended } } []
  /-- the node has a new contact in its map -/
  | pinned (invite) (n n' contact key) : d.running = some { node := n, console := .idle } →
    n.pin invite.val = .ok (some (n', contact)) →
    Contact.fromDict invite.val = .ok contact.val → contact.val.peerId.key? = some key →
    n'.contacts = Dict.set n.contacts key contact →
    Step me d (.add invite) { d with running := some { node := n', console := .saving contact } } []
  /-- the node has replaced the file and is done -/
  | saved (writeOk n n' contact text p) :
    d.running = some { node := n, console := .saving contact } →
    contactsText n.contacts = .ok text → n'.contacts = n.contacts →
    contact.val.peerId = .str p →
    Step me d (.save writeOk)
      { d with contactsFile := some text, running := some { node := n', console := .idle } }
      [.replaced .node, .added contact.val]
  /-- the node has replaced the file, and its console has ended by an exception -/
  | savedRaised (writeOk n n' contact text) :
    d.running = some { node := n, console := .saving contact } →
    contactsText n.contacts = .ok text → n'.contacts = n.contacts →
    (∀ p, contact.val.peerId ≠ .str p) →
    Step me d (.save writeOk)
      { d with contactsFile := some text, running := some { node := n', console := .ended } }
      [.replaced .node]
  /-- a command has ended at once -/
  | refused (invite result) :
    Step me d (.command invite) { d with commands := d.commands ++ [.ended result] } []
  /-- a command has taken its invite -/
  | issued (invite c) : Contact.fromDict invite.val = .ok c →
    Step me d (.command invite) { d with commands := d.commands ++ [.loading c] } []
  /-- a command has ended by an exception -/
  | failed (a t result out) : (out = [] ∨ out = [.read (.command t)]) →
    Step me d a (d.setCommand t (.ended result)) out
  /-- a command has read the file -/
  | read (t c contacts) : d.commands[t]? = some (.loading c) →
    loadContacts d.contactsFile = .ok contacts →
    Step me d (.read t) (d.setCommand t (.updating c contacts)) [.read (.command t)]
  /-- a command has its contact in its dictionary -/
  | updated (t c contacts key) : d.commands[t]? = some (.updating c contacts) →
    c.peerId.key? = some key →
    Step me d (.update t) (d.setCommand t (.saving c (Dict.set contacts key c))) []
  /-- a command has replaced the file -/
  | replaced (t writeOk c contacts text) : d.commands[t]? = some (.saving c contacts) →
    contactsText (refs contacts) = .ok text →
    Step me d (.replace t writeOk)
      { d.setCommand t (.ended (.ok ())) with contactsFile := some text }
      [.replaced (.command t), .added c]

/-- Every step has one of the outcomes. -/
theorem step_outcome {d d' : Directory F} {a : DirectoryAct F} {out : List (StoreEvent F)}
    (h : step me d a = some (d', out)) : Step me d a d' out := by
  cases a with
  | start =>
    simp only [step] at h
    split at h
    · cases h
    · rename_i hrunning
      split at h
      · cases h
        -- the file does not load: the node does not start
        exact .skipped _ _ (Or.inr ⟨rfl, hrunning⟩)
      · rename_i n hboot
        cases h
        exact .started n hrunning hboot
  | stop =>
    cases h
    exact .stopped
  | act a =>
    simp only [step] at h
    split at h
    · rename_i n console hrunning
      split at h
      · cases h
      · rename_i hconsole
        split_ifs at h with hadd
        -- no other act of the node touches its contacts
        obtain ⟨⟨n', ev⟩, hstep, heq⟩ := Option.map_eq_some_iff.mp h
        cases heq
        exact .acted a n n' console hrunning hconsole
          (Node.contacts_step hstep (Bool.not_eq_true _ ▸ hadd))
    · cases h
  | add invite =>
    simp only [step] at h
    split at h
    · rename_i n hrunning
      split at h
      · cases h
        -- an invite that is no contact ends the console
        exact .broken _ n n _ hrunning rfl
      · cases h
        -- the node's own invite
        exact .skipped _ _ (Or.inl rfl)
      · rename_i n' contact hpin
        cases h
        obtain ⟨key, hc, hkey, hset⟩ := Node.pin_eq_some hpin
        exact .pinned invite n n' contact key hrunning hpin hc hkey hset
    · cases h
  | save writeOk =>
    simp only [step] at h
    split at h
    · rename_i n contact hrunning
      unfold saveNode at h
      obtain ⟨⟨written, result, n'⟩, hsave⟩ : ∃ r, n.save contact writeOk = r := ⟨_, rfl⟩
      obtain ⟨hcontacts, htext, hresult, -⟩ := Node.save_spec hsave
      rw [hsave] at h
      -- whether the file was replaced, then whether the role comparison raised
      cases written with
      | none =>
        -- the file is as it was
        cases h
        exact .broken _ n n' _ hrunning hcontacts
      | some text =>
        have htext' := htext text rfl
        have hresult' := hresult rfl
        cases result with
        | error e =>
          cases h
          refine .savedRaised writeOk n n' contact text hrunning htext' hcontacts fun p hp => ?_
          exact nomatch hresult'.mp ⟨p, hp⟩
        | ok u =>
          cases h
          obtain ⟨p, hp⟩ := hresult'.mpr rfl
          exact .saved writeOk n n' contact text p hrunning htext' hcontacts hp
    · cases h
  | command invite =>
    simp only [step] at h
    split at h
    · cases h
      -- no contact
      exact .refused invite _
    · rename_i c hc
      split_ifs at h
      · cases h
        -- the command's own identity
        exact .refused invite _
      · cases h
        exact .issued invite c hc
  | read t =>
    simp only [step] at h
    split at h
    · rename_i c ht
      split at h
      · cases h
        -- the file was read but does not load
        exact .failed _ t _ _ (Or.inr rfl)
      · rename_i contacts hload
        cases h
        exact .read t c contacts ht hload
    · cases h
  | update t =>
    simp only [step] at h
    split at h
    · rename_i c contacts ht
      cases hkey : c.peerId.key? with
      | none =>
        -- a peer id that is not hashable
        rw [hkey] at h
        cases h
        exact .failed _ t _ _ (Or.inl rfl)
      | some key =>
        rw [hkey] at h
        cases h
        exact .updated t c contacts key ht hkey
    · cases h
  | replace t writeOk =>
    simp only [step] at h
    split at h
    · rename_i c contacts ht
      unfold saveCommand at h
      split at h
      · cases h
        exact .failed _ t _ _ (Or.inl rfl)
      · rename_i text htext
        split_ifs at h
        · cases h
          exact .replaced t writeOk c contacts text ht htext
        · cases h
          exact .failed _ t _ _ (Or.inl rfl)
    · cases h

/-! ### A command on its own -/

/-- The directory with one more command, which may have replaced the file. -/
def withCommand (d : Directory F) (file : Option Text) (cmd : Command F) : Directory F :=
  { d with contactsFile := file, commands := d.commands ++ [cmd] }

omit [DecidableEq F] [Float64 F] [PyRepr F] in
theorem getElem?_withCommand (d : Directory F) (file : Option Text) (cmd : Command F) :
    (d.withCommand file cmd).commands[d.commands.length]? = some cmd := by
  rw [withCommand, List.getElem?_append_right (Nat.le_refl _), Nat.sub_self]
  rfl

omit [DecidableEq F] [Float64 F] [PyRepr F] in
theorem setCommand_withCommand (d : Directory F) (file : Option Text) (cmd cmd' : Command F) :
    (d.withCommand file cmd).setCommand d.commands.length cmd' = d.withCommand file cmd' := by
  rw [setCommand, withCommand, List.set_append_right _ _ (Nat.le_refl _), Nat.sub_self]
  rfl

/-- The command that was started last, run on its own, ends with the result and the file of
`r`. -/
def Completes (me : Identity F) (d : Directory F) (cmd : Command F)
    (r : Except Exc Unit × Option Text) : Prop :=
  ∀ log, ∃ as log', Machine.run (step me) ⟨d.withCommand d.contactsFile cmd, log⟩ as =
    some ⟨d.withCommand r.2 (.ended r.1), log'⟩

/-- One more step at the front. -/
theorem Completes.step {d : Directory F} {cmd cmd' : Command F}
    {r : Except Exc Unit × Option Text} {a : DirectoryAct F}
    (hstep : ∃ out, Directory.step me (d.withCommand d.contactsFile cmd) a =
      some (d.withCommand d.contactsFile cmd', out)) (h : Completes me d cmd' r) :
    Completes me d cmd r := by
  intro log
  obtain ⟨out, hstep⟩ := hstep
  obtain ⟨as, log', hrun⟩ := h (out.reverse ++ log)
  exact ⟨a :: as, log', Machine.run_cons.mpr ⟨_, Machine.next_eq_some.mpr ⟨out, hstep, rfl⟩, hrun⟩⟩

/-- A command that has ended. -/
theorem completes_ended (d : Directory F) (result : Except Exc Unit) :
    Completes me d (.ended result) (result, d.contactsFile) :=
  fun log => ⟨[], log, rfl⟩

/-- `save_contacts` and what follows. -/
theorem completes_saving (d : Directory F) (c : Contact F) (contacts : Dict (Key F) (Contact F))
    (writeOk : Bool) : Completes me d (.saving c contacts)
      (match contactsText (refs contacts) with
      | .error e => (.error e, d.contactsFile)
      | .ok text =>
        if writeOk then (.ok (), some text)
        else (.error (.builtin (Str.lit "OSError")), d.contactsFile)) := by
  have hstep : step me (d.withCommand d.contactsFile (.saving c contacts))
      (.replace d.commands.length writeOk) = some (saveCommand
        (d.withCommand d.contactsFile (.saving c contacts)) d.commands.length c contacts
          writeOk) := by
    simp only [step, getElem?_withCommand]
  unfold saveCommand at hstep
  cases htext : contactsText (refs contacts) with
  | error e =>
    simp only [htext, setCommand_withCommand] at hstep
    exact (completes_ended d (.error e)).step ⟨_, hstep⟩
  | ok text =>
    cases writeOk with
    | false =>
      simp only [htext, setCommand_withCommand] at hstep
      exact (completes_ended d _).step ⟨_, hstep⟩
    | true =>
      intro log
      simp only [htext, setCommand_withCommand] at hstep
      exact ⟨[.replace d.commands.length true], _, Machine.run_cons.mpr
        ⟨_, Machine.next_eq_some.mpr ⟨_, hstep, rfl⟩, rfl⟩⟩

/-- The steps of one command, one after the other, are `cmd_add_contact`. -/
theorem cmdAddContact_run (d : Directory F) (log : List (StoreEvent F)) (invite : Loaded F)
    (writeOk : Bool) :
    ∃ as log', Machine.run (step me) ⟨d, log⟩ as =
      some ⟨d.withCommand (cmdAddContact me.peerId invite.val d.contactsFile writeOk).2
        (.ended (cmdAddContact me.peerId invite.val d.contactsFile writeOk).1), log'⟩ := by
  -- it is enough that the command completes from where it is when it has its invite
  have hstart : ∀ cmd, step me d (.command invite) =
      some (d.withCommand d.contactsFile cmd, []) →
      Completes me d cmd (cmdAddContact me.peerId invite.val d.contactsFile writeOk) →
      ∃ as log', Machine.run (step me) ⟨d, log⟩ as =
        some ⟨d.withCommand (cmdAddContact me.peerId invite.val d.contactsFile writeOk).2
          (.ended (cmdAddContact me.peerId invite.val d.contactsFile writeOk).1), log'⟩ := by
    intro cmd hstep hcomplete
    obtain ⟨as, log', hrun⟩ := hcomplete log
    exact ⟨.command invite :: as, log', Machine.run_cons.mpr
      ⟨_, Machine.next_eq_some.mpr ⟨[], hstep, rfl⟩, hrun⟩⟩
  cases hc : Contact.fromDict invite.val with
  | error e =>
    refine hstart (.ended (.error e)) (by simp only [step, hc, withCommand]) ?_
    simp only [cmdAddContact, addContactText, hc, bind, Except.bind]
    exact completes_ended d _
  | ok c =>
    by_cases hown : c.peerId.eqStr me.peerId = true
    · refine hstart (.ended (.error (.runtime (Str.lit "Cannot add yourself as contact"))))
        (by simp only [step, hc, hown, withCommand, if_true]) ?_
      simp only [cmdAddContact, addContactText, hc, hown, bind, Except.bind, if_true]
      exact completes_ended d _
    · rw [Bool.not_eq_true] at hown
      refine hstart (.loading c)
        (by simp only [step, hc, hown, withCommand, Bool.false_eq_true, if_false]) ?_
      simp only [cmdAddContact, addContactText, hc, hown, bind, Except.bind, Bool.false_eq_true,
        if_false]
      cases hload : loadContacts (F := F) d.contactsFile with
      | error e =>
        have hload' : loadContacts (d.withCommand d.contactsFile (.loading c)).contactsFile =
          .error e := hload
        refine (completes_ended d (.error e)).step (a := .read d.commands.length)
          ⟨[.read (.command d.commands.length)], ?_⟩
        simp only [step, getElem?_withCommand, setCommand_withCommand, hload']
      | ok contacts =>
        have hread : step me (d.withCommand d.contactsFile (.loading c))
            (.read d.commands.length) = some (d.withCommand d.contactsFile (.updating c contacts),
              [.read (.command d.commands.length)]) := by
          have hload' : loadContacts (d.withCommand d.contactsFile (.loading c)).contactsFile =
            .ok contacts := hload
          simp only [step, getElem?_withCommand, setCommand_withCommand, hload']
        refine Completes.step ⟨_, hread⟩ ?_
        cases hkey : typed c.peerId.key? with
        | error e =>
          refine (completes_ended d (.error e)).step (a := .update d.commands.length) ⟨[], ?_⟩
          simp only [step, getElem?_withCommand, setCommand_withCommand, hkey]
        | ok key =>
          refine (completes_saving d c (Dict.set contacts key c) writeOk).step
            (a := .update d.commands.length) ⟨[], ?_⟩
          simp only [step, getElem?_withCommand, setCommand_withCommand, hkey]

end Directory

/-! ### Invariants -/

section

variable [Crates F]

/-- The map of a running node is `Base` before a contact is put into it and `Ready` while it has
yet to be written. -/
def Process.Holds (Base Ready : Dict (Key F) (Ref (Contact F)) → Prop) (p : Process F) : Prop :=
  match p.console with
  | .idle => Base p.node.contacts
  | .saving _ => Ready p.node.contacts
  | .ended => Base p.node.contacts ∨ Ready p.node.contacts

/-- The same for the dictionary of a command. -/
def Command.Holds (Base Ready : Dict (Key F) (Ref (Contact F)) → Prop) : Command F → Prop
  | .loading c => c.Sound
  | .updating c contacts => c.Sound ∧ Base (refs contacts)
  | .saving _ contacts => Ready (refs contacts)
  | .ended _ => True

namespace Directory

/-- What is known of the file and of all maps. -/
structure Holds (File : Option Text → Prop) (Base Ready : Dict (Key F) (Ref (Contact F)) → Prop)
    (d : Directory F) : Prop where
  file : File d.contactsFile
  running : ∀ p, d.running = some p → p.Holds Base Ready
  commands : ∀ cmd ∈ d.commands, cmd.Holds Base Ready

/-- The map and the contact that a step puts into it. -/
def puts (d : Directory F) : DirectoryAct F → Option (Dict (Key F) (Ref (Contact F)) × Contact F)
  | .add invite =>
    match d.running with
    | some { node := n, console := .idle } =>
      match n.pin invite.val with
      | .ok (some (_, contact)) => some (n.contacts, contact.val)
      | _ => none
    | _ => none
  | .update t =>
    match d.commands[t]? with
    | some (.updating contact contacts) => contact.peerId.key?.map fun _ => (refs contacts, contact)
    | _ => none
  | _ => none

/-- The condition `ok` on the steps that put a contact into a map. -/
def Admits (ok : Dict (Key F) (Ref (Contact F)) → Contact F → Prop)
    (c : Config (Directory F) (StoreEvent F)) (a : DirectoryAct F) : Prop :=
  ∀ x ∈ puts c.state a, ok x.1 x.2

instance (ok : Dict (Key F) (Ref (Contact F)) → Contact F → Prop)
    [∀ contacts c, Decidable (ok contacts c)] (c : Config (Directory F) (StoreEvent F))
    (a : DirectoryAct F) : Decidable (Admits ok c a) :=
  inferInstanceAs (Decidable (∀ x ∈ puts c.state a, ok x.1 x.2))

/-- What makes `File`, `Base` and `Ready` an invariant under the condition `ok`. -/
structure Keeps (me : Identity F) (File : Option Text → Prop)
    (Base Ready : Dict (Key F) (Ref (Contact F)) → Prop)
    (ok : Dict (Key F) (Ref (Contact F)) → Contact F → Prop) : Prop where
  boot : ∀ file n, File file → Node.boot me file = .ok n → Base n.contacts
  load : ∀ file contacts, File file → loadContacts file = .ok contacts → Base (refs contacts)
  put : ∀ contacts (c : Ref (Contact F)) key, Base contacts → c.val.Sound →
    c.val.peerId.key? = some key → ok contacts c.val → Ready (Dict.set contacts key c)
  save : ∀ contacts text, Ready contacts → contactsText contacts = .ok text →
    File (some text) ∧ Base contacts

variable {me : Identity F} {File : Option Text → Prop}
  {Base Ready : Dict (Key F) (Ref (Contact F)) → Prop}
  {ok : Dict (Key F) (Ref (Contact F)) → Contact F → Prop}

omit [DecidableEq F] [Float64 F] in
/-- A command moves on. -/
theorem Holds.setCommand {d : Directory F} (h : Holds File Base Ready d) {t : Nat}
    {cmd : Command F} (hcmd : cmd.Holds Base Ready) :
    Holds File Base Ready (d.setCommand t cmd) := by
  refine ⟨h.file, h.running, fun cmd' hmem => ?_⟩
  rcases List.mem_or_eq_of_mem_set hmem with hmem | rfl
  · exact h.commands cmd' hmem
  · exact hcmd

omit [DecidableEq F] [Float64 F] in
/-- A command starts. -/
theorem Holds.addCommand {d : Directory F} (h : Holds File Base Ready d) {cmd : Command F}
    (hcmd : cmd.Holds Base Ready) :
    Holds File Base Ready { d with commands := d.commands ++ [cmd] } := by
  refine ⟨h.file, h.running, fun cmd' hmem => ?_⟩
  rcases List.mem_append.mp hmem with hmem | hmem
  · exact h.commands cmd' hmem
  · rw [List.mem_singleton.mp hmem]
    exact hcmd

omit [DecidableEq F] [Float64 F] in
/-- The node moves on. -/
theorem Holds.setRunning {d : Directory F} (h : Holds File Base Ready d) {p : Process F}
    (hp : p.Holds Base Ready) : Holds File Base Ready { d with running := some p } := by
  refine ⟨h.file, fun q hq => ?_, h.commands⟩
  cases hq
  exact hp

variable [PyRepr F]

/-- What one step keeps. -/
theorem Keeps.step (hkeeps : Keeps me File Base Ready ok) {d d' : Directory F}
    {a : DirectoryAct F} {out log : List (StoreEvent F)} (h : Holds File Base Ready d)
    (ha : Admits ok ⟨d, log⟩ a) (hstep : Directory.step me d a = some (d', out)) :
    Holds File Base Ready d' := by
  cases step_outcome hstep with
  | skipped => exact h
  | started n hnone hboot => exact h.setRunning (hkeeps.boot _ n h.file hboot)
  | stopped => exact ⟨h.file, fun p hp => (nomatch hp), h.commands⟩
  | acted a n n' console hrunning hconsole hcontacts =>
    have hp := h.running _ hrunning
    refine h.setRunning ?_
    unfold Process.Holds at hp ⊢
    rw [hcontacts]
    exact hp
  | broken a n n' console hrunning hcontacts =>
    -- the map is as it was, but it is only known to be one of the two
    have hp := h.running _ hrunning
    refine h.setRunning ?_
    show Base n'.contacts ∨ Ready n'.contacts
    rw [hcontacts]
    cases console with
    | idle => exact Or.inl hp
    | saving contact => exact Or.inr hp
    | ended => exact hp
  | pinned invite n n' contact key hrunning hpin hc hkey hset =>
    -- the map has the contact, the file does not have it yet
    have hbase : Base n.contacts := h.running _ hrunning
    refine h.setRunning ?_
    show Ready n'.contacts
    rw [hset]
    exact hkeeps.put _ contact key hbase (Contact.sound_fromDict invite.property hc) hkey
      (ha (n.contacts, contact.val) (by simp [puts, hrunning, hpin]))
  | saved writeOk n n' contact text p hrunning htext hcontacts hp =>
    -- the file has caught up with the map
    obtain ⟨hfile, hbase⟩ := hkeeps.save _ text (h.running _ hrunning) htext
    refine ⟨hfile, fun q hq => ?_, h.commands⟩
    cases hq
    show Base n'.contacts
    rw [hcontacts]
    exact hbase
  | savedRaised writeOk n n' contact text hrunning htext hcontacts hp =>
    obtain ⟨hfile, hbase⟩ := hkeeps.save _ text (h.running _ hrunning) htext
    refine ⟨hfile, fun q hq => ?_, h.commands⟩
    cases hq
    show Base n'.contacts ∨ Ready n'.contacts
    rw [hcontacts]
    exact Or.inl hbase
  | refused invite result => exact h.addCommand trivial
  | issued invite c hc => exact h.addCommand (Contact.sound_fromDict invite.property hc)
  | failed a t result out => exact h.setCommand trivial
  | read t c contacts ht hload =>
    have hsound : c.Sound := h.commands _ (List.mem_of_getElem? ht)
    exact h.setCommand ⟨hsound, hkeeps.load _ contacts h.file hload⟩
  | updated t c contacts key ht hkey =>
    -- the same for the dictionary of a command
    obtain ⟨hsound, hbase⟩ : c.Sound ∧ Base (refs contacts) :=
      h.commands _ (List.mem_of_getElem? ht)
    refine h.setCommand ?_
    show Ready (refs (Dict.set contacts key c))
    rw [refs_set]
    exact hkeeps.put _ { oid := 0, val := c } key hbase hsound hkey
      (ha (refs contacts, c) (by simp [puts, ht, hkey]))
  | replaced t writeOk c contacts text ht htext =>
    have hready : Ready (refs contacts) := h.commands _ (List.mem_of_getElem? ht)
    have hd : Holds File Base Ready (d.setCommand t (.ended (.ok ()))) := h.setCommand trivial
    exact ⟨(hkeeps.save _ text hready htext).1, hd.running, hd.commands⟩

/-- A directory on which nothing runs. -/
def quiet (file : Option Text) : Directory F where
  contactsFile := file

/-- What every run keeps. -/
theorem Keeps.run (hkeeps : Keeps me File Base Ready ok) {file : Option Text}
    {as : List (DirectoryAct F)} {c : Config (Directory F) (StoreEvent F)} (hfile : File file)
    (hok : Machine.Meets (Directory.step me) (Admits ok) ⟨quiet file, []⟩ as)
    (h : Machine.run (Directory.step me) ⟨quiet file, []⟩ as = some c) :
    Holds File Base Ready c.state := by
  refine Machine.run_invariant_of_meets (P := fun c => Holds File Base Ready c.state) ?_ ?_ hok h
  · intro d a d' hd ha hnext
    obtain ⟨out, hstep, -⟩ := Machine.next_eq_some.mp hnext
    exact hkeeps.step hd ha hstep
  · exact ⟨hfile, fun p hp => (nomatch hp), fun cmd hcmd => (nomatch hcmd)⟩

end Directory

end

end P4
