/-
  Lost updates of `contacts.json`.

  Every process replaces the whole file by what it holds in memory, and nothing locks the file
  in between, so a process that read it before another one replaced it takes the other's
  contact out again (`stale_node_loses_contact`).  As long as every replacement rests on the
  file as it is (`inOrder`), nothing that was added is lost (`no_update_lost`).
-/
import P4.Directory.Equiv.Loadable

namespace P4

open Json

variable {F : Type}

/-! ### Order -/

/-- The process that an event is about, when it matters for `who`: a read of its own, or any
replacement. -/
def StoreEvent.concerns (who : Actor) : StoreEvent F → Option Actor
  | .read w => if w = who then some w else none
  | .replaced w => some w
  | .added _ => none

/-- Nobody else has replaced the file since the process last read or replaced it. -/
def UpToDate (who : Actor) (log : List (StoreEvent F)) : Prop :=
  log.findSome? (StoreEvent.concerns who) = some who

instance (who : Actor) (log : List (StoreEvent F)) : Decidable (UpToDate who log) :=
  inferInstanceAs (Decidable (log.findSome? (StoreEvent.concerns who) = some who))

/-- A process replaces the file only while what it read of it is fresh. -/
def inOrder (past : List (StoreEvent F)) : StoreEvent F → Prop
  | .replaced who => UpToDate who past
  | _ => True

instance (past : List (StoreEvent F)) : ∀ e, Decidable (inOrder past e)
  | .replaced who => inferInstanceAs (Decidable (UpToDate who past))
  | .read _ => inferInstanceAs (Decidable True)
  | .added _ => inferInstanceAs (Decidable True)

/-- Whoever replaces the file is the only one that knows it. -/
theorem upToDate_replaced {who w : Actor} {log : List (StoreEvent F)} :
    UpToDate who (.replaced w :: log) ↔ w = who := by
  simp [UpToDate, StoreEvent.concerns, List.findSome?_cons]

theorem upToDate_added {who : Actor} {x : Contact F} {log : List (StoreEvent F)} :
    UpToDate who (.added x :: log) ↔ UpToDate who log := by
  simp [UpToDate, StoreEvent.concerns, List.findSome?_cons]

/-- That another process reads the file takes nothing away. -/
theorem upToDate_of_read {who w : Actor} {log : List (StoreEvent F)} (hw : w ≠ who)
    (h : UpToDate who (.read w :: log)) : UpToDate who log := by
  simpa [UpToDate, StoreEvent.concerns, List.findSome?_cons, hw] using h

/-! ### Contacts in the file -/

theorem Contact.Same.symm {a b : Contact F} (h : a.Same b) : b.Same a :=
  ⟨h.1.symm, h.2.1.symm, h.2.2.1.symm, h.2.2.2.1.symm, h.2.2.2.2.1.symm, h.2.2.2.2.2.symm⟩

theorem Contact.Same.trans {a b c : Contact F} (h : a.Same b) (h' : b.Same c) : a.Same c :=
  ⟨h.1.trans h'.1, h.2.1.trans h'.2.1, h.2.2.1.trans h'.2.2.1, h.2.2.2.1.trans h'.2.2.2.1,
    h.2.2.2.2.1.trans h'.2.2.2.2.1, h.2.2.2.2.2.trans h'.2.2.2.2.2⟩

variable [DecidableEq F] [Float64 F]

/-- The file has the contacts of the map. -/
def Reads (file : Option Text) (contacts : Dict (Key F) (Ref (Contact F))) : Prop :=
  ∃ d, loadContacts file = .ok d ∧ SameStore d contacts

omit [Float64 F] in
theorem SameStore.left {d : Dict (Key F) (Contact F)} {contacts : Dict (Key F) (Ref (Contact F))}
    (h : SameStore d contacts) {k : Key F} {e : Contact F} (he : Dict.get? d k = some e) :
    ∃ b, Dict.get? contacts k = some b ∧ e.Same b.val := by
  have hk := h k
  rw [he] at hk
  cases hb : Dict.get? contacts k with
  | none =>
    rw [hb] at hk
    cases hk
  | some b =>
    rw [hb] at hk
    cases hk with
    | some hsame => exact ⟨b, rfl, hsame⟩

omit [Float64 F] in
theorem SameStore.right {d : Dict (Key F) (Contact F)} {contacts : Dict (Key F) (Ref (Contact F))}
    (h : SameStore d contacts) {k : Key F} {b : Ref (Contact F)}
    (hb : Dict.get? contacts k = some b) : ∃ e, Dict.get? d k = some e ∧ e.Same b.val := by
  have hk := h k
  rw [hb] at hk
  cases he : Dict.get? d k with
  | none =>
    rw [he] at hk
    cases hk
  | some e =>
    rw [he] at hk
    cases hk with
    | some hsame => exact ⟨e, rfl, hsame⟩

/-- What a command has read is what the file has. -/
theorem reads_refs {file : Option Text} {contacts : Dict (Key F) (Contact F)}
    (h : loadContacts file = .ok contacts) : Reads file (refs contacts) := by
  refine ⟨contacts, h, fun k => ?_⟩
  rw [get?_refs]
  cases Dict.get? contacts k with
  | none => exact Option.Rel.none
  | some c => exact Option.Rel.some ⟨rfl, rfl, rfl, rfl, rfl, rfl⟩

/-- Every contact that was added is in the file, as one of the contacts that were added under
its peer id. -/
def Kept (file : Option Text) (log : List (StoreEvent F)) : Prop :=
  ∀ x, .added x ∈ log → ∃ k d e y, x.peerId.key? = some k ∧ loadContacts file = .ok d ∧
    Dict.get? d k = some e ∧ .added y ∈ log ∧ y.peerId.key? = some k ∧ e.Same y

/-- A replacement that adds a contact to what the file had. -/
theorem Kept.replace {file file' : Option Text} {log : List (StoreEvent F)} (h : Kept file log)
    {contacts : Dict (Key F) (Ref (Contact F))} {key : Key F} {c : Ref (Contact F)}
    (hkey : c.val.peerId.key? = some key) (hbase : Reads file contacts)
    (hfile : Reads file' (Dict.set contacts key c)) (who : Actor) :
    Kept file' (.added c.val :: .replaced who :: log) := by
  obtain ⟨d, hd, hsame⟩ := hbase
  obtain ⟨d', hd', hsame'⟩ := hfile
  have hnew : ∃ e, Dict.get? d' key = some e ∧ e.Same c.val :=
    hsame'.right (by rw [Dict.get?_set, if_pos rfl])
  obtain ⟨new, hget, hnew⟩ := hnew
  intro x hx
  simp only [List.mem_cons, StoreEvent.added.injEq, reduceCtorEq, false_or] at hx
  rcases hx with rfl | hx
  · exact ⟨key, d', new, c.val, hkey, hd', hget, List.mem_cons_self .., hkey, hnew⟩
  · obtain ⟨k, d₀, e, y, hxk, hd₀, he, hy, hyk, hey⟩ := h x hx
    rw [hd] at hd₀
    cases hd₀
    by_cases hk : k = key
    · subst hk
      exact ⟨k, d', new, c.val, hxk, hd', hget, List.mem_cons_self .., hkey, hnew⟩
    · -- the entry of another peer is still there
      obtain ⟨b, hb, heb⟩ := hsame.left he
      have hb' : Dict.get? (Dict.set contacts key c) k = some b := by
        rw [Dict.get?_set, if_neg hk, hb]
      obtain ⟨e', he', heb'⟩ := hsame'.right hb'
      exact ⟨k, d', e', y, hxk, hd', he', by simp [hy], hyk, heb'.trans (heb.symm.trans hey)⟩

/-- A step that adds nothing and replaces nothing. -/
theorem Kept.log {file : Option Text} {log new : List (StoreEvent F)} (h : Kept file log)
    (hnew : ∀ x, .added x ∉ new) : Kept file (new ++ log) := by
  intro x hx
  rcases List.mem_append.mp hx with hx | hx
  · exact absurd hx (hnew x)
  · obtain ⟨k, d, e, y, hxk, hd, he, hy, hyk, hey⟩ := h x hx
    exact ⟨k, d, e, y, hxk, hd, he, List.mem_append_right _ hy, hyk, hey⟩

/-! ### What the processes know -/

/-- The process holds the contacts of the file, if what it read is fresh. -/
def Based (who : Actor) (file : Option Text) (log : List (StoreEvent F))
    (contacts : Dict (Key F) (Ref (Contact F))) : Prop :=
  UpToDate who log → Reads file contacts

/-- The running node: its map while the console is idle, and the map to which a contact has been
added. -/
def Process.Knows [Crates F] (file : Option Text) (log : List (StoreEvent F)) (p : Process F) :
    Prop :=
  match p.console with
  | .idle => Tidy p.node.contacts ∧ Based .node file log p.node.contacts
  | .saving contact => ∃ contacts key, p.node.contacts = Dict.set contacts key contact ∧
    contact.val.peerId.key? = some key ∧ contact.val.Sound ∧ Tidy contacts ∧
    Based .node file log contacts
  | .ended => True

/-- The same for a command. -/
def Command.Knows (file : Option Text) (log : List (StoreEvent F)) (t : Nat) : Command F → Prop
  | .loading c => c.Sound
  | .updating c contacts => c.Sound ∧ Keyed (refs contacts) ∧
    Based (.command t) file log (refs contacts)
  | .saving c contacts => ∃ before key, contacts = Dict.set before key c ∧
    c.peerId.key? = some key ∧ c.Sound ∧ Keyed (refs before) ∧
    Based (.command t) file log (refs before)
  | .ended _ => True

section

variable {file file' : Option Text} {log log' : List (StoreEvent F)}

/-- What a process knows stays true while it is up to date. -/
theorem Based.mono {who : Actor} {contacts : Dict (Key F) (Ref (Contact F))}
    (h : Based who file log contacts)
    (hfresh : UpToDate who log' → UpToDate who log ∧ file' = file) :
    Based who file' log' contacts := by
  intro hf
  obtain ⟨hf, rfl⟩ := hfresh hf
  exact h hf

theorem Process.Knows.mono [Crates F] {p : Process F} (h : p.Knows file log)
    (hfresh : UpToDate .node log' → UpToDate .node log ∧ file' = file) : p.Knows file' log' := by
  unfold Process.Knows at h ⊢
  split
  · rename_i hidle
    simp only [hidle] at h
    exact ⟨h.1, h.2.mono hfresh⟩
  · rename_i contact hsaving
    simp only [hsaving] at h
    obtain ⟨contacts, key, hset, hkey, hsound, htidy, hbased⟩ := h
    exact ⟨contacts, key, hset, hkey, hsound, htidy, hbased.mono hfresh⟩
  · trivial

theorem Command.Knows.mono {t : Nat} {cmd : Command F} (h : cmd.Knows file log t)
    (hfresh : UpToDate (.command t) log' → UpToDate (.command t) log ∧ file' = file) :
    cmd.Knows file' log' t := by
  cases cmd with
  | loading c => exact h
  | updating c contacts => exact ⟨h.1, h.2.1, h.2.2.mono hfresh⟩
  | saving c contacts =>
    obtain ⟨before, key, hset, hkey, hsound, hkeyed, hbased⟩ := h
    exact ⟨before, key, hset, hkey, hsound, hkeyed, hbased.mono hfresh⟩
  | ended result => trivial

/-- What the node knows stays true when a command reads the file. -/
theorem Process.Knows.read [Crates F] {p : Process F} (h : p.Knows file log) (t : Nat) :
    p.Knows file (.read (.command t) :: log) :=
  h.mono fun hf => ⟨upToDate_of_read (by simp) hf, rfl⟩

theorem Command.Knows.read {t : Nat} {cmd : Command F} (h : cmd.Knows file log t) {who : Actor}
    (hwho : who ≠ .command t) : cmd.Knows file (.read who :: log) t :=
  h.mono fun hf => ⟨upToDate_of_read hwho hf, rfl⟩

/-- A replacement by somebody else leaves nothing fresh. -/
theorem Process.Knows.replaced [Crates F] {p : Process F} (h : p.Knows file log) (t : Nat)
    (x : Contact F) : p.Knows file' (.added x :: .replaced (.command t) :: log) :=
  h.mono fun hf => nomatch upToDate_replaced.mp (upToDate_added.mp hf)

theorem Command.Knows.replaced {t : Nat} {cmd : Command F} (h : cmd.Knows file log t)
    {who : Actor} (hwho : who ≠ .command t) : cmd.Knows file' (.replaced who :: log) t :=
  h.mono fun hf => absurd (upToDate_replaced.mp hf) hwho

theorem Command.Knows.added {t : Nat} {cmd : Command F} (h : cmd.Knows file log t)
    (x : Contact F) : cmd.Knows file (.added x :: log) t :=
  h.mono fun hf => ⟨upToDate_added.mp hf, rfl⟩

theorem Process.Knows.saving [Crates F] {n : Node F} {contact : Ref (Contact F)}
    (h : Process.Knows file log { node := n, console := .saving contact }) :
    ∃ contacts key, n.contacts = Dict.set contacts key contact ∧
      contact.val.peerId.key? = some key ∧ contact.val.Sound ∧ Tidy contacts ∧
      Based .node file log contacts :=
  h

end

/-! ### Steps -/

namespace Directory

variable [Crates F]

/-- Nothing is lost, and every process that is fresh knows the file. -/
structure Current (c : Config (Directory F) (StoreEvent F)) : Prop where
  kept : Kept c.state.contactsFile c.log
  running : ∀ p, c.state.running = some p → p.Knows c.state.contactsFile c.log
  commands : ∀ t (cmd : Command F), c.state.commands[t]? = some cmd →
    cmd.Knows c.state.contactsFile c.log t

omit [DecidableEq F] [Float64 F] in
theorem forall_setCommand {P : Nat → Command F → Prop} {d : Directory F} {t : Nat}
    {cmd : Command F} (hold : ∀ s cmd', s ≠ t → d.commands[s]? = some cmd' → P s cmd')
    (hnew : P t cmd) : ∀ s cmd', (d.setCommand t cmd).commands[s]? = some cmd' → P s cmd' := by
  intro s cmd' hs
  rw [setCommand, List.getElem?_set] at hs
  split_ifs at hs with hts hlt
  · cases hs
    rw [← hts]
    exact hnew
  · exact hold s cmd' (fun heq => hts heq.symm) hs

omit [DecidableEq F] [Float64 F] in
theorem forall_addCommand {P : Nat → Command F → Prop} {d : Directory F} {cmd : Command F}
    (hold : ∀ s cmd', d.commands[s]? = some cmd' → P s cmd') (hnew : ∀ s, P s cmd) :
    ∀ s cmd', (d.commands ++ [cmd])[s]? = some cmd' → P s cmd' := by
  intro s cmd' hs
  rw [List.getElem?_append] at hs
  split_ifs at hs with hlt
  · exact hold s cmd' hs
  · rw [List.getElem?_singleton] at hs
    split_ifs at hs
    cases hs
    exact hnew s

omit [Crates F] in
/-- A map that a node could sort with a contact whose peer id is no string was empty. -/
theorem eq_nil_of_contactsText {contacts : Dict (Key F) (Ref (Contact F))} (h : Tidy contacts)
    {c : Ref (Contact F)} {key : Key F} (hkey : c.val.peerId.key? = some key)
    (hc : ∀ p, c.val.peerId ≠ .str p) {text : Text}
    (htext : contactsText (Dict.set contacts key c) = .ok text) : contacts = [] := by
  by_contra hne
  refine (h.mixed_set hne hkey ?_).contactsText htext
  rw [← Bool.not_eq_true, isStr_iff]
  exact fun ⟨p, hp⟩ => hc p hp

variable [PyRepr F] {me : Identity F}

/-- Every step whose replacement is in order keeps this. -/
theorem Current.step {c c' : Config (Directory F) (StoreEvent F)} {a : DirectoryAct F}
    (h : Current c) (hnext : Machine.next (Directory.step me) c a = some c')
    (horder : Along inOrder c'.log) : Current c' := by
  obtain ⟨d, log⟩ := c
  obtain ⟨d', log'⟩ := c'
  obtain ⟨out, hstep, hlog⟩ := Machine.next_eq_some.mp hnext
  dsimp only at hlog
  subst hlog
  have hkept : Kept d.contactsFile log := h.kept
  cases step_outcome hstep with
  | skipped a out hout =>
    rcases hout with rfl | ⟨rfl, hnone⟩
    · exact h
    · refine ⟨hkept.log (by simp), fun p hp => ?_, fun t cmd ht => ?_⟩
      · rw [hnone] at hp
        cases hp
      · exact (h.commands t cmd ht).read (by simp)
  | started n hnone hboot =>
    have hstored := Node.stored_boot hboot
    refine ⟨hkept.log (by simp), fun p hp => ?_, fun t cmd ht => ?_⟩
    · cases hp
      refine ⟨hstored.tidy, fun _ => ?_⟩
      obtain ⟨-, -, -, -, hfile, -⟩ := Node.boot_ok hboot
      show Reads d.contactsFile n.contacts
      rw [← hfile]
      exact hstored.file
    · exact (h.commands t cmd ht).read (by simp)
  | stopped => exact ⟨hkept, fun p hp => (nomatch hp), h.commands⟩
  | acted a n n' console hrunning hconsole hcontacts =>
    refine ⟨hkept, fun p hp => ?_, h.commands⟩
    have hp' := h.running _ hrunning
    cases hp
    unfold Process.Knows at hp' ⊢
    rw [hcontacts]
    exact hp'
  | broken a n n' console hrunning hcontacts =>
    refine ⟨hkept, fun p hp => ?_, h.commands⟩
    cases hp
    trivial
  | pinned invite n n' contact key hrunning hpin hc hkey hset =>
    obtain ⟨htidy, hbased⟩ : Tidy n.contacts ∧ Based .node d.contactsFile log n.contacts :=
      h.running _ hrunning
    refine ⟨hkept, fun p hp => ?_, h.commands⟩
    cases hp
    exact ⟨n.contacts, key, hset, hkey, Contact.sound_fromDict invite.property hc, htidy, hbased⟩
  | saved writeOk n n' contact text p hrunning htext hcontacts hp =>
    obtain ⟨contacts, key, hset, hkey, hsound, htidy, hbased⟩ := (h.running _ hrunning).saving
    have hfresh : UpToDate .node log := horder.2.1
    have hreads : Reads (some text) n.contacts := by
      rw [hset] at htext ⊢
      exact (htidy.keyed.set hkey hsound).loadContacts htext
    refine ⟨hkept.replace hkey (hbased hfresh) (hset ▸ hreads) .node, fun q hq => ?_,
      fun t cmd ht => ?_⟩
    · cases hq
      have htidy' : Tidy n'.contacts := by
        rw [hcontacts, hset]
        rw [hp] at hkey
        cases hkey
        exact htidy.set hp hsound
      refine ⟨htidy', fun _ => ?_⟩
      show Reads (some text) n'.contacts
      rw [hcontacts]
      exact hreads
    · exact ((h.commands t cmd ht).replaced (by simp)).added contact.val
  | savedRaised writeOk n n' contact text hrunning htext hcontacts hstr =>
    obtain ⟨contacts, key, hset, hkey, hsound, htidy, hbased⟩ := (h.running _ hrunning).saving
    have hfresh : UpToDate .node log := horder.1
    rw [hset] at htext
    -- the file was empty, so nothing was added before
    have hnil := eq_nil_of_contactsText htidy hkey hstr htext
    refine ⟨fun x hx => ?_, fun q hq => ?_, fun t cmd ht => ?_⟩
    · have hx' : .added x ∈ log := by simpa using hx
      obtain ⟨k, d₀, e, y, -, hd₀, he, -⟩ := hkept x hx'
      obtain ⟨d₁, hd₁, hsame⟩ := hbased hfresh
      rw [hd₀] at hd₁
      cases hd₁
      obtain ⟨b, hb, -⟩ := hsame.left he
      rw [hnil] at hb
      cases hb
    · cases hq
      trivial
    · exact (h.commands t cmd ht).replaced (by simp)
  | refused invite result =>
    exact ⟨hkept, h.running, forall_addCommand h.commands fun _ => trivial⟩
  | issued invite c hc =>
    have hsound : c.Sound := Contact.sound_fromDict invite.property hc
    exact ⟨hkept, h.running, forall_addCommand h.commands fun _ => hsound⟩
  | failed a t result out hout =>
    rcases hout with rfl | rfl
    · exact ⟨hkept, h.running, forall_setCommand (fun s cmd _ hs => h.commands s cmd hs) trivial⟩
    · refine ⟨hkept.log (by simp), fun p hp => ?_, forall_setCommand (fun s cmd hst hs => ?_)
        trivial⟩
      · exact (h.running p hp).read t
      · refine (h.commands s cmd hs).read ?_
        simpa using Ne.symm hst
  | read t c contacts ht hload =>
    have hsound : c.Sound := h.commands t _ ht
    obtain ⟨l, -, hkeyed, -⟩ := loadContacts_spec hload
    refine ⟨hkept.log (by simp), fun p hp => ?_, forall_setCommand (fun s cmd hst hs => ?_)
      ⟨hsound, hkeyed, fun _ => reads_refs hload⟩⟩
    · exact (h.running p hp).read t
    · refine (h.commands s cmd hs).read ?_
      simpa using Ne.symm hst
  | updated t c contacts key ht hkey =>
    obtain ⟨hsound, hkeyed, hbased⟩ : c.Sound ∧ Keyed (refs contacts) ∧
      Based (.command t) d.contactsFile log (refs contacts) := h.commands t _ ht
    exact ⟨hkept, h.running, forall_setCommand (fun s cmd _ hs => h.commands s cmd hs)
      ⟨contacts, key, rfl, hkey, hsound, hkeyed, hbased⟩⟩
  | replaced t writeOk c contacts text ht htext =>
    obtain ⟨before, key, rfl, hkey, hsound, hkeyed, hbased⟩ : ∃ before key,
      contacts = Dict.set before key c ∧ c.peerId.key? = some key ∧ c.Sound ∧
      Keyed (refs before) ∧ Based (.command t) d.contactsFile log (refs before) :=
        h.commands t _ ht
    have hfresh : UpToDate (.command t) log := horder.2.1
    rw [refs_set] at htext
    have hreads : Reads (some text) (Dict.set (refs before) key { oid := 0, val := c }) :=
      (Keyed.set (c := { oid := 0, val := c }) hkeyed hkey hsound).loadContacts htext
    refine ⟨Kept.replace (c := { oid := 0, val := c }) hkept hkey (hbased hfresh) hreads _,
      fun p hp => ?_, forall_setCommand (fun s cmd hst hs => ?_) trivial⟩
    · exact (h.running p hp).replaced t c
    · refine ((h.commands s cmd hs).replaced ?_).added c
      simpa using Ne.symm hst

end Directory

/-! ### Runs -/

/-- In every run on a state directory in which no process replaces `contacts.json` after another
one has replaced it since the first one's last access, the file has, for every contact that was
added, one of the contacts that were added under its peer id.

The invariant is `Directory.Current`: a process that is up to date knows what the file has, so what
it writes takes nothing out. -/
theorem no_update_lost [Crates F] [PyRepr F] {me : Identity F} {file : Option Text}
    {as : List (DirectoryAct F)} {c : Config (Directory F) (StoreEvent F)}
    (h : Machine.run (Directory.step me) ⟨Directory.quiet file, []⟩ as = some c)
    (horder : Along inOrder c.log) :
    ∀ x, .added x ∈ c.log → ∃ k d e y, x.peerId.key? = some k ∧
      loadContacts c.state.contactsFile = .ok d ∧ Dict.get? d k = some e ∧
      .added y ∈ c.log ∧ y.peerId.key? = some k ∧ e.Same y := by
  have key : Along inOrder c.log → Directory.Current c := by
    refine Machine.run_invariant (P := fun c => Along inOrder c.log → Directory.Current c) ?_ ?_ h
    · intro d a d' hd hnext horder'
      obtain ⟨out, -, hlog⟩ := Machine.next_eq_some.mp hnext
      have hpast : Along inOrder d.log := by
        rw [hlog] at horder'
        exact horder'.of_append
      exact (hd hpast).step hnext horder'
    · intro _
      exact ⟨fun x hx => (nomatch hx), fun p hp => (nomatch hp), fun t cmd ht => (nomatch ht)⟩
  exact (key horder).kept

/-! ### Samples -/

/-- No add is under way. -/
def Directory.finished [Crates F] (d : Directory F) : Bool :=
  (match d.running with
    | some { node := _, console := .saving _ } => false
    | _ => true) &&
  d.commands.all fun
    | .ended _ => true
    | _ => false

namespace Sample

/-- A command adds a contact while the node is running, and then the node adds another one. -/
def staleAdds : List (DirectoryAct Empty) :=
  [.start] ++ commandSteps 0 (invited 1) ++ [.add (invited 3), .save true]

/-- The node is stopped before a command adds a contact, and started again afterwards. -/
def orderedAdds : List (DirectoryAct Empty) :=
  [.start, .add (invited 3), .save true, .stop] ++ commandSteps 0 (invited 1) ++
    [.start, .add (invited 4), .save true]

end Sample

/-- The node takes out a contact that was added while it was running. -/
theorem stale_node_loses_contact : ∃ (c : Config (Directory Empty) (StoreEvent Empty))
    (x : Contact Empty) (k : Key Empty) (d : Dict (Key Empty) (Contact Empty)),
    Machine.run (Directory.step (Sample.identity 2)) ⟨Directory.quiet none, []⟩
      Sample.staleAdds = some c ∧ c.state.finished = true ∧
    .added x ∈ c.log ∧ x.peerId.key? = some k ∧ loadContacts c.state.contactsFile = .ok d ∧
    Dict.get? d k = none := by
  have hok : (Machine.run (Directory.step (Sample.identity 2)) ⟨Directory.quiet none, []⟩
      Sample.staleAdds).map (fun c => c.state.finished &&
        decide (.added (Sample.contact 1).val ∈ c.log) &&
        ((loadContacts (F := Empty) c.state.contactsFile).toOption.map fun d =>
          (Dict.get? d (.str (Sample.identity 1).peerId)).isNone) == some true) = some true := by
    decide +kernel
  obtain ⟨c, hc, htrue⟩ := Option.map_eq_some_iff.mp hok
  simp only [Bool.and_eq_true, decide_eq_true_eq, beq_iff_eq] at htrue
  obtain ⟨⟨hfinished, hadded⟩, hnone⟩ := htrue
  obtain ⟨d, hd, hget⟩ := Option.map_eq_some_iff.mp hnone
  exact ⟨c, (Sample.contact 1).val, .str (Sample.identity 1).peerId, d, hc, hfinished, hadded, rfl,
    Sample.eq_ok_of_toOption hd, Option.isNone_iff_eq_none.mp hget⟩

theorem no_update_lost_sample : ∃ c,
    Machine.run (Directory.step (Sample.identity 2)) ⟨Directory.quiet none, []⟩
      Sample.orderedAdds = some c ∧ .added (Sample.contact 1).val ∈ c.log ∧
    ∃ k d e y, (Sample.contact 1).val.peerId.key? = some k ∧
      loadContacts c.state.contactsFile = .ok d ∧ Dict.get? d k = some e ∧
      .added y ∈ c.log ∧ y.peerId.key? = some k ∧ e.Same y := by
  have hok : (Machine.run (Directory.step (Sample.identity 2)) ⟨Directory.quiet none, []⟩
      Sample.orderedAdds).map (fun c => decide (Along inOrder c.log) &&
        decide (.added (Sample.contact 1).val ∈ c.log)) = some true := by decide +kernel
  obtain ⟨c, hc, htrue⟩ := Option.map_eq_some_iff.mp hok
  rw [Bool.and_eq_true, decide_eq_true_eq, decide_eq_true_eq] at htrue
  exact ⟨c, hc, htrue.2, no_update_lost hc htrue.1 _ htrue.2⟩

end P4
