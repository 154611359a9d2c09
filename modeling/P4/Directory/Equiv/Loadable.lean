/-
  `contacts.json` can be loaded.

  `_load_contacts` compares every peer id with a string, so it needs strings.  `sorted` refuses
  a mixture of strings and other values, which keeps a contact with another peer id out of a
  list that already has one with a string; an empty list has no such guard, and there a number
  gets in (`bare_peer_id_blocks_start`).  Without that the file can always be loaded
  (`contacts_always_load`).
-/
import P4.Directory.Equiv.Basic

namespace P4

open Json

section

variable {F : Type} [DecidableEq F] [Float64 F]

/-! ### Files that can be loaded -/

/-- The contacts of the file can be read, and their peer ids are strings. -/
def Loads (F : Type) [Float64 F] (file : Option Text) : Prop :=
  ∃ l : List (Contact F), readContacts file = .ok l ∧ ∀ c ∈ l, ∃ p, c.peerId = .str p

/-- A node starts exactly on the files that can be loaded. -/
theorem boot_isOk_iff [Crates F] {me : Identity F} {file : Option Text} :
    (∃ n, Node.boot me file = .ok n) ↔ Loads F file := by
  constructor
  · rintro ⟨n, hn⟩
    obtain ⟨contacts, hread, hstr, -⟩ := Node.boot_ok hn
    refine ⟨_, hread, fun c hc => ?_⟩
    obtain ⟨r, hr, rfl⟩ := List.mem_map.mp hc
    exact ⟨_, hstr r hr⟩
  · rintro ⟨l, hread, hstr⟩
    obtain ⟨contacts, hcontacts⟩ : ∃ contacts, contacts =
        l.zipIdx.map (fun ci => ({ oid := ci.2, val := ci.1 } : Ref (Contact F))) := ⟨_, rfl⟩
    have hstr' : ∀ c ∈ contacts, c.val.peerId = .str (Node.strOf c) := by
      intro c hc
      rw [hcontacts] at hc
      obtain ⟨ci, hci, rfl⟩ := List.mem_map.mp hc
      obtain ⟨p, hp⟩ := hstr ci.1 (List.fst_mem_of_mem_zipIdx hci)
      rw [Node.strOf, hp]
    -- the entries, their keys and the sessions, each of them without an exception
    refine ⟨_, except_bind_ok.mpr ⟨l, hread, except_bind_ok.mpr ⟨_, except_bind_ok.mpr
      ⟨contacts.map fun c => (keyOf c, c), ?_, rfl⟩, except_bind_ok.mpr ⟨_, except_bind_ok.mpr
        ⟨contacts.map fun c =>
          (Node.strOf c, SessionWorld.new c (Node.roleFor me.peerId (Node.strOf c))), ?_, rfl⟩,
          rfl⟩⟩⟩⟩
    · rw [← hcontacts]
      refine except_mapM_eq fun c hc => ?_
      simp only [keyOf, hstr' c hc]
      rfl
    · rw [← hcontacts]
      refine except_mapM_eq fun c hc => ?_
      rw [hstr' c hc]
      rfl

/-- What the commands read from such a file. -/
theorem tidy_loadContacts {file : Option Text} {contacts : Dict (Key F) (Contact F)}
    (hfile : Loads F file) (h : loadContacts file = .ok contacts) : Tidy (refs contacts) := by
  obtain ⟨l, hread, hstr⟩ := hfile
  obtain ⟨l', hread', hkeyed, hmem⟩ := loadContacts_spec h
  rw [hread] at hread'
  cases hread'
  refine ⟨hkeyed.nodup, fun kc hkc => ?_⟩
  obtain ⟨hkey, hsound⟩ := hkeyed.entry kc hkc
  obtain ⟨jc, hjc, rfl⟩ := List.mem_map.mp hkc
  obtain ⟨p, hp⟩ := hstr jc.2 (hmem jc hjc)
  have hkey' : jc.2.peerId.key? = some jc.1 := hkey
  rw [hp] at hkey'
  exact ⟨p, (Option.some.inj hkey').symm, hp, hsound⟩

theorem loadContacts_of_loads {file : Option Text} (hfile : Loads F file) :
    ∃ contacts : Dict (Key F) (Contact F), loadContacts file = .ok contacts := by
  obtain ⟨l, hread, hstr⟩ := hfile
  refine ⟨_, except_bind_ok.mpr ⟨l, hread, except_bind_ok.mpr
    ⟨l.map fun c => ((c.peerId.key?).getD .null, c), except_mapM_eq fun c hc => ?_, rfl⟩⟩⟩
  obtain ⟨p, hp⟩ := hstr c hc
  rw [hp]
  rfl

omit [DecidableEq F] in
/-- What is written of a map with strings for its peer ids can be loaded. -/
theorem loads_contactsText {contacts : Dict (Key F) (Ref (Contact F))} (h : Tidy contacts)
    {text : Text} (htext : contactsText contacts = .ok text) : Loads F (some text) := by
  obtain ⟨sorted, hperm, hread⟩ :=
    readContacts_contactsText (fun c hc => (h.value hc).choose_spec.2) htext
  refine ⟨_, hread, fun c hc => ?_⟩
  obtain ⟨r, hr, rfl⟩ := List.mem_map.mp hc
  obtain ⟨p, hp, -⟩ := h.value (hperm.mem_iff.mp hr)
  refine ⟨p, ?_⟩
  show r.val.peerId.canon = _
  rw [hp]
  rfl

/-! ### Mixtures -/

/-- A string and something else are among the peer ids. -/
def Mixed (contacts : Dict (Key F) (Ref (Contact F))) : Prop :=
  (∃ a ∈ Dict.values contacts, a.val.peerId.isStr = true) ∧
    ∃ b ∈ Dict.values contacts, b.val.peerId.isStr = false

omit [DecidableEq F] in
theorem isStr_of_key? {v : Json F} {p : Str} (h : v.key? = some (.str p)) : v.isStr = true := by
  cases v with
  | str s => rfl
  | float f =>
    simp only [key?] at h
    split at h <;> cases h
  | null => cases h
  | bool b => cases h
  | int i => cases h
  | arr l => cases h
  | obj m => cases h

omit [DecidableEq F] in
/-- A mixture cannot be sorted, so it is never written. -/
theorem Mixed.contactsText {contacts : Dict (Key F) (Ref (Contact F))} (h : Mixed contacts)
    {text : Text} : contactsText contacts ≠ .ok text := by
  obtain ⟨⟨a, ha, hastr⟩, b, hb, hbstr⟩ := h
  intro htext
  obtain ⟨sorted, hsorted, -⟩ := except_bind_ok.mp htext
  have hlen : ¬ (Dict.values contacts).length ≤ 1 := by
    intro hle
    obtain ⟨i, hi, rfl⟩ := List.mem_iff_getElem.mp ha
    obtain ⟨j, hj, rfl⟩ := List.mem_iff_getElem.mp hb
    obtain rfl : i = j := by omega
    rw [hbstr] at hastr
    cases hastr
  have hnum : a.val.peerId.isNumber = false := by
    obtain ⟨p, hp⟩ := isStr_iff.mp hastr
    rw [hp]
    rfl
  rw [sortedBy, if_neg] at hsorted
  · cases hsorted
  · simp only [Bool.or_eq_true, decide_eq_true_eq, List.all_eq_true, not_or]
    refine ⟨⟨hlen, fun hall => ?_⟩, fun hall => ?_⟩
    · rw [hall b hb] at hbstr
      cases hbstr
    · rw [hall a ha] at hnum
      cases hnum

/-- A contact whose peer id is no string makes a mixture of a map that is not empty. -/
theorem Tidy.mixed_set {contacts : Dict (Key F) (Ref (Contact F))} (h : Tidy contacts)
    (hne : contacts ≠ []) {c : Ref (Contact F)} {key : Key F} (hkey : c.val.peerId.key? = some key)
    (hc : c.val.peerId.isStr = false) : Mixed (Dict.set contacts key c) := by
  obtain ⟨kc, hkc⟩ := List.exists_mem_of_ne_nil contacts hne
  obtain ⟨p, hp, hpeer, -⟩ := h.entry kc hkc
  -- the entry under a string stays where it is
  have hdiff : kc.1 ≠ key := by
    rw [hp]
    intro heq
    rw [← heq] at hkey
    rw [isStr_of_key? hkey] at hc
    cases hc
  have hold : Dict.get? contacts kc.1 = some kc.2 := (Dict.get?_eq_some_iff h.nodup).mpr hkc
  have hkept : Dict.get? (Dict.set contacts key c) kc.1 = some kc.2 := by
    rw [Dict.get?_set, if_neg hdiff, hold]
  have hnew : Dict.get? (Dict.set contacts key c) key = some c := by
    rw [Dict.get?_set, if_pos rfl]
  refine ⟨⟨kc.2, List.mem_map_of_mem (Dict.get?_mem hkept), ?_⟩,
    c, List.mem_map_of_mem (Dict.get?_mem hnew), hc⟩
  rw [hpeer]
  rfl

/-! ### Runs -/

/-- A contact is put into an empty map only when its peer id is a string. -/
def StringFirst (contacts : Dict (Key F) (Ref (Contact F))) (c : Contact F) : Prop :=
  contacts = [] → c.peerId.isStr = true

instance (contacts : Dict (Key F) (Ref (Contact F))) (c : Contact F) :
    Decidable (StringFirst contacts c) :=
  inferInstanceAs (Decidable (contacts = [] → c.peerId.isStr = true))

variable [Crates F]

/-- A map in which all peer ids are strings is saved as such a file, and a mixture is not saved. -/
theorem keeps_loads (me : Identity F) :
    Directory.Keeps me (Loads F) Tidy (fun contacts => Tidy contacts ∨ Mixed contacts)
      StringFirst := by
  refine ⟨?_, ?_, ?_, ?_⟩
  · intro file n _ hboot
    exact (Node.stored_boot hboot).tidy
  · intro file contacts hfile hload
    exact tidy_loadContacts hfile hload
  · intro contacts c key htidy hsound hkey hfirst
    cases hstr : c.val.peerId.isStr with
    | true =>
      obtain ⟨p, hp⟩ := isStr_iff.mp hstr
      rw [hp] at hkey
      cases hkey
      exact Or.inl (htidy.set hp hsound)
    | false =>
      refine Or.inr (htidy.mixed_set (fun hnil => ?_) hkey hstr)
      rw [hfirst hnil] at hstr
      cases hstr
  · rintro contacts text (htidy | hmixed) htext
    · exact ⟨loads_contactsText htidy htext, htidy⟩
    · exact absurd htext hmixed.contactsText

omit [Crates F] in
/-- A contact with a string for its peer id can be added to a file that can be loaded. -/
theorem cmdAddContact_of_loads {file : Option Text} (hfile : Loads F file) {own p : Str}
    {invite : Loaded F} {c : Contact F} (hc : Contact.fromDict invite.val = .ok c)
    (hp : c.peerId = .str p) (hown : p ≠ own) :
    (cmdAddContact own invite.val file true).1 = .ok () := by
  obtain ⟨contacts, hload⟩ := loadContacts_of_loads hfile
  have htidy : Tidy (refs (Dict.set contacts (.str p) c)) := by
    rw [refs_set]
    exact (tidy_loadContacts hfile hload).set hp (Contact.sound_fromDict invite.property hc)
  obtain ⟨text, -, htext, -⟩ := loadContacts_contactsText htidy
  have hneq : ¬ c.peerId.eqStr own = true := by
    rw [hp]
    exact fun h => hown (of_decide_eq_true h)
  have hkey : typed c.peerId.key? = .ok (.str p) := by
    rw [hp]
    rfl
  have hall : addContactText own invite.val file = .ok text := by
    refine except_bind_ok.mpr ⟨c, hc, ?_⟩
    rw [if_neg hneq]
    exact except_bind_ok.mpr ⟨contacts, hload, except_bind_ok.mpr ⟨_, hkey, htext⟩⟩
  rw [cmdAddContact, hall]
  rfl

variable [PyRepr F]

/-- On a directory whose `contacts.json` can be loaded, whatever invites the node and the
commands are given, in whatever order their steps come: a node can be started and a contact can
be added in every state, as long as no contact is put into an empty map with something else
than a string for its peer id.

The invariant is that the file can be loaded, and that the map of every process either would be
written as such a file or is a mixture, which `sorted` refuses to write (`keeps_loads`). -/
theorem contacts_always_load {me : Identity F} {file : Option Text} {n : Node F}
    {as : List (DirectoryAct F)} {c : Config (Directory F) (StoreEvent F)}
    (hfile : Node.boot me file = .ok n)
    (hok : Machine.Meets (Directory.step me) (Directory.Admits StringFirst)
      ⟨Directory.quiet file, []⟩ as)
    (h : Machine.run (Directory.step me) ⟨Directory.quiet file, []⟩ as = some c) :
    (∃ n, Node.boot me c.state.contactsFile = .ok n) ∧
      ∀ (invite : Loaded F) (contact : Contact F) (p : Str),
        Contact.fromDict invite.val = .ok contact → contact.peerId = .str p → p ≠ me.peerId →
        (cmdAddContact me.peerId invite.val c.state.contactsFile true).1 = .ok () := by
  have hloads := ((keeps_loads me).run (boot_isOk_iff.mp ⟨n, hfile⟩) hok h).file
  refine ⟨boot_isOk_iff.mpr hloads, fun invite contact p hc hp hown => ?_⟩
  exact cmdAddContact_of_loads hloads hc hp hown

end

/-! ### Samples -/

namespace Sample

/-- The invite of any contact. -/
def invite (c : Contact Empty) (h : c.toDict.wellFormed = true) : Loaded Empty := ⟨c.toDict, h⟩

/-- An invite with a number for its peer id. -/
def bareInvite : Loaded Empty :=
  invite { (contact 1).val with peerId := .int 5 } (by decide +kernel)

/-- One command is run to its end. -/
def commandSteps (t : Nat) (invite : Loaded Empty) : List (DirectoryAct Empty) :=
  [.command invite, .read t, .update t, .replace t true]

/-- A node and two commands add contacts; the number comes too late to get in. -/
def adds : List (DirectoryAct Empty) :=
  [.start, .add (invited 1), .save true] ++ commandSteps 0 (invited 3) ++
    commandSteps 1 bareInvite

end Sample

/-- A number for a peer id in the first invite keeps the node from starting and the next contact
out. -/
theorem bare_peer_id_blocks_start : ∃ (invite next : Loaded Empty) (contact : Contact Empty)
    (p : Str) (c : Config (Directory Empty) (StoreEvent Empty)),
    (∃ n, Node.boot (Sample.identity 2) none = .ok n) ∧
    Machine.run (Directory.step (Sample.identity 2)) ⟨Directory.quiet none, []⟩
      (Sample.commandSteps 0 invite) = some c ∧
    (¬ ∃ n, Node.boot (Sample.identity 2) c.state.contactsFile = .ok n) ∧
    Contact.fromDict next.val = .ok contact ∧ contact.peerId = .str p ∧
    p ≠ (Sample.identity 2).peerId ∧
    (cmdAddContact (Sample.identity 2).peerId next.val c.state.contactsFile true).1 ≠ .ok () := by
  have hnone : (Node.boot (Sample.identity 2) none).isOk = true := by decide +kernel
  have hown : (Sample.identity 1).peerId ≠ (Sample.identity 2).peerId := by decide +kernel
  have hblocked : (Machine.run (Directory.step (Sample.identity 2)) ⟨Directory.quiet none, []⟩
      (Sample.commandSteps 0 Sample.bareInvite)).map (fun c =>
        (Node.boot (Sample.identity 2) c.state.contactsFile).isOk ||
          (cmdAddContact (Sample.identity 2).peerId (Sample.contact 1).val.toDict
            c.state.contactsFile true).1.isOk) = some false := by decide +kernel
  obtain ⟨c, hc, hfalse⟩ := Option.map_eq_some_iff.mp hblocked
  rw [Bool.or_eq_false_iff] at hfalse
  refine ⟨Sample.bareInvite, Sample.invited 1, _, _, c, Sample.exists_ok hnone, hc, ?_, rfl, rfl,
    hown, ?_⟩
  · rintro ⟨n, hn⟩
    rw [hn] at hfalse
    cases hfalse.1
  · intro hadded
    have hadded' : (cmdAddContact (Sample.identity 2).peerId (Sample.contact 1).val.toDict
      c.state.contactsFile true).1 = .ok () := hadded
    rw [hadded'] at hfalse
    cases hfalse.2

theorem contacts_always_load_sample : ∃ c,
    Machine.run (Directory.step (Sample.identity 2)) ⟨Directory.quiet none, []⟩ Sample.adds =
      some c ∧ ∃ n, Node.boot (Sample.identity 2) c.state.contactsFile = .ok n := by
  have hnone : (Node.boot (Sample.identity 2) none).isOk = true := by decide +kernel
  obtain ⟨hok, hrun⟩ : Machine.Meets (Directory.step (Sample.identity 2))
        (Directory.Admits StringFirst) ⟨Directory.quiet none, []⟩ Sample.adds ∧
      (Machine.run (Directory.step (Sample.identity 2)) ⟨Directory.quiet none, []⟩
        Sample.adds).isSome = true := by
    decide +kernel
  obtain ⟨n, hn⟩ := Sample.exists_ok hnone
  obtain ⟨c, hc⟩ := Option.isSome_iff_exists.mp hrun
  exact ⟨c, hc, (contacts_always_load hn hok hc).1⟩

end P4
