/-
  Contacts that certify themselves.

  `verify_envelope` demands of every message that its sender is the fingerprint of the key it
  is verified with, `generate_identity` makes such pairs and `Identity.load_or_create` checks
  them.  Nothing checks the pair in an invite, so one that names a known peer with another key
  takes the place of that peer (`foreign_key_replaces_pin`).  The store is certified as long as
  every contact that is put into it is (`contacts_certified`).
-/
import P4.Directory.Equiv.Loadable

namespace P4

open Json

section

variable {F : Type} [DecidableEq F] [Float64 F] [Crates F]

/-- `peer_id == peer_id_from_public_key_b64(public_key_b64)` -/
def Contact.certified (c : Contact F) : Bool :=
  match c.publicKeyB64, c.peerId with
  | .str key, .str p =>
    match P4Core.peerIdFromPublicKeyB64 F key with
    | .ok q => q = p
    | .error _ => false
  | _, _ => false

/-- The contacts of the file can be read and are certified. -/
def CertifiedFile (F : Type) [Float64 F] [Crates F] (file : Option Text) : Prop :=
  ∃ l : List (Contact F), readContacts file = .ok l ∧ ∀ c ∈ l, c.certified = true

/-- The contacts of the map are certified. -/
def CertifiedMap (contacts : Dict (Key F) (Ref (Contact F))) : Prop :=
  ∀ c ∈ Dict.values contacts, c.val.certified = true ∧ c.val.Sound

omit [DecidableEq F] [Float64 F] in
/-- A certified contact has strings, which have no members to put in order. -/
theorem Contact.certified_canon (c : Contact F) (h : c.certified = true) :
    c.canon.certified = true := by
  unfold Contact.certified at h
  split at h
  · rename_i key p hkey hp
    unfold Contact.certified
    have hkey' : c.canon.publicKeyB64 = .str key := by
      show c.publicKeyB64.canon = _
      rw [hkey]
      rfl
    have hp' : c.canon.peerId = .str p := by
      show c.peerId.canon = _
      rw [hp]
      rfl
    rw [hkey', hp']
    exact h
  · cases h

/-- Loading and saving keep the certified maps, and so does putting a certified contact in. -/
theorem keeps_certified (me : Identity F) :
    Directory.Keeps me (CertifiedFile F) CertifiedMap CertifiedMap
      (fun _ c => c.certified = true) := by
  refine ⟨?_, ?_, ?_, ?_⟩
  · -- a start: the contacts of the map are those of the file
    rintro file n ⟨l, hread, hl⟩ hboot
    obtain ⟨contacts, hread', -, -, -, hcontacts, -⟩ := Node.boot_ok hboot
    rw [hread] at hread'
    cases hread'
    intro c hc
    have hspec : ∀ kc ∈ n.contacts, kc.2.val.certified = true ∧ kc.2.val.Sound := by
      rw [hcontacts]
      refine (Dict.ofPairs_spec fun kc hkc => ?_).2
      obtain ⟨r, hr, rfl⟩ := List.mem_map.mp hkc
      have hmem : r.val ∈ contacts.map Ref.val := List.mem_map_of_mem hr
      exact ⟨hl _ hmem, Node.sound_readContacts hread _ hmem⟩
    obtain ⟨kc, hkc, rfl⟩ := List.mem_map.mp hc
    exact hspec kc hkc
  · -- a command's dictionary: the same
    rintro file contacts ⟨l, hread, hl⟩ hload
    obtain ⟨l', hread', hkeyed, hmem⟩ := loadContacts_spec hload
    rw [hread] at hread'
    cases hread'
    intro c hc
    obtain ⟨kc, hkc, rfl⟩ := List.mem_map.mp hc
    refine ⟨?_, (hkeyed.entry kc hkc).2⟩
    obtain ⟨jc, hjc, rfl⟩ := List.mem_map.mp hkc
    exact hl _ (hmem jc hjc)
  · -- an update: a new contact, which is certified, and the old ones
    intro contacts c key hmap hsound _ hcert r hr
    obtain ⟨kc, hkc, rfl⟩ := List.mem_map.mp hr
    rcases Dict.mem_set hkc with rfl | hkc
    · exact ⟨hcert, hsound⟩
    · exact hmap _ (List.mem_map_of_mem hkc)
  · -- a write: the file has what the map has, in another order
    intro contacts text hmap htext
    obtain ⟨sorted, hperm, hread⟩ :=
      readContacts_contactsText (fun c hc => (hmap c hc).2) htext
    refine ⟨⟨_, hread, fun c hc => ?_⟩, hmap⟩
    obtain ⟨r, hr, rfl⟩ := List.mem_map.mp hc
    exact r.val.certified_canon (hmap r (hperm.mem_iff.mp hr)).1

variable [PyRepr F]

/-- From an empty store, as long as every contact that is put into a map is certified: in every
state all contacts of `contacts.json` and of the running node are.

The maps that are about to be written are certified as well (`keeps_certified`). -/
theorem contacts_certified {me : Identity F} {file : Option Text} {as : List (DirectoryAct F)}
    {c : Config (Directory F) (StoreEvent F)}
    (hempty : readContacts file = .ok ([] : List (Contact F)))
    (hok : Machine.Meets (Directory.step me)
      (Directory.Admits fun _ contact => contact.certified = true) ⟨Directory.quiet file, []⟩ as)
    (h : Machine.run (Directory.step me) ⟨Directory.quiet file, []⟩ as = some c) :
    (∃ l : List (Contact F), readContacts c.state.contactsFile = .ok l ∧
        ∀ x ∈ l, x.certified = true) ∧
      ∀ p, c.state.running = some p → ∀ x ∈ Dict.values p.node.contacts,
        x.val.certified = true := by
  have hholds := (keeps_certified me).run ⟨[], hempty, fun _ hx => nomatch hx⟩ hok h
  refine ⟨hholds.file, fun p hp x hx => ?_⟩
  have hmap : CertifiedMap p.node.contacts := by
    have hp' := hholds.running p hp
    unfold Process.Holds at hp'
    split at hp'
    · exact hp'
    · exact hp'
    · exact hp'.elim id id
  exact (hmap x hx).1

end

/-! ### Samples -/

namespace Sample

/-- The first contact with the key of the third. -/
def foreign : Contact Empty :=
  { (contact 1).val with publicKeyB64 := (contact 3).val.publicKeyB64 }

/-- An invite that names the first contact with the key of the third. -/
def foreignInvite : Loaded Empty := invite foreign (by decide +kernel)

/-- The contacts in the file. -/
def contactsOf (c : Config (Directory Empty) (StoreEvent Empty)) : Option (List (Contact Empty)) :=
  (readContacts c.state.contactsFile).toOption

/-- The first and the third contact are added. -/
def genuineAdds : List (DirectoryAct Empty) :=
  commandSteps 0 (invited 1) ++ [.start, .add (invited 3), .save true]

end Sample

/-- The key of a known peer is replaced by one that does not belong to it. -/
theorem foreign_key_replaces_pin :
    ∃ (genuine forged : Loaded Empty) (c d : Config (Directory Empty) (StoreEvent Empty))
      (pinned : Contact Empty),
    readContacts none = .ok ([] : List (Contact Empty)) ∧
    Machine.run (Directory.step (Sample.identity 2)) ⟨Directory.quiet none, []⟩
      (Sample.commandSteps 0 genuine) = some c ∧
    readContacts c.state.contactsFile = .ok [pinned] ∧ pinned.certified = true ∧
    Machine.run (Directory.step (Sample.identity 2)) c (Sample.commandSteps 1 forged) = some d ∧
    ∃ x, readContacts d.state.contactsFile = .ok [x] ∧ x.peerId = pinned.peerId ∧
      x.certified = false := by
  have hok : ((Machine.run (Directory.step (Sample.identity 2)) ⟨Directory.quiet none, []⟩
      (Sample.commandSteps 0 (Sample.invited 1))).bind fun c =>
        (Machine.run (Directory.step (Sample.identity 2)) c
          (Sample.commandSteps 1 Sample.foreignInvite)).map fun d =>
            (Sample.contactsOf c, Sample.contactsOf d)) =
      some (some [(Sample.contact 1).val], some [Sample.foreign]) := by decide +kernel
  obtain ⟨c, hc, hd⟩ := Option.bind_eq_some_iff.mp hok
  obtain ⟨d, hd, heq⟩ := Option.map_eq_some_iff.mp hd
  rw [Prod.mk.injEq] at heq
  exact ⟨Sample.invited 1, Sample.foreignInvite, c, d, (Sample.contact 1).val, rfl, hc,
    Sample.eq_ok_of_toOption heq.1, by decide +kernel, hd, Sample.foreign,
    Sample.eq_ok_of_toOption heq.2, rfl, by decide +kernel⟩

theorem contacts_certified_sample : ∃ c,
    Machine.run (Directory.step (Sample.identity 2)) ⟨Directory.quiet none, []⟩
      Sample.genuineAdds = some c ∧
    ∃ l : List (Contact Empty), readContacts c.state.contactsFile = .ok l ∧
      ∀ x ∈ l, x.certified = true := by
  obtain ⟨hok, hrun⟩ : Machine.Meets (Directory.step (Sample.identity 2))
        (Directory.Admits fun _ contact => contact.certified = true)
        ⟨Directory.quiet none, []⟩ Sample.genuineAdds ∧
      (Machine.run (Directory.step (Sample.identity 2)) ⟨Directory.quiet none, []⟩
        Sample.genuineAdds).isSome = true := by
    decide +kernel
  obtain ⟨c, hc⟩ := Option.isSome_iff_exists.mp hrun
  exact ⟨c, hc, (contacts_certified rfl hok hc).1⟩

end P4
