/-
  The contact store: the contact map, the sessions, the maintainer tasks and `contacts.json`.

  `Stored` relates the four of them.  It holds when a node has started (`stored_boot`), is kept
  by every update of a contact (`Stored.addContact`), and no other step touches what it is
  about (`Stored.step`).
-/
import P4.Node.Equiv.Acceptance
import P4.Node.Equiv.Contacts
import P4.Sample.Equiv.Laws
import P4.Session.Equiv.Basic
import Mathlib.Data.List.Find

namespace P4

namespace Node

variable {F : Type} [DecidableEq F] [Float64 F] [Crates F]

/-- The contact map, the sessions, the maintainers and the file of a node agree. -/
structure Stored (n : Node F) : Prop where
  tidy : Tidy n.contacts
  /-- the two maps have the same keys -/
  sameKeys : ∀ k, k ∈ Dict.keys n.contacts ↔ ∃ p ∈ Dict.keys n.sessions, k = .str p
  /-- `sessions[p].contact is contacts[p]` -/
  contactIs : ∀ p w, Dict.get? n.sessions p = some w →
    Dict.get? n.contacts (.str p) = some w.session.contact
  role : ∀ p w, Dict.get? n.sessions p = some w →
    (w.session.role = .initiator ↔ n.identity.peerId.lt p = true)
  /-- there is one maintainer for each initiator session and none for anything else -/
  maintained : n.maintainers.Nodup ∧ ∀ p, p ∈ n.maintainers ↔
    ∃ w, Dict.get? n.sessions p = some w ∧ w.session.role = .initiator
  /-- `load_contacts` gives the contact map -/
  file : ∃ d, loadContacts n.contactsFile = .ok d ∧ SameStore d n.contacts

/-! ### Start -/

omit [DecidableEq F] [Crates F] in
/-- A contact of the file can be written again. -/
theorem sound_readContacts {file : Option Text} {l : List (Contact F)}
    (h : readContacts file = .ok l) : ∀ c ∈ l, c.Sound := by
  obtain ⟨raw, hraw, h⟩ := except_bind_ok.mp h
  obtain ⟨items, hitems, h⟩ := except_bind_ok.mp h
  have hwf : raw.wellFormed = true := by
    unfold loadJsonFile at hraw
    split at hraw
    · cases hraw
      rfl
    · split at hraw
      · rename_i v hv
        cases hraw
        exact Json.loads_wellFormed hv
      · cases hraw
  intro c hc
  obtain ⟨v, hv, hvc⟩ := (except_mapM_mem h).2 c hc
  obtain ⟨m, -, rfl, -⟩ := Contact.fromDict_ok hvc
  -- only the elements of an array are dictionaries
  have hiter : raw.iter = some items := by
    unfold typed at hitems
    split at hitems
    · rename_i hi
      rw [hi, Except.ok.inj hitems]
    · cases hitems
  cases raw with
  | arr l =>
    cases hiter
    exact Contact.sound_fromDict (Json.wellFormed_arr.mp hwf _ hv) hvc
  | obj m =>
    cases hiter
    obtain ⟨k, -, hk⟩ := List.mem_map.mp hv
    cases hk
  | str s =>
    cases hiter
    obtain ⟨k, -, hk⟩ := List.mem_map.mp hv
    cases hk
  | null => cases hiter
  | bool b => cases hiter
  | int i => cases hiter
  | float f => cases hiter

/-- The peer id of a contact whose peer id is a string. -/
def strOf (c : Ref (Contact F)) : Str :=
  match c.val.peerId with
  | .str p => p
  | _ => []

theorem roleFor_eq_initiator {me p : Str} : roleFor me p = .initiator ↔ me.lt p = true := by
  rw [roleFor]
  split_ifs with hlt
  · exact iff_of_true rfl hlt
  · refine iff_of_false ?_ hlt
    intro hrole
    cases hrole

/-- What `P4Node.run` has made of the file when it reaches the main loop. -/
theorem boot_ok {identity : Identity F} {file : Option Text} {n : Node F}
    (h : boot identity file = .ok n) :
    ∃ contacts : List (Ref (Contact F)),
      readContacts file = .ok (contacts.map Ref.val) ∧
      (∀ c ∈ contacts, c.val.peerId = .str (strOf c)) ∧
      n.identity = identity ∧ n.contactsFile = file ∧
      n.contacts = Dict.ofPairs (contacts.map fun c => (keyOf c, c)) ∧
      n.sessions = Dict.ofPairs (contacts.map fun c =>
        (strOf c, SessionWorld.new c (roleFor identity.peerId (strOf c)))) ∧
      n.maintainers = startMaintainers n.sessions := by
  obtain ⟨loaded, hloaded, h⟩ := except_bind_ok.mp h
  obtain ⟨byId, hbyId, h⟩ := except_bind_ok.mp h
  obtain ⟨sessions, hsessions, h⟩ := except_bind_ok.mp h
  obtain ⟨contacts, hcontacts⟩ : ∃ contacts, contacts =
      loaded.zipIdx.map (fun ci => ({ oid := ci.2, val := ci.1 } : Ref (Contact F))) := ⟨_, rfl⟩
  have hval : contacts.map Ref.val = loaded := by
    rw [hcontacts, List.map_map]
    exact List.zipIdx_map_fst 0 loaded
  rw [← hcontacts] at hbyId hsessions
  obtain ⟨pairs, hpairs, hbyId⟩ := except_bind_ok.mp hbyId
  obtain ⟨spairs, hspairs, hsessions⟩ := except_bind_ok.mp hsessions
  -- `own < peer_id` raises unless the peer id is a string
  have hstr : ∀ c ∈ contacts, c.val.peerId = .str (strOf c) := by
    intro c hc
    obtain ⟨b, hb⟩ := (except_mapM_mem hspairs).1 c hc
    obtain ⟨⟨p, role⟩, hr, -⟩ := except_bind_ok.mp hb
    unfold roleOf at hr
    split at hr
    · rename_i q hq
      rw [strOf, hq]
    · cases hr
  have hpairs' : contacts.mapM (fun c => do
      let key ← typed c.val.peerId.key?
      pure (key, c)) = .ok (contacts.map fun c => (keyOf c, c)) := by
    refine except_mapM_eq fun c hc => ?_
    rw [keyOf, hstr c hc]
    rfl
  have h₁ := hpairs.symm.trans hpairs'
  have h₂ : (.ok spairs : Except Exc _) = .ok (contacts.map fun c =>
      (strOf c, SessionWorld.new c (roleFor identity.peerId (strOf c)))) := by
    refine hspairs.symm.trans (except_mapM_eq fun c hc => ?_)
    rw [hstr c hc]
    rfl
  cases h₁
  cases h₂
  cases hbyId
  cases hsessions
  cases h
  exact ⟨contacts, by rw [hval]; exact hloaded, hstr, rfl, rfl, rfl, rfl, rfl⟩

/-- The contact of the file that a peer id stands for: the last one with it. -/
def lastWith (contacts : List (Ref (Contact F))) (p : Str) : Option (Ref (Contact F)) :=
  contacts.reverse.find? fun c => strOf c = p

omit [Crates F] in
theorem find?_keyOf {contacts : List (Ref (Contact F))}
    (hstr : ∀ c ∈ contacts, c.val.peerId = .str (strOf c)) (p : Str) :
    (contacts.reverse.find? fun c => keyOf c = .str p) = lastWith contacts p := by
  refine List.find?_congr fun c hc => ?_
  have hkey : keyOf c = .str (strOf c) := by
    rw [keyOf, hstr c (List.mem_reverse.mp hc)]
    rfl
  rw [hkey, decide_eq_decide, Key.str.injEq]

omit [DecidableEq F] [Float64 F] [Crates F] in
theorem lastWith_some {contacts : List (Ref (Contact F))} {p : Str} {c : Ref (Contact F)}
    (h : lastWith contacts p = some c) : strOf c = p := by
  have := List.find?_some h
  exact of_decide_eq_true this

omit [Float64 F] [Crates F] [DecidableEq F] in
/-- One maintainer for each session in which the node is the initiator. -/
theorem startMaintainers_spec {sessions : Dict Str (SessionWorld F)}
    (hnodup : (Dict.keys sessions).Nodup) :
    (startMaintainers sessions).Nodup ∧ ∀ p, p ∈ startMaintainers sessions ↔
      ∃ w, Dict.get? sessions p = some w ∧ w.session.role = .initiator := by
  have hsub : (sessions.filter fun ps => ps.2.session.role = .initiator).Sublist sessions :=
    List.filter_sublist
  refine ⟨(hsub.map Prod.fst).nodup hnodup, fun p => ?_⟩
  rw [startMaintainers, Dict.keys, List.mem_map]
  constructor
  · rintro ⟨⟨q, w⟩, hmem, rfl⟩
    obtain ⟨hin, hrole⟩ := List.mem_filter.mp hmem
    exact ⟨w, (Dict.get?_eq_some_iff hnodup).mpr hin, of_decide_eq_true hrole⟩
  · rintro ⟨w, hw, hrole⟩
    exact ⟨(p, w), List.mem_filter.mpr ⟨Dict.get?_mem hw, decide_eq_true hrole⟩, rfl⟩

omit [Crates F] in
/-- `load_contacts` keeps the last contact with a peer id. -/
theorem loadContacts_of_read {file : Option Text} {l : List (Ref (Contact F))}
    (hread : readContacts file = .ok (l.map Ref.val))
    (hstr : ∀ c ∈ l, c.val.peerId = .str (strOf c)) :
    ∃ d, loadContacts file = .ok d ∧
      ∀ k, Dict.get? d k = (l.reverse.find? fun c => keyOf c = k).map Ref.val := by
  have hkeys : byPeerId Contact.peerId (l.map Ref.val) =
      .ok (Dict.ofPairs (l.map fun c => (keyOf c, c.val))) := by
    refine except_bind_ok.mpr ⟨_, except_mapM_ok.mpr ?_, rfl⟩
    rw [List.forall₂_map_left_iff, List.forall₂_map_right_iff, List.forall₂_same]
    intro c hc
    rw [keyOf, hstr c hc]
    rfl
  refine ⟨_, except_bind_ok.mpr ⟨_, hread, hkeys⟩, fun k => ?_⟩
  rw [Dict.get?_ofPairs, ← List.map_reverse]
  exact Dict.get?_map_key keyOf Ref.val _ k

/-- The store is in order when the main loop starts. -/
theorem stored_boot {identity : Identity F} {file : Option Text} {n : Node F}
    (h : boot identity file = .ok n) : Stored n := by
  obtain ⟨l, hread, hstr, hid, hfile, hcontacts, hsessions, hmaintainers⟩ := boot_ok h
  -- of two entries with one peer id the later one counts, in the map and in the sessions
  have hgetc : ∀ k, Dict.get? n.contacts k = l.reverse.find? fun c => keyOf c = k := by
    intro k
    rw [hcontacts, Dict.get?_ofPairs, ← List.map_reverse]
    rw [Dict.get?_map_key keyOf (fun c => c), Option.map_id']
  have hgets : ∀ p, Dict.get? n.sessions p =
      (lastWith l p).map fun c => SessionWorld.new c (roleFor identity.peerId (strOf c)) := by
    intro p
    rw [hsessions, Dict.get?_ofPairs, ← List.map_reverse]
    exact Dict.get?_map_key strOf _ _ _
  have hspec : (Dict.keys n.contacts).Nodup ∧ ∀ kc ∈ n.contacts, ∃ p, kc.1 = .str p ∧
      kc.2.val.peerId = .str p ∧ kc.2.val.Sound := by
    rw [hcontacts]
    refine Dict.ofPairs_spec fun kc hkc => ?_
    obtain ⟨c, hc, rfl⟩ := List.mem_map.mp hkc
    refine ⟨strOf c, ?_, hstr c hc, ?_⟩
    · show keyOf c = _
      rw [keyOf, hstr c hc]
      rfl
    · exact sound_readContacts hread c.val (List.mem_map_of_mem hc)
  have hnodup : (Dict.keys n.sessions).Nodup := by
    rw [hsessions]
    exact (Dict.ofPairs_spec (P := fun _ => True) fun _ _ => trivial).1
  refine ⟨⟨hspec.1, hspec.2⟩, ?_, ?_, ?_, ?_, ?_⟩
  · intro k
    constructor
    · intro hk
      obtain ⟨c, hc⟩ := Dict.mem_keys_iff.mp hk
      obtain ⟨p, hp, -⟩ := hspec.2 _ (Dict.get?_mem hc)
      have hp' : k = .str p := hp
      subst hp'
      rw [hgetc, find?_keyOf hstr] at hc
      exact ⟨p, Dict.mem_keys_iff.mpr ⟨_, by rw [hgets, hc]; rfl⟩, rfl⟩
    · rintro ⟨p, hp, rfl⟩
      obtain ⟨w, hw⟩ := Dict.mem_keys_iff.mp hp
      rw [hgets] at hw
      obtain ⟨c, hc, -⟩ := Option.map_eq_some_iff.mp hw
      exact Dict.mem_keys_iff.mpr ⟨c, by rw [hgetc, find?_keyOf hstr, hc]⟩
  · intro p w hw
    rw [hgets] at hw
    obtain ⟨c, hc, rfl⟩ := Option.map_eq_some_iff.mp hw
    rw [hgetc, find?_keyOf hstr, hc]
    rfl
  · intro p w hw
    rw [hgets] at hw
    obtain ⟨c, hc, rfl⟩ := Option.map_eq_some_iff.mp hw
    rw [hid, lastWith_some hc]
    exact roleFor_eq_initiator
  · rw [hmaintainers]
    exact startMaintainers_spec hnodup
  · -- the file is the one that was read, so it still says the same
    obtain ⟨d, hd, hget⟩ := loadContacts_of_read hread hstr
    refine ⟨d, by rw [hfile]; exact hd, fun k => ?_⟩
    rw [hget, hgetc]
    cases l.reverse.find? fun c => keyOf c = k with
    | none => exact Option.Rel.none
    | some c => exact Option.Rel.some ⟨rfl, rfl, rfl, rfl, rfl, rfl⟩

/-! ### Adding a contact -/

/-- The end of `_add_contact_from_invite_payload` puts the sessions and the maintainers in
order again, after the contact map and the file. -/
theorem Stored.addSession {n : Node F} (h : Stored n) {p : Str} {c : Ref (Contact F)}
    (hp : c.val.peerId = .str p) (hs : c.val.Sound) {text : Text} {oid : Nat}
    (hfile : ∃ d, loadContacts (some text) = .ok d ∧
      SameStore d (Dict.set n.contacts (.str p) c)) :
    Stored ({ n with contacts := Dict.set n.contacts (.str p) c
                     nextOid := oid
                     contactsFile := some text }.addSession c p
      (roleFor n.identity.peerId p)) := by
  have hrole : roleFor n.identity.peerId p = .initiator ↔ n.identity.peerId.lt p = true :=
    roleFor_eq_initiator
  -- in both cases the session of `p` has the new contact and role, and the others are as before
  have hmain : ∀ (w : SessionWorld F) (maintainers : List Str),
      w.session.contact = c → w.session.role = roleFor n.identity.peerId p →
      (maintainers.Nodup ∧ ∀ q, q ∈ maintainers ↔
        ∃ w', Dict.get? (Dict.set n.sessions p w) q = some w' ∧ w'.session.role = .initiator) →
      Stored { n with contacts := Dict.set n.contacts (.str p) c
                      nextOid := oid
                      contactsFile := some text
                      sessions := Dict.set n.sessions p w
                      maintainers := maintainers } := by
    intro w maintainers hcontact hwrole hmaintained
    refine ⟨h.tidy.set hp hs, ?_, ?_, ?_, hmaintained, hfile⟩
    · intro k
      rw [Dict.mem_keys_iff]
      constructor
      · rintro ⟨v, hv⟩
        rw [Dict.get?_set] at hv
        split_ifs at hv with hk
        · exact ⟨p, Dict.mem_keys_iff.mpr ⟨w, by rw [Dict.get?_set, if_pos rfl]⟩, hk⟩
        · obtain ⟨q, hq, rfl⟩ := (h.sameKeys k).mp (Dict.mem_keys_iff.mpr ⟨v, hv⟩)
          obtain ⟨w', hw'⟩ := Dict.mem_keys_iff.mp hq
          have hne : q ≠ p := fun heq => hk (congrArg _ heq)
          exact ⟨q, Dict.mem_keys_iff.mpr ⟨w', by rw [Dict.get?_set, if_neg hne, hw']⟩, rfl⟩
      · rintro ⟨q, hq, rfl⟩
        by_cases hqp : q = p
        · exact ⟨c, by rw [Dict.get?_set, if_pos (congrArg _ hqp)]⟩
        · obtain ⟨w', hw'⟩ := Dict.mem_keys_iff.mp hq
          rw [Dict.get?_set, if_neg hqp] at hw'
          have hne : (Key.str q : Key F) ≠ .str p := fun heq => hqp (Key.str.inj heq)
          obtain ⟨v, hv⟩ := Dict.mem_keys_iff.mp
            ((h.sameKeys (.str q)).mpr ⟨q, Dict.mem_keys_iff.mpr ⟨w', hw'⟩, rfl⟩)
          exact ⟨v, by rw [Dict.get?_set, if_neg hne, hv]⟩
    · intro q w' hw'
      rw [Dict.get?_set] at hw'
      split_ifs at hw' with hq
      · cases hw'
        rw [Dict.get?_set, if_pos (congrArg _ hq), hcontact]
      · have hne : (Key.str q : Key F) ≠ .str p := fun heq => hq (Key.str.inj heq)
        rw [Dict.get?_set, if_neg hne]
        exact h.contactIs q w' hw'
    · intro q w' hw'
      rw [Dict.get?_set] at hw'
      split_ifs at hw' with hq
      · cases hw'
        rw [hwrole, hq]
        exact hrole
      · exact h.role q w' hw'
  unfold Node.addSession
  dsimp only
  split
  · rename_i hnone
    refine hmain (SessionWorld.new c _) _ rfl rfl ?_
    have hnew : p ∉ n.maintainers := by
      intro hp
      obtain ⟨w, hw, -⟩ := (h.maintained.2 p).mp hp
      rw [hnone] at hw
      cases hw
    have hmem : ∀ q, (∃ w', Dict.get? (Dict.set n.sessions p (SessionWorld.new c
        (roleFor n.identity.peerId p))) q = some w' ∧ w'.session.role = .initiator) ↔
        (q = p ∧ roleFor n.identity.peerId p = .initiator) ∨ q ∈ n.maintainers := by
      intro q
      rw [Dict.get?_set, h.maintained.2 q]
      split_ifs with hq
      · subst hq
        rw [hnone]
        simp [SessionWorld.new]
      · simp [hq]
    split_ifs with hinit
    · refine ⟨?_, fun q => ?_⟩
      · rw [List.nodup_append]
        refine ⟨h.maintained.1, List.nodup_singleton p, fun a ha b hb => ?_⟩
        rw [List.mem_singleton.mp hb]
        exact fun heq => hnew (heq ▸ ha)
      · rw [hmem, List.mem_append, List.mem_singleton]
        constructor
        · rintro (hq | rfl)
          · exact Or.inr hq
          · exact Or.inl ⟨rfl, hinit⟩
        · rintro (⟨rfl, -⟩ | hq)
          · exact Or.inr rfl
          · exact Or.inl hq
    · refine ⟨h.maintained.1, fun q => ?_⟩
      rw [hmem]
      constructor
      · exact Or.inr
      · rintro (⟨-, hi⟩ | hq)
        · exact absurd hi hinit
        · exact hq
  · rename_i w hw
    -- the role of a known peer does not change, since the peer ids do not
    have hsame : w.session.role = roleFor n.identity.peerId p := by
      have hw' := h.role p w hw
      rw [← hrole] at hw'
      cases hr : w.session.role <;> cases hr' : roleFor n.identity.peerId p
      · rfl
      · rw [hr, hr'] at hw'
        cases hw'.mp rfl
      · rw [hr, hr'] at hw'
        cases hw'.mpr rfl
      · rfl
    refine hmain _ _ rfl rfl ⟨h.maintained.1, fun q => ?_⟩
    rw [h.maintained.2 q, Dict.get?_set]
    split_ifs with hq
    · subst hq
      rw [hw]
      simp [hsame]
    · rfl

/-- An update with a string for its peer id whose file is written keeps the store in order. -/
theorem Stored.addContact {n : Node F} (h : Stored n) (invite : Loaded F)
    (hstr : ∀ c, Contact.fromDict invite.val = .ok c → ∃ p, c.peerId = .str p) :
    Stored (n.addContact invite.val true).2 := by
  unfold Node.addContact
  dsimp only
  split
  · exact h
  · rename_i c hc
    obtain ⟨p, hp⟩ := hstr c hc
    have hsound := Contact.sound_fromDict invite.property hc
    obtain ⟨text, d, htext, hload, hsame⟩ := loadContacts_contactsText
      (h.tidy.set (c := { oid := n.nextOid, val := c }) hp hsound)
    have hkey : c.peerId.key? = some (.str p) := by
      rw [hp]
      rfl
    have hrole : roleOf n.identity.peerId c.peerId = .ok (p, roleFor n.identity.peerId p) := by
      rw [hp]
      rfl
    split
    · exact h
    · simp only [hkey, htext, hrole, Bool.not_true, Bool.false_eq_true, if_false]
      exact h.addSession hp hsound ⟨d, hload, hsame⟩

/-! ### Other steps -/

/-- A step of a session leaves the store alone. -/
theorem Stored.stepSession {n n' : Node F} {p : Str} {act : SessionAct F} {out : List (Event F)}
    (h : Stored n) (hs : n.stepSession p act = some (n', out))
    (hact : ∀ contact role, act ≠ .setContact contact role) : Stored n' := by
  obtain ⟨w, w', o, hw, hstep, rfl, -⟩ := stepSession_eq_some.mp hs
  have howner := SessionWorld.owner_step hact hstep
  have hcontact : w'.session.contact = w.session.contact := congrArg Prod.fst howner
  have hrole : w'.session.role = w.session.role := congrArg Prod.snd howner
  have hmem : p ∈ Dict.keys n.sessions := Dict.mem_keys_iff.mpr ⟨w, hw⟩
  -- what is known of the new sessions is known of the old ones
  have hold : ∀ q v, Dict.get? (Dict.set n.sessions p w') q = some v →
      ∃ v', Dict.get? n.sessions q = some v' ∧ v.session.contact = v'.session.contact ∧
        v.session.role = v'.session.role := by
    intro q v hv
    rw [Dict.get?_set] at hv
    split_ifs at hv with hq
    · cases hv
      exact ⟨w, by rw [hq, hw], hcontact, hrole⟩
    · exact ⟨v, hv, rfl, rfl⟩
  refine ⟨h.tidy, ?_, ?_, ?_, ⟨h.maintained.1, ?_⟩, h.file⟩
  · intro k
    rw [h.sameKeys k]
    show _ ↔ ∃ q ∈ Dict.keys (Dict.set n.sessions p w'), k = .str q
    rw [Dict.keys_set_of_mem hmem]
  · intro q v hv
    obtain ⟨v', hv', hc, -⟩ := hold q v hv
    rw [hc]
    exact h.contactIs q v' hv'
  · intro q v hv
    obtain ⟨v', hv', -, hr⟩ := hold q v hv
    rw [hr]
    exact h.role q v' hv'
  · intro q
    show q ∈ n.maintainers ↔ ∃ v, Dict.get? (Dict.set n.sessions p w') q = some v ∧ _
    rw [h.maintained.2 q, Dict.get?_set]
    split_ifs with hq
    · subst hq
      rw [hw]
      simp [hrole]
    · rfl

/-- The replay window is not part of the store. -/
theorem Stored.noted {n : Node F} (h : Stored n) (sender nonce : Str) :
    Stored (n.noted sender nonce) :=
  ⟨h.tidy, h.sameKeys, h.contactIs, h.role, h.maintained, h.file⟩

/-- An update has a string for its peer id, and its file is written. -/
def Orderly : Act F → Prop
  | .addContact invite writeOk => writeOk = true ∧
    ∀ c, Contact.fromDict invite.val = .ok c → ∃ p, c.peerId = .str p
  | _ => True

variable [PyRepr F]

/-- Every step keeps the store in order. -/
theorem Stored.step {n n' : Node F} {a : Act F} {out : List (Event F)} (h : Stored n)
    (ha : Orderly a) (hstep : Node.step n a = some (n', out)) : Stored n' := by
  cases step_outcome hstep with
  | unread => exact h
  | rejected => exact h
  | accepted stream now replyMs random msg rest sender recipient nonce contact n' out hread hacc
      hd =>
    have hn := h.noted sender nonce
    rcases dispatch_cases hd with ⟨rfl, -⟩ | ⟨payload, -, -, hs⟩ | ⟨payload, -, -, rfl, -⟩
    · exact hn
    · exact hn.stepSession hs fun _ _ he => nomatch he
    · exact hn
  | answered p t desc now random w msg n' out ht hs =>
    exact h.stepSession hs fun _ _ he => nomatch he
  | dialed p w n' out hw hm hs => exact h.stepSession hs fun _ _ he => nomatch he
  | requested p t desc now random online w envelope n' out act sent ht henv hact hs =>
    refine h.stepSession hs ?_
    rcases hact with ⟨rfl, -⟩ | ⟨rfl, -⟩ <;> exact fun _ _ he => nomatch he
  | replied p t stream now w reply rest sender recipient nonce contact n' out act ht hread hacc
      hact hs =>
    refine (h.noted sender nonce).stepSession hs ?_
    rcases hact with ⟨rfl, -⟩ | rfl <;> exact fun _ _ he => nomatch he
  | session a p act n' out rest hin hact hrest hs =>
    -- no coroutine and no callback replaces the session's contact
    refine h.stepSession hs ?_
    rintro contact role rfl
    rcases hact with hi | hi | ⟨t, hi⟩
    · cases hi
    · cases hi
    · cases hi
  | addContact invite writeOk =>
    obtain ⟨rfl, hstr⟩ := ha
    exact h.addContact invite hstr

/-- In every state that a started node reaches, whatever else it does, the contact map, the
sessions, the maintainers and the file agree, as long as updates have strings for their peer
ids and their files are written.

`Stored` holds of a node that has started, and every step keeps it (`Stored.step`). -/
theorem stored_run {identity : Identity F} {file : Option Text} {n : Node F} {as : List (Act F)}
    {c : Config (Node F) (Event F)} (hboot : boot identity file = .ok n)
    (hok : ∀ a ∈ as, Orderly a) (h : Machine.run Node.step ⟨n, []⟩ as = some c) :
    Stored c.state := by
  refine Machine.run_invariant_of_meets (P := fun c => Stored c.state) ?_ (stored_boot hboot)
    (Machine.meets_of_forall hok _) h
  intro d a d' hd ha hnext
  obtain ⟨out, hstep, -⟩ := Machine.next_eq_some.mp hnext
  exact hd.step ha hstep

/-- A file with two entries for one peer. -/
def sampleFile : Text := Json.dumpsIndented (F := Empty) (.arr
  [(Sample.contact 3).val.toDict, (Sample.contact 1).val.toDict,
    { (Sample.contact 3).val with name := .str Kind.ping }.toDict])

/-- A new contact, and an update of a known one. -/
def sampleUpdates : List (Act Empty) :=
  [.addContact (Sample.invited 4) true, .addContact (Sample.invited 1) true]

theorem stored_run_sample : ∃ n c, boot (Sample.identity 2) (some sampleFile) = .ok n ∧
    Machine.run Node.step ⟨n, []⟩ sampleUpdates = some c ∧ Stored c.state := by
  obtain ⟨n, hn⟩ := Sample.exists_ok (x := boot (Sample.identity 2) (some sampleFile))
    (by decide +kernel)
  obtain ⟨c, hc⟩ : ∃ c, Machine.run Node.step ⟨n, []⟩ sampleUpdates = some c := ⟨_, rfl⟩
  refine ⟨n, c, hn, hc, stored_run hn ?_ hc⟩
  rw [sampleUpdates]
  simp only [List.forall_mem_cons]
  refine ⟨⟨rfl, fun c hc => ?_⟩, ⟨rfl, fun c hc => ?_⟩, fun _ ha => nomatch ha⟩
  · cases hc
    exact ⟨_, rfl⟩
  · cases hc
    exact ⟨_, rfl⟩

end Node

end P4
