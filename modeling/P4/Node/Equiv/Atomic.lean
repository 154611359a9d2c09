/-
  What an add that raises leaves behind.

  `_add_contact_from_invite_payload` puts the contact into the map first, then sorts and writes
  the file, then compares the peer ids, then changes the sessions and prints a line, and nothing
  is taken back when one of these raises: a disk error leaves the contact in the map, a peer id
  that is no string leaves it in the file as well, and one that cannot be printed leaves
  everything.  `addContact_atomic_iff` says when nothing is left behind.
-/
import P4.Node.Equiv.Contacts
import P4.Sample.Equiv.Laws

namespace P4

namespace Node

variable {F : Type} [DecidableEq F] [Float64 F] [Crates F]

/-- The contact map, by value. -/
def contactValues (n : Node F) : Dict (Key F) (Contact F) :=
  n.contacts.map fun kc => (kc.1, kc.2.val)

/-- A session, with its contact by value. -/
def sessionValue (w : SessionWorld F) : SessionWorld F :=
  { w with session := { w.session with contact := ⟨0, w.session.contact.val⟩ } }

/-- The sessions, by value. -/
def sessionValues (n : Node F) : Dict Str (SessionWorld F) :=
  n.sessions.map fun pw => (pw.1, sessionValue pw.2)

/-- The contacts, the sessions, the maintainers and the file are what they were. -/
structure Unchanged (n n' : Node F) : Prop where
  contacts : n'.contactValues = n.contactValues
  sessions : n'.sessionValues = n.sessionValues
  maintainers : n'.maintainers = n.maintainers
  contactsFile : n'.contactsFile = n.contactsFile

/-- There is a session of this peer, with this contact and this role. -/
def HasSession (n : Node F) (p : Str) (c : Contact F) (role : Role) : Prop :=
  ∃ w, Dict.get? n.sessions p = some w ∧ w.session.contact.val = c ∧ w.session.role = role

/-- An invite that gets as far as the map can be added completely and the line that says so can be
printed; or the contact is there already, and then the file is not written, or it has the same
text and the session is there already, if the call gets to the sessions. -/
def AddsWhole (n : Node F) (invite : Json F) (writeOk : Bool) (stdout : Str → Bool) : Prop :=
  ∀ c, Contact.fromDict invite = .ok c → c.peerId.eqStr n.identity.peerId = false →
    ∀ key, c.peerId.key? = some key →
      (writeOk = true ∧ (∃ p, c.peerId = .str p ∧ stdout (n.addedLine key p) = true) ∧
        ∃ text, contactsText (Dict.set n.contacts key ⟨n.nextOid, c⟩) = .ok text) ∨
      (Dict.get? n.contactValues key = some c ∧
        ∀ text, contactsText (Dict.set n.contacts key ⟨n.nextOid, c⟩) = .ok text →
          writeOk = true → n.contactsFile = some text ∧
            ∀ p role, roleOf n.identity.peerId c.peerId = .ok (p, role) → n.HasSession p c role)

/-- What is said of every exception, where one is raised. -/
theorem Except.forall_error_iff {ε α : Type} {e : ε} {P : Prop} :
    (∀ e', (Except.error e : Except ε α) = .error e' → P) ↔ P :=
  ⟨fun h => h e rfl, fun h _ _ => h⟩

omit [DecidableEq F] [Float64 F] in
theorem Unchanged.refl (n : Node F) : n.Unchanged n := ⟨rfl, rfl, rfl, rfl⟩

omit [Float64 F] in
/-- A node whose map and file alone may have changed. -/
theorem unchanged_set_iff (n : Node F) (key : Key F) (c : Ref (Contact F)) (oid : Nat)
    (file : Option Text) :
    n.Unchanged { n with contacts := Dict.set n.contacts key c
                         nextOid := oid
                         contactsFile := file } ↔
      Dict.get? n.contactValues key = some c.val ∧ file = n.contactsFile := by
  have hvalues : (Dict.set n.contacts key c).map (fun kc => (kc.1, kc.2.val)) =
      Dict.set n.contactValues key c.val := Dict.map_set Ref.val n.contacts key c
  constructor
  · intro h
    refine ⟨Dict.set_eq_self_iff.mp ?_, h.contactsFile⟩
    rw [← hvalues]
    exact h.contacts
  · rintro ⟨hget, hfile⟩
    refine ⟨?_, rfl, rfl, hfile⟩
    show (Dict.set n.contacts key c).map _ = _
    rw [hvalues]
    exact Dict.set_eq_self_iff.mpr hget

omit [DecidableEq F] [Float64 F] [Crates F] in
/-- What the end of the call changes, by value. -/
theorem sessionValue_eq_iff {w : SessionWorld F} {contact : Ref (Contact F)} {role : Role} :
    sessionValue w =
        sessionValue { w with session := { w.session with contact := contact, role := role } } ↔
      w.session.contact.val = contact.val ∧ w.session.role = role := by
  constructor
  · intro h
    exact ⟨congrArg (fun v : SessionWorld F => v.session.contact.val) h,
      congrArg (fun v : SessionWorld F => v.session.role) h⟩
  · rintro ⟨hcontact, hrole⟩
    simp only [sessionValue, ← hcontact, ← hrole]

omit [DecidableEq F] [Float64 F] in
/-- The sessions are what they were when the session of the contact was there already. -/
theorem unchanged_addSession_iff (n m : Node F) (c : Ref (Contact F)) (p : Str) (role : Role)
    (hm : m.sessions = n.sessions) (hmaintainers : m.maintainers = n.maintainers) :
    n.Unchanged (m.addSession c p role) ↔ n.Unchanged m ∧ n.HasSession p c.val role := by
  have hset : ∀ v, (Dict.set m.sessions p v).map (fun pw => (pw.1, sessionValue pw.2)) =
      n.sessionValues ↔ (Dict.get? n.sessions p).map sessionValue = some (sessionValue v) := by
    intro v
    rw [hm, Dict.map_set, sessionValues, Dict.set_eq_self_iff, Dict.get?_map]
  unfold addSession
  cases hw : Dict.get? m.sessions p with
  | none =>
    -- a session would be new
    rw [hm] at hw
    refine iff_of_false (fun h => ?_) ?_
    · have hnew := (hset _).mp h.sessions
      rw [hw] at hnew
      cases hnew
    · rintro ⟨-, w, hget, -⟩
      rw [hw] at hget
      cases hget
  | some w =>
    rw [hm] at hw
    have hsame : ((Dict.get? n.sessions p).map sessionValue = some (sessionValue
        { w with session := { w.session with contact := c, role := role } })) ↔
          n.HasSession p c.val role := by
      rw [hw, Option.map_some, Option.some.injEq, sessionValue_eq_iff]
      constructor
      · intro h
        exact ⟨w, hw, h⟩
      · rintro ⟨v, hv, h⟩
        rw [hw, Option.some.injEq] at hv
        exact hv ▸ h
    rw [← hsame, ← hset]
    constructor
    · intro h
      refine ⟨⟨h.contacts, ?_, hmaintainers, h.contactsFile⟩, h.sessions⟩
      rw [sessionValues, hm, sessionValues]
    · rintro ⟨h, hsessions⟩
      exact ⟨h.contacts, hsessions, hmaintainers, h.contactsFile⟩

omit [DecidableEq F] [Float64 F] [Crates F] in
/-- `roleOf` compares strings only. -/
theorem roleOf_of_not_isStr {own : Str} {v : Json F} (h : v.isStr = false) :
    roleOf own v = .error .typeError := by
  cases v with
  | str s => cases h
  | null | bool b | int i | float f | arr l | obj m => rfl

/-- A call that raises leaves everything as it was exactly when the invite is refused before the
map is touched, or can be added completely, or is there already.  The cases follow the call: what
has been changed when it raises is known at each of them, and `unchanged_set_iff` and
`unchanged_addSession_iff` say when that is no change. -/
theorem addContact_atomic_iff (n : Node F) (invite : Json F) (writeOk : Bool)
    (stdout : Str → Bool) :
    (∀ e, (n.addContact invite writeOk stdout).1 = .error e →
      n.Unchanged (n.addContact invite writeOk stdout).2) ↔
        n.AddsWhole invite writeOk stdout := by
  unfold addContact AddsWhole
  cases hc : Contact.fromDict invite with
  | error e =>
    exact iff_of_true (fun e he => Unchanged.refl n) fun c hc => by cases hc
  | ok c =>
    dsimp only
    by_cases hown : c.peerId.eqStr n.identity.peerId = true
    · rw [if_pos hown]
      refine iff_of_true (fun e he => Unchanged.refl n) fun c' hc' hown' => ?_
      cases hc'
      rw [hown] at hown'
      cases hown'
    rw [if_neg hown]
    rw [Bool.not_eq_true] at hown
    -- the condition is about this contact and its key
    cases hkey : c.peerId.key? with
    | none =>
      refine iff_of_true (fun e he => Unchanged.refl n) fun c' hc' _ key hkey' => ?_
      cases hc'
      rw [hkey] at hkey'
      cases hkey'
    | some key =>
      have hcond : ∀ P : Contact F → Key F → Prop,
          (∀ c', (Except.ok c : Except Exc (Contact F)) = .ok c' →
            c'.peerId.eqStr n.identity.peerId = false → ∀ key', c'.peerId.key? = some key' →
              P c' key') ↔ P c key := by
        intro P
        constructor
        · intro h
          exact h c rfl hown key hkey
        · intro h c' hc' _ key' hkey'
          cases hc'
          rw [hkey] at hkey'
          cases hkey'
          exact h
      rw [hcond]
      dsimp only
      cases htext : contactsText (Dict.set n.contacts key ⟨n.nextOid, c⟩) with
      | error e =>
        -- the contact stays in the map, nothing is written
        rw [Except.forall_error_iff, unchanged_set_iff]
        simp
      | ok text =>
        dsimp only
        cases writeOk with
        | false =>
          rw [if_pos Bool.not_false, Except.forall_error_iff, unchanged_set_iff]
          simp
        | true =>
          rw [if_neg (by decide)]
          cases hpid : c.peerId.isStr with
          | true =>
            obtain ⟨p, hp⟩ := isStr_iff.mp hpid
            obtain ⟨role, hrole⟩ : ∃ role, roleOf n.identity.peerId c.peerId = .ok (p, role) := by
              rw [hp]
              exact ⟨_, rfl⟩
            rw [hrole]
            dsimp only
            cases hprint : stdout (n.addedLine key p) with
            | true =>
              -- the call does not raise
              rw [printLine, if_pos hprint]
              refine iff_of_true (fun e he => ?_) (Or.inl ⟨rfl, ⟨p, hp, hprint⟩, text, rfl⟩)
              cases he
            | false =>
              have hraised := unchanged_addSession_iff n
                { n with contacts := Dict.set n.contacts key ⟨n.nextOid, c⟩
                         nextOid := n.nextOid + 1
                         contactsFile := some text } ⟨n.nextOid, c⟩ p role rfl rfl
              rw [printLine, hprint, if_neg Bool.false_ne_true, Except.forall_error_iff, hraised,
                unchanged_set_iff]
              simp [hp, hprint, eq_comm (a := some text), and_assoc]
          | false =>
            rw [roleOf_of_not_isStr hpid]
            dsimp only
            rw [Except.forall_error_iff, unchanged_set_iff]
            have hne : ∀ p, c.peerId ≠ .str p := by
              intro p hp
              rw [hp] at hpid
              cases hpid
            simp [hne, eq_comm (a := some text)]

/-- An invite that is added while the disk is full raises, and leaves the contact in the map. -/
theorem addContact_disk_error_leaves_contact : ∃ (n : Node Empty) (invite : Json Empty) (e : Exc),
    (n.addContact invite false).1 = .error e ∧ ¬ n.Unchanged (n.addContact invite false).2 := by
  have hraised : ((Sample.node 2 []).addContact (Sample.invited 1).val false).1.isOk = false ∧
      ((Sample.node 2 []).addContact (Sample.invited 1).val false).2.contacts.length = 1 := by
    decide +kernel
  cases hend : ((Sample.node 2 []).addContact (Sample.invited 1).val false).1 with
  | ok u =>
    rw [hend] at hraised
    cases hraised.1
  | error e =>
    refine ⟨Sample.node 2 [], (Sample.invited 1).val, e, hend, fun h => ?_⟩
    have hlength := congrArg List.length h.contacts
    rw [contactValues, List.length_map, hraised.2] at hlength
    cases hlength

end Node

end P4
