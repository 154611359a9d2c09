/-
  Two nodes that are given each other's invites can connect.

  What the consoles make of the invites (`run_typed`) is added to the two nodes, which then have
  each other's keys, and the one with the smaller peer id a maintainer for the other
  (`Node.takes_invite`).  From there the handshake can be completed, whatever else the nodes
  have been doing (`introduced_nodes_can_connect`).
-/
import P4.Invite.Equiv.Console
import P4.System.Equiv.Completion

namespace P4

section

variable {F : Type} [DecidableEq F] [Float64 F]

omit [DecidableEq F] in
/-- Contacts whose peer ids are strings can be written. -/
theorem contactsText_of_isStr {contacts : Dict (Key F) (Ref (Contact F))}
    (h : ∀ c ∈ Dict.values contacts, c.val.peerId.isStr = true) :
    ∃ text, contactsText contacts = .ok text := by
  have hall : (Dict.values contacts).all (fun c => c.val.peerId.isStr) = true :=
    List.all_eq_true.mpr h
  rw [contactsText, sortedBy, if_pos (by rw [hall, Bool.or_true, Bool.true_or])]
  exact ⟨_, rfl⟩

variable [Crates F] [PyRepr F]

/-- A node takes the invite of a new peer: it knows the peer, dials it if its own peer id is the
smaller one, and remembers what it remembered. -/
theorem Node.takes_invite {n : Node F} {S : Identity F} {mode : Mode} {invite : Loaded F}
    (hinvite : Contact.fromDict invite.val = .ok (mode.contact S))
    (hne : S.peerId ≠ n.identity.peerId)
    (hstr : ∀ contact ∈ Dict.values n.contacts, contact.val.peerId.isStr = true)
    (hnew : Dict.get? n.sessions S.peerId = none) :
    ∃ n', Node.step n (.addContact invite true) = some (n', []) ∧ n'.replay = n.replay ∧
      Knows n' S (SessionWorld.new ⟨n.nextOid, mode.contact S⟩
        (roleFor n.identity.peerId S.peerId)) ∧
      (n.identity.peerId.lt S.peerId = true → S.peerId ∈ n'.maintainers) := by
  let contact : Ref (Contact F) := ⟨n.nextOid, mode.contact S⟩
  have hwritten : ∀ c ∈ Dict.values (Dict.set n.contacts (.str S.peerId) contact),
      c.val.peerId.isStr = true := by
    intro c hc
    obtain ⟨kc, hkc, rfl⟩ := List.mem_map.mp hc
    rcases Dict.mem_set hkc with rfl | hkc
    · rfl
    · exact hstr _ (List.mem_map.mpr ⟨kc, hkc, rfl⟩)
  obtain ⟨text, htext⟩ := contactsText_of_isStr hwritten
  have hself : (mode.contact S).peerId.eqStr n.identity.peerId = false := by
    simpa [Mode.contact, Json.eqStr] using hne
  let role := roleFor n.identity.peerId S.peerId
  let n' : Node F :=
    { n with contacts := Dict.set n.contacts (.str S.peerId) contact
             nextOid := n.nextOid + 1
             contactsFile := some text
             sessions := Dict.set n.sessions S.peerId (SessionWorld.new contact role)
             maintainers :=
               if role = .initiator then n.maintainers ++ [S.peerId] else n.maintainers }
  have hadd : (n.addContact invite.val true).2 = n' := by
    have hkey : (mode.contact S).peerId.key? = some (.str S.peerId : Key F) := rfl
    have hrole : roleOf n.identity.peerId (mode.contact S).peerId = .ok (S.peerId, role) := rfl
    simp only [Node.addContact, hinvite, hself, Bool.false_eq_true, if_false, hkey]
    rw [htext]
    simp only [Bool.not_true, Bool.false_eq_true, if_false, hrole, Node.addSession, hnew]
    rfl
  refine ⟨n', ?_, rfl, ⟨?_, contact, ?_, rfl⟩, ?_⟩
  · rw [Node.step, hadd]
  · show Dict.get? (Dict.set n.sessions S.peerId _) S.peerId = _
    rw [Dict.get?_set, if_pos rfl]
  · show Dict.get? (Dict.set n.contacts (.str S.peerId) contact) _ = _
    rw [Dict.get?_set, if_pos rfl]
  · intro hlt
    have hrole : role = .initiator := Node.roleFor_eq_initiator.mpr hlt
    show S.peerId ∈ if role = .initiator then n.maintainers ++ [S.peerId] else n.maintainers
    rw [if_pos hrole]
    simp

omit [DecidableEq F] [Float64 F] [Crates F] [PyRepr F] in
/-- `_initiate_with_contact` knows the transport of every invite. -/
theorem Mode.dialable_contact [Crates F] (mode : Mode) (S : Identity F) :
    (mode.contact S).dialable = true := by
  cases mode with
  | onion serviceId => simp [Contact.dialable, Mode.contact, Mode.ownRendezvous, Json.eqStr]
  | direct host port => simp [Contact.dialable, Mode.contact, Mode.ownRendezvous, Json.eqStr]

variable {ι : Type} [DecidableEq ι] {identities : ι → Identity F} {s : ι → Node F}
  {as : List (SystemAct ι F)} {c : Config (ι → Node F) (SystemEvent ι F)}

/-- Two nodes take a step each, one after the other, and report nothing. -/
theorem run_both {I R : ι} (hne : R ≠ I) {a b : Act F} {nI nR : Node F}
    (ha : Node.step (c.state I) a = some (nI, [])) (hb : Node.step (c.state R) b = some (nR, [])) :
    ∃ d, system.run c [.inl (I, .node a), .inl (R, .node b)] = some d ∧
      d.state I = nI ∧ d.state R = nR := by
  have hnext : ∀ {t : ι → Node F} {i : ι} {x : Act F} {n : Node F},
      Node.step (t i) x = some (n, []) →
      system.next ⟨t, c.log⟩ (.inl (i, .node x)) = some ⟨Function.update t i n, c.log⟩ := by
    intro t i x n hx
    have hhost : Node.host (t i) (.node x) = some (n, []) := by
      simp only [Node.host, hx, Option.map_some, List.map_nil]
    exact Machine.next_eq_some.mpr ⟨[], Machine.beside_product_step (β := Foreign) hhost, rfl⟩
  have hb' : Node.step (Function.update c.state I nI R) b = some (nR, []) := by
    rwa [Function.update_of_ne hne]
  refine ⟨⟨Function.update (Function.update c.state I nI) R nR, c.log⟩, ?_, ?_, ?_⟩
  · exact Machine.run_cons.mpr ⟨_, hnext ha, Machine.run_cons.mpr ⟨_, hnext hb', rfl⟩⟩
  · show Function.update (Function.update c.state I nI) R nR I = nI
    rw [Function.update_of_ne hne.symm, Function.update_self]
  · exact Function.update_self _ _ _

/-- The node has no session for `S`, and its contacts can be written. -/
structure Strangers (n : Node F) (S : Identity F) : Prop where
  noSession : Dict.get? n.sessions S.peerId = none
  writable : ∀ contact ∈ Dict.values n.contacts, contact.val.peerId.isStr = true

/-- In every state that the system reaches, two nodes that are given each other's invites, as the
nodes print them and whichever way they are handed over, can then complete a handshake.

The consoles ask for the contacts (`run_typed`), the nodes have each other's keys after these two
steps (`Node.takes_invite`), and from there a handshake can be completed. -/
theorem introduced_nodes_can_connect (hl : CrateLaws F) (hstart : Started identities s)
    (hrun : system.run ⟨s, []⟩ as = some c) {I R : ι} {skI skR : SigningKey}
    (hI : Genuine (identities I) skI) (hR : Genuine (identities R) skR)
    (hlt : (identities I).peerId.lt (identities R).peerId = true)
    (hstrangerI : Strangers (c.state I) (identities R))
    (hstrangerR : Strangers (c.state R) (identities I))
    {modeI modeR : Mode} (hmodeI : modeI.Printable) (hmodeR : modeR.Printable)
    (nativeI nativeR : ByteOrder) (filesI filesR : Text → Option (List UInt8))
    (toI toR : Handover)
    (htoI : toI.Ready filesI (buildInvite (identities R) modeR.ownRendezvous))
    (htoR : toR.Ready filesR (buildInvite (identities I) modeI.ownRendezvous)) :
    ∃ inviteI inviteR d,
      Machine.run (Prompt.step nativeI filesI) ⟨.command, []⟩
        ((toI.typed (buildInvite (identities R) modeR.ownRendezvous)).map some) =
          some ⟨.command, [.addContact inviteR]⟩ ∧
      Machine.run (Prompt.step nativeR filesR) ⟨.command, []⟩
        ((toR.typed (buildInvite (identities I) modeI.ownRendezvous)).map some) =
          some ⟨.command, [.addContact inviteI]⟩ ∧
      system.run c [.inl (I, .node (.addContact inviteR true)),
        .inl (R, .node (.addContact inviteI true))] = some d ∧
      ∀ h : Handshake, h.Fair (identities I) (identities R) (c.state I) (c.state R) →
        CanComplete identities I R h d := by
  have hne : R ≠ I := by
    rintro rfl
    rw [Str.lt_irrefl] at hlt
    cases hlt
  have hidI := (history_component hstart hrun I).identityIs
  have hidR := (history_component hstart hrun R).identityIs
  have hpeers : (identities R).peerId ≠ (identities I).peerId := by
    intro heq
    rw [heq, Str.lt_irrefl] at hlt
    cases hlt
  -- the consoles
  obtain ⟨inviteR, hvalR, hconsoleI⟩ := run_typed nativeI toI
    (wellFormed_inviteMembers (identities R) hmodeR) htoI []
  obtain ⟨inviteI, hvalI, hconsoleR⟩ := run_typed nativeR toR
    (wellFormed_inviteMembers (identities I) hmodeI) htoR []
  -- the nodes
  have hcontactR : Contact.fromDict inviteR.val = .ok (modeR.contact (identities R)) := by
    rw [hvalR]
    exact fromDict_inviteMembers _ _
  have hcontactI : Contact.fromDict inviteI.val = .ok (modeI.contact (identities I)) := by
    rw [hvalI]
    exact fromDict_inviteMembers _ _
  obtain ⟨nI, hstepI, hreplayI, hknowsI, hmaintains⟩ := Node.takes_invite (n := c.state I)
    hcontactR (by rwa [hidI]) hstrangerI.writable hstrangerI.noSession
  obtain ⟨nR, hstepR, hreplayR, hknowsR, -⟩ := Node.takes_invite (n := c.state R)
    hcontactI (by rw [hidR]; exact hpeers.symm) hstrangerR.writable hstrangerR.noSession
  obtain ⟨d, hadded, hdI, hdR⟩ := run_both hne hstepI hstepR
  refine ⟨inviteI, inviteR, d, hconsoleI, hconsoleR, hadded, fun h hfair => ?_⟩
  -- the handshake
  have hrun' : system.run ⟨s, []⟩ (as ++ [.inl (I, .node (.addContact inviteR true)),
      .inl (R, .node (.addContact inviteI true))]) = some d := by
    rw [Machine.run_append, hrun]
    exact hadded
  have hfair' : h.Fair (identities I) (identities R) (d.state I) (d.state R) :=
    { offerFresh := by
        rw [hdR, hreplayR]
        exact hfair.offerFresh
      answerFresh := by
        rw [hdI, hreplayI]
        exact hfair.answerFresh
      offerInTime := hfair.offerInTime
      answerInTime := hfair.answerInTime
      offerFits := hfair.offerFits
      answerFits := hfair.answerFits }
  refine exists_handshake hl hstart hrun' hI hR (hdI ▸ hknowsI) (hdR ▸ hknowsR) ?_ rfl
    (modeR.dialable_contact _) h hfair'
  rw [hdI]
  apply hmaintains
  rwa [hidI]

end

/-! ### Two nodes that were just started -/

theorem introduced_nodes_can_connect_sample : ∃ inviteI inviteR d,
    Machine.run (Prompt.step .little Sample.inviteFiles) ⟨.command, []⟩
      ((Sample.handover.typed (buildInvite (Sample.pair false) Sample.atHome.ownRendezvous)).map
        some) = some ⟨.command, [.addContact inviteI]⟩ ∧
    system.run ⟨Sample.started, []⟩ [.inl (false, .node (.addContact inviteR true)),
      .inl (true, .node (.addContact inviteI true))] = some d ∧
    CanComplete Sample.pair false true Sample.handshake d := by
  have hmode : Sample.atHome.Printable := Json.normal_of_isScalar (Str.isScalar_ofText _)
  have hpath : Trimmed "invite.json".toList := ⟨by simp, by decide⟩
  have hlengths : Sample.lineLength 1 2 Kind.offer 11 2000 ≤ streamLimit ∧
      Sample.lineLength 2 1 Kind.answer 12 2002 ≤ streamLimit := by
    decide +kernel
  have hfair : Sample.handshake.Fair (Sample.pair false) (Sample.pair true)
      (Sample.started false) (Sample.started true) :=
    { offerFresh := by decide +kernel
      answerFresh := by decide +kernel
      offerInTime := by constructor <;> decide
      answerInTime := by constructor <;> decide
      offerFits := Sample.fitsLine_of_lineLength hlengths.1
      answerFits := Sample.fitsLine_of_lineLength hlengths.2 }
  have hkeyI : Genuine (Sample.pair false) (Sample.key 1) :=
    genuine_ofKey Sample.base64Laws (Sample.key 1)
  have hkeyR : Genuine (Sample.pair true) (Sample.key 2) :=
    genuine_ofKey Sample.base64Laws (Sample.key 2)
  have hstrangers : Strangers (Sample.started false) (Sample.pair true) ∧
      Strangers (Sample.started true) (Sample.pair false) := by
    refine ⟨⟨?_, ?_⟩, ⟨?_, ?_⟩⟩ <;> decide +kernel
  have hlt : (Sample.pair false).peerId.lt (Sample.pair true).peerId = true := by decide +kernel
  have hrun : system.run ⟨Sample.started, []⟩ [] = some ⟨Sample.started, []⟩ := rfl
  obtain ⟨inviteI, inviteR, d, -, hconsole, hadded, hcan⟩ := introduced_nodes_can_connect
    Sample.crateLaws Sample.started_pair hrun hkeyI hkeyR hlt hstrangers.1 hstrangers.2 hmode hmode
    .little .little (fun _ => none) Sample.inviteFiles .addInvite Sample.handover trivial
    ⟨hpath, rfl, rfl, if_pos (by decide)⟩
  exact ⟨inviteI, inviteR, d, hconsole, hadded, hcan Sample.handshake hfair⟩

end P4
