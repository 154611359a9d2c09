/-
  How often a message is accepted.

  The replay window of a running process holds, for each sender, the last 4096 of the nonces
  that it accepted (`Windowed`).  So within one process a nonce is accepted again only after
  4096 others of the same sender, and across restarts only when the process was started anew
  in between.  In both cases the clock must still be near the timestamp.
-/
import P4.Node.Equiv.Acceptance
import P4.Node.Equiv.Delivery

namespace P4

variable {F : Type}

/-- The acceptances and restarts of a log. -/
def acceptances (log : List (Option (Event F))) : List (Option (Acceptance F)) :=
  log.filterMap fun
    | none => some none
    | some e => e.acceptance?.map some

/-- The part of a log since the last restart. -/
def sinceRestart {α : Type} (log : List (Option α)) : List α :=
  (log.takeWhile Option.isSome).reduceOption

/-- The nonces of a sender, the latest first. -/
def noncesFrom [PyRepr F] (p : Str) (l : List (Acceptance F)) : List Str :=
  l.filterMap fun x => if senderOf x.1 = p then some (nonceOf x.1) else none

theorem noncesFrom_cons [PyRepr F] (p : Str) (x : Acceptance F) (l : List (Acceptance F)) :
    noncesFrom p (x :: l) =
      if senderOf x.1 = p then nonceOf x.1 :: noncesFrom p l else noncesFrom p l := by
  rw [noncesFrom, List.filterMap_cons]
  split_ifs <;> rfl

/-- `ReplayWindow().max_seen` -/
def windowSize : Nat := ({} : ReplayWindow).maxSeen

/-- Every acceptance was of a nonce that was not among the last ones of its process. -/
def Fresh [PyRepr F] : List (Option (Acceptance F)) → Prop
  | [] => True
  | none :: past => Fresh past
  | some x :: past =>
    nonceOf x.1 ∉ Window.lastN windowSize (noncesFrom (senderOf x.1) (sinceRestart past)).reverse ∧
      Fresh past

theorem sinceRestart_none {α : Type} (l : List (Option α)) : sinceRestart (none :: l) = [] := rfl

theorem sinceRestart_some {α : Type} (a : α) (l : List (Option α)) :
    sinceRestart (some a :: l) = a :: sinceRestart l := rfl

/-- Between two acceptances of one nonce in one process there are many others. -/
theorem Fresh.window_le [PyRepr F] {late between early : List (Option (Acceptance F))}
    {x y : Acceptance F} (h : Fresh (late ++ some y :: (between ++ some x :: early)))
    (hsame : senderOf y.1 = senderOf x.1 ∧ nonceOf y.1 = nonceOf x.1)
    (hproc : none ∉ between) :
    windowSize ≤ (noncesFrom (senderOf x.1) between.reduceOption).length := by
  have hy : Fresh (some y :: (between ++ some x :: early)) := by
    induction late with
    | nil => exact h
    | cons z late ih =>
      cases z with
      | none => exact ih h
      | some z => exact ih h.2
  have hsince : sinceRestart (between ++ some x :: early) =
      between.reduceOption ++ x :: sinceRestart early := by
    clear h hy
    induction between with
    | nil => rfl
    | cons z between ih =>
      cases z with
      | none => exact absurd (List.mem_cons_self ..) hproc
      | some z =>
        have hrest := ih fun hm => hproc (List.mem_cons_of_mem _ hm)
        rw [List.cons_append, sinceRestart_some, hrest]
        rfl
  have hnot := hy.1
  rw [hsame.1, hsame.2, hsince] at hnot
  -- the nonce stands right after the ones in between
  have hlist : noncesFrom (senderOf x.1) (between.reduceOption ++ x :: sinceRestart early) =
      noncesFrom (senderOf x.1) between.reduceOption ++
        nonceOf x.1 :: noncesFrom (senderOf x.1) (sinceRestart early) := by
    rw [noncesFrom, List.filterMap_append]
    exact congrArg (_ ++ ·) ((noncesFrom_cons _ x _).trans (if_pos rfl))
  rw [hlist, List.reverse_append, List.reverse_cons, List.append_assoc] at hnot
  have hlt := Window.lt_of_notMem_lastN
    (i := (noncesFrom (senderOf x.1) (sinceRestart early)).reverse.length) hnot (by
      rw [List.getElem?_append_right (Nat.le_refl _), Nat.sub_self]
      rfl)
  simp only [List.length_append, List.length_reverse, List.length_cons, List.length_nil] at hlt
  omega

namespace Node

variable [DecidableEq F] [Float64 F] [Crates F] [PyRepr F]

/-! ### The invariant -/

/-- The replay window holds the last of the nonces of the acceptances `l`. -/
structure Windowed (n : Node F) (l : List (Acceptance F)) : Prop where
  coherent : n.replay.Coherent
  size : n.replay.maxSeen = windowSize
  recent : ∀ p, n.replay.recent p = Window.lastN windowSize (noncesFrom p l).reverse

/-- The window right after a start. -/
theorem windowed_boot {identity : Identity F} {file : Option Text} {n : Node F}
    (h : boot identity file = .ok n) : Windowed n [] := by
  obtain ⟨loaded, -, h⟩ := except_bind_ok.mp h
  obtain ⟨byId, -, h⟩ := except_bind_ok.mp h
  obtain ⟨sessions, -, h⟩ := except_bind_ok.mp h
  cases h
  refine ⟨ReplayWindow.coherent_empty, rfl, fun p => ?_⟩
  rw [noncesFrom, List.filterMap_nil, List.reverse_nil, Window.lastN, List.drop_nil]
  rfl

/-- A step enters the nonce of the message it accepts, which was not in the window. -/
theorem windowed_step {n n' : Node F} {a : Act F} {out : List (Event F)} {l : List (Acceptance F)}
    (h : Windowed n l) (hs : step n a = some (n', out)) :
    (Windowed n' l ∧ out.filterMap Event.acceptance? = []) ∨
    ∃ x, out.filterMap Event.acceptance? = [x] ∧ Windowed n' (x :: l) ∧ Vouched x ∧
      nonceOf x.1 ∉ Window.lastN windowSize (noncesFrom (senderOf x.1) l).reverse := by
  rcases step_acceptance (step_outcome hs) with
    ⟨hr, hout⟩ | ⟨_, _, msg, ef, et, now, sender, recipient, nonce, contact, hread, hacc, hr, hout⟩
  · -- no message was accepted, and the window is as it was
    refine Or.inl ⟨⟨?_, ?_, ?_⟩, hout⟩
    · rw [hr]
      exact h.coherent
    · rw [hr]
      exact h.size
    · rw [hr]
      exact h.recent
  · -- the sender's last nonces are shifted by one, the others' are as they were
    have hsend : senderOf msg = sender := Checked.senderOf_eq hacc.checked
    have hnonce : nonceOf msg = nonce := hacc.checked.nonceIs
    obtain ⟨hfst, hrec⟩ := ReplayWindow.seen_recent h.coherent sender nonce
    rw [h.size, h.recent sender, Window.push_lastN] at hfst hrec
    have hfresh := hacc.fresh
    rw [hfst] at hfresh
    split_ifs at hfresh hrec with hmem
    refine Or.inr ⟨(msg, some contact, now), hout, ⟨?_, ?_, ?_⟩,
      ⟨readJsonLine_wellFormed hread, contact, rfl, hacc.checked.verified⟩, ?_⟩
    · rw [hr]
      exact ReplayWindow.coherent_seen h.coherent sender nonce
    · rw [hr, ReplayWindow.maxSeen_seen, h.size]
    · intro p
      rw [hr, hrec p, noncesFrom_cons, hsend, hnonce]
      by_cases hp : p = sender
      · rw [if_pos hp, if_pos hp.symm, List.reverse_cons, hp]
      · rw [if_neg hp, if_neg (Ne.symm hp)]
        exact h.recent p
    · rw [hsend, hnonce]
      exact hmem

omit [DecidableEq F] [Float64 F] [Crates F] [PyRepr F] in
/-- The acceptances of a step, newest first, stand before those of the past. -/
theorem acceptances_step (out : List (Event F)) (log : List (Option (Event F))) :
    acceptances ((out.map some).reverse ++ log) =
      (out.filterMap Event.acceptance?).reverse.map some ++ acceptances log := by
  have h : ((out.map some).reverse).filterMap (fun o : Option (Event F) =>
      match o with
      | none => some none
      | some e => e.acceptance?.map some) =
      (out.filterMap Event.acceptance?).reverse.map some := by
    rw [← List.map_reverse, List.filterMap_map, ← List.filterMap_reverse, List.map_filterMap]
    rfl
  rw [acceptances, List.filterMap_append]
  exact congrArg (· ++ _) h

/-- What holds of a state directory and its log. -/
structure Recorded (c : Config (Node F) (Option (Event F))) : Prop where
  windowed : Windowed c.state (sinceRestart (acceptances c.log))
  fresh : Fresh (acceptances c.log)
  vouched : ∀ x, some x ∈ acceptances c.log → Vouched x

/-- A step accepts at most one message; a restart empties the window. -/
theorem recorded_next {c c' : Config (Node F) (Option (Event F))} {a : HostAct F}
    (h : Recorded c) (hn : host.next c a = some c') : Recorded c' := by
  obtain ⟨out, hs, hlog⟩ := Machine.next_eq_some.mp hn
  rcases host_cases hs with ⟨b, o, -, hstep, rfl⟩ | ⟨-, hboot, rfl⟩
  · -- a step of the process
    have hacc := acceptances_step o c.log
    rw [← hlog] at hacc
    rcases windowed_step h.windowed hstep with ⟨hw, hnil⟩ | ⟨x, hx, hw, hv, hnot⟩
    · rw [hnil] at hacc
      have hacc' : acceptances c'.log = acceptances c.log := hacc
      refine ⟨?_, ?_, ?_⟩
      · rw [hacc']
        exact hw
      · rw [hacc']
        exact h.fresh
      · rw [hacc']
        exact h.vouched
    · rw [hx] at hacc
      have hacc' : acceptances c'.log = some x :: acceptances c.log := hacc
      refine ⟨?_, ?_, ?_⟩
      · rw [hacc', sinceRestart_some]
        exact hw
      · rw [hacc']
        exact ⟨hnot, h.fresh⟩
      · rw [hacc']
        intro y hy
        rcases List.mem_cons.mp hy with hy | hy
        · cases hy
          exact hv
        · exact h.vouched y hy
  · -- a restart: the window is empty again
    have hacc : acceptances c'.log = none :: acceptances c.log := by
      rw [hlog]
      rfl
    refine ⟨?_, ?_, ?_⟩
    · rw [hacc, sinceRestart_none]
      exact windowed_boot hboot
    · rw [hacc]
      exact h.fresh
    · rw [hacc]
      intro y hy
      rcases List.mem_cons.mp hy with hy | hy
      · cases hy
      · exact h.vouched y hy

/-- Every run from a start is recorded in its log. -/
theorem recorded_run {identity : Identity F} {file : Option Text} {n : Node F}
    {as : List (HostAct F)} {c : Config (Node F) (Option (Event F))}
    (hboot : boot identity file = .ok n) (h : host.run ⟨n, []⟩ as = some c) : Recorded c := by
  refine Machine.run_invariant (P := Recorded) (fun _ _ _ => recorded_next) ?_ h
  exact ⟨windowed_boot hboot, trivial, fun x hx => nomatch hx⟩

end Node

namespace Sample

/-! ### More messages than the window holds -/

/-- The bytes of the `i`-th nonce. -/
def floodRandom (i : Nat) : FixedBytes 16 :=
  ⟨UInt8.ofNat (i / 256) :: UInt8.ofNat (i % 256) :: List.replicate 14 0, rfl⟩

/-- The line of the `i`-th message. -/
def floodLine (i : Nat) : List UInt8 :=
  match buildMessage (identity 1) (.str (identity 2).peerId) [] (floodRandom i) 1000 with
  | .ok envelope => envelopeLine envelope
  | .error _ => []

/-- The `i`-th message as it is read. -/
def floodMsg (i : Nat) : Members Empty :=
  (readJsonLine (floodLine i)).toOption.elim [] Prod.fst

theorem tokenHex_floodRandom {i j : Nat} (hi : i < 65536) (hj : j < 65536)
    (h : tokenHex (floodRandom i) = tokenHex (floodRandom j)) : i = j := by
  have hlut : ∀ m < 16, ∀ n < 16, hexLut m = hexLut n → m = n := by decide
  simp only [tokenHex, floodRandom, hexLower, List.flatMap_cons, List.cons_append,
    List.nil_append, List.cons.injEq] at h
  obtain ⟨h₁, h₂, h₃, h₄, -⟩ := h
  have hbyte : ∀ n < 256, (UInt8.ofNat n).toNat = n := fun n hn => UInt8.toNat_ofNat_of_lt' hn
  rw [hbyte _ (by omega), hbyte _ (by omega)] at h₁ h₂ h₃ h₄
  have e₁ := hlut _ (by omega) _ (by omega) h₁
  have e₂ := hlut _ (by omega) _ (by omega) h₂
  have e₃ := hlut _ (by omega) _ (by omega) h₃
  have e₄ := hlut _ (by omega) _ (by omega) h₄
  omega

theorem length_peerId_le (n : Identity Empty) : n.peerId.length ≤ 24 := by
  obtain ⟨bytes, -, h⟩ := n.peerId_eq
  rw [h, peerIdFromPublicKeyBytes, List.length_take]
  exact Nat.min_le_left _ _

/-- The line of the `i`-th message is read, and it passes the checks. -/
theorem flood_checked (i : Nat) : readJsonLine (floodLine i) = .ok (floodMsg i, []) ∧
    payloadOf (floodMsg i) = some [] ∧
    ∀ (contacts : Dict (Key Empty) (Ref (Contact Empty))) (c : Ref (Contact Empty)),
      Dict.get? contacts (.str (identity 1).peerId) = some c →
      c.val.publicKeyB64 = .str (identity 1).publicKeyB64 →
      Checked contacts (floodMsg i) none (some (.str (identity 2).peerId)) 1000
        (identity 1).peerId (identity 2).peerId (tokenHex (floodRandom i)) c := by
  obtain ⟨env, bytes, hs, hbuild, hreadable, hpayload, hchecks⟩ := exists_delivery crateLaws
    (genuine_ofKey base64Laws (key 1)) (identity 2) [] (fun _ h => nomatch h) List.nodup_nil
    (floodRandom i) 1000
  have hline : floodLine i = writeJsonLine env.toDict := by
    have hbuild' : buildMessage (identity 1) (.str (identity 2).peerId) [] (floodRandom i) 1000 =
      .ok (.obj env.toDict) := hbuild
    rw [floodLine, hbuild']
    rfl
  -- the line fits the reader's limit, because every field of the envelope is short
  have hlen : (Json.dumpsSorted (.obj env.toDict)).length ≤ streamLimit := by
    have h := length_dumpsSorted_toDict env
    have h₁ := length_peerId_le (identity 1)
    have h₂ := length_peerId_le (identity 2)
    have hsender : env.senderPeerId.length ≤ 24 := by
      rw [hs.sender]
      exact h₁
    have hrecipient : env.recipientPeerId.length ≤ 24 := by
      obtain ⟨s, hs', -, heq⟩ := hs.recipient
      cases hs'
      rw [heq, (identity 2).plain_peerId.cStr_eq]
      exact h₂
    have hnonce : env.nonce.length = 32 := by
      rw [hs.nonce]
      rfl
    have hsig : env.signatureB64.length ≤ 256 := by
      rw [hs.signature]
      have hb := Base64.length_encode_le (Crates.sign Empty (key 1) bytes).val
      have h64 := (Crates.sign Empty (key 1) bytes).property
      show (Str.ofText (Base64.encode _)).length ≤ 256
      rw [Str.ofText, List.length_map]
      omega
    have hversion : (Json.printInt env.protocolVersion.toNat).length = 1 := by
      rw [hs.version]
      rfl
    have hts : (Json.printInt env.timestampMs.toNat).length = 4 := by
      rw [hs.timestamp]
      show (Json.printInt ((1000 : UInt64).toNat : Int)).length = 4
      decide +kernel
    have hpay : (Json.print Json.spaced 1 env.payload.canon).length = 2 := by
      rw [hpayload]
      rfl
    have hlimit : streamLimit = 65536 := rfl
    omega
  -- what is read is the line's own envelope
  have hread : readJsonLine (writeJsonLine env.toDict ++ []) = .ok (asRead env.toDict, []) :=
    readJsonLine_writeJsonLine (wellFormed_toDict hreadable) hlen []
  rw [List.append_nil, ← hline] at hread
  have hmsg : floodMsg i = asRead env.toDict := by
    rw [floodMsg, hread]
    rfl
  refine ⟨by rw [hmsg]; exact hread, ?_, ?_⟩
  · have hget : Dict.get? (asRead env.toDict) Field.payload = some env.payload.canon :=
      Json.get?_canon (nodup_keys_toDict env) Field.payload
    rw [hmsg, payloadOf, hget, hpayload]
    rfl
  · intro contacts c hc hkey
    rw [hmsg]
    exact hchecks contacts c 1000 hc hkey (by decide)

/-- A node that has added its contact. -/
def target : Node Empty := ((node 2 []).addContact (contact 1).val.toDict true).2

/-- The delivery of the `i`-th message. -/
def floodAct (i : Nat) : HostAct Empty := .node (.inbound (floodLine i) 1000 1000 (random 0))

/-- The reply to each of the messages. -/
def floodReply : List UInt8 :=
  errorLine Empty (.runtime (Str.lit "Unsupported inbound message type: " ++
    (Json.null : Json Empty).pyStr))

/-- What a node reports of the `i`-th message. -/
def floodEvents (i : Nat) : List (Event Empty) :=
  [.accepted (floodMsg i) (some (contact 1)) 1000, .wrote floodReply]

theorem get?_target : Dict.get? target.contacts (.str (identity 1).peerId) = some (contact 1) := by
  decide

theorem dispatch_empty {n : Node Empty} {msg : Members Empty} (h : payloadOf msg = some []) :
    n.dispatch msg 1000 (random 0) = (n, [.wrote floodReply]) := by
  unfold Node.dispatch
  rw [h]
  rfl

/-- A node that has not seen the nonce accepts the message. -/
theorem flood_step {n : Node Empty} (hid : n.identity = identity 2)
    (hcontacts : n.contacts = target.contacts) (i : Nat)
    (hfresh : tokenHex (floodRandom i) ∉ n.replay.known (identity 1).peerId) :
    n.host (floodAct i) = some (n.noted (identity 1).peerId (tokenHex (floodRandom i)),
      (floodEvents i).map some) := by
  obtain ⟨hread, hpayload, hchecks⟩ := flood_checked i
  have hchecked := hchecks n.contacts (contact 1) (by rw [hcontacts]; exact get?_target) rfl
  have hseen := (ReplayWindow.seen_fresh hfresh (identity 1).peerId).1
  have hval := hchecked.validateMessage n.replay
  rw [hseen, if_neg Bool.false_ne_true, ← hid] at hval
  have hsender := Node.Checked.senderOf_eq hchecked
  have hstep : n.handleSignalConn (floodLine i) 1000 1000 (random 0) =
      (n.noted (identity 1).peerId (tokenHex (floodRandom i)), floodEvents i) := by
    unfold Node.handleSignalConn
    rw [hread]
    dsimp only
    rw [hval]
    dsimp only
    rw [hsender, hchecked.contactIs, dispatch_empty hpayload]
    rfl
  have hhost : n.host (floodAct i) = (some (n.handleSignalConn (floodLine i) 1000 1000
    (random 0))).map fun r => (r.1, r.2.map some) := rfl
  rw [hhost, hstep]
  rfl

/-- The nonces of the first `k` messages. -/
def floodNonces (k : Nat) : List Str := (List.range k).map fun i => tokenHex (floodRandom i)

/-- What is known after the first `k` messages. -/
structure Flooded (n : Node Empty) (k : Nat) : Prop where
  identity : n.identity = Sample.identity 2
  contacts : n.contacts = target.contacts
  coherent : n.replay.Coherent
  size : n.replay.maxSeen = windowSize
  recent : n.replay.recent (Sample.identity 1).peerId = Window.lastN windowSize (floodNonces k)

theorem Flooded.noted {n : Node Empty} {k : Nat} (h : Flooded n k)
    (hfresh : tokenHex (floodRandom k) ∉ n.replay.known (Sample.identity 1).peerId) :
    Flooded (n.noted (Sample.identity 1).peerId (tokenHex (floodRandom k))) (k + 1) := by
  have hnonces : floodNonces (k + 1) = floodNonces k ++ [tokenHex (floodRandom k)] := by
    rw [floodNonces, List.range_succ, List.map_append]
    rfl
  have hseen := (ReplayWindow.seen_recent h.coherent (Sample.identity 1).peerId
    (tokenHex (floodRandom k))).2 (Sample.identity 1).peerId
  have hnot : tokenHex (floodRandom k) ∉ Window.lastN windowSize (floodNonces k) := by
    rw [← h.recent]
    exact fun hm => hfresh (((h.coherent _).2 _).mpr hm)
  rw [if_pos rfl, h.size, h.recent, Window.push_lastN, if_neg hnot, ← hnonces] at hseen
  dsimp only at hseen
  have hsize : (n.noted (Sample.identity 1).peerId (tokenHex (floodRandom k))).replay.maxSeen
      = windowSize := by
    rw [← h.size]
    exact ReplayWindow.maxSeen_seen _ _
  refine ⟨h.identity, h.contacts, ReplayWindow.coherent_seen h.coherent _ _,
    hsize, ?_⟩
  exact hseen

theorem flooded_target : Flooded target 0 := by
  obtain ⟨hid, hreplay⟩ := Node.addContact_frame (node 2 []) (contact 1).val.toDict true
  have hreplay' : target.replay = {} := hreplay
  refine ⟨hid, rfl, ?_, ?_, ?_⟩
  · rw [hreplay']
    exact ReplayWindow.coherent_empty
  · rw [hreplay', windowSize]
  · rw [hreplay', floodNonces, List.range_zero, List.map_nil, Window.lastN, List.drop_nil]
    rfl

/-- Messages with different nonces are all accepted. -/
theorem flood_run (k : Nat) (hk : k ≤ 65536) : ∃ n, Flooded n k ∧
    Machine.run Node.host ⟨target, []⟩ ((List.range k).map floodAct) =
      some ⟨n, (((List.range k).flatMap floodEvents).map some).reverse⟩ := by
  induction k with
  | zero => exact ⟨target, flooded_target, rfl⟩
  | succ k ih =>
    obtain ⟨n, hn, hrun⟩ := ih (by omega)
    have hfresh : tokenHex (floodRandom k) ∉ n.replay.known (identity 1).peerId := by
      intro hm
      rw [(hn.coherent _).2, hn.recent] at hm
      obtain ⟨i, hi, heq⟩ := List.mem_map.mp (List.mem_of_mem_drop hm)
      have hlt := List.mem_range.mp hi
      exact absurd (tokenHex_floodRandom (by omega) (by omega) heq) (by omega)
    refine ⟨_, hn.noted hfresh, ?_⟩
    rw [List.range_succ, List.map_append, List.flatMap_append, List.map_append,
      List.reverse_append, List.flatMap_singleton]
    exact Machine.run_snoc hrun (flood_step hn.identity hn.contacts k hfresh)

/-- When they were more than the window holds, the first of them is accepted again. -/
theorem flood_again {k : Nat} (hk : windowSize < k) (hk' : k ≤ 65536) : ∃ n,
    Machine.run Node.host ⟨target, []⟩ ((List.range k).map floodAct ++ [floodAct 0]) =
      some ⟨n, ((floodEvents 0).map some).reverse ++
        (((List.range k).flatMap floodEvents).map some).reverse⟩ := by
  obtain ⟨n, hn, hrun⟩ := flood_run k hk'
  have hfresh : tokenHex (floodRandom 0) ∉ n.replay.known (identity 1).peerId := by
    intro hm
    rw [(hn.coherent _).2, hn.recent, Window.mem_lastN] at hm
    obtain ⟨i, hlen, hi⟩ := hm
    rw [floodNonces, List.length_map, List.length_range] at hlen
    rw [floodNonces, List.getElem?_map, Option.map_eq_some_iff] at hi
    obtain ⟨j, hj, heq⟩ := hi
    obtain ⟨hlt, rfl⟩ := List.getElem?_eq_some_iff.mp hj
    rw [List.getElem_range] at heq
    rw [List.length_range] at hlt
    exact absurd (tokenHex_floodRandom (by omega) (by omega) heq) (by omega)
  exact ⟨_, Machine.run_snoc hrun (flood_step hn.identity hn.contacts 0 hfresh)⟩

end Sample

namespace Node

variable [DecidableEq F] [Float64 F] [Crates F] [PyRepr F]

/-! ### Accepting a message again -/

omit [DecidableEq F] [Float64 F] [Crates F] [PyRepr F] in
theorem acceptances_append (l l' : List (Option (Event F))) :
    acceptances (l ++ l') = acceptances l ++ acceptances l' :=
  List.filterMap_append

omit [DecidableEq F] [Float64 F] [Crates F] [PyRepr F] in
theorem acceptances_cons {e : Event F} {x : Acceptance F} (h : e.acceptance? = some x)
    (l : List (Option (Event F))) : acceptances (some e :: l) = some x :: acceptances l := by
  rw [acceptances, List.filterMap_cons]
  dsimp only
  rw [h]
  rfl

omit [DecidableEq F] [Float64 F] [Crates F] [PyRepr F] in
theorem none_mem_acceptances {l : List (Option (Event F))} :
    none ∈ acceptances l ↔ none ∈ l := by
  rw [acceptances, List.mem_filterMap]
  constructor
  · rintro ⟨o, ho, h⟩
    cases o with
    | none => exact ho
    | some e =>
      obtain ⟨x, -, hx⟩ := Option.map_eq_some_iff.mp h
      cases hx
  · intro h
    exact ⟨none, h, rfl⟩

/-- Within one process, a message with the same sender and nonce is accepted again only after
`max_seen` others of that sender, and only while the clock is near its timestamp.

The window of a sender is the list of its last acceptances in this process (`Recorded`), so a nonce
can only be new to it again after all of its entries were replaced. -/
theorem accepted_again_after_window (hserde : SerdeReads F) {identity : Identity F}
    {file : Option Text} {n : Node F} {as : List (HostAct F)}
    {c : Config (Node F) (Option (Event F))} (hboot : boot identity file = .ok n)
    (h : host.run ⟨n, []⟩ as = some c) {late between early : List (Option (Event F))}
    {e₁ e₂ : Event F} {x y : Acceptance F}
    (hlog : c.log = late ++ some e₂ :: (between ++ some e₁ :: early))
    (h₁ : e₁.acceptance? = some x) (h₂ : e₂.acceptance? = some y)
    (hsame : senderOf y.1 = senderOf x.1 ∧ nonceOf y.1 = nonceOf x.1)
    (hprocess : none ∉ between) :
    windowSize ≤ (noncesFrom (senderOf x.1) (acceptances between).reduceOption).length ∧
      Near y.2.2 y.1 := by
  have hrec := recorded_run hboot h
  have hacc : acceptances c.log =
      acceptances late ++ some y :: (acceptances between ++ some x :: acceptances early) := by
    rw [hlog, acceptances_append, acceptances_cons h₂, acceptances_append, acceptances_cons h₁]
  constructor
  · have hfresh := hrec.fresh
    rw [hacc] at hfresh
    exact hfresh.window_le hsame fun hm => hprocess (none_mem_acceptances.mp hm)
  · refine (hrec.vouched y ?_).near hserde
    rw [hacc]
    exact List.mem_append_right _ (List.mem_cons_self ..)

/-- A contact is added and sends one message more than the window holds; then the first message
is delivered again. -/
def sampleFlood : List (HostAct Empty) :=
  .node (.addContact (Sample.invited 1) true) ::
    ((List.range (windowSize + 1)).map Sample.floodAct ++ [Sample.floodAct 0])

/-- The first message once more, after a window of others. -/
theorem sampleFlood_log : ∃ n c between, boot (Sample.identity 2) none = .ok n ∧
    host.run ⟨n, []⟩ sampleFlood = some c ∧
    c.log = [some (.wrote Sample.floodReply)] ++
      some (.accepted (Sample.floodMsg 0) (some (Sample.contact 1)) 1000) :: (between ++
      some (.accepted (Sample.floodMsg 0) (some (Sample.contact 1)) 1000) :: []) ∧
    none ∉ between := by
  have hsize : windowSize < 65536 := by decide
  obtain ⟨n, hrun⟩ := Sample.flood_again (Nat.lt_succ_self windowSize) hsize
  refine ⟨Sample.node 2 [], _, (((List.range windowSize).map Nat.succ).flatMap
    Sample.floodEvents |>.map some).reverse ++ [some (.wrote Sample.floodReply)], rfl,
    Machine.run_cons.mpr ⟨⟨Sample.target, []⟩, rfl, hrun⟩, ?_, ?_⟩
  · rw [List.range_succ_eq_map, List.flatMap_cons, List.map_append, List.reverse_append]
    simp [Sample.floodEvents]
  · simp

/-- The same message accepted twice by one process, at the same time. -/
theorem accepted_twice_in_process : ∃ n c late between early msg contact t,
    boot (Sample.identity 2) none = .ok n ∧ host.run ⟨n, []⟩ sampleFlood = some c ∧
    c.log = late ++ some (.accepted msg contact t) ::
      (between ++ some (.accepted msg contact t) :: early) ∧ none ∉ between := by
  obtain ⟨n, c, between, hboot, hrun, hlog, hnone⟩ := sampleFlood_log
  exact ⟨n, c, _, between, _, _, _, _, hboot, hrun, hlog, hnone⟩

theorem accepted_again_after_window_sample : ∃ n c, ∃ between : List (Option (Event Empty)),
    boot (Sample.identity 2) none = .ok n ∧ host.run ⟨n, []⟩ sampleFlood = some c ∧
    windowSize ≤ (noncesFrom (senderOf (Sample.floodMsg 0))
      (acceptances between).reduceOption).length ∧
    Near 1000 (Sample.floodMsg 0) := by
  obtain ⟨n, c, between, hboot, hrun, hlog, hnone⟩ := sampleFlood_log
  have h := accepted_again_after_window Sample.serdeReads hboot hrun hlog
    (x := (Sample.floodMsg 0, some (Sample.contact 1), 1000))
    (y := (Sample.floodMsg 0, some (Sample.contact 1), 1000)) rfl rfl ⟨rfl, rfl⟩ hnone
  dsimp only at h
  obtain ⟨hle, hnear⟩ := h
  exact ⟨n, c, between, hboot, hrun, hle, hnear⟩

/-- When fewer than `max_seen` messages of a sender are accepted in all, two acceptances of the
same nonce lie in different processes, and the clock is near the timestamp at both.

Two acceptances in one process would lie a full window of acceptances apart, and there are not that
many. -/
theorem accepted_once_per_process (hserde : SerdeReads F) {identity : Identity F}
    {file : Option Text} {n : Node F} {as : List (HostAct F)}
    {c : Config (Node F) (Option (Event F))} (hboot : boot identity file = .ok n)
    (h : host.run ⟨n, []⟩ as = some c) {late between early : List (Option (Event F))}
    {e₁ e₂ : Event F} {x y : Acceptance F}
    (hlog : c.log = late ++ some e₂ :: (between ++ some e₁ :: early))
    (h₁ : e₁.acceptance? = some x) (h₂ : e₂.acceptance? = some y)
    (hsame : senderOf y.1 = senderOf x.1 ∧ nonceOf y.1 = nonceOf x.1)
    (hfew : (noncesFrom (senderOf x.1) (acceptances c.log).reduceOption).length < windowSize) :
    none ∈ between ∧ Near x.2.2 x.1 ∧ Near y.2.2 y.1 := by
  have hrec := recorded_run hboot h
  have hacc : acceptances c.log =
      acceptances late ++ some y :: (acceptances between ++ some x :: acceptances early) := by
    rw [hlog, acceptances_append, acceptances_cons h₂, acceptances_append, acceptances_cons h₁]
  refine ⟨?_, ?_, ?_⟩
  · -- within one process the two would lie a full window apart
    by_contra hprocess
    have hfresh := hrec.fresh
    rw [hacc] at hfresh
    have hle := hfresh.window_le hsame fun hm => hprocess (none_mem_acceptances.mp hm)
    have hsub : (acceptances between).Sublist (acceptances c.log) := by
      rw [hacc]
      exact (List.sublist_append_left _ _).trans
        ((List.sublist_cons_self _ _).trans (List.sublist_append_right _ _))
    have hlen := ((hsub.filterMap id).filterMap fun z : Acceptance F =>
      if senderOf z.1 = senderOf x.1 then some (nonceOf z.1) else none).length_le
    exact absurd (Nat.lt_of_le_of_lt (Nat.le_trans hle hlen) hfew) (Nat.lt_irrefl _)
  · refine (hrec.vouched x ?_).near hserde
    rw [hacc]
    exact List.mem_append_right _ (List.mem_cons_of_mem _
      (List.mem_append_right _ (List.mem_cons_self ..)))
  · refine (hrec.vouched y ?_).near hserde
    rw [hacc]
    exact List.mem_append_right _ (List.mem_cons_self ..)

/-- A contact is added and sends a ping; then the node is started again and the ping is
delivered once more. -/
def sampleRestart : List (HostAct Empty) :=
  [.node (.addContact (Sample.invited 1) true),
   .node (.inbound (Sample.line 1 2 [(Field.type, .str Kind.ping)] 7 1000) 1001 1002
     (Sample.random 8)),
   .restart,
   .node (.inbound (Sample.line 1 2 [(Field.type, .str Kind.ping)] 7 1000) 1001 1002
     (Sample.random 8))]

/-- The last message of the log was accepted at 1001 and again after a restart, with two events
of each delivery after it. -/
def acceptedAgain : List (Option (Event Empty)) → Bool
  | [_, _, some (.accepted msg _ t), none, _, _, some (.accepted msg' _ t')] =>
    msg = msg' && t = 1001 && t' = 1001
  | _ => false

/-- The same message before a restart and after it. -/
theorem sampleRestart_log : ∃ n c late between early msg contact contact',
    boot (Sample.identity 2) none = .ok n ∧ host.run ⟨n, []⟩ sampleRestart = some c ∧
    c.log = late ++ some (.accepted msg contact' 1001) ::
      (between ++ some (.accepted msg contact 1001) :: early) ∧ none ∈ between ∧
    (noncesFrom (senderOf msg) (acceptances c.log).reduceOption).length < windowSize := by
  have hok : (host.run ⟨Sample.node 2 [], []⟩ sampleRestart).any (fun c => acceptedAgain c.log) =
      true := by
    decide +kernel
  obtain ⟨c, hc, hcheck⟩ := (Option.any_eq_true _ _).mp hok
  have hfew : ∀ p, (noncesFrom p (acceptances c.log).reduceOption).length ≤ c.log.length := by
    intro p
    refine (List.length_filterMap_le _ _).trans ((List.length_filterMap_le _ _).trans ?_)
    exact List.length_filterMap_le _ _
  unfold acceptedAgain at hcheck
  split at hcheck
  · rename_i hlog
    simp only [Bool.and_eq_true, decide_eq_true_eq] at hcheck
    obtain ⟨⟨rfl, rfl⟩, rfl⟩ := hcheck
    have hlog' : c.log = _ := hlog
    refine ⟨Sample.node 2 [], c, [_, _], [none, _, _], [], _, _, _, rfl, hc, hlog', by simp, ?_⟩
    refine Nat.lt_of_le_of_lt (hfew _) ?_
    rw [hlog']
    show 7 < windowSize
    decide
  · cases hcheck

/-- A message accepted before a restart, and accepted again after it. -/
theorem accepted_again_after_restart : ∃ n c late between early msg contact contact' t,
    boot (Sample.identity 2) none = .ok n ∧ host.run ⟨n, []⟩ sampleRestart = some c ∧
    c.log = late ++ some (.accepted msg contact' t) ::
      (between ++ some (.accepted msg contact t) :: early) ∧ none ∈ between ∧
    (noncesFrom (senderOf msg) (acceptances c.log).reduceOption).length < windowSize := by
  obtain ⟨n, c, late, between, early, msg, contact, contact', h⟩ := sampleRestart_log
  exact ⟨n, c, late, between, early, msg, contact, contact', 1001, h⟩

theorem accepted_once_per_process_sample : ∃ n c, ∃ between : List (Option (Event Empty)), ∃ msg,
    boot (Sample.identity 2) none = .ok n ∧ host.run ⟨n, []⟩ sampleRestart = some c ∧
    none ∈ between ∧ Near (F := Empty) 1001 msg := by
  obtain ⟨n, c, late, between, early, msg, contact, contact', hboot, hrun, hlog, -, hfew⟩ :=
    sampleRestart_log
  have h := accepted_once_per_process Sample.serdeReads hboot hrun hlog
    (x := (msg, contact, 1001)) (y := (msg, contact', 1001)) rfl rfl ⟨rfl, rfl⟩ hfew
  exact ⟨n, c, between, msg, hboot, hrun, h.1, h.2.1⟩

end Node

end P4
