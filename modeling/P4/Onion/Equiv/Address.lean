/-
  The onion address that an invite promises.

  The key file decides which address a run registers, and the id file which one an invite
  prints.  They agree when a process has taken all its steps, but a process that dies while it
  writes one of them can leave a blank key or a blank id behind, and then an invite prints an
  address that no later run registers (`blank_key_changes_address`).  As long as no process dies
  in such a state, the address of an invite is the one of every later run
  (`onion_address_persistent`).
-/
import P4.Onion.Basic

namespace P4

/-! ### Words -/

theorem isSpace_of_visible {text : Text} (h : visible text = true) :
    ∀ c ∈ text, isSpace c = false := by
  intro c hc
  rw [visible, Bool.and_eq_true, List.all_eq_true] at h
  have hb := h.2 c hc
  rw [Bool.and_eq_true, decide_eq_true_eq, decide_eq_true_eq] at hb
  obtain ⟨hlo, hhi⟩ := hb
  simp only [isSpace, Bool.or_eq_false_iff, Bool.and_eq_false_iff, decide_eq_false_iff_not]
  omega

theorem ne_nil_of_visible {text : Text} (h : visible text = true) : text ≠ [] := by
  rintro rfl
  cases h

/-- A text without white space at its ends is left alone. -/
theorem strip_eq_self {text : Text} (h : ∀ c ∈ text, isSpace c = false) : strip text = text := by
  have hdrop : ∀ t : Text, (∀ c ∈ t, isSpace c = false) → t.dropWhile isSpace = t := by
    intro t ht
    cases t with
    | nil => rfl
    | cons c t => rw [List.dropWhile_cons, if_neg (by simp [ht c (List.mem_cons_self ..)])]
  rw [strip, hdrop text h, hdrop _ fun c hc => h c (List.mem_reverse.mp hc), List.reverse_reverse]

/-- A word that was written as a line. -/
theorem strip_line {text : Text} (h : visible text = true) : strip (text ++ ['\n']) = text := by
  have hspace := isSpace_of_visible h
  obtain ⟨c, t, rfl⟩ := List.exists_cons_of_ne_nil (ne_nil_of_visible h)
  have hc : isSpace c = false := hspace c (List.mem_cons_self ..)
  have hnl : isSpace '\n' = true := by decide
  rw [strip, List.cons_append, List.dropWhile_cons, if_neg (by simp [hc]), ← List.cons_append,
    List.reverse_append, List.reverse_singleton, List.singleton_append, List.dropWhile_cons,
    if_pos hnl]
  have hself := strip_eq_self hspace
  rw [strip, List.dropWhile_cons, if_neg (by simp [hc])] at hself
  exact hself

theorem loadOnionKeyBlob_line {k : Text} (h : visible k = true) :
    loadOnionKeyBlob (some (k ++ ['\n'])) = some k := by
  rw [loadOnionKeyBlob, strip_line h]
  have hne : k.isEmpty = false := by simpa using ne_nil_of_visible h
  simp [hne]

/-! ### The reply of the relay -/

theorem parseReply_stored {sid : Text} (h : visible sid = true) :
    parseReply ["ServiceID=".toList ++ sid, "OK".toList] = (some sid, none) := by
  show (some (strip sid), none) = _
  rw [strip_eq_self (isSpace_of_visible h)]

/-- A new service has an id and a key. -/
theorem parseReply_new {sid k : Text} (hsid : visible sid = true) (hk : visible k = true) :
    parseReply ["ServiceID=".toList ++ sid, "PrivateKey=ED25519-V3:".toList ++ k, "OK".toList] =
      (some sid, some k) := by
  have hvalue : strip ("ED25519-V3:".toList ++ k) = "ED25519-V3:".toList ++ k := by
    refine strip_eq_self fun c hc => ?_
    rcases List.mem_append.mp hc with hc | hc
    · have hall : ∀ c ∈ "ED25519-V3:".toList, isSpace c = false := by simp [isSpace]
      exact hall c hc
    · exact isSpace_of_visible hk c hc
  show (if "ED25519-V3:".toList.isPrefixOf (strip ("ED25519-V3:".toList ++ k)) then
    (some (strip sid), some (strip (afterFirst ':' (strip ("ED25519-V3:".toList ++ k)))))
    else (some (strip sid), none)) = _
  rw [hvalue, strip_eq_self (isSpace_of_visible hsid)]
  show (some sid, some (strip k)) = _
  rw [strip_eq_self (isSpace_of_visible hk)]

theorem keySpec_ne_new (k : Text) : keySpec (some k) ≠ "NEW:ED25519-V3".toList := by
  intro h
  have hhead : some 'E' = some 'N' := congrArg List.head? h
  exact absurd hhead (by decide)

/-! ### Files that agree -/

section

variable (serviceId : Text → Option Text)

/-- The key file holds a key, and the id file its service id `sid`. -/
def OnionFiles.Holds (files : OnionFiles) (sid : Text) : Prop :=
  ∃ k, loadOnionKeyBlob files.key = some k ∧ serviceId k = some sid ∧
    files.id.map strip = some sid

/-- The key file is absent, or it holds a key and the id file the service id of that key. -/
def OnionFiles.consistent (files : OnionFiles) : Bool :=
  match files.key, loadOnionKeyBlob files.key with
  | none, _ => true
  | some _, none => false
  | some _, some k => (serviceId k).isSome && decide (files.id.map strip = serviceId k)

end

section

variable {serviceId : Text → Option Text} {files : OnionFiles}

/-- There is no key, or both files are of the same service. -/
theorem OnionFiles.consistent_iff :
    files.consistent serviceId = true ↔ files.key = none ∨ ∃ sid, files.Holds serviceId sid := by
  unfold consistent Holds
  cases hkey : files.key with
  | none => simp
  | some text =>
    cases hload : loadOnionKeyBlob (some text) with
    | none => simp
    | some k =>
      cases hsid : serviceId k with
      | none => simp [hsid]
      | some sid => simp [hsid]

/-! ### What a process leaves behind -/

/-- The step changes the key file. -/
def FileOp.writesKey : FileOp → Bool
  | openKey => true
  | writeKey _ => true
  | _ => false

theorem FileOp.key_apply {op : FileOp} (h : op.writesKey = false) :
    (op.apply files).key = files.key := by
  cases op <;> first | rfl | cases h

/-- When the process has taken all its steps the files agree, on the service id it has from the
relay; it changes the key file only when that holds no key, and a key is written last. -/
structure OnionProcess.Ends (serviceId : Text → Option Text) (files : OnionFiles)
    (p : OnionProcess) : Prop where
  agrees : ∃ sid, (p.todo.foldl FileOp.apply files).Holds serviceId sid ∧
    (p.command = .run → p.serviceId = sid)
  returns : .raise ∉ p.todo
  keeps : ∀ op ∈ p.todo, op.writesKey = true → loadOnionKeyBlob files.key = none
  last : p.todo.Pairwise fun a b => (∃ text, a = .writeKey text) → b.writesKey = false

/-- One step on the files. -/
theorem OnionProcess.Ends.advance {p : OnionProcess} {op : FileOp} {todo : List FileOp}
    (h : p.Ends serviceId files) (htodo : p.todo = op :: todo) :
    OnionProcess.Ends serviceId (op.apply files) { p with todo := todo } := by
  obtain ⟨command, sid, todo'⟩ := p
  obtain ⟨hagrees, hreturns, hkeeps, hlast⟩ := h
  dsimp only at htodo hagrees hreturns hkeeps hlast
  subst htodo
  rw [List.pairwise_cons] at hlast
  refine ⟨hagrees, fun hraise => hreturns (List.mem_cons_of_mem _ hraise), ?_, hlast.2⟩
  intro op' hop' hwrites
  have hold := hkeeps op' (List.mem_cons_of_mem _ hop') hwrites
  cases op with
  | openKey => rfl
  | writeKey text =>
    -- no step after this one changes the key file
    have hno := hlast.1 op' hop' ⟨text, rfl⟩
    rw [hno] at hwrites
    cases hwrites
  | _ => exact hold

/-- The steps that store a service leave the files in agreement. -/
theorem ends_storeOnion {sid : Text} (hsid : visible sid = true) {command : OnionCommand}
    {newKeyBlob existingBlob : Option Text} (hnew : ∀ k ∈ newKeyBlob, visible k = true)
    (hload : loadOnionKeyBlob files.key = existingBlob)
    (hone : newKeyBlob.isSome = true ↔ existingBlob = none)
    (hkey : ∀ k, newKeyBlob.or existingBlob = some k → serviceId k = some sid) :
    OnionProcess.Ends serviceId files
      { command := command, serviceId := sid, todo := storeOnion sid newKeyBlob existingBlob } := by
  cases newKeyBlob with
  | some k =>
    -- a new key is stored beside its address
    have hexisting : existingBlob = none := hone.mp rfl
    rw [hexisting] at hload ⊢
    refine ⟨⟨sid, ⟨k, loadOnionKeyBlob_line (hnew k rfl), hkey k rfl, ?_⟩, fun _ => rfl⟩,
      ?_, ?_, ?_⟩
    · show some (strip (sid ++ ['\n'])) = some sid
      rw [strip_line hsid]
    · simp [storeOnion]
    · exact fun _ _ _ => hload
    · simp [storeOnion, FileOp.writesKey]
  | none =>
    -- the key that is there already stays
    cases existingBlob with
    | none => exact absurd (hone.mpr rfl) (by simp)
    | some k =>
      refine ⟨⟨sid, ⟨k, hload, hkey k rfl, ?_⟩, fun _ => rfl⟩, ?_, ?_, ?_⟩
      · show some (strip (sid ++ ['\n'])) = some sid
        rw [strip_line hsid]
      · simp [storeOnion]
      · intro op hop hwrites
        simp only [storeOnion, List.append_nil, List.mem_cons, List.not_mem_nil, or_false] at hop
        rcases hop with rfl | rfl | rfl <;> cases hwrites
      · simp [storeOnion]

/-! ### Steps -/

/-- What the relay is asked for and what the process does with its reply. -/
theorem OnionDir.addService_spec (hvisible : ∀ k sid, serviceId k = some sid → visible sid = true)
    {s s' : OnionDir} {command : OnionCommand} {drawn : KeyBlob} {out : List OnionEvent}
    (h : s.addService serviceId command drawn = (s', out)) :
    (s' = s ∧ out = []) ∨ ∃ p : OnionProcess, s' = { s with process := some p } ∧
      p.Ends serviceId s.files ∧ (out = [] ∨ out = [.registered (onionAddress p.serviceId)]) ∧
      ∀ k, loadOnionKeyBlob s.files.key = some k → serviceId k = some p.serviceId := by
  have hnonempty : ∀ {t : Text}, visible t = true → t.isEmpty = false := by
    intro t ht
    simpa using ne_nil_of_visible ht
  unfold addService at h
  dsimp only at h
  cases hblob : loadOnionKeyBlob s.files.key with
  | some k =>
    -- the stored key is sent, and the relay has its service id already
    have hreply : addOnion serviceId (keySpec (some k)) drawn = (serviceId k).map fun sid =>
        ["ServiceID=".toList ++ sid, "OK".toList] := by
      rw [addOnion, if_neg (keySpec_ne_new k)]
      rfl
    rw [hblob, hreply] at h
    cases hsid : serviceId k with
    | none =>
      rw [hsid] at h
      cases h
      exact Or.inl ⟨rfl, rfl⟩
    | some sid =>
      have hv := hvisible k sid hsid
      simp only [hsid, Option.map_some, parseReply_stored hv, hnonempty hv] at h
      cases h
      refine Or.inr ⟨_, rfl, ends_storeOnion hv ?_ hblob (by simp) ?_, ?_, fun j hj => ?_⟩
      · intro j hj
        cases hj
      · intro j hj
        cases hj
        exact hsid
      · cases command with
        | run => exact Or.inr rfl
        | invite => exact Or.inl rfl
      · cases hj
        exact hsid
  | none =>
    have hreply : addOnion serviceId (keySpec none) drawn = (serviceId drawn.val).map fun sid =>
        ["ServiceID=".toList ++ sid, "PrivateKey=ED25519-V3:".toList ++ drawn.val,
          "OK".toList] := by
      rw [addOnion]
      exact if_pos rfl
    rw [hblob, hreply] at h
    cases hsid : serviceId drawn.val with
    | none =>
      rw [hsid] at h
      cases h
      exact Or.inl ⟨rfl, rfl⟩
    | some sid =>
      have hv := hvisible _ sid hsid
      have hk := drawn.property
      simp only [hsid, Option.map_some, parseReply_new hv hk, hnonempty hv] at h
      cases h
      have hfilter : ((some drawn.val).filter fun blob : Text => !blob.isEmpty) =
          some drawn.val := by
        simp [Option.filter, hnonempty hk]
      refine Or.inr ⟨_, rfl, ?_, ?_, fun j hj => ?_⟩
      · rw [hfilter]
        refine ends_storeOnion hv (fun k hk' => ?_) hblob (by simp) fun k hk' => ?_
        · cases hk'
          exact hk
        · cases hk'
          exact hsid
      · cases command with
        | run => exact Or.inr rfl
        | invite => exact Or.inl rfl
      · cases hj

/-- No address that was printed differs from one that is registered later. -/
def addressKept (past : List OnionEvent) (e : OnionEvent) : Prop :=
  ∀ b, e = .registered b → ∀ a, .printed a ∈ past → b = a

/-- Between processes the files agree, a process will bring them into agreement, and every
address that was printed is the one of the key. -/
structure Addressed (serviceId : Text → Option Text) (c : Config OnionDir OnionEvent) : Prop where
  idle : c.state.process = none → c.state.files.consistent serviceId = true
  busy : ∀ p, c.state.process = some p → p.Ends serviceId c.state.files
  printed : ∀ a, .printed a ∈ c.log → ∃ k sid, loadOnionKeyBlob c.state.files.key = some k ∧
    serviceId k = some sid ∧ a = onionAddress sid
  kept : Along addressKept c.log

/-- The address of files that agree is printed, and the process ends. -/
theorem Addressed.print {s : OnionDir} {log : List OnionEvent} {sid : Text}
    (h : Addressed serviceId ⟨s, log⟩) (hfiles : s.files.Holds serviceId sid) :
    Addressed serviceId ⟨{ s with process := none }, .printed (onionAddress sid) :: log⟩ := by
  refine ⟨fun _ => OnionFiles.consistent_iff.mpr (Or.inr ⟨sid, hfiles⟩), fun p hp => (nomatch hp),
    fun a ha => ?_, ⟨fun b hb => (nomatch hb), h.kept⟩⟩
  rcases List.mem_cons.mp ha with heq | ha
  · cases heq
    obtain ⟨k, hk, hsid, -⟩ := hfiles
    exact ⟨k, sid, hk, hsid, rfl⟩
  · exact h.printed a ha

/-- Every step keeps this, when a process dies only while the files agree. -/
theorem Addressed.step (hvisible : ∀ k sid, serviceId k = some sid → visible sid = true)
    {c c' : Config OnionDir OnionEvent} {a : OnionAct} (h : Addressed serviceId c)
    (hdie : a = .die → c.state.files.consistent serviceId = true)
    (hnext : Machine.next (OnionDir.step serviceId) c a = some c') : Addressed serviceId c' := by
  obtain ⟨s, log⟩ := c
  obtain ⟨s', log'⟩ := c'
  obtain ⟨out, hstep, hlog⟩ := Machine.next_eq_some.mp hnext
  dsimp only at hlog
  subst hlog
  have hprinted : ∀ a, .printed a ∈ log → ∃ k sid, loadOnionKeyBlob s.files.key = some k ∧
    serviceId k = some sid ∧ a = onionAddress sid := h.printed
  -- a command that asks the relay for a service
  have hservice : ∀ command drawn, s.addService serviceId command drawn = (s', out) →
      Addressed serviceId ⟨s', out.reverse ++ log⟩ := by
    intro command drawn hadd
    rcases OnionDir.addService_spec hvisible hadd with ⟨rfl, rfl⟩ | ⟨p, rfl, hends, hout, hkey⟩
    · exact h
    · refine ⟨fun hnone => (nomatch hnone), fun q hq => ?_, fun a ha => hprinted a ?_, ?_⟩
      · cases hq
        exact hends
      · rcases hout with rfl | rfl
        · exact ha
        · simpa using ha
      · rcases hout with rfl | rfl
        · exact h.kept
        · refine ⟨?_, h.kept⟩
          -- the relay gives the service id of the key, and so does every invite before
          intro b hb a ha
          obtain ⟨k, sid, hk, hsid, rfl⟩ := hprinted a ha
          rw [hkey k hk] at hsid
          cases hsid
          cases hb
          rfl
  unfold OnionDir.step at hstep
  split at hstep
  · exact hservice .run _ (Option.some.inj hstep)
  · rename_i hnone
    split_ifs at hstep with hexist
    · cases hstep
      have hfiles := h.idle hnone
      refine ⟨fun hp => (nomatch hp), fun q hq => ?_, hprinted, h.kept⟩
      cases hq
      -- both files exist, so they hold a key and its service id
      rcases OnionFiles.consistent_iff.mp hfiles with hkey | ⟨sid, hholds⟩
      · rw [Bool.and_eq_true, hkey] at hexist
        cases hexist.2
      · exact ⟨⟨sid, hholds, fun hc => nomatch hc⟩, fun hr => (nomatch hr),
          fun _ ho => (nomatch ho), List.Pairwise.nil⟩
    · exact hservice .invite _ (Option.some.inj hstep)
  · rename_i p hp
    have hends := h.busy p hp
    split at hstep
    · cases hstep
    · rename_i todo htodo
      refine absurd ?_ hends.returns
      rw [htodo]
      exact List.mem_cons_self ..
    · rename_i op todo hraise htodo
      cases hstep
      refine ⟨fun hp => (nomatch hp), fun q hq => ?_, fun a ha => ?_, h.kept⟩
      · cases hq
        exact hends.advance htodo
      · -- once an address is printed no step touches the key file
        obtain ⟨k, sid, hk, hsid, rfl⟩ := hprinted a ha
        refine ⟨k, sid, ?_, hsid, rfl⟩
        have hno : op.writesKey = false := by
          cases hw : op.writesKey with
          | false => rfl
          | true =>
            rw [hends.keeps op (by rw [htodo]; exact List.mem_cons_self ..) hw] at hk
            cases hk
        rw [FileOp.key_apply hno]
        exact hk
  · rename_i p hp
    obtain ⟨sid, hholds, hrun⟩ := (h.busy p hp).agrees
    split at hstep
    · rename_i htodo
      rw [htodo] at hholds
      split at hstep
      · rename_i hcommand
        cases hstep
        rw [hrun hcommand]
        exact h.print hholds
      · split at hstep
        · rename_i hid
          obtain ⟨k, -, -, hmap⟩ := hholds
          rw [List.foldl_nil, hid] at hmap
          cases hmap
        · rename_i text hid
          cases hstep
          have hsid : strip text = sid := by
            obtain ⟨k, -, -, hmap⟩ := hholds
            rw [List.foldl_nil, hid] at hmap
            exact Option.some.inj hmap
          rw [hsid]
          exact h.print hholds
    · cases hstep
  · cases hstep
    exact ⟨fun _ => hdie rfl, fun p hp => (nomatch hp), hprinted, h.kept⟩
  · cases hstep

/-! ### Runs -/

/-- In every sequence of `run` and `invite`, as long as a process dies only while the key file is
absent or holds a key whose service id is in the id file: every address that was printed in an
invite is the one that every later run registers.

The invariant is `Addressed`: an address that was printed is the one of the key in the key file,
and no step but a death in between can separate the two files. -/
theorem onion_address_persistent
    (hvisible : ∀ k sid, serviceId k = some sid → visible sid = true) {files : OnionFiles}
    (hfiles : files.consistent serviceId = true) {as : List OnionAct}
    {c : Config OnionDir OnionEvent}
    (hok : Machine.Meets (OnionDir.step serviceId)
      (fun c a => a = .die → c.state.files.consistent serviceId = true) ⟨{ files := files }, []⟩ as)
    (h : Machine.run (OnionDir.step serviceId) ⟨{ files := files }, []⟩ as = some c) :
    Along addressKept c.log := by
  have haddressed : Addressed serviceId c := by
    refine Machine.run_invariant_of_meets (P := Addressed serviceId) ?_ ?_ hok h
    · exact fun d a d' hd hdie hnext => hd.step hvisible hdie hnext
    · exact ⟨fun _ => hfiles, fun p hp => (nomatch hp), fun a ha => (nomatch ha), trivial⟩
  exact haddressed.kept

end

/-! ### Samples -/

namespace Sample

/-- A relay that refuses what is no word. -/
def relay (k : Text) : Option Text := if visible k then some ('s' :: k) else none

theorem visible_relay (k sid : Text) (h : relay k = some sid) : visible sid = true := by
  unfold relay at h
  split_ifs at h with hk
  cases h
  rw [visible, Bool.and_eq_true, List.all_eq_true] at hk ⊢
  refine ⟨rfl, fun c hc => ?_⟩
  rcases List.mem_cons.mp hc with rfl | hc
  · decide
  · exact hk.2 c hc

/-- A directory without the two files. -/
def noFiles : OnionFiles where
  id := none
  key := none

/-- A key for the first command and one for the others. -/
def firstBlob : KeyBlob := ⟨['k', '1'], by decide⟩

/-- The key that the relay draws later. -/
def secondBlob : KeyBlob := ⟨['k', '2'], by decide⟩

/-- The first run dies when it has opened the key file; an invite and another run follow. -/
def blankKeyRun : List OnionAct :=
  [.start .run firstBlob, .advance, .advance, .advance, .advance, .die, .start .invite secondBlob,
    .finish, .start .run secondBlob]

/-- The first run dies before it opens the key file; an invite, which has to get a new key, and
a run follow. -/
def earlyDeathRun : List OnionAct :=
  [.start .run firstBlob, .advance, .advance, .advance, .die, .start .invite secondBlob, .advance,
    .advance, .advance, .advance, .advance, .advance, .finish, .start .run firstBlob]

end Sample

/-- An invite prints an address that the next run does not register. -/
theorem blank_key_changes_address : ∃ (c : Config OnionDir OnionEvent) (a b : Text)
    (early : List OnionEvent), (∀ k sid, Sample.relay k = some sid → visible sid = true) ∧
    Sample.noFiles.consistent Sample.relay = true ∧
    Machine.run (OnionDir.step Sample.relay) ⟨{ files := Sample.noFiles }, []⟩
      Sample.blankKeyRun = some c ∧
    c.log = .registered b :: early ∧ .printed a ∈ early ∧ b ≠ a := by
  have hlog : (Machine.run (OnionDir.step Sample.relay) ⟨{ files := Sample.noFiles }, []⟩
      Sample.blankKeyRun).map Config.log = some [.registered (onionAddress ['s', 'k', '2']),
        .printed (onionAddress ['s', 'k', '1']), .registered (onionAddress ['s', 'k', '1'])] := by
    decide +kernel
  obtain ⟨c, hc, hlog⟩ := Option.map_eq_some_iff.mp hlog
  exact ⟨c, _, _, _, Sample.visible_relay, rfl, hc, hlog, List.mem_cons_self .., by decide⟩

theorem onion_address_persistent_sample : ∃ c,
    Machine.run (OnionDir.step Sample.relay) ⟨{ files := Sample.noFiles }, []⟩
      Sample.earlyDeathRun = some c ∧
    c.log.head? = some (.registered (onionAddress ['s', 'k', '2'])) ∧
    Along addressKept c.log := by
  have hok : Machine.Meets (OnionDir.step Sample.relay)
      (fun c a => a = .die → c.state.files.consistent Sample.relay = true)
      ⟨{ files := Sample.noFiles }, []⟩ Sample.earlyDeathRun := by decide +kernel
  have hrun : (Machine.run (OnionDir.step Sample.relay) ⟨{ files := Sample.noFiles }, []⟩
      Sample.earlyDeathRun).map (fun c => c.log.head?) =
        some (some (.registered (onionAddress ['s', 'k', '2']))) := by decide +kernel
  obtain ⟨c, hc, hhead⟩ := Option.map_eq_some_iff.mp hrun
  exact ⟨c, hc, hhead, onion_address_persistent Sample.visible_relay rfl hok hc⟩

end P4
