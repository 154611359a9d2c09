/-
  The bindings give every string back once, and what they return is right.

  Every method of a binding ends without a string of its own, whatever other threads do to
  `LAST_ERROR` (`wp_method`), so clients of any number of threads never use a string that was
  freed and leave none behind (`strings_given_back`).  A result is that of the call; an exception
  may carry the text of another thread's error, but never replaces a result
  (`results_of_interleaved_calls`).  In a process of one thread the text is that of the call
  itself (`error_text_of_one_thread`).
-/
import P4.Core.Equiv.Abi
import P4.Core.Strings
import P4.Heap.Logic

namespace P4

/-! ### Programs that use the C ABI -/

section

variable {ε : Type} {rely guar : Option Str → Option Str → Prop} {E : ε → Prop} {r : Option Str}
  {own : Heap Str}

/-- What `into_c_string_ptr` leaves in `LAST_ERROR` when the value has a NUL. -/
def nulError (value : Str) : Option Str := (intoCStringPtr value none).2

/-- A string is made, or the error text is set to that of the failed conversion. -/
theorem Ffi.wp_intoCStringPtr {Q : Option Nat → Option Str → Heap Str → Prop} {value : Str}
    (hnul : 0 ∈ value → ∀ r', rely r r' → guar r' (nulError value) ∧
      ∀ r'', rely (nulError value) r'' → Q none r'' own)
    (hok : 0 ∉ value → ∀ p, own p = none → ∀ r', rely r r' →
      Q (some p) r' (Function.update own p (some value))) :
    (Ffi.intoCStringPtr value : AbiProg ε (Option Nat)).wp rely guar E Q r own := by
  unfold Ffi.intoCStringPtr
  split_ifs with h
  · exact hnul h
  · exact hok h

/-- The error text is cleared or set, by how the body ends. -/
theorem Ffi.wp_withErrorCapture {α β : Type} {Q : β → Option Str → Heap Str → Prop}
    {body : Except CoreError α} {some : α → AbiProg ε β} {none : β}
    (hclear : ∀ r', rely r r' → guar r' .none)
    (hok : ∀ v, body = .ok v → (some v).wp rely guar E Q .none own)
    (herror : ∀ e, body = .error e → ∀ r', rely .none r' → guar r' (.some e.display) ∧
      ∀ r'', rely (.some e.display) r'' → Q none r'' own) :
    (Ffi.withErrorCapture body some none).wp rely guar E Q r own := by
  intro r' hr
  refine ⟨hclear r' hr, ?_⟩
  cases body with
  | ok v => exact hok v rfl
  | error e => exact herror e rfl

/-- A string that is the own one is read and given back. -/
theorem Ffi.wp_readOwned {Q : Str → Option Str → Heap Str → Prop} {p : Nat} {value : Str}
    (hp : own p = some value)
    (hQ : ∀ r', rely r r' → Q value r' (Function.update own p none)) :
    (Ffi.readOwned p : AbiProg ε Str).wp rely guar E Q r own :=
  ⟨value, hp, ⟨value, hp⟩, hQ⟩

/-- A string that is taken and given back. -/
theorem update_update_none {p : Nat} (hp : own p = none) (value : Str) :
    Function.update (Function.update own p (some value)) p none = own := by
  rw [Function.update_idem, ← hp]
  exact Function.update_eq_self p own

/-- `p4_last_error_message`, and what the caller does with the text or without one. -/
theorem wp_askError (hrefl : ∀ r, rely r r) (htrans : ∀ r s t, rely r s → rely s t → rely r t)
    {Q : Except Str Str → Option Str → Heap Str → Prop} {missing : AbiProg ε (Except Str Str)}
    (hmissing : ∀ last s, rely r last → rely last s → 0 ∈ last.getD [] →
      guar s (nulError (last.getD [])) ∧
        missing.wp rely guar E Q (nulError (last.getD [])) own)
    (htext : ∀ last s, rely r last → rely last s → 0 ∉ last.getD [] →
      Q (.ok (last.getD [])) s own) :
    (Ffi.lastErrorMessage.bind fun ptr =>
      match ptr with
      | none => missing
      | some p => (Ffi.readOwned p).bind fun text => .ret (.ok text)).wp rely guar E Q r own := by
  apply Prog.wp_bind hrefl
  intro last hlast
  apply Ffi.wp_intoCStringPtr
  · intro hnul s hs
    obtain ⟨hguar, hwp⟩ := hmissing last s hlast hs hnul
    exact ⟨hguar, fun u hu => Prog.wp_stable htrans hu hwp⟩
  · intro hok p hp s hs
    apply Prog.wp_bind hrefl
    refine Ffi.wp_readOwned (Function.update_self ..) fun u hu => ?_
    rw [update_update_none hp]
    exact fun v hv => htext last v hlast (htrans _ _ _ hs (htrans _ _ _ hu hv)) hok

end

/-- The text of a failed conversion can be converted. -/
theorem nulError_eq {value : Str} (h : 0 ∈ value) :
    ∃ m, nulError value = some m ∧ 0 ∉ m := by
  rw [nulError, intoCStringPtr, if_pos h]
  refine ⟨_, rfl, ?_⟩
  rw [List.mem_append, not_or]
  exact ⟨by simp, zero_not_mem_decimal _⟩

theorem stringCall_of_nul {v : Str} (h : 0 ∈ v) : stringCall (.ok v) = (none, nulError v) := by
  rw [nulError, stringCall, withErrorCapture]
  dsimp only
  rw [intoCStringPtr, if_pos h]

theorem stringCall_of_not_nul {v : Str} (h : 0 ∉ v) : stringCall (.ok v) = (some v, none) := by
  rw [stringCall, withErrorCapture]
  dsimp only
  rw [intoCStringPtr, if_neg h]

/-! ### Methods -/

section

variable {F : Type} [JsonFloat F] [Crates F]

/-- The threads keep `I` of `LAST_ERROR`, and a binding that asks for the error text of a call
that left `last` gets a text `m` with `T last m`. -/
structure Scheme (b : Binding) (depth : Nat) (rely guar : Option Str → Option Str → Prop)
    (I : Option Str → Prop) (T : Option Str → Str → Prop) : Prop where
  refl : ∀ r, rely r r
  trans : ∀ r s t, rely r s → rely s t → rely r t
  kept : ∀ r s, rely r s → I r → I s
  may : ∀ r s, I s → guar r s
  cleared : I none
  nul : ∀ v, 0 ∈ v → I (nulError v)
  lastError : ∀ {ε : Type} {E : ε → Prop} {r : Option Str} {own : Heap Str}, I r →
    (b.lastError depth : AbiProg ε (Except Str Str)).wp rely guar E
      (fun res s own' => I s ∧ own' = own ∧ ∃ m, T r m ∧ (res = .ok m ∨ res = .error m)) r own

/-- The result is the string that the library made; without one there is an exception. -/
def Answered (T : Option Str → Str → Prop) (body : Except CoreError Str)
    (res : Except Str Str) : Prop :=
  match stringCall body with
  | (some v, _) => res = .ok v
  | (none, last) => ∃ m, T last m ∧ res = .error m

variable {ε : Type} {E : ε → Prop} {b : Binding} {depth : Nat}
  {rely guar : Option Str → Option Str → Prop} {I : Option Str → Prop}
  {T : Option Str → Str → Prop} {r : Option Str} {own : Heap Str}

theorem Scheme.raise (h : Scheme b depth rely guar I T) (hr : I r) :
    (b.raise depth : AbiProg ε (Except Str Str)).wp rely guar E
      (fun res s own' => I s ∧ own' = own ∧ ∃ m, T r m ∧ res = .error m) r own := by
  apply Prog.wp_bind h.refl
  refine Prog.wp_mono ?_ (h.lastError hr)
  rintro res s own' ⟨hs, rfl, m, hm, rfl | rfl⟩
  · exact fun u hu => ⟨h.kept _ _ hu hs, rfl, m, hm, rfl⟩
  · exact fun u hu => ⟨h.kept _ _ hu hs, rfl, m, hm, rfl⟩

/-- A method that takes a string. -/
theorem Scheme.stringMethod (h : Scheme b depth rely guar I T) {body : Except CoreError Str}
    (hbody : ∀ e, body = .error e → I (some e.display)) (r : Option Str) :
    ((Ffi.stringFn body).bind (b.takeString depth) : AbiProg ε (Except Str Str)).wp rely guar E
      (fun res s own' => I s ∧ own' = own ∧ Answered T body res) r own := by
  apply Prog.wp_bind h.refl
  apply Ffi.wp_withErrorCapture
  · exact fun r' _ => h.may r' none h.cleared
  · rintro v rfl
    apply Ffi.wp_intoCStringPtr
    · -- the string cannot be made, and nothing is handed out
      intro hnul s _
      refine ⟨h.may s _ (h.nul v hnul), fun u hu => ?_⟩
      refine Prog.wp_stable h.trans hu (Prog.wp_mono ?_ (h.raise (h.nul v hnul)))
      rintro res t own' ⟨ht, rfl, hm⟩
      refine ⟨ht, rfl, ?_⟩
      rw [Answered, stringCall_of_nul hnul]
      exact hm
    · -- the string is read and given back
      intro hok p hp s hs
      apply Prog.wp_bind h.refl
      refine Ffi.wp_readOwned (Function.update_self ..) fun u hu => ?_
      rw [update_update_none hp]
      have hs' := h.kept _ _ (h.trans _ _ _ hs hu) h.cleared
      refine fun t ht => ⟨h.kept _ _ ht hs', rfl, ?_⟩
      rw [Answered, stringCall_of_not_nul hok]
  · rintro e rfl s _
    have he := hbody e rfl
    refine ⟨h.may s _ he, fun u hu => ?_⟩
    refine Prog.wp_stable h.trans hu (Prog.wp_mono ?_ (h.raise he))
    rintro res t own' ⟨ht, rfl, hm⟩
    exact ⟨ht, rfl, hm⟩

/-- The method that checks an envelope: the library returns 1, or an exception is raised. -/
theorem Scheme.flagMethod (h : Scheme b depth rely guar I T) {body : Except CoreError Str}
    (hnil : ∀ v, body = .ok v → v = []) (hbody : ∀ e, body = .error e → I (some e.display))
    (r : Option Str) :
    ((Ffi.flagFn (body.map fun _ => ())).bind fun ok =>
        if ok then .ret (.ok []) else b.raise depth : AbiProg ε (Except Str Str)).wp rely guar E
      (fun res s own' => I s ∧ own' = own ∧ Answered T body res) r own := by
  apply Prog.wp_bind h.refl
  apply Ffi.wp_withErrorCapture
  · exact fun r' _ => h.may r' none h.cleared
  · intro u hu s hs t ht
    have ht' := h.kept _ _ (h.trans _ _ _ hs ht) h.cleared
    cases body with
    | ok v =>
      refine ⟨ht', rfl, ?_⟩
      rw [hnil v rfl]
      rfl
    | error e => cases hu
  · intro e he s _
    cases body with
    | ok v => cases he
    | error e' =>
      cases he
      have hleft := hbody e rfl
      refine ⟨h.may s _ hleft, fun u hu => ?_⟩
      refine Prog.wp_stable h.trans hu (Prog.wp_mono ?_ (h.raise hleft))
      rintro res t own' ⟨ht, rfl, hm⟩
      exact ⟨ht, rfl, hm⟩

theorem body_verifyEnvelope {envelope key : Text} {now skew : UInt64} {v : Str}
    (h : (BindingCall.verifyEnvelope envelope key now skew).body F = .ok v) : v = [] := by
  rw [BindingCall.body] at h
  cases hv : verifyEnvelopeJson F (some envelope) (some key) now skew with
  | ok u =>
    rw [hv] at h
    cases h
    rfl
  | error e =>
    rw [hv] at h
    cases h

variable (F) in
/-- The result is that of the call; a call of `lastError` tells a text that some call left. -/
def Answers (I : Option Str → Prop) (T : Option Str → Str → Prop) :
    BindingCall → Except Str Str → Prop
  | .lastError, res => ∃ last m, I last ∧ T last m ∧ (res = .ok m ∨ res = .error m)
  | c, res => Answered T (c.body F) res

theorem Answered.of_some {body : Except CoreError Str} {res : Except Str Str} {v : Str}
    (h : Answered T body res) (hv : (stringCall body).1 = some v) : res = .ok v := by
  unfold Answered at h
  split at h
  · rename_i heq
    rw [heq] at hv
    rw [h, Option.some.inj hv]
  · rename_i heq
    rw [heq] at hv
    cases hv

theorem Answered.of_none {body : Except CoreError Str} {res : Except Str Str}
    (h : Answered T body res) (hnone : (stringCall body).1 = none) :
    ∃ m, T (stringCall body).2 m ∧ res = .error m := by
  unfold Answered at h
  split at h
  · rename_i heq
    rw [heq] at hnone
    cases hnone
  · rename_i heq
    rw [heq]
    exact h

theorem Answers.answered {c : BindingCall} {res : Except Str Str} (h : Answers F I T c res)
    (hc : c ≠ .lastError) : Answered T (c.body F) res := by
  cases c with
  | lastError => exact absurd rfl hc
  | _ => exact h

/-- Every method ends without a string of its own, and answers the call. -/
theorem Scheme.method (h : Scheme b depth rely guar I T) {c : BindingCall}
    (hbody : ∀ e, c.body F = .error e → I (some e.display)) (hr : I r) :
    (b.method F depth c : AbiProg ε (Except Str Str)).wp rely guar E
      (fun res s own' => I s ∧ own' = own ∧ Answers F I T c res) r own := by
  cases c with
  | generateIdentity key => exact h.stringMethod hbody r
  | peerIdFromPublicKeyB64 key => exact h.stringMethod hbody r
  | signEnvelope priv sender recipient payload ts nonce => exact h.stringMethod hbody r
  | lastError =>
    refine Prog.wp_mono ?_ (h.lastError hr)
    rintro res s own' ⟨hs, rfl, m, hm, hres⟩
    exact ⟨hs, rfl, r, m, hr, hm, hres⟩
  | verifyEnvelope envelope key now skew =>
    exact h.flagMethod (fun _ => body_verifyEnvelope) hbody r

/-! ### Clients -/

/-- The calls that a client can make. -/
def Client.MayAsk : Client → BindingCall → Prop
  | done, _ => False
  | call _ c' _ k, c => c = c' ∨ ∃ r, (k r).MayAsk c

/-- A client ends without a string, and every call is answered. -/
theorem wp_client {T : Binding → Option Str → Str → Prop}
    (hscheme : ∀ b, Scheme b depth rely guar I (T b)) {client : Client}
    (hbody : ∀ c e, client.MayAsk c → c.body F = .error e → I (some e.display)) (hr : I r) :
    (client.prog F depth).wp rely guar (fun e => Answers F I (T e.1) e.2.1 e.2.2)
      (fun _ _ own' => own' = Heap.empty) r Heap.empty := by
  induction client generalizing r with
  | done => exact fun _ _ => rfl
  | call b c hoffered k ih =>
    have hrefl := (hscheme b).refl
    apply Prog.wp_bind hrefl
    refine Prog.wp_mono ?_ ((hscheme b).method (fun e => hbody c e (Or.inl rfl)) hr)
    rintro res s own' ⟨hs, rfl, hres⟩
    exact ⟨hres, ih res (fun c' e hc' => hbody c' e (Or.inr ⟨res, hc'⟩)) hs⟩

variable (F) in
/-- A process with these clients, each in a thread of its own. -/
def Client.start {ι : Type} (depth : Nat) (clients : ι → Client) :
    Threads ι (Option Str) Str (Binding × BindingCall × Except Str Str) Unit :=
  { register := none
    heap := Heap.empty
    progs := fun i => (clients i).prog F depth }

end

/-! ### Any number of threads -/

section

variable (F : Type) [JsonFloat F] [Crates F] (asked : BindingCall → Prop)

/-- The text that one of the calls leaves in `LAST_ERROR`. -/
def LeftBy (m : Str) : Prop :=
  (∃ c e, asked c ∧ c.body F = .error e ∧ m = e.display) ∨
    ∃ value, 0 ∈ value ∧ nulError value = some m

/-- Whatever is in `LAST_ERROR` was left there by one of the calls. -/
def Known (last : Option Str) : Prop := ∀ m, last = some m → LeftBy F asked m

/-- The threads only leave the texts of their calls. -/
def Shared (r s : Option Str) : Prop := Known F asked r → Known F asked s

/-- A text that an exception may carry. -/
def Told (m : Str) : Prop :=
  m = [] ∨ m = Binding.unknownError ∨ m = Binding.stackOverflow ∨ LeftBy F asked m

end

section

variable {F : Type} [JsonFloat F] [Crates F] {asked : BindingCall → Prop} {ε : Type}
  {E : ε → Prop} {r : Option Str} {own : Heap Str} {depth : Nat}

theorem shared_refl (r : Option Str) : Shared F asked r r := id

theorem shared_trans (r s t : Option Str) (hrs : Shared F asked r s) (hst : Shared F asked s t) :
    Shared F asked r t :=
  hst ∘ hrs

theorem known_none : Known F asked none := fun _ h => (nomatch h)

theorem known_nulError {value : Str} (h : 0 ∈ value) : Known F asked (nulError value) :=
  fun _ hm => Or.inr ⟨value, h, hm⟩

theorem Known.told {last : Option Str} (h : Known F asked last) : Told F asked (last.getD []) := by
  cases last with
  | none => exact Or.inl rfl
  | some m => exact Or.inr (Or.inr (Or.inr (h m rfl)))

/-- A text is told, and the cells are as they were. -/
def Texted (F : Type) [JsonFloat F] [Crates F] (asked : BindingCall → Prop) (own : Heap Str)
    (res : Except Str Str) (r : Option Str) (own' : Heap Str) : Prop :=
  Known F asked r ∧ own' = own ∧ ∃ m, Told F asked m ∧ (res = .ok m ∨ res = .error m)

theorem texted_lastErrorOr (hr : Known F asked r) {fallback : Str} (hf : Told F asked fallback) :
    (Binding.lastErrorOr fallback : AbiProg ε (Except Str Str)).wp (Shared F asked)
      (Shared F asked) E (Texted F asked own) r own := by
  apply wp_askError shared_refl shared_trans
  · intro last s _ _ hnul
    refine ⟨fun _ => known_nulError hnul, ?_⟩
    exact fun u hu => ⟨hu (known_nulError hnul), rfl, fallback, hf, Or.inl rfl⟩
  · intro last s hlast hs _
    exact ⟨hs (hlast hr), rfl, _, (hlast hr).told, Or.inl rfl⟩

/-- By induction on the depth: each call asks once and gives the string back. -/
theorem texted_lastErrorOrRaise (hr : Known F asked r) :
    (Binding.lastErrorOrRaise depth : AbiProg ε (Except Str Str)).wp (Shared F asked)
      (Shared F asked) E (Texted F asked own) r own := by
  induction depth generalizing r with
  | zero => exact fun s hs => ⟨hs hr, rfl, _, Or.inr (Or.inr (Or.inl rfl)), Or.inr rfl⟩
  | succ depth ih =>
    apply wp_askError shared_refl shared_trans
    · -- the text of the failure is asked for in turn
      intro last s _ _ hnul
      refine ⟨fun _ => known_nulError hnul, ?_⟩
      apply Prog.wp_bind shared_refl
      refine Prog.wp_mono ?_ (ih (known_nulError hnul))
      rintro res u own' ⟨hu, rfl, m, hm, rfl | rfl⟩
      · exact fun v hv => ⟨hv hu, rfl, m, hm, Or.inr rfl⟩
      · exact fun v hv => ⟨hv hu, rfl, m, hm, Or.inr rfl⟩
    · intro last s hlast hs _
      exact ⟨hs (hlast hr), rfl, _, (hlast hr).told, Or.inl rfl⟩

/-- Other threads may leave their errors at any time. -/
theorem scheme_shared (b : Binding) (depth : Nat) :
    Scheme b depth (Shared F asked) (Shared F asked) (Known F asked) (fun _ => Told F asked) where
  refl := shared_refl
  trans := shared_trans
  kept := fun _ _ h hr => h hr
  may := fun _ _ h _ => h
  cleared := known_none
  nul := fun _ => known_nulError
  lastError := by
    intro ε E r own hr
    have hunknown : Told F asked Binding.unknownError := Or.inr (Or.inl rfl)
    cases b with
    | python => exact texted_lastErrorOr hr hunknown
    | java => exact texted_lastErrorOr hr hunknown
    | cpp => exact texted_lastErrorOr hr hunknown
    | javascript => exact texted_lastErrorOrRaise hr
    | php => exact texted_lastErrorOrRaise hr

variable {ι : Type} [DecidableEq ι] {clients : ι → Client} {as : List (ι × Nat)}
  {c : Config (Threads ι (Option Str) Str (Binding × BindingCall × Except Str Str) Unit)
    (ι × Binding × BindingCall × Except Str Str)}

/-- The calls that any of the clients can make. -/
def AnyAsks (clients : ι → Client) (c : BindingCall) : Prop := ∃ i, (clients i).MayAsk c

/-- All clients at once, in every interleaving. -/
theorem working_clients (hrun : threads.run ⟨Client.start F depth clients, []⟩ as = some c) :
    (∃ own, Working (fun _ => Shared F (AnyAsks clients)) (fun _ => Shared F (AnyAsks clients))
      (fun e => Answers F (Known F (AnyAsks clients)) (fun _ => Told F (AnyAsks clients)) e.2.1
        e.2.2)
      (fun _ _ _ own' => own' = Heap.empty) c.state own) ∧
    ∀ e ∈ c.log, Answers F (Known F (AnyAsks clients)) (fun _ => Told F (AnyAsks clients))
      e.2.2.1 e.2.2.2 := by
  refine adequacy rfl (fun _ => shared_refl) (fun _ => shared_trans) (fun _ _ _ _ _ h => h) ?_ hrun
  intro i
  refine wp_client (fun b => scheme_shared b depth) ?_ known_none
  intro c' e hc' he m hm
  cases hm
  exact Or.inl ⟨c', e, ⟨i, hc'⟩, he, rfl⟩

/-- Clients of any of the bindings, in any number of threads and any order of their steps, never
read or free a string that is not theirs, and when all of them have ended every string was given
back.

The program of a thread is proved on its own, with what other threads may do to `LAST_ERROR` as a
rely (`wp_client`); adequacy carries this over to every interleaving. -/
theorem strings_given_back (hrun : threads.run ⟨Client.start F depth clients, []⟩ as = some c) :
    (∀ i, ¬ Faulty c.state i) ∧
      ((∀ i, (c.state.progs i).result?.isSome = true) → c.state.heap = Heap.empty) := by
  obtain ⟨⟨own, hworking⟩, -⟩ := working_clients hrun
  exact ⟨hworking.not_faulty,
    hworking.heap_empty (fun _ => shared_refl) fun _ _ _ _ h => h⟩

/-- In every order of the steps of the threads, a call of a binding returns the string that the
library made for it, or 1 for an envelope that was verified; a call that failed raises an
exception, with a text that is empty, fixed, or that of a failed call of one of the threads.

What each thread reports is part of the same proof (`Answers`): the text of the error is whatever
the other threads may have left there. -/
theorem results_of_interleaved_calls
    (hrun : threads.run ⟨Client.start F depth clients, []⟩ as = some c) {i : ι} {b : Binding}
    {call : BindingCall} {res : Except Str Str} (h : (i, b, call, res) ∈ c.log) :
    (call ≠ .lastError →
      (∀ v, (stringCall (call.body F)).1 = some v → res = .ok v) ∧
      ((stringCall (call.body F)).1 = none → ∃ m, Told F (AnyAsks clients) m ∧ res = .error m)) ∧
    (call = .lastError → ∃ m, Told F (AnyAsks clients) m ∧ (res = .ok m ∨ res = .error m)) := by
  have hanswers := (working_clients hrun).2 _ h
  constructor
  · intro hcall
    have hanswered := hanswers.answered hcall
    exact ⟨fun v hv => hanswered.of_some hv, fun hnone => hanswered.of_none hnone⟩
  · rintro rfl
    obtain ⟨-, m, -, hm, hres⟩ := hanswers
    exact ⟨m, hm, hres⟩

end

/-! ### One thread -/

namespace Binding

/-- The text that a binding tells of a failure that left `last`. -/
def errorText (b : Binding) (last : Option Str) : Str :=
  match P4.lastErrorMessage last with
  | some m => m
  | none =>
    match b with
    | python => unknownError
    | java => unknownError
    | cpp => unknownError
    | javascript => (nulError (last.getD [])).getD []
    | php => (nulError (last.getD [])).getD []

end Binding

section

variable {F : Type} [JsonFloat F] [Crates F] {ε : Type} {E : ε → Prop} {r : Option Str}
  {own : Heap Str} {depth : Nat}

theorem lastErrorMessage_of_nul {last : Option Str} (h : 0 ∈ last.getD []) :
    P4.lastErrorMessage last = none := by
  rw [P4.lastErrorMessage, intoCStringPtr, if_pos h]

theorem lastErrorMessage_of_not_nul {last : Option Str} (h : 0 ∉ last.getD []) :
    P4.lastErrorMessage last = some (last.getD []) := by
  rw [P4.lastErrorMessage, intoCStringPtr, if_neg h]

/-- The text is told, and the cells are as they were. -/
def Tells (text : Str) (own : Heap Str) (res : Except Str Str) (_ : Option Str)
    (own' : Heap Str) : Prop :=
  own' = own ∧ (res = .ok text ∨ res = .error text)

theorem tells_lastErrorOr {fallback text : Str}
    (htext : text = (P4.lastErrorMessage r).getD fallback) :
    (Binding.lastErrorOr fallback : AbiProg ε (Except Str Str)).wp Eq (fun _ _ => True) E
      (Tells text own) r own := by
  apply wp_askError (fun _ => rfl) (fun _ _ _ => Eq.trans)
  · rintro last s rfl rfl hnul
    rw [lastErrorMessage_of_nul hnul, Option.getD_none] at htext
    subst htext
    exact ⟨trivial, fun u _ => ⟨rfl, Or.inl rfl⟩⟩
  · rintro last s rfl rfl hok
    rw [lastErrorMessage_of_not_nul hok, Option.getD_some] at htext
    rw [htext]
    exact ⟨rfl, Or.inl rfl⟩

/-- A text without NUL is told at once. -/
theorem tells_lastErrorOrRaise (hok : 0 ∉ r.getD []) :
    (Binding.lastErrorOrRaise (depth + 1) : AbiProg ε (Except Str Str)).wp Eq (fun _ _ => True) E
      (Tells (r.getD []) own) r own := by
  apply wp_askError (fun _ => rfl) (fun _ _ _ => Eq.trans)
  · rintro last s rfl rfl hnul
    exact absurd hnul hok
  · rintro last s rfl rfl _
    exact ⟨rfl, Or.inl rfl⟩

/-- A text with a NUL makes way for the text of that failure, which has none. -/
theorem tells_lastErrorOrRaise_nul (hnul : 0 ∈ r.getD []) :
    (Binding.lastErrorOrRaise (depth + 2) : AbiProg ε (Except Str Str)).wp Eq (fun _ _ => True) E
      (Tells ((nulError (r.getD [])).getD []) own) r own := by
  apply wp_askError (fun _ => rfl) (fun _ _ _ => Eq.trans)
  · rintro last s rfl rfl _
    obtain ⟨m, hm, hzero⟩ := nulError_eq hnul
    refine ⟨trivial, ?_⟩
    apply Prog.wp_bind (fun _ => rfl)
    have hok : 0 ∉ (nulError (r.getD [])).getD [] := by
      rw [hm]
      exact hzero
    refine Prog.wp_mono ?_ (tells_lastErrorOrRaise hok)
    rintro res u own' ⟨rfl, rfl | rfl⟩
    · exact fun _ _ => ⟨rfl, Or.inr rfl⟩
    · exact fun _ _ => ⟨rfl, Or.inr rfl⟩
  · rintro last s rfl rfl hok
    exact absurd hnul hok

/-- Every binding tells its own text of the failure. -/
theorem tells_lastError (b : Binding) (hdepth : 2 ≤ depth) :
    (b.lastError depth : AbiProg ε (Except Str Str)).wp Eq (fun _ _ => True) E
      (Tells (b.errorText r) own) r own := by
  obtain ⟨depth, rfl⟩ := Nat.exists_eq_add_of_le hdepth
  rw [Nat.add_comm]
  have hraise : ∀ text, text = (match P4.lastErrorMessage r with
      | some m => m
      | none => (nulError (r.getD [])).getD []) →
      (Binding.lastErrorOrRaise (depth + 2) : AbiProg ε (Except Str Str)).wp Eq
        (fun _ _ => True) E (Tells text own) r own := by
    rintro text rfl
    by_cases hnul : 0 ∈ r.getD []
    · rw [lastErrorMessage_of_nul hnul]
      exact tells_lastErrorOrRaise_nul hnul
    · rw [lastErrorMessage_of_not_nul hnul]
      exact tells_lastErrorOrRaise hnul
  have hfixed : ∀ text, text = (match P4.lastErrorMessage r with
      | some m => m
      | none => Binding.unknownError) →
        text = (P4.lastErrorMessage r).getD Binding.unknownError := by
    rintro text rfl
    split <;> rename_i h <;> rw [h] <;> rfl
  cases b with
  | python => exact tells_lastErrorOr (hfixed _ rfl)
  | java => exact tells_lastErrorOr (hfixed _ rfl)
  | cpp => exact tells_lastErrorOr (hfixed _ rfl)
  | javascript => exact hraise _ rfl
  | php => exact hraise _ rfl

/-- Nobody else touches `LAST_ERROR`. -/
theorem scheme_alone (b : Binding) (hdepth : 2 ≤ depth) :
    Scheme b depth Eq (fun _ _ => True) (fun _ => True) (fun last m => m = b.errorText last) where
  refl := fun _ => rfl
  trans := fun _ _ _ => Eq.trans
  kept := fun _ _ _ _ => trivial
  may := fun _ _ _ => trivial
  cleared := trivial
  nul := fun _ _ => trivial
  lastError := by
    intro ε E r own _
    refine Prog.wp_mono ?_ (tells_lastError b hdepth)
    rintro res s own' ⟨rfl, hres⟩
    exact ⟨trivial, rfl, _, rfl, hres⟩

variable (F) in
/-- What a binding makes of a call when nobody else uses the library. -/
def BindingCall.answer (c : BindingCall) (b : Binding) : Except Str Str :=
  match (stringCall (c.body F)).1 with
  | some v => .ok v
  | none => .error (b.errorText (stringCall (c.body F)).2)

/-- In a process of one thread, a call of a binding returns the string that the library made for
it, or raises an exception whose text its own error decides (`Binding.errorText`), whatever was
called before.

Without other threads the rely is equality, so what a call finds in `LAST_ERROR` is what it has
left there itself. -/
theorem error_text_of_one_thread (hdepth : 2 ≤ depth) {client : Client} {as : List (Unit × Nat)}
    {c : Config (Threads Unit (Option Str) Str (Binding × BindingCall × Except Str Str) Unit)
      (Unit × Binding × BindingCall × Except Str Str)}
    (hrun : threads.run ⟨Client.start F depth fun _ => client, []⟩ as = some c) {b : Binding}
    {call : BindingCall} {res : Except Str Str} (h : ((), b, call, res) ∈ c.log)
    (hcall : call ≠ .lastError) : res = call.answer F b := by
  have hclient : ∀ _ : Unit, (client.prog F depth).wp Eq (fun _ _ => True)
      (fun e => Answers F (fun _ => True) (fun last m => m = e.1.errorText last) e.2.1 e.2.2)
      (fun _ _ own' => own' = Heap.empty) none Heap.empty :=
    fun _ => wp_client (T := fun b last m => m = b.errorText last)
      (fun b => scheme_alone b hdepth) (fun _ _ _ _ => trivial) trivial
  have hlog := (adequacy rfl (fun _ _ => rfl) (fun _ _ _ _ => Eq.trans)
    (fun i j _ _ hij => absurd rfl hij) hclient hrun).2 _ h
  have hanswered : Answered (fun last m => m = b.errorText last) (call.body F) res :=
    hlog.answered hcall
  unfold BindingCall.answer
  cases hv : (stringCall (call.body F)).1 with
  | some v => exact hanswered.of_some hv
  | none =>
    obtain ⟨m, hm, hres⟩ := hanswered.of_none hv
    rw [hres, hm]

/-! ### The binding of the node

`P4Core` is what the node calls, as a function; a call through the Python binding on its own has the
same result. -/

/-- The link between `BindingCall.answer` and `P4Core.signEnvelope`. -/
theorem answer_python_signEnvelope (priv sender recipient payload nonce : Text) (ts : UInt64) :
    (BindingCall.signEnvelope priv sender recipient payload ts nonce).answer F .python =
      ((P4Core.takeString (captured (signEnvelopeJson F (some priv) (some sender) (some recipient)
        (some payload) ts (some nonce)))).map Str.ofText).mapError Exc.text := by
  have hbody : (BindingCall.signEnvelope priv sender recipient payload ts nonce).body F =
      (signEnvelopeJson F (some priv) (some sender) (some recipient) (some payload) ts
        (some nonce)).map Str.ofText := rfl
  rw [BindingCall.answer, hbody, stringCall_captured]
  cases captured (signEnvelopeJson F (some priv) (some sender) (some recipient) (some payload) ts
    (some nonce)) with
  | ok t => rfl
  | error msg =>
    show Except.error _ = Except.error (P4.lastError msg)
    rw [lastError_eq, Binding.errorText]
    cases P4.lastErrorMessage (some msg) <;> rfl

/-- The link between `BindingCall.answer` and `P4Core.verifyEnvelope`. -/
theorem answer_python_verifyEnvelope (envelope : Members F) (key : Text) (skew now : Int) :
    (BindingCall.verifyEnvelope (Json.dumpsCompact (.obj envelope)) key (cUint64 now)
        (cUint64 skew)).answer F .python =
      ((P4Core.verifyEnvelope envelope (Str.ofText key) skew now).map fun _ => []).mapError
        Exc.text := by
  have hkey : encodeUtf8 (Str.ofText key) = .ok key := by
    rw [encodeUtf8, Str.toText?_ofText]
  have hbody : (BindingCall.verifyEnvelope (Json.dumpsCompact (.obj envelope)) key (cUint64 now)
      (cUint64 skew)).body F = (verifyEnvelopeJson F (some (Json.dumpsCompact (.obj envelope)))
        (some key) (cUint64 now) (cUint64 skew)).map fun _ => [] := rfl
  rw [BindingCall.answer, hbody, P4Core.verifyEnvelope, hkey]
  simp only [bind, Except.bind]
  cases verifyEnvelopeJson F (some (Json.dumpsCompact (.obj envelope))) (some key) (cUint64 now)
    (cUint64 skew) with
  | ok u => rfl
  | error e =>
    show Except.error (Binding.errorText .python (some e.display)) =
      Except.error (P4.lastError e.display)
    rw [lastError_eq, Binding.errorText]
    cases P4.lastErrorMessage (some e.display) <;> rfl

end

/-! ### Two clients -/

namespace Sample

/-- One client asks for the peer id of a text that is no key, the other makes an identity. -/
def clients : Bool → Client
  | false => .call .javascript (.peerIdFromPublicKeyB64 ['?']) rfl fun _ => .done
  | true => .call .python (.generateIdentity (key 1)) rfl fun _ => .done

/-- The second client clears the error text before the first asks for it. -/
def interleaving : List (Bool × Nat) :=
  [(false, 0), (false, 0), (true, 0), (true, 5), (false, 0), (false, 6), (false, 0), (true, 0),
   (true, 0), (false, 0), (true, 0), (false, 0)]

/-- The first client's exception is the last event, and this is its text. -/
def lastException {ι : Type} :
    List (ι × Binding × BindingCall × Except Str Str) → Option Str
  | (_, .javascript, .peerIdFromPublicKeyB64 _, .error m) :: _ => some m
  | _ => none

theorem lastException_spec {ι : Type} {m : Str}
    {log : List (ι × Binding × BindingCall × Except Str Str)} (h : lastException log = some m) :
    ∃ i key, (i, Binding.javascript, BindingCall.peerIdFromPublicKeyB64 key, .error m) ∈ log := by
  unfold lastException at h
  split at h
  · rename_i i key m' past
    cases h
    exact ⟨i, key, List.mem_cons_self ..⟩
  · cases h

end Sample

theorem strings_given_back_sample : ∃ c,
    threads.run ⟨Client.start Empty 2 Sample.clients, []⟩ Sample.interleaving = some c ∧
    c.log.length = 2 ∧ c.state.heap = Heap.empty := by
  have hok : (threads.run ⟨Client.start Empty 2 Sample.clients, []⟩ Sample.interleaving).any
      (fun c => c.log.length = 2 && (c.state.progs false).result?.isSome &&
        (c.state.progs true).result?.isSome) = true := by
    decide +kernel
  obtain ⟨c, hrun, hchecks⟩ := (Option.any_eq_true _ _).mp hok
  simp only [Bool.and_eq_true, decide_eq_true_eq] at hchecks
  refine ⟨c, hrun, hchecks.1.1, (strings_given_back hrun).2 fun i => ?_⟩
  cases i with
  | false => exact hchecks.1.2
  | true => exact hchecks.2

/-- The first client's exception has lost its text. -/
theorem results_of_interleaved_calls_sample : ∃ c i key m,
    threads.run ⟨Client.start Empty 2 Sample.clients, []⟩ Sample.interleaving = some c ∧
    (i, Binding.javascript, BindingCall.peerIdFromPublicKeyB64 key, .error []) ∈ c.log ∧
    Told Empty (AnyAsks Sample.clients) m ∧
    (Except.error [] : Except Str Str) = .error m := by
  have hok : (threads.run ⟨Client.start Empty 2 Sample.clients, []⟩ Sample.interleaving).any
      (fun c => Sample.lastException c.log = some []) = true := by
    decide +kernel
  obtain ⟨c, hrun, hlast⟩ := (Option.any_eq_true _ _).mp hok
  obtain ⟨i, key, hmem⟩ := Sample.lastException_spec (of_decide_eq_true hlast)
  obtain ⟨hvalue, hnone⟩ := (results_of_interleaved_calls hrun hmem).1 (by simp)
  cases hv : (stringCall ((BindingCall.peerIdFromPublicKeyB64 key).body Empty)).1 with
  | some v => cases hvalue v hv
  | none =>
    obtain ⟨m, hm, hres⟩ := hnone hv
    exact ⟨c, i, key, m, hrun, hmem, hm, hres⟩

theorem error_text_of_one_thread_sample : ∃ c key m,
    threads.run ⟨Client.start Empty 2 fun _ => Sample.clients false, []⟩
      (List.replicate 7 ((), 0)) = some c ∧ m ≠ [] ∧
    ((), Binding.javascript, BindingCall.peerIdFromPublicKeyB64 key, .error m) ∈ c.log ∧
    Except.error m = (BindingCall.peerIdFromPublicKeyB64 key).answer Empty .javascript := by
  have hok : (threads.run ⟨Client.start Empty 2 fun _ => Sample.clients false, []⟩
      (List.replicate 7 ((), 0))).any (fun c => (Sample.lastException c.log).any fun m =>
        decide (m ≠ [])) = true := by
    decide +kernel
  obtain ⟨c, hrun, hlast⟩ := (Option.any_eq_true _ _).mp hok
  obtain ⟨m, hm, hne⟩ := (Option.any_eq_true _ _).mp hlast
  obtain ⟨i, key, hmem⟩ := Sample.lastException_spec hm
  exact ⟨c, key, m, hrun, of_decide_eq_true hne, hmem,
    error_text_of_one_thread (Nat.le_refl 2) hrun hmem (by simp)⟩

end P4
