/-
  Contacts in `contacts.json`: what is written is read back.

  A contact whose fields were read from text is written as a dictionary that `Contact.from_dict`
  turns into an equal contact (`fromDict_toDict`).  The file of a contact map therefore gives
  the map back, whatever order its entries are written in (`loadContacts_contactsText`).
-/
import P4.Core.Equiv.Envelope
import P4.Json.Equiv.RoundTrip
import P4.Node.Basic

namespace P4

open Json

variable {F : Type}

theorem isStr_iff {v : Json F} : v.isStr = true ↔ ∃ p, v = .str p := by
  cases v <;> simp [isStr]

/-! ### Single contacts -/

/-- All fields can be read from text. -/
structure Contact.Sound (c : Contact F) : Prop where
  peerId : c.peerId.wellFormed = true
  publicKeyB64 : c.publicKeyB64.wellFormed = true
  transport : c.rendezvous.transport.wellFormed = true
  address : c.rendezvous.address.wellFormed = true
  port : c.rendezvous.port.wellFormed = true
  name : c.name.wellFormed = true

theorem item_ok {m : Members F} {k : Str} {v : Json F} (h : item m k = .ok v) :
    Dict.get? m k = some v := by
  unfold item at h
  split at h
  · rename_i w hw
    rw [hw, Except.ok.inj h]
  · cases h

theorem Rendezvous.ofKwargs_ok {v : Json F} {r : Rendezvous F} (h : ofKwargs v = .ok r) :
    ∃ m, v = .obj m ∧ Dict.get? m Field.transport = some r.transport ∧
      Dict.get? m Field.address = some r.address ∧ Dict.get? m Field.port = some r.port := by
  unfold ofKwargs at h
  split at h
  · rename_i m
    split at h
    · rename_i transport address port h₁ h₂ h₃
      split_ifs at h
      cases h
      exact ⟨m, rfl, h₁, h₂, h₃⟩
    · cases h
  · cases h

/-- What a contact takes from an invite. -/
theorem Contact.fromDict_ok {v : Json F} {c : Contact F} (h : fromDict v = .ok c) :
    ∃ m r, v = .obj m ∧ Dict.get? m Field.peerId = some c.peerId ∧
      Dict.get? m Field.publicKeyB64 = some c.publicKeyB64 ∧
      Dict.get? m Field.rendezvous = some r ∧ Rendezvous.ofKwargs r = .ok c.rendezvous ∧
      c.name = (Dict.get? m Field.name).getD (.str []) := by
  unfold fromDict at h
  split at h
  · rename_i m
    obtain ⟨peerId, hp, h⟩ := except_bind_ok.mp h
    obtain ⟨key, hk, h⟩ := except_bind_ok.mp h
    obtain ⟨r, hr, h⟩ := except_bind_ok.mp h
    obtain ⟨rendezvous, hrv, h⟩ := except_bind_ok.mp h
    cases h
    exact ⟨m, r, rfl, item_ok hp, item_ok hk, item_ok hr, hrv, rfl⟩
  · cases h

/-- What `from_dict` makes of a value that was read can be written. -/
theorem Contact.sound_fromDict {v : Json F} {c : Contact F} (hv : v.wellFormed = true)
    (h : fromDict v = .ok c) : c.Sound := by
  obtain ⟨m, r, rfl, hp, hk, hr, hrv, hname⟩ := fromDict_ok h
  obtain ⟨mr, rfl, h₁, h₂, h₃⟩ := Rendezvous.ofKwargs_ok hrv
  have hmr := wellFormed_of_get? hv hr
  refine ⟨wellFormed_of_get? hv hp, wellFormed_of_get? hv hk, wellFormed_of_get? hmr h₁,
    wellFormed_of_get? hmr h₂, wellFormed_of_get? hmr h₃, ?_⟩
  rw [hname]
  cases hn : Dict.get? m Field.name with
  | none => rfl
  | some name => exact wellFormed_of_get? hv hn

theorem Rendezvous.keys_toDict : [Field.transport, Field.address, Field.port].Nodup ∧
    ∀ k ∈ [Field.transport, Field.address, Field.port], normal k = true := by
  constructor <;> decide

theorem Contact.keys_toDict :
    [Field.peerId, Field.publicKeyB64, Field.rendezvous, Field.name].Nodup ∧
    ∀ k ∈ [Field.peerId, Field.publicKeyB64, Field.rendezvous, Field.name], normal k = true := by
  constructor <;> decide

/-- A contact that came from JSON can be written as JSON. -/
theorem Contact.Sound.wellFormed_toDict {c : Contact F} (h : c.Sound) :
    c.toDict.wellFormed = true := by
  have hr : c.rendezvous.toDict.wellFormed = true := by
    rw [Rendezvous.toDict, wellFormed_obj]
    refine ⟨Rendezvous.keys_toDict.1, Rendezvous.keys_toDict.2, ?_⟩
    simp only [List.forall_mem_cons]
    exact ⟨h.transport, h.address, h.port, fun _ hx => nomatch hx⟩
  rw [Contact.toDict, wellFormed_obj]
  refine ⟨Contact.keys_toDict.1, Contact.keys_toDict.2, ?_⟩
  simp only [List.forall_mem_cons]
  exact ⟨h.peerId, h.publicKeyB64, hr, h.name, fun _ hx => nomatch hx⟩

/-- The contact with its values in key order. -/
def Contact.canon (c : Contact F) : Contact F where
  peerId := c.peerId.canon
  publicKeyB64 := c.publicKeyB64.canon
  rendezvous :=
    { transport := c.rendezvous.transport.canon
      address := c.rendezvous.address.canon
      port := c.rendezvous.port.canon }
  name := c.name.canon

theorem Contact.same_canon (c : Contact F) : c.canon.Same c :=
  ⟨canon_canon _, canon_canon _, canon_canon _, canon_canon _, canon_canon _, canon_canon _⟩

/-- The members of a dictionary of a rendezvous. -/
def Rendezvous.members (r : Rendezvous F) : Members F :=
  [(Field.transport, r.transport), (Field.address, r.address), (Field.port, r.port)]

theorem Rendezvous.ofKwargs_toDict (r : Rendezvous F) : ofKwargs r.toDict.canon =
    .ok { transport := r.transport.canon, address := r.address.canon, port := r.port.canon } := by
  have hnodup : (Dict.keys r.members).Nodup := Rendezvous.keys_toDict.1
  have hperm := keys_sortMembers_perm (r.members.map fun kv => (kv.1, kv.2.canon))
  rw [keys_map_canon] at hperm
  have hall : (Dict.keys (sortMembers (r.members.map fun kv => (kv.1, kv.2.canon)))).all
      (fun k => k = Field.transport || k = Field.address || k = Field.port) = true := by
    rw [List.all_eq_true]
    intro k hk
    have hk' : k ∈ [Field.transport, Field.address, Field.port] := hperm.mem_iff.mp hk
    simp only [List.mem_cons, List.not_mem_nil, or_false] at hk'
    rcases hk' with rfl | rfl | rfl <;> simp
  have h₁ : Dict.get? r.members Field.transport = some r.transport := rfl
  have h₂ : Dict.get? r.members Field.address = some r.address := rfl
  have h₃ : Dict.get? r.members Field.port = some r.port := rfl
  show ofKwargs (Json.obj r.members).canon = _
  rw [canon_obj, ofKwargs, get?_canon hnodup, get?_canon hnodup, get?_canon hnodup, h₁, h₂, h₃]
  simp only [Option.map_some]
  exact if_pos hall

/-- The members of the dictionary of a contact. -/
def Contact.members (c : Contact F) : Members F :=
  [(Field.peerId, c.peerId), (Field.publicKeyB64, c.publicKeyB64),
    (Field.rendezvous, c.rendezvous.toDict), (Field.name, c.name)]

/-- A contact that was written is read back, with its values in key order. -/
theorem Contact.fromDict_toDict (c : Contact F) : fromDict c.toDict.canon = .ok c.canon := by
  have hnodup : (Dict.keys c.members).Nodup := Contact.keys_toDict.1
  have hitem : ∀ {k : Str} {v : Json F}, Dict.get? c.members k = some v →
      item (sortMembers (c.members.map fun kv => (kv.1, kv.2.canon))) k = .ok v.canon := by
    intro k v h
    rw [item, get?_canon hnodup, h]
    rfl
  have hname : Dict.get? c.members Field.name = some c.name := rfl
  show fromDict (Json.obj c.members).canon = _
  rw [canon_obj, fromDict]
  refine except_bind_ok.mpr ⟨c.peerId.canon, hitem rfl, except_bind_ok.mpr
    ⟨c.publicKeyB64.canon, hitem rfl, except_bind_ok.mpr
    ⟨c.rendezvous.toDict.canon, hitem rfl, except_bind_ok.mpr
    ⟨_, c.rendezvous.ofKwargs_toDict, ?_⟩⟩⟩⟩
  rw [get?_canon hnodup, hname]
  rfl

/-! ### The file -/

variable [DecidableEq F] [Float64 F]

/-- The dictionary that was read has the contacts of the map. -/
def SameStore (d : Dict (Key F) (Contact F)) (contacts : Dict (Key F) (Ref (Contact F))) : Prop :=
  ∀ k, Option.Rel (fun a b => a.Same b.val) (Dict.get? d k) (Dict.get? contacts k)

/-- Every contact of the map has a string for its peer id, which is its key, and can be
written. -/
structure Tidy (contacts : Dict (Key F) (Ref (Contact F))) : Prop where
  nodup : (Dict.keys contacts).Nodup
  entry : ∀ kc ∈ contacts, ∃ p, kc.1 = .str p ∧ kc.2.val.peerId = .str p ∧ kc.2.val.Sound

omit [Float64 F] in
theorem Tidy.set {contacts : Dict (Key F) (Ref (Contact F))} (h : Tidy contacts) {p : Str}
    {c : Ref (Contact F)} (hp : c.val.peerId = .str p) (hs : c.val.Sound) :
    Tidy (Dict.set contacts (.str p) c) := by
  refine ⟨Dict.nodup_keys_set h.nodup _ _, fun kc hkc => ?_⟩
  rcases Dict.mem_set hkc with rfl | hkc
  · exact ⟨p, rfl, hp, hs⟩
  · exact h.entry kc hkc

/-- The key of a contact. -/
def keyOf (c : Ref (Contact F)) : Key F := (c.val.peerId.key?).getD .null

/-- Every contact of the map is under its own peer id and can be written. -/
structure Keyed (contacts : Dict (Key F) (Ref (Contact F))) : Prop where
  nodup : (Dict.keys contacts).Nodup
  entry : ∀ kc ∈ contacts, kc.2.val.peerId.key? = some kc.1 ∧ kc.2.val.Sound

theorem Keyed.set {contacts : Dict (Key F) (Ref (Contact F))} (h : Keyed contacts) {k : Key F}
    {c : Ref (Contact F)} (hk : c.val.peerId.key? = some k) (hs : c.val.Sound) :
    Keyed (Dict.set contacts k c) := by
  refine ⟨Dict.nodup_keys_set h.nodup _ _, fun kc hkc => ?_⟩
  rcases Dict.mem_set hkc with rfl | hkc
  · exact ⟨hk, hs⟩
  · exact h.entry kc hkc

omit [DecidableEq F] in
theorem Tidy.keyed {contacts : Dict (Key F) (Ref (Contact F))} (h : Tidy contacts) :
    Keyed contacts := by
  refine ⟨h.nodup, fun kc hkc => ?_⟩
  obtain ⟨p, hk, hp, hs⟩ := h.entry kc hkc
  rw [hp, hk]
  exact ⟨rfl, hs⟩

omit [DecidableEq F] in
theorem Keyed.value {contacts : Dict (Key F) (Ref (Contact F))} (h : Keyed contacts)
    {c : Ref (Contact F)} (hc : c ∈ Dict.values contacts) :
    c.val.peerId.key? = some (keyOf c) ∧ c.val.Sound := by
  obtain ⟨kc, hkc, rfl⟩ := List.mem_map.mp hc
  obtain ⟨hk, hs⟩ := h.entry kc hkc
  rw [keyOf, hk]
  exact ⟨rfl, hs⟩

omit [DecidableEq F] in
/-- The values of a map with their keys are its entries. -/
theorem Keyed.values_map {contacts : Dict (Key F) (Ref (Contact F))} (h : Keyed contacts) :
    (Dict.values contacts).map (fun c => (keyOf c, c.val.canon)) =
      contacts.map fun kc => (kc.1, kc.2.val.canon) := by
  rw [Dict.values, List.map_map]
  refine List.map_congr_left fun kc hkc => ?_
  show (keyOf kc.2, kc.2.val.canon) = _
  rw [keyOf, (h.entry kc hkc).1]
  rfl

omit [DecidableEq F] in
/-- A key does not depend on the order of members. -/
theorem key?_canon (v : Json F) : v.canon.key? = v.key? := by
  cases v with
  | arr l => rw [canon_arr]; rfl
  | obj m => rw [canon_obj]; rfl
  | _ => rfl

omit [DecidableEq F] [Float64 F] in
theorem Tidy.value {contacts : Dict (Key F) (Ref (Contact F))} (h : Tidy contacts)
    {c : Ref (Contact F)} (hc : c ∈ Dict.values contacts) :
    ∃ p, c.val.peerId = .str p ∧ c.val.Sound := by
  obtain ⟨kc, hkc, rfl⟩ := List.mem_map.mp hc
  obtain ⟨p, -, hp, hs⟩ := h.entry kc hkc
  exact ⟨p, hp, hs⟩

omit [DecidableEq F] in
/-- Contacts with string peer ids can be sorted. -/
theorem Tidy.sortedBy {contacts : Dict (Key F) (Ref (Contact F))} (h : Tidy contacts) :
    ∃ sorted, P4.sortedBy (fun c => c.val.peerId) (Dict.values contacts) = .ok sorted ∧
      sorted.Perm (Dict.values contacts) := by
  have hall : (Dict.values contacts).all (fun c => c.val.peerId.isStr) = true := by
    rw [List.all_eq_true]
    intro c hc
    obtain ⟨p, hp, -⟩ := h.value hc
    rw [hp]
    rfl
  refine ⟨(Dict.values contacts).insertionSort
    fun a b => b.val.peerId.pyLt a.val.peerId ≠ some true, ?_, List.perm_insertionSort _ _⟩
  rw [P4.sortedBy, if_pos]
  rw [hall, Bool.or_true, Bool.true_or]

omit [DecidableEq F] in
/-- Contacts that were written as a list are read back. -/
theorem readContacts_dumpsIndented {l : List (Ref (Contact F))} (hl : ∀ c ∈ l, c.val.Sound) :
    readContacts (some (dumpsIndented (.arr (l.map fun c => c.val.toDict)))) =
      .ok (l.map fun c => c.val.canon) := by
  have hwf : (Json.arr (l.map fun c => c.val.toDict)).wellFormed = true := by
    rw [wellFormed_arr]
    intro v hv
    obtain ⟨c, hc, rfl⟩ := List.mem_map.mp hv
    exact (hl c hc).wellFormed_toDict
  have hload : loadJsonFile (F := F) (some (dumpsIndented (.arr (l.map fun c => c.val.toDict)))) =
      .ok (.arr (l.map fun c => c.val.toDict.canon)) := by
    rw [loadJsonFile, dumpsIndented, loads_print (indented 2) (wellFormed_canon hwf), canon_arr,
      List.map_map]
    rfl
  rw [readContacts]
  refine except_bind_ok.mpr ⟨_, hload, except_bind_ok.mpr
    ⟨l.map fun c => c.val.toDict.canon, rfl, except_mapM_ok.mpr ?_⟩⟩
  rw [List.forall₂_map_left_iff, List.forall₂_map_right_iff, List.forall₂_same]
  exact fun c _ => c.val.fromDict_toDict

omit [DecidableEq F] in
/-- What `_save_contacts` wrote is the contacts of the map, in some order. -/
theorem readContacts_contactsText {contacts : Dict (Key F) (Ref (Contact F))} {text : Text}
    (hs : ∀ c ∈ Dict.values contacts, c.val.Sound) (h : contactsText contacts = .ok text) :
    ∃ sorted : List (Ref (Contact F)), sorted.Perm (Dict.values contacts) ∧
      readContacts (some text) = .ok (sorted.map fun c => c.val.canon) := by
  obtain ⟨sorted, hsorted, htext⟩ := except_bind_ok.mp h
  have hperm : sorted.Perm (Dict.values contacts) := by
    rw [P4.sortedBy] at hsorted
    split_ifs at hsorted
    rw [← Except.ok.inj hsorted]
    exact List.perm_insertionSort _ _
  refine ⟨sorted, hperm, ?_⟩
  rw [← Except.ok.inj htext]
  exact readContacts_dumpsIndented fun c hc => hs c (hperm.mem_iff.mp hc)

/-- The file that was written for a contact map gives the map back. -/
theorem Keyed.loadContacts {contacts : Dict (Key F) (Ref (Contact F))} (h : Keyed contacts)
    {text : Text} (htext : contactsText contacts = .ok text) :
    ∃ d, loadContacts (some text) = .ok d ∧ SameStore d contacts := by
  obtain ⟨sorted, hperm, hread⟩ := readContacts_contactsText (fun c hc => (h.value hc).2) htext
  have hpairs : byPeerId Contact.peerId (sorted.map fun c => c.val.canon) =
      .ok (Dict.ofPairs (sorted.map fun c => (keyOf c, c.val.canon))) := by
    refine except_bind_ok.mpr ⟨_, except_mapM_ok.mpr ?_, rfl⟩
    rw [List.forall₂_map_left_iff, List.forall₂_map_right_iff, List.forall₂_same]
    intro c hc
    have hkey : c.val.canon.peerId.key? = some (keyOf c) := by
      rw [← (h.value (hperm.mem_iff.mp hc)).1]
      exact key?_canon _
    rw [hkey]
    rfl
  -- the entries are those of the map, in the order of the file
  have hentries : (sorted.map fun c => (keyOf c, c.val.canon)).Perm
      (contacts.map fun kc => (kc.1, kc.2.val.canon)) := by
    rw [← h.values_map]
    exact hperm.map _
  have hkeys : Dict.keys (contacts.map fun kc => (kc.1, kc.2.val.canon)) = Dict.keys contacts := by
    rw [Dict.keys, Dict.keys, List.map_map]
    rfl
  have hnodup : (Dict.keys (contacts.map fun kc => (kc.1, kc.2.val.canon))).Nodup := by
    rw [hkeys]
    exact h.nodup
  have hnodup' : (Dict.keys (sorted.map fun c => (keyOf c, c.val.canon))).Nodup :=
    (hentries.map Prod.fst).nodup_iff.mpr hnodup
  refine ⟨_, except_bind_ok.mpr ⟨_, hread, hpairs⟩, fun k => ?_⟩
  rw [Dict.ofPairs_of_nodup hnodup', Dict.get?_perm hnodup hentries,
    Dict.get?_map (fun c : Ref (Contact F) => c.val.canon) contacts]
  cases Dict.get? contacts k with
  | none => exact Option.Rel.none
  | some c => exact Option.Rel.some c.val.same_canon

/-- The file of a contact map gives the map back. -/
theorem loadContacts_contactsText {contacts : Dict (Key F) (Ref (Contact F))}
    (h : Tidy contacts) : ∃ text d, contactsText contacts = .ok text ∧
      loadContacts (some text) = .ok d ∧ SameStore d contacts := by
  obtain ⟨sorted, hsorted, -⟩ := h.sortedBy
  have htext : contactsText contacts =
      .ok (dumpsIndented (.arr (sorted.map fun c => c.val.toDict))) := by
    rw [contactsText, hsorted]
    rfl
  obtain ⟨d, hd, hsame⟩ := h.keyed.loadContacts htext
  exact ⟨_, d, htext, hd, hsame⟩

end P4
