/-
  How much a node remembers of the messages that it has accepted.

  The replay window gets an entry only when a message is accepted, so for a contact, and a
  contact is never removed while the process runs.  Nobody but the contacts can make the window
  grow, and each of them only up to the size of one queue.
-/
import P4.Node.Equiv.Acceptance
import P4.Node.Equiv.Store
import P4.Node.Equiv.Replay
import P4.Sample.Equiv.Laws
import Mathlib.Algebra.Order.BigOperators.Group.List

namespace P4

/-! ### The keys of a dictionary -/

namespace Dict

variable {κ α : Type} [DecidableEq κ] {d : Dict κ α}

theorem nodup_keys_setdefault (h : (keys d).Nodup) (k : κ) (v : α) :
    (keys (setdefault d k v).2).Nodup := by
  unfold setdefault
  cases get? d k with
  | none => exact nodup_keys_set h k v
  | some w => exact h

theorem mem_keys_set {k j : κ} {v : α} : j ∈ keys (set d k v) ↔ j = k ∨ j ∈ keys d := by
  rw [mem_keys_iff, mem_keys_iff, get?_set]
  by_cases hj : j = k <;> simp [hj]

theorem mem_keys_setdefault {k j : κ} {v : α} :
    j ∈ keys (setdefault d k v).2 ↔ j = k ∨ j ∈ keys d := by
  rw [mem_keys_iff, mem_keys_iff, get?_setdefault]
  by_cases hj : j = k <;> simp [hj]

end Dict

namespace ReplayWindow

variable {w : ReplayWindow} {p q n : Str}

/-- The window has entries for these peers only, in queues of bounded length. -/
structure Within (w : ReplayWindow) (peers : Str → Prop) : Prop where
  coherent : w.Coherent
  nodup : (Dict.keys w.seqs).Nodup
  short : ∀ p, (w.recent p).length ≤ w.maxSeen
  seqs : ∀ p ∈ Dict.keys w.seqs, peers p
  sets : ∀ p ∈ Dict.keys w.sets, peers p

theorem within_empty (peers : Str → Prop) : Within {} peers := by
  refine ⟨coherent_empty, List.nodup_nil, fun p => Nat.zero_le _, ?_, ?_⟩
  · intro p hp
    cases hp
  · intro p hp
    cases hp

theorem Within.mono {peers peers' : Str → Prop} (h : Within w peers)
    (hsub : ∀ p, peers p → peers' p) : Within w peers' :=
  ⟨h.coherent, h.nodup, h.short, fun p hp => hsub p (h.seqs p hp),
    fun p hp => hsub p (h.sets p hp)⟩

/-- The keys after a call, which are those of before and the peer. -/
theorem keys_seen (hnodup : (Dict.keys w.seqs).Nodup) :
    (Dict.keys (w.seen p n).2.seqs).Nodup ∧
      (∀ q ∈ Dict.keys (w.seen p n).2.seqs, q = p ∨ q ∈ Dict.keys w.seqs) ∧
      ∀ q ∈ Dict.keys (w.seen p n).2.sets, q = p ∨ q ∈ Dict.keys w.sets := by
  have hset := Dict.nodup_keys_setdefault hnodup p ([] : List Str)
  rw [seen]
  dsimp only
  split_ifs
  · refine ⟨hnodup, fun q hq => Or.inr hq, fun q hq => ?_⟩
    exact Dict.mem_keys_setdefault.mp hq
  all_goals
    refine ⟨Dict.nodup_keys_set hset p _, fun q hq => ?_, fun q hq => ?_⟩
    · simpa [Dict.mem_keys_set, Dict.mem_keys_setdefault] using hq
    · simpa [Dict.mem_keys_set, Dict.mem_keys_setdefault] using hq

theorem Within.seen {peers : Str → Prop} (h : Within w peers) (hp : peers p) (n : Str) :
    Within (w.seen p n).2 peers := by
  obtain ⟨hnodup, hseqs, hsets⟩ := keys_seen (p := p) (n := n) h.nodup
  refine ⟨coherent_seen h.coherent p n, hnodup, ?_, ?_, ?_⟩
  · intro q
    rw [(seen_recent h.coherent p n).2 q, maxSeen_seen]
    split_ifs with hq
    · -- a push lets the oldest nonce go when the queue is full
      have hlen := h.short p
      rw [Window.push]
      split_ifs with hin hfull
      · exact hlen
      · simp only [List.length_tail, List.length_append, List.length_singleton] at hfull ⊢
        omega
      · simp only [not_lt] at hfull
        exact hfull
    · exact h.short q
  · intro q hq
    rcases hseqs q hq with rfl | hq
    · exact hp
    · exact h.seqs q hq
  · intro q hq
    rcases hsets q hq with rfl | hq
    · exact hp
    · exact h.sets q hq

/-- How many nonces the window holds. -/
def total (w : ReplayWindow) : Nat := (w.seqs.map fun pl => pl.2.length).sum

/-- The window holds no more than one full queue for each of the peers. -/
theorem Within.total_le {α : Type} {f : Str → α} (hf : Function.Injective f) {l : List α}
    (h : Within w fun p => f p ∈ l) : w.total ≤ w.maxSeen * l.length := by
  have hlen : ∀ k ∈ w.seqs.map fun pl => pl.2.length, k ≤ w.maxSeen := by
    intro k hk
    obtain ⟨⟨p, seq⟩, hpl, rfl⟩ := List.mem_map.mp hk
    have hget : Dict.get? w.seqs p = some seq := (Dict.get?_eq_some_iff h.nodup).mpr hpl
    have hshort := h.short p
    rwa [recent, hget] at hshort
  have hkeys : w.seqs.length ≤ l.length := by
    have hsub : (Dict.keys w.seqs).map f ⊆ l := by
      intro x hx
      obtain ⟨p, hp, rfl⟩ := List.mem_map.mp hx
      exact h.seqs p hp
    have hle := (List.subperm_of_subset (h.nodup.map hf) hsub).length_le
    rwa [Dict.keys, List.length_map, List.length_map] at hle
  calc w.total ≤ (w.seqs.map fun pl => pl.2.length).length • w.maxSeen :=
        List.sum_le_card_nsmul _ _ hlen
    _ = w.maxSeen * w.seqs.length := by simp [Nat.mul_comm]
    _ ≤ w.maxSeen * l.length := Nat.mul_le_mul_left _ hkeys

end ReplayWindow

namespace Node

variable {F : Type} [DecidableEq F] [Float64 F] [Crates F] [PyRepr F] {identity : Identity F}
  {n n' : Node F}

/-! ### Steps -/

/-- The replay window has entries for contacts only, in queues of the size in the source. -/
structure Remembers (n : Node F) : Prop where
  size : n.replay.maxSeen = 4096
  within : n.replay.Within fun p => .str p ∈ Dict.keys n.contacts

omit [PyRepr F] in
/-- No contact is removed. -/
theorem keys_addContact (n : Node F) (invite : Json F) (writeOk : Bool) :
    Dict.keys n.contacts ⊆ Dict.keys (n.addContact invite writeOk).2.contacts := by
  intro k hk
  have hsession : ∀ (m : Node F) c p role, (m.addSession c p role).contacts = m.contacts := by
    intro m c p role
    unfold addSession
    split <;> rfl
  unfold addContact
  split
  · exact hk
  · split
    · exact hk
    · split
      · exact hk
      · -- the contact is set in the map, however the rest goes
        dsimp only
        split
        · exact Dict.mem_keys_set.mpr (Or.inr hk)
        · split
          · exact Dict.mem_keys_set.mpr (Or.inr hk)
          · split
            · exact Dict.mem_keys_set.mpr (Or.inr hk)
            · rw [hsession]
              exact Dict.mem_keys_set.mpr (Or.inr hk)

/-- What a step does to the contacts and the replay window. -/
theorem replay_step {a : Act F} {out : List (Event F)} (hs : Step n a n' out) :
    Dict.keys n.contacts ⊆ Dict.keys n'.contacts ∧
      (n'.replay = n.replay ∨ ∃ p nonce, .str p ∈ Dict.keys n.contacts ∧
        n'.replay = (n.replay.seen p nonce).2) := by
  have hframe : ∀ {m : Node F}, Frame m n' → Dict.keys m.contacts ⊆ Dict.keys n'.contacts := by
    intro m hf
    rw [hf.contacts]
    exact List.Subset.refl _
  constructor
  · cases hs with
    | unread => exact List.Subset.refl _
    | rejected => exact List.Subset.refl _
    | accepted stream now replyMs random m rest sender recipient nonce contact _ out hread hacc
        hd => exact hframe (m := n.noted sender nonce) (frame_dispatch hd).1
    | answered p t desc now random w m _ out ht hs => exact hframe (frame_stepSession hs)
    | dialed p w _ out hw hmem hs => exact hframe (frame_stepSession hs)
    | requested p t desc now random online w envelope _ out act sent ht henv hact hs =>
      exact hframe (frame_stepSession hs)
    | replied p t stream now w reply rest sender recipient nonce contact _ out act ht hread hacc
        hact hs => exact hframe (m := n.noted sender nonce) (frame_stepSession hs)
    | session a p act _ out rest hin hact hrest hs => exact hframe (frame_stepSession hs)
    | addContact invite writeOk => exact keys_addContact n invite.val writeOk
  · rcases step_acceptance hs with ⟨hsame, -⟩ |
      ⟨stream, rest, msg, ef, et, now, sender, recipient, nonce, contact, -, hacc, hseen, -⟩
    · exact Or.inl hsame
    · refine Or.inr ⟨sender, nonce, ?_, hseen⟩
      exact Dict.mem_keys_iff.mpr ⟨contact, hacc.checked.contactIs⟩

/-- A step makes entries for contacts only, and keeps the contacts. -/
theorem Remembers.step {a : Act F} {out : List (Event F)} (h : Remembers n)
    (hs : Step n a n' out) : Remembers n' := by
  obtain ⟨hsub, hsame | ⟨p, nonce, hp, hseen⟩⟩ := replay_step hs
  · refine ⟨?_, ?_⟩
    · rw [hsame]
      exact h.size
    · rw [hsame]
      exact h.within.mono fun p hp => hsub hp
  · refine ⟨?_, ?_⟩
    · rw [hseen, ReplayWindow.maxSeen_seen]
      exact h.size
    · rw [hseen]
      exact (h.within.seen hp nonce).mono fun p hp => hsub hp

omit [PyRepr F] in
/-- A process that starts remembers nothing. -/
theorem replay_boot {file : Option Text} (hboot : boot identity file = .ok n) : n.replay = {} := by
  obtain ⟨loaded, -, h⟩ := except_bind_ok.mp hboot
  obtain ⟨byId, -, h⟩ := except_bind_ok.mp h
  obtain ⟨sessions, -, h⟩ := except_bind_ok.mp h
  cases h
  rfl

omit [PyRepr F] in
theorem Remembers.boot {file : Option Text} (hboot : boot identity file = .ok n) :
    Remembers n := by
  refine ⟨?_, ?_⟩
  · rw [replay_boot hboot]
  · rw [replay_boot hboot]
    exact ReplayWindow.within_empty _

/-- In every run of a node, restarts included, the replay window has entries for contacts only,
and holds at most 4096 nonces for each contact.

`Remembers` is kept by every step: an entry is made for a contact, and no contact is removed. -/
theorem replay_bounded {file : Option Text} {as : List (HostAct F)}
    {c : Config (Node F) (Option (Event F))} (hboot : boot identity file = .ok n)
    (h : host.run ⟨n, []⟩ as = some c) :
    (∀ p ∈ Dict.keys c.state.replay.seqs, .str p ∈ Dict.keys c.state.contacts) ∧
    (∀ p ∈ Dict.keys c.state.replay.sets, .str p ∈ Dict.keys c.state.contacts) ∧
    (∀ p, (c.state.replay.recent p).Nodup ∧ (c.state.replay.recent p).length ≤ 4096) ∧
    c.state.replay.total ≤ 4096 * c.state.contacts.length := by
  have hrun : Remembers c.state := by
    refine Machine.run_invariant (P := fun c => Remembers c.state) ?_ (Remembers.boot hboot) h
    intro d a d' hd hnext
    obtain ⟨out, hs, -⟩ := Machine.next_eq_some.mp hnext
    rcases host_cases hs with ⟨b, o, -, hstep, -⟩ | ⟨-, hboot', -⟩
    · exact hd.step (step_outcome hstep)
    · exact Remembers.boot hboot'
  have hinj : Function.Injective (Key.str : Str → Key F) := fun _ _ h => Key.str.inj h
  have htotal := hrun.within.total_le hinj
  rw [hrun.size, Dict.keys, List.length_map] at htotal
  refine ⟨hrun.within.seqs, hrun.within.sets, fun p => ⟨?_, ?_⟩, htotal⟩
  · exact (hrun.within.coherent p).1
  · rw [← hrun.size]
    exact hrun.within.short p

end Node

/-! ### A message that is remembered -/

namespace Sample

/-- The second node adds the first as a contact and gets a message of it. -/
def rememberedRun : List (HostAct Empty) :=
  [.node (.addContact (invited 1) true),
   .node (.inbound (line 1 2 [] 7 1000) 1001 1002 (random 8))]

end Sample

theorem replay_bounded_sample : ∃ n c, Node.boot (Sample.identity 2) none = .ok n ∧
    Node.host.run ⟨n, []⟩ Sample.rememberedRun = some c ∧ c.state.replay.total = 1 ∧
    c.state.replay.total ≤ 4096 * c.state.contacts.length := by
  have hok : (Node.boot (Sample.identity 2) none).toOption.any (fun n =>
      (Node.host.run ⟨n, []⟩ Sample.rememberedRun).any fun c =>
        c.state.replay.total = 1) = true := by
    decide +kernel
  obtain ⟨n, hn, hrun⟩ := (Option.any_eq_true _ _).mp hok
  obtain ⟨c, hc, htotal⟩ := (Option.any_eq_true _ _).mp hrun
  exact ⟨n, c, Sample.eq_ok_of_toOption hn, hc, of_decide_eq_true htotal,
    (Node.replay_bounded (Sample.eq_ok_of_toOption hn) hc).2.2.2⟩

end P4
