/-
  `ReplayWindow` implements one bounded window for each peer.

  `Coherent` is the invariant that ties the queue and the set of a peer together; under it a
  call of `seen` is `Window.push` on the queue of its peer (`seen_recent`) and does not touch the
  other peers.  A call that answers `True` changes nothing (`seen_true`).
-/
import P4.Node.Replay

namespace P4

namespace ReplayWindow

variable {w : ReplayWindow} {p q n : Str}

/-- The nonces of a peer, the oldest first. -/
def recent (w : ReplayWindow) (p : Str) : List Str := (Dict.get? w.seqs p).getD []

/-- The set of a peer. -/
def known (w : ReplayWindow) (p : Str) : Finset Str := (Dict.get? w.sets p).getD ∅

/-- The queue of each peer has no duplicates and the elements of its set. -/
def Coherent (w : ReplayWindow) : Prop :=
  ∀ p, (w.recent p).Nodup ∧ ∀ n, n ∈ w.known p ↔ n ∈ w.recent p

theorem coherent_empty : Coherent {} := by
  intro p
  refine ⟨List.nodup_nil, fun n => ?_⟩
  simp [known, recent, Dict.get?]

/-- A nonce that was seen before leaves the window as it is. -/
theorem seen_true (h : (w.seen p n).1 = true) : (w.seen p n).2 = w := by
  have hget : ∃ s, Dict.get? w.sets p = some s ∧ n ∈ s := by
    by_contra hno
    have hn : n ∉ (Dict.setdefault w.sets p ∅).1 := by
      rw [Dict.setdefault_fst]
      cases hs : Dict.get? w.sets p with
      | none => simp
      | some s => exact fun hm => hno ⟨s, hs, hm⟩
    rw [seen] at h
    simp only [hn, if_false] at h
    split_ifs at h
  obtain ⟨s, hs, hn⟩ := hget
  simp [seen, Dict.setdefault, hs, hn]

/-- A new nonce: the queue and the set of the peer, and those of the others. -/
theorem seen_fresh (h : n ∉ w.known p) (q : Str) :
    (w.seen p n).1 = false ∧
    (w.seen p n).2.recent q =
      (if q = p then
        if (w.recent p ++ [n]).length > w.maxSeen then (w.recent p ++ [n]).tail
        else w.recent p ++ [n]
      else w.recent q) ∧
    (w.seen p n).2.known q =
      (if q = p then
        if (w.recent p ++ [n]).length > w.maxSeen then
          (insert n (w.known p)).erase ((w.recent p ++ [n]).headD [])
        else insert n (w.known p)
      else w.known q) := by
  have hset : (Dict.setdefault w.sets p ∅).1 = w.known p := Dict.setdefault_fst _ _ _
  have hseq : (Dict.setdefault w.seqs p []).1 = w.recent p := Dict.setdefault_fst _ _ _
  -- `setdefault` and the update touch no entry but the peer's
  have hr : ∀ l : List Str, (Dict.get? (Dict.set (Dict.setdefault w.seqs p []).2 p l) q).getD [] =
      if q = p then l else w.recent q := by
    intro l
    rw [Dict.get?_set, Dict.get?_setdefault]
    by_cases hq : q = p
    · rw [if_pos hq, if_pos hq]
      rfl
    · rw [if_neg hq, if_neg hq, if_neg hq]
      rfl
  have hk : ∀ s : Finset Str, (Dict.get? (Dict.set (Dict.setdefault w.sets p ∅).2 p s) q).getD ∅ =
      if q = p then s else w.known q := by
    intro s
    rw [Dict.get?_set, Dict.get?_setdefault]
    by_cases hq : q = p
    · rw [if_pos hq, if_pos hq]
      rfl
    · rw [if_neg hq, if_neg hq, if_neg hq]
      rfl
  rw [seen]
  simp only [hset, h, if_false, hseq]
  -- with and without an eviction, for the peer and for the others
  split_ifs with hlen hq
  · exact ⟨rfl, (hr _).trans (if_pos hq), (hk _).trans (if_pos hq)⟩
  · exact ⟨rfl, (hr _).trans (if_neg hq), (hk _).trans (if_neg hq)⟩
  · exact ⟨rfl, (hr _).trans (if_pos ‹_›), (hk _).trans (if_pos ‹_›)⟩
  · exact ⟨rfl, (hr _).trans (if_neg ‹_›), (hk _).trans (if_neg ‹_›)⟩

/-- The entries of the other peers are not touched. -/
theorem get?_seen_of_ne (h : q ≠ p) :
    Dict.get? (w.seen p n).2.seqs q = Dict.get? w.seqs q ∧
      Dict.get? (w.seen p n).2.sets q = Dict.get? w.sets q := by
  rw [seen]
  dsimp only
  split_ifs <;> simp only [Dict.get?_set, Dict.get?_setdefault, if_neg h, and_self]

theorem seen_known (h : n ∈ w.known p) : (w.seen p n).1 = true := by
  rw [seen]
  have hset : (Dict.setdefault w.sets p ∅).1 = w.known p := Dict.setdefault_fst _ _ _
  simp only [hset, h, if_true]

/-- A call is a push on the queue of its peer, and leaves the other queues alone. -/
theorem seen_recent (hw : Coherent w) (p n : Str) :
    (w.seen p n).1 = (Window.push w.maxSeen (w.recent p) n).1 ∧
      ∀ q, (w.seen p n).2.recent q =
        if q = p then (Window.push w.maxSeen (w.recent p) n).2 else w.recent q := by
  by_cases hn : n ∈ w.recent p
  · have hpush : Window.push w.maxSeen (w.recent p) n = (true, w.recent p) := if_pos hn
    have h₁ : (w.seen p n).1 = true := seen_known (((hw p).2 n).mpr hn)
    rw [hpush, seen_true h₁]
    refine ⟨h₁, fun q => ?_⟩
    by_cases hq : q = p
    · rw [if_pos hq, hq]
    · rw [if_neg hq]
  · have hk : n ∉ w.known p := fun h => hn (((hw p).2 n).mp h)
    refine ⟨?_, fun q => ?_⟩
    · rw [(seen_fresh hk p).1, Window.push, if_neg hn]
      split_ifs <;> rfl
    · rw [(seen_fresh hk q).2.1, Window.push, if_neg hn]
      split_ifs <;> rfl

theorem maxSeen_seen (p n : Str) : (w.seen p n).2.maxSeen = w.maxSeen := by
  rw [seen]
  dsimp only
  split_ifs <;> rfl

/-- Every call keeps the queues and the sets together. -/
theorem coherent_seen (hw : Coherent w) (p n : Str) : Coherent (w.seen p n).2 := by
  by_cases hn : n ∈ w.known p
  · rw [seen_true (seen_known hn)]
    exact hw
  · intro q
    obtain ⟨-, hr, hk⟩ := seen_fresh hn q
    rw [hr, hk]
    by_cases hq : q = p
    · rw [if_pos hq, if_pos hq]
      have htracks : Window.Tracks (insert n (w.known p)) (w.recent p ++ [n]) :=
        Window.Tracks.insert (hw p) fun h => hn (((hw p).2 n).mpr h)
      split_ifs
      · -- the oldest nonce leaves the queue and the set
        cases hl : w.recent p ++ [n] with
        | nil => simp at hl
        | cons old rest =>
          rw [hl] at htracks
          exact htracks.erase
      · exact htracks
    · rw [if_neg hq, if_neg hq]
      exact hw q

end ReplayWindow

end P4
