/-
  Two replay windows, one specification.

  `ReplayWindow.seen` of `p4.py` and `ReplayWindow::seen_before` of `p4-core` keep a queue and a
  set in step, with their steps in a different order.  A call of either is `Window.push` on the
  queue of its peer, so that both answer as `answersWindow` says: `true` exactly for a nonce
  among the last ones that were answered `false` for that peer (`replay_windows_agree`).
-/
import P4.Core.Replay
import P4.Node.Equiv.Replay
import P4.Run.Basic

namespace P4

/-! ### The specification -/

/-- A call, and its answer. -/
structure ReplayAnswer where
  peerId : Str
  nonce : Str
  seen : Bool

/-- The nonces that were answered `false` for the peer, the oldest first. -/
def admitted (p : Str) (log : List ReplayAnswer) : List Str :=
  (log.filterMap fun e => if e.peerId = p ∧ e.seen = false then some e.nonce else none).reverse

/-- The answer is `true` exactly when the nonce is among the last `k` that were admitted for the
same peer. -/
def answersWindow (k : Nat) (past : List ReplayAnswer) (e : ReplayAnswer) : Prop :=
  e.seen = true ↔ e.nonce ∈ Window.lastN k (admitted e.peerId past)

theorem admitted_cons (p : Str) (e : ReplayAnswer) (log : List ReplayAnswer) :
    admitted p (e :: log) =
      if e.peerId = p ∧ e.seen = false then admitted p log ++ [e.nonce] else admitted p log := by
  rw [admitted, List.filterMap_cons]
  split_ifs with h
  · rw [List.reverse_cons]
    rfl
  · rfl

/-- What the queues and the sets of all peers are after the calls of the log. -/
structure InStep (k : Nat) (queue : Str → List Str) (set : Str → Finset Str)
    (log : List ReplayAnswer) : Prop where
  recent : ∀ p, queue p = Window.lastN k (admitted p log)
  tracks : ∀ p, Window.Tracks (set p) (queue p)

/-- A call that is a push on the queue of its peer. -/
theorem InStep.push {k : Nat} {queue queue' : Str → List Str} {set set' : Str → Finset Str}
    {log : List ReplayAnswer} (h : InStep k queue set log) {p n : Str} {answer : Bool}
    (hanswer : answer = (Window.push k (queue p) n).1)
    (hqueue : ∀ q, queue' q = if q = p then (Window.push k (queue p) n).2 else queue q)
    (htracks : ∀ q, Window.Tracks (set' q) (queue' q)) :
    answersWindow k log ⟨p, n, answer⟩ ∧ InStep k queue' set' (⟨p, n, answer⟩ :: log) := by
  have hpush := Window.push_lastN k (admitted p log) n
  rw [← h.recent p] at hpush
  by_cases hn : n ∈ queue p
  · -- a nonce of the queue: answered true, and nothing is admitted
    rw [if_pos hn] at hpush
    rw [hpush] at hanswer hqueue
    subst hanswer
    refine ⟨iff_of_true rfl (h.recent p ▸ hn), fun q => ?_, htracks⟩
    have hsame : admitted q (⟨p, n, true⟩ :: log) = admitted q log := by
      rw [admitted_cons]
      exact if_neg fun hand => Bool.noConfusion hand.2
    rw [hqueue q, hsame]
    split_ifs with hq
    · rw [hq]
      exact h.recent p
    · exact h.recent q
  · -- a new nonce: answered false and admitted, for this peer only
    rw [if_neg hn] at hpush
    rw [hpush] at hanswer hqueue
    subst hanswer
    refine ⟨iff_of_false Bool.false_ne_true (h.recent p ▸ hn), fun q => ?_, htracks⟩
    rw [hqueue q, admitted_cons]
    by_cases hq : q = p
    · rw [if_pos hq, if_pos ⟨hq.symm, rfl⟩, hq]
    · rw [if_neg hq, if_neg fun hand => hq hand.1.symm]
      exact h.recent q

/-! ### The window of the library -/

namespace CoreReplayWindow

variable {w : CoreReplayWindow} {p n : Str}

/-- The nonces of a peer, the oldest first. -/
def recent (w : CoreReplayWindow) (p : Str) : List Str := (Dict.get? w.seen p).getD []

/-- The set of a peer. -/
def known (w : CoreReplayWindow) (p : Str) : Finset Str := (Dict.get? w.seenSet p).getD ∅

theorem evict_of_le {k : Nat} {queue : List Str} (h : queue.length ≤ k) (set : Finset Str) :
    evict k queue set = (queue, set) := by
  cases queue with
  | nil => rfl
  | cons old queue => rw [evict, if_neg (Nat.not_lt.mpr h)]

/-- The loop on a queue with one nonce too many at most: it is run through once or not at all. -/
theorem evict_snoc {k : Nat} {queue : List Str} (h : queue.length ≤ k) {set : Finset Str}
    (htracks : Window.Tracks set queue) (hn : n ∉ queue) :
    (evict k (queue ++ [n]) (insert n set)).1 = (Window.push k queue n).2 ∧
      Window.Tracks (evict k (queue ++ [n]) (insert n set)).2 (Window.push k queue n).2 := by
  have hnew := htracks.insert hn
  rw [Window.push, if_neg hn]
  split_ifs with hlong
  · have hlen : (queue ++ [n]).length = k + 1 := by
      rw [List.length_append, List.length_singleton] at hlong ⊢
      omega
    cases hl : queue ++ [n] with
    | nil => simp at hl
    | cons old rest =>
      rw [hl] at hnew hlen hlong
      have hrest : rest.length ≤ k := by
        rw [List.length_cons] at hlen
        omega
      rw [evict, if_pos hlong, evict_of_le hrest]
      exact ⟨rfl, hnew.erase⟩
  · rw [evict_of_le (Nat.not_lt.mp hlong)]
    exact ⟨rfl, hnew⟩

/-- A call is a push on the queue of its peer, and leaves the other peers alone. -/
theorem seenBefore_spec (htracks : ∀ q, Window.Tracks (w.known q) (w.recent q))
    (hlen : (w.recent p).length ≤ w.maxSeen) :
    (w.seenBefore p n).1 = (Window.push w.maxSeen (w.recent p) n).1 ∧
      (w.seenBefore p n).2.maxSeen = w.maxSeen ∧
      (∀ q, (w.seenBefore p n).2.recent q =
        if q = p then (Window.push w.maxSeen (w.recent p) n).2 else w.recent q) ∧
      ∀ q, Window.Tracks ((w.seenBefore p n).2.known q) ((w.seenBefore p n).2.recent q) := by
  have hset : (Dict.setdefault w.seenSet p ∅).1 = w.known p := Dict.setdefault_fst _ _ _
  have hseq : (Dict.setdefault w.seen p []).1 = w.recent p := Dict.setdefault_fst _ _ _
  by_cases hn : n ∈ w.known p
  · -- a nonce that is there: at most an empty set was made for the peer
    have hpush : Window.push w.maxSeen (w.recent p) n = (true, w.recent p) :=
      if_pos (((htracks p).2 n).mp hn)
    have hcall : w.seenBefore p n =
        (true, { w with seenSet := (Dict.setdefault w.seenSet p ∅).2 }) := by
      rw [seenBefore]
      simp only [hset, hn, if_true]
    have hknown : ∀ q, (w.seenBefore p n).2.known q = w.known q := by
      intro q
      rw [hcall]
      show (Dict.get? (Dict.setdefault w.seenSet p ∅).2 q).getD ∅ = _
      rw [Dict.get?_setdefault]
      split_ifs with hq
      · rw [hq]
        rfl
      · rfl
    have hrecent : ∀ q, (w.seenBefore p n).2.recent q = w.recent q := by
      intro q
      rw [hcall]
      rfl
    refine ⟨by rw [hcall, hpush], by rw [hcall], fun q => ?_, fun q => ?_⟩
    · rw [hrecent, hpush]
      split_ifs with hq
      · rw [hq]
      · rfl
    · rw [hrecent, hknown]
      exact htracks q
  · have hn' : n ∉ w.recent p := fun hm => hn (((htracks p).2 n).mpr hm)
    obtain ⟨hqueue, hnew⟩ := evict_snoc hlen (htracks p) hn'
    have hcall : w.seenBefore p n = (false,
        { w with seen := Dict.set (Dict.setdefault w.seen p []).2 p
                   (evict w.maxSeen (w.recent p ++ [n]) (insert n (w.known p))).1
                 seenSet := Dict.set (Dict.setdefault w.seenSet p ∅).2 p
                   (evict w.maxSeen (w.recent p ++ [n]) (insert n (w.known p))).2 }) := by
      rw [seenBefore]
      simp only [hset, hn, if_false, hseq]
    have hrecent : ∀ q, (w.seenBefore p n).2.recent q =
        if q = p then (Window.push w.maxSeen (w.recent p) n).2 else w.recent q := by
      intro q
      rw [hcall, recent]
      show (Dict.get? (Dict.set _ p _) q).getD [] = _
      rw [Dict.get?_set, Dict.get?_setdefault, hqueue]
      split_ifs with hq
      · rfl
      · rfl
    have hknown : ∀ q, (w.seenBefore p n).2.known q =
        if q = p then (evict w.maxSeen (w.recent p ++ [n]) (insert n (w.known p))).2
        else w.known q := by
      intro q
      rw [hcall, known]
      show (Dict.get? (Dict.set _ p _) q).getD ∅ = _
      rw [Dict.get?_set, Dict.get?_setdefault]
      split_ifs with hq
      · rfl
      · rfl
    refine ⟨?_, by rw [hcall], hrecent, fun q => ?_⟩
    · rw [hcall, Window.push, if_neg hn']
      split_ifs <;> rfl
    · rw [hrecent, hknown]
      split_ifs
      · exact hnew
      · exact htracks q

/-- The calls of `seen_before` one after the other. -/
def calls : Machine CoreReplayWindow (Str × Str) ReplayAnswer := fun w c =>
  some ((w.seenBefore c.1 c.2).2, [⟨c.1, c.2, (w.seenBefore c.1 c.2).1⟩])

end CoreReplayWindow

/-- The calls of `seen` one after the other. -/
def ReplayWindow.calls : Machine ReplayWindow (Str × Str) ReplayAnswer := fun w c =>
  some ((w.seen c.1 c.2).2, [⟨c.1, c.2, (w.seen c.1 c.2).1⟩])

/-! ### Runs -/

/-- What both windows have become, and what they have answered. -/
structure Agree (k : Nat) (c : Config ReplayWindow ReplayAnswer)
    (d : Config CoreReplayWindow ReplayAnswer) : Prop where
  log : c.log = d.log
  answers : Along (answersWindow k) c.log
  size : c.state.maxSeen = k
  coreSize : d.state.maxSeen = k
  inStep : InStep k c.state.recent c.state.known c.log
  coreInStep : InStep k d.state.recent d.state.known d.log

theorem InStep.length_le {k : Nat} {queue : Str → List Str} {set : Str → Finset Str}
    {log : List ReplayAnswer} (h : InStep k queue set log) (p : Str) : (queue p).length ≤ k := by
  rw [h.recent p, Window.length_lastN]
  exact Nat.min_le_left _ _

/-- One more call. -/
theorem Agree.step {k : Nat} {c : Config ReplayWindow ReplayAnswer}
    {d : Config CoreReplayWindow ReplayAnswer} (h : Agree k c d) (call : Str × Str) :
    ∃ c' d', ReplayWindow.calls.next c call = some c' ∧
      CoreReplayWindow.calls.next d call = some d' ∧ Agree k c' d' := by
  obtain ⟨p, n⟩ := call
  obtain ⟨hseen, hrecent⟩ := ReplayWindow.seen_recent h.inStep.tracks p n
  rw [h.size] at hseen hrecent
  have hcore := CoreReplayWindow.seenBefore_spec (n := n) h.coreInStep.tracks
    (by rw [h.coreSize]; exact h.coreInStep.length_le p)
  rw [h.coreSize] at hcore
  obtain ⟨hseenBefore, hsize, hqueue, htracks⟩ := hcore
  obtain ⟨hanswer, hin⟩ := h.inStep.push hseen hrecent
    (ReplayWindow.coherent_seen h.inStep.tracks p n)
  obtain ⟨-, hcoreIn⟩ := h.coreInStep.push hseenBefore hqueue htracks
  -- the queues are the same, and so are the answers
  have hsame : (c.state.seen p n).1 = (d.state.seenBefore p n).1 := by
    rw [hseen, hseenBefore, h.inStep.recent p, h.coreInStep.recent p, h.log]
  refine ⟨_, _, rfl, rfl, ?_, ⟨hanswer, h.answers⟩, ?_, hsize, hin, hcoreIn⟩
  · show (⟨p, n, (c.state.seen p n).1⟩ : ReplayAnswer) :: c.log = ⟨p, n, _⟩ :: d.log
    rw [hsame, h.log]
  · exact (ReplayWindow.maxSeen_seen p n).trans h.size

/-- By induction on the calls. -/
theorem Agree.run {k : Nat} {c : Config ReplayWindow ReplayAnswer}
    {d : Config CoreReplayWindow ReplayAnswer} (h : Agree k c d) (calls : List (Str × Str)) :
    ∃ c' d', ReplayWindow.calls.run c calls = some c' ∧
      CoreReplayWindow.calls.run d calls = some d' ∧ Agree k c' d' := by
  induction calls generalizing c d with
  | nil => exact ⟨c, d, rfl, rfl, h⟩
  | cons call calls ih =>
    obtain ⟨c₁, d₁, hc₁, hd₁, h₁⟩ := h.step call
    obtain ⟨c', d', hc', hd', h'⟩ := ih h₁
    exact ⟨c', d', Machine.run_cons.mpr ⟨c₁, hc₁, hc'⟩, Machine.run_cons.mpr ⟨d₁, hd₁, hd'⟩, h'⟩

theorem agree_empty (k : Nat) :
    Agree k ⟨{ maxSeen := k }, []⟩ ⟨CoreReplayWindow.new k, []⟩ :=
  { log := rfl
    answers := trivial
    size := rfl
    coreSize := rfl
    inStep := ⟨fun _ => List.drop_nil.symm, fun _ => Window.tracks_nil⟩
    coreInStep := ⟨fun _ => List.drop_nil.symm, fun _ => Window.tracks_nil⟩ }

/-- After any calls the two windows have given the same answers, each of them `true` exactly when
the nonce was among the last `k` that were answered `false` for its peer; and every queue has no
duplicates, at most `k` entries and the elements of its set.

One call of either keeps the two in step (`Agree.step`), since both are `Window.push` on the queue
of the peer. -/
theorem replay_windows_agree (k : Nat) (calls : List (Str × Str)) :
    ∃ c d, ReplayWindow.calls.run ⟨{ maxSeen := k }, []⟩ calls = some c ∧
      CoreReplayWindow.calls.run ⟨CoreReplayWindow.new k, []⟩ calls = some d ∧
      c.log = d.log ∧ Along (answersWindow k) c.log ∧
      ∀ p, ((c.state.recent p).Nodup ∧ (c.state.recent p).length ≤ k ∧
          ∀ n, n ∈ c.state.recent p ↔ n ∈ c.state.known p) ∧
        (d.state.recent p).Nodup ∧ (d.state.recent p).length ≤ k ∧
          ∀ n, n ∈ d.state.recent p ↔ n ∈ d.state.known p := by
  obtain ⟨c, d, hc, hd, h⟩ := (agree_empty k).run calls
  refine ⟨c, d, hc, hd, h.log, h.answers, fun p => ⟨?_, ?_⟩⟩
  · obtain ⟨hnodup, hmem⟩ := h.inStep.tracks p
    exact ⟨hnodup, h.inStep.length_le p, fun n => (hmem n).symm⟩
  · obtain ⟨hnodup, hmem⟩ := h.coreInStep.tracks p
    exact ⟨hnodup, h.coreInStep.length_le p, fun n => (hmem n).symm⟩

end P4
