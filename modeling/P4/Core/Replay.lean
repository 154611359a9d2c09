/-
  `struct ReplayWindow` of `p4-core`: for each peer, a queue of the nonces seen last and the set
  of the same nonces.
-/
import P4.Json.Basic
import Mathlib.Data.Finset.Basic

namespace P4

/-- `struct ReplayWindow` -/
structure CoreReplayWindow where
  maxSeen : Nat
  seen : Dict Str (List Str)
  seenSet : Dict Str (Finset Str)

namespace CoreReplayWindow

/-- `ReplayWindow::new` -/
def new (maxSeen : Nat) : CoreReplayWindow where
  maxSeen := maxSeen
  seen := []
  seenSet := []

/-- `while queue.len() > self.max_seen`: the oldest nonces leave the queue and the set. -/
def evict (maxSeen : Nat) : List Str → Finset Str → List Str × Finset Str
  | [], set => ([], set)
  | old :: queue, set =>
    if (old :: queue).length > maxSeen then evict maxSeen queue (set.erase old)
    else (old :: queue, set)

/-- `ReplayWindow::seen_before`: the answer, and the window after the call. -/
def seenBefore (w : CoreReplayWindow) (peerId nonce : Str) : Bool × CoreReplayWindow :=
  let (set, seenSet) := Dict.setdefault w.seenSet peerId ∅
  if nonce ∈ set then (true, { w with seenSet := seenSet })
  else
    let set := insert nonce set
    let (queue, seen) := Dict.setdefault w.seen peerId []
    let queue := queue ++ [nonce]
    let (queue, set) := evict w.maxSeen queue set
    (false, { w with seen := Dict.set seen peerId queue
                     seenSet := Dict.set seenSet peerId set })

end CoreReplayWindow

end P4
