/-
  `class ReplayWindow` of `p4.py`: for each peer, a queue of the nonces seen last and the set
  of the same nonces.
-/
import P4.Core.Envelope
import P4.Window.Basic
import Mathlib.Data.Finset.Basic

namespace P4

/-- `class ReplayWindow` -/
structure ReplayWindow where
  maxSeen : Nat := 4096
  seqs : Dict Str (List Str) := []
  sets : Dict Str (Finset Str) := []

/-- `ReplayWindow.seen`: the answer, and the window after the call. -/
def ReplayWindow.seen (w : ReplayWindow) (peerId nonce : Str) : Bool × ReplayWindow :=
  let (s, sets) := Dict.setdefault w.sets peerId ∅
  if nonce ∈ s then (true, { w with sets := sets })
  else
    let (seq, seqs) := Dict.setdefault w.seqs peerId []
    let seq := seq ++ [nonce]
    let s := insert nonce s
    if seq.length > w.maxSeen then
      let old := seq.headD []
      (false, { w with seqs := Dict.set seqs peerId seq.tail
                       sets := Dict.set sets peerId (s.erase old) })
    else
      (false, { w with seqs := Dict.set seqs peerId seq
                       sets := Dict.set sets peerId s })

end P4
