/-
  Several commands on one control connection.

  The callers of `_onionrelay_control_command` catch what it raises and send the next command on
  the same connection.  A call that meets an error code raises at once, so a reply whose error is
  not in its last line leaves lines behind that the next call takes for its own
  (`error_lines_left_behind`).  `calls_inStep_iff` says when all calls stay in step.
-/
import P4.Control.Equiv.Replies

namespace P4

namespace ControlReply

/-- No line before the last one has an error code. -/
def Clean : ControlReply → Prop
  | last _ _ => True
  | mid code _ more => code < 400 ∧ more.Clean
  | data code _ _ more => code < 400 ∧ more.Clean

instance decidableClean : ∀ r : ControlReply, Decidable r.Clean
  | last _ _ => inferInstanceAs (Decidable True)
  | mid code _ more =>
    have := decidableClean more
    inferInstanceAs (Decidable (code < 400 ∧ more.Clean))
  | data code _ _ more =>
    have := decidableClean more
    inferInstanceAs (Decidable (code < 400 ∧ more.Clean))

theorem encode_ne_nil (r : ControlReply) : r.encode ≠ [] := by
  intro h
  have hlen := congrArg List.length h
  cases r <;> simp [encode, length_crlf] at hlen

/-- Nothing is left of the reply exactly when the first error is in its last line. -/
theorem unread_eq_nil_iff (r : ControlReply) : r.unread = [] ↔ r.Clean := by
  induction r with
  | last code text => exact iff_of_true rfl trivial
  | mid code text more ih =>
    rw [unread, Clean]
    by_cases hcode : 400 ≤ code
    · rw [if_pos hcode]
      exact iff_of_false (encode_ne_nil more) fun h => absurd h.1 (Nat.not_lt.mpr hcode)
    · rw [if_neg hcode, ih]
      exact (and_iff_right (Nat.not_le.mp hcode)).symm
  | data code text block more ih =>
    rw [unread, Clean]
    by_cases hcode : 400 ≤ code
    · rw [if_pos hcode]
      exact iff_of_false (fun h => encode_ne_nil more (List.append_eq_nil_iff.mp h).2)
        fun h => absurd h.1 (Nat.not_lt.mpr hcode)
    · rw [if_neg hcode, ih]
      exact (and_iff_right (Nat.not_le.mp hcode)).symm

/-- What is put before the texts of a reply leaves its error as it is. -/
theorem map_ne_error {α γ : Type} {r : Except Exc α} {f : α → γ} {e : Exc} (h : r ≠ .error e) :
    r.map f ≠ .error e := by
  intro hmap
  cases r with
  | error e' => exact h (congrArg Except.error (Except.error.inj hmap))
  | ok a => cases hmap

/-- A reply says nothing about the limit of a line. -/
theorem outcome_ne_builtin (r : ControlReply) (name : Str) :
    r.outcome ≠ .error (.builtin name) := by
  have herror : ∀ (code : Nat) (text : Text), (.error (controlError code text) :
      Except Exc (List Text)) ≠ .error (.builtin name) := by
    intro code text h
    cases h
  induction r with
  | last code text =>
    rw [outcome]
    split_ifs
    · exact herror code text
    · intro h
      cases h
  | mid code text more ih =>
    rw [outcome]
    split_ifs
    · exact herror code text
    · exact map_ne_error ih
  | data code text block more ih =>
    rw [outcome]
    split_ifs
    · exact herror code text
    · exact map_ne_error ih

end ControlReply

/-! ### Calls -/

section

variable [PyDigits]

/-- One command after the other, each when the one before has returned or raised: the connection
before the call, and how the call ends. -/
def controlCalls : List Text → Wire UInt8 → List (Wire UInt8 × Ending Exc (List Text))
  | [], _ => []
  | command :: commands, w =>
    match onionrelayControlCommand (Str.ofText command) w with
    | (.waiting, _) => [(w, .waiting)]
    | (ending, w') => (w, ending) :: controlCalls commands w'

/-- Each call finds its own reply next, and ends as that reply says. -/
def CallsInStep (rest : List UInt8) :
    List ControlReply → List (Wire UInt8 × Ending Exc (List Text)) → Prop
  | [], [] => True
  | r :: replies, call :: calls =>
    call.1.contents = (r :: replies).flatMap ControlReply.encode ++ rest ∧
      call.2 = Ending.ofExcept r.outcome ∧ CallsInStep rest replies calls
  | _, _ => False

/-- A call that ends leaves the connection to the next one. -/
theorem controlCalls_cons {command : Text} {w w' : Wire UInt8}
    {result : Except Exc (List Text)}
    (h : onionrelayControlCommand (Str.ofText command) w = (Ending.ofExcept result, w'))
    (commands : List Text) : controlCalls (command :: commands) w =
      (w, Ending.ofExcept result) :: controlCalls commands w' := by
  rw [controlCalls, h]
  cases result <;> rfl

/-- The first call finds all replies. -/
theorem contents_of_inStep {rest : List UInt8} {r : ControlReply} {replies : List ControlReply}
    {command : Text} {commands : List Text} {w : Wire UInt8}
    (h : CallsInStep rest (r :: replies) (controlCalls (command :: commands) w)) :
    w.contents = (r :: replies).flatMap ControlReply.encode ++ rest := by
  rw [controlCalls] at h
  split at h
  · exact h.1
  · exact h.1

omit [PyDigits] in
/-- In step, every call ends as its reply says. -/
theorem endings_of_inStep {rest : List UInt8} {replies : List ControlReply}
    {calls : List (Wire UInt8 × Ending Exc (List Text))} (h : CallsInStep rest replies calls) :
    calls.map Prod.snd = replies.map fun r => Ending.ofExcept r.outcome := by
  induction replies generalizing calls with
  | nil =>
    cases calls with
    | nil => rfl
    | cons call calls => cases h
  | cons r replies ih =>
    cases calls with
    | nil => cases h
    | cons call calls => rw [List.map_cons, List.map_cons, h.2.1, ih h.2.2]

/-- The calls stay in step exactly when every line that is read is within the limit, and the
errors of every reply but the last are in its last line.

By induction on the replies: a call that reads all of its reply leaves the next one to the next
call, and what a call leaves unread is not the beginning of the next reply. -/
theorem calls_inStep_iff {replies : List ControlReply} (hr : ∀ r ∈ replies, r.WellFormed)
    {commands : List Text} (hlen : commands.length = replies.length) {w : Wire UInt8}
    {rest : List UInt8} (hw : w.contents = replies.flatMap ControlReply.encode ++ rest) :
    CallsInStep rest replies (controlCalls commands w) ↔
      (∀ r ∈ replies, r.Fits) ∧ ∀ r ∈ replies.dropLast, r.Clean := by
  induction replies generalizing commands w with
  | nil =>
    rw [List.length_eq_zero_iff.mp hlen]
    exact iff_of_true trivial ⟨List.forall_mem_nil _, List.forall_mem_nil _⟩
  | cons r replies ih =>
    obtain ⟨command, commands, rfl⟩ := List.exists_cons_of_length_eq_add_one hlen
    rw [List.forall_mem_cons] at hr
    have hlen' : commands.length = replies.length := Nat.succ.inj hlen
    have hcontents : w.contents = r.encode ++ (replies.flatMap ControlReply.encode ++ rest) := by
      rw [hw, List.flatMap_cons, List.append_assoc]
    by_cases hfits : r.Fits
    · rw [← r.read_append_unread, List.append_assoc] at hcontents
      obtain ⟨w', hcall, hafter⟩ := yields_controlCommand hr.1 hfits command w _ hcontents
      have hw' := hafter.rest hcontents
      rw [controlCalls_cons hcall, CallsInStep, and_iff_right hw, and_iff_right rfl,
        List.forall_mem_cons, and_iff_right hfits]
      by_cases hclean : r.Clean
      · -- the next call starts with the next reply
        rw [r.unread_eq_nil_iff.mpr hclean, List.nil_append] at hw'
        rw [ih hr.2 hlen' hw']
        cases replies with
        | nil => rfl
        | cons r' replies =>
          have hfirst : (∀ x ∈ (r :: r' :: replies).dropLast, x.Clean) ↔
              ∀ x ∈ (r' :: replies).dropLast, x.Clean := by
            rw [List.dropLast_cons_cons, List.forall_mem_cons, and_iff_right hclean]
          rw [hfirst]
      · have hunread := mt r.unread_eq_nil_iff.mp hclean
        cases replies with
        | nil =>
          rw [List.length_eq_zero_iff.mp hlen']
          exact iff_of_true trivial ⟨List.forall_mem_nil _, List.forall_mem_nil _⟩
        | cons r' replies =>
          refine iff_of_false (fun h => ?_) fun h => hclean (h.2 r List.mem_cons_self)
          -- the next call finds the rest of this reply
          obtain ⟨command', commands, rfl⟩ := List.exists_cons_of_length_eq_add_one hlen'
          have hnext := contents_of_inStep h
          rw [hw', List.append_left_eq_self] at hnext
          exact hunread hnext
    · refine iff_of_false (fun h => ?_) fun h => hfits (h.1 r List.mem_cons_self)
      obtain ⟨w', hcall⟩ := controlCommand_breaks hr.1 hfits command w _ hcontents
      have hraised : onionrelayControlCommand (Str.ofText command) w =
        (Ending.ofExcept (.error (.builtin (Str.lit "ValueError"))), w') := hcall
      rw [controlCalls_cons hraised, CallsInStep] at h
      exact r.outcome_ne_builtin _ (Ending.ofExcept_injective h.2.1).symm

end

/-! ### Samples -/

namespace Sample

/-- Two errors in one reply, and then a success. -/
def errorReplies : List ControlReply :=
  [.mid 552 ['n', 'o', ' ', 'a'] (.last 552 ['n', 'o', ' ', 'b']), .last 250 ['O', 'K']]

/-- A connection on which they arrive. -/
def errorWire : Wire UInt8 := ⟨errorReplies.flatMap ControlReply.encode, [], false, []⟩

/-- An error in the last line, and then a success with a data block. -/
def lateErrorReplies : List ControlReply :=
  [.mid 250 ['v', '=', '1'] (.last 515 ['n', 'o']), statusReply]

end Sample

/-- After an error in the first of two lines the next call reads the second one. -/
theorem error_lines_left_behind : ∃ (replies : List ControlReply) (commands : List Text)
    (w : Wire UInt8), (∀ r ∈ replies, r.WellFormed) ∧ commands.length = replies.length ∧
    w.contents = replies.flatMap ControlReply.encode ∧
    ¬ CallsInStep [] replies (controlCalls commands w) := by
  have hne : (controlCalls [[], []] Sample.errorWire).map Prod.snd ≠
        Sample.errorReplies.map (fun r => Ending.ofExcept r.outcome) ∧
      ∀ r ∈ Sample.errorReplies, r.WellFormed := by decide +kernel
  exact ⟨Sample.errorReplies, [[], []], Sample.errorWire, hne.2, rfl, List.append_nil _,
    fun h => hne.1 (endings_of_inStep h)⟩

theorem calls_inStep_iff_sample :
    CallsInStep [] Sample.lateErrorReplies (controlCalls [[], []]
      ⟨Sample.lateErrorReplies.flatMap ControlReply.encode, [], true, []⟩) := by
  have hok : (∀ r ∈ Sample.lateErrorReplies, r.WellFormed) ∧
      (∀ r ∈ Sample.lateErrorReplies, r.Fits) ∧
      ∀ r ∈ Sample.lateErrorReplies.dropLast, r.Clean := by decide +kernel
  exact (calls_inStep_iff hok.1 rfl rfl).mpr hok.2

end P4
