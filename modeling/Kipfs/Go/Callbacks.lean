import Kipfs.Go.Posting

/-!
# Posting with a callback

`PostData`, `PostString`, `PostReader` and `PostDirectory` return nothing and answer through a
`misc.Callback`. Three of them go straight to `post`; `PostDirectory` has two steps before it, each
of which may fail. `PostCall.entry` says what a call gives to `post`, so that the outcomes of a call
are those of its entry and, when there is one, of the sending.
-/

namespace Kipfs.Shell

open Foundation Ipfsapi

/-- A call of a method that answers through a callback. -/
inductive PostCall where
  | postData (data : Bytes)
  | postString (data : Bytes)
  | postReader (name data : Bytes)
  | postDirectory (dir : Bytes)
  deriving DecidableEq, Repr

namespace PostCall

/-- The method that is called. -/
def program (out : Outside) : PostCall → GoM Unit
  | postData data => PostData out data
  | postString data => PostString out data
  | postReader name data => PostReader out name data
  | postDirectory dir => PostDirectory out dir

/-- The entry a call posts, or the error of the step that fails before anything is sent. -/
def entry (out : Outside) : PostCall → Except GoError FileEntry
  | postData data => .ok ⟨[], .readerFile data⟩
  | postString data => .ok ⟨[], .readerFile data⟩
  | postReader name data => .ok ⟨name, .readerFile data⟩
  | postDirectory dir =>
      match out.lstat dir with
      | some err => .error err
      | none => (out.newSerialFile dir).map fun sf => ⟨Base dir, sf⟩

/-- A call posts its entry, or reports the step that failed. -/
theorem program_eq (out : Outside) (call : PostCall) :
    call.program out =
      match call.entry out with
      | .ok file => post out file.name file.node
      | .error err => notify (.OnError err.text) := by
  cases call with
  | postData data | postString data | postReader name data => rfl
  | postDirectory dir =>
      show PostDirectory out dir = _
      simp only [PostDirectory, entry]
      cases out.lstat dir with
      | some err => rfl
      | none => cases out.newSerialFile dir <;> rfl

end PostCall

/-- After one more callback. -/
def notified (event : CallbackEvent) (c : Conn) : Conn :=
  { c with net := { c.net with callbacks := c.net.callbacks ++ [event] } }

/-- After the request with a multipart body of one entry has been issued. -/
def posted (name : Bytes) (file : Node) (c : Conn) : Conn :=
  Conn.issue { c with rb := { c.rb with body := some (multiFileReader name file) } }

section Runs

variable (out : Outside) (c : Conn) (name : Bytes) (file : Node)

theorem run_notify (event : CallbackEvent) : (notify event).run c = .ok () (notified event c) := rfl

/-- A failure of the transport is reported. -/
theorem run_post_failed (err : GoError) :
    (post (answering out (.failed err)) name file).run c =
      .ok () (notified (.OnError err.text) (posted name file c)) := rfl

/-- An error status leaves `ReadAll` without an output. -/
theorem run_post_status (err : GoError) :
    (post (answering out (.status err)) name file).run c =
      .error .nilDereference (posted name file c) := rfl

/-- Whatever could be read of a body is given to `OnResponse`, and the response stays open. -/
theorem run_post_body (output : Reader Bytes) :
    (post (answering out (.body output)) name file).run c =
      .ok () (notified (.OnResponse output.readAll.1) (posted name file c)) := rfl

end Runs

/-! ## What a call owes its callback -/

/-- The body of a response, when it can be read to its end. -/
def Complete (o : SendOutcome) (data : Bytes) : Prop :=
  ∃ output, o = .body output ∧ output.readAll = (data, none)

/-- The complete body is what the server delivers, when that ends without a failure. -/
theorem complete_iff_delivers {output : Reader Bytes} {content data : Bytes} {ending : GoError}
    (h : output.Delivers content ending) :
    Complete (.body output) data ↔ data = content ∧ ending = .eof := by
  have hread := Reader.readAll_of_delivers h
  constructor
  · intro hcomplete
    obtain ⟨output', heq, hdata⟩ := hcomplete
    cases heq
    rw [hread] at hdata
    cases ending with
    | eof => exact ⟨(congrArg Prod.fst hdata).symm, rfl⟩
    | other text => cases hdata
  · intro hdata
    obtain ⟨rfl, rfl⟩ := hdata
    exact ⟨output, rfl, hread⟩

/-- The call returns, having made exactly one callback, and that is `OnResponse` only when every
step succeeded, with the complete body. -/
def CallsBack (out : Outside) (o : SendOutcome) (call : PostCall) (c c' : Conn) : Prop :=
  (call.program (answering out o)).run c = .ok () c' ∧
    ∃ event, c'.net.callbacks = c.net.callbacks ++ [event] ∧
      ∀ data, event = .OnResponse data → (∃ file, call.entry out = .ok file) ∧ Complete o data

/-- The numbers of the responses a call brings, which are to be closed. -/
def PostCall.toClose (out : Outside) (o : SendOutcome) (call : PostCall) (id : Nat) : List Nat :=
  match call.entry out with
  | .ok _ => Shell.toClose o id
  | .error _ => []

/-- The call makes one truthful callback and closes its response, if it has one, once. -/
def Truthful (out : Outside) (o : SendOutcome) (call : PostCall) (c : Conn) : Prop :=
  ∃ c', CallsBack out o call c c' ∧
    c'.net.closed = c.net.closed ++ call.toClose out o c.net.issued.length

/-- No response comes of the call: a step before the sending fails, or the transport does. -/
def NoResponse (out : Outside) (o : SendOutcome) (call : PostCall) : Prop :=
  (∃ err, call.entry out = .error err) ∨ ∃ err, o = .failed err

section Calls

variable {out : Outside} {o : SendOutcome} {call : PostCall} {file : FileEntry} (c : Conn)

theorem run_program_of_entry (h : call.entry out = .ok file) :
    (call.program (answering out o)).run c =
      (post (answering out o) file.name file.node).run c := by
  rw [PostCall.program_eq, show call.entry (answering out o) = .ok file from h]

/-- A call without an entry calls back with the error and closes nothing. -/
theorem truthful_of_no_entry {err : GoError} (h : call.entry out = .error err) :
    Truthful out o call c := by
  refine ⟨notified (.OnError err.text) c, ⟨?_, .OnError err.text, rfl, ?_⟩, ?_⟩
  · rw [PostCall.program_eq, show call.entry (answering out o) = .error err from h, run_notify]
  · intro data hevent
    cases hevent
  · rw [PostCall.toClose, h, List.append_nil]
    rfl

/-- A failure of the transport is called back, and there is no response to close. -/
theorem truthful_of_failed (err : GoError) (h : call.entry out = .ok file) :
    Truthful out (.failed err) call c := by
  refine ⟨notified (.OnError err.text) (posted file.name file.node c),
    ⟨?_, .OnError err.text, rfl, ?_⟩, ?_⟩
  · rw [run_program_of_entry c h, run_post_failed]
  · intro data hevent
    cases hevent
  · rw [PostCall.toClose, h]
    exact (List.append_nil _).symm

/-- On an error status the call does not return. -/
theorem not_callsBack_of_status {err : GoError} {c' : Conn} (h : call.entry out = .ok file) :
    ¬ CallsBack out (.status err) call c c' := by
  intro hcalls
  have hrun := hcalls.1
  rw [run_program_of_entry c h, run_post_status] at hrun
  cases hrun

/-- On a response with a body there is one way to end: with what could be read given to
`OnResponse`, and the response left open. -/
theorem callsBack_body_iff {output : Reader Bytes} {c' : Conn} (h : call.entry out = .ok file) :
    CallsBack out (.body output) call c c' ↔
      c' = notified (.OnResponse output.readAll.1) (posted file.name file.node c) ∧
        output.readAll.2 = none := by
  constructor
  · intro hcalls
    obtain ⟨hrun, event, hcallbacks, htrue⟩ := hcalls
    rw [run_program_of_entry c h, run_post_body] at hrun
    cases hrun
    obtain rfl : .OnResponse output.readAll.1 = event := by
      simpa [notified, posted, Conn.issue] using hcallbacks
    obtain ⟨_, output', heq, hread⟩ := htrue _ rfl
    cases heq
    exact ⟨rfl, congrArg Prod.snd hread⟩
  · intro hend
    obtain ⟨rfl, hread⟩ := hend
    refine ⟨?_, .OnResponse output.readAll.1, rfl, ?_⟩
    · rw [run_program_of_entry c h, run_post_body]
    · intro data hdata
      cases hdata
      exact ⟨⟨file, h⟩, output, rfl, Prod.ext rfl hread⟩

/-- A response with a body is never closed. -/
theorem not_truthful_of_body (output : Reader Bytes) (h : call.entry out = .ok file) :
    ¬ Truthful out (.body output) call c := by
  intro htrue
  obtain ⟨c', hcalls, hclosed⟩ := htrue
  obtain ⟨rfl, _⟩ := (callsBack_body_iff c h).mp hcalls
  rw [PostCall.toClose, h] at hclosed
  have hopen : c.net.closed = c.net.closed ++ [c.net.issued.length] := hclosed
  simp at hopen

/-- A call with an entry gets a response unless the transport fails. -/
theorem noResponse_iff_failed (h : call.entry out = .ok file) :
    NoResponse out o call ↔ ∃ err, o = .failed err := by
  constructor
  · intro hnone
    rcases hnone with ⟨err, herr⟩ | hfailed
    · cases h.symm.trans herr
    · exact hfailed
  · exact .inr

end Calls

/-- **A call keeps its promises exactly when no response comes of it.** Those about the callback it
keeps also on a body that can be read to its end; the response it never closes. -/
theorem truthful_iff (out : Outside) (o : SendOutcome) (call : PostCall) (c : Conn) :
    (Truthful out o call c ↔ NoResponse out o call) ∧
      ((∃ c', CallsBack out o call c c') ↔ NoResponse out o call ∨ ∃ data, Complete o data) := by
  cases hentry : call.entry out with
  | error err =>
      obtain ⟨c', hcalls, hclosed⟩ := truthful_of_no_entry (o := o) c hentry
      have hnone : NoResponse out o call := .inl ⟨err, hentry⟩
      exact ⟨iff_of_true ⟨c', hcalls, hclosed⟩ hnone, iff_of_true ⟨c', hcalls⟩ (.inl hnone)⟩
  | ok file =>
      rw [noResponse_iff_failed hentry]
      cases o with
      | failed err =>
          obtain ⟨c', hcalls, hclosed⟩ := truthful_of_failed c err hentry
          exact ⟨iff_of_true ⟨c', hcalls, hclosed⟩ ⟨err, rfl⟩,
            iff_of_true ⟨c', hcalls⟩ (.inl ⟨err, rfl⟩)⟩
      | status err =>
          have hpanics : ∀ c', ¬ CallsBack out (.status err) call c c' :=
            fun c' => not_callsBack_of_status c hentry
          simp [Truthful, Complete, hpanics]
      | body output =>
          have hopen := not_truthful_of_body c output hentry
          simp [hopen, callsBack_body_iff c hentry, Complete, Prod.ext_iff]

/-- `PostData` panics on an error status; it gives `OnResponse` the prefix of a body that fails
after two bytes; and it leaves the response to a body of two bytes open. -/
theorem not_truthful_postData :
    (∃ c, ((PostCall.postData [1]).program (answering standalone.out (.status (.other [120])))).run
        freshConn = .error .nilDereference c) ∧
      (∃ c, ((PostCall.postData [1]).program (answering standalone.out
          (.body (Reader.ofBytes (.other [120]) [104, 105])))).run freshConn = .ok () c ∧
        c.net.callbacks = [.OnResponse [104, 105]]) ∧
      (∃ c, ((PostCall.postData [1]).program (answering standalone.out
          (.body (Reader.ofBytes .eof [104, 105])))).run freshConn = .ok () c ∧
        c.net.callbacks = [.OnResponse [104, 105]] ∧ c.net.closed = []) ∧
      ¬ Truthful standalone.out (.status (.other [120])) (.postData [1]) freshConn ∧
      ¬ Truthful standalone.out (.body (Reader.ofBytes (.other [120]) [104, 105])) (.postData [1])
        freshConn ∧
      ¬ Truthful standalone.out (.body (Reader.ofBytes .eof [104, 105])) (.postData [1])
        freshConn := by
  refine ⟨⟨_, rfl⟩, ⟨_, rfl, rfl⟩, ⟨_, rfl, rfl, rfl⟩, ?_, not_truthful_of_body _ _ rfl,
    not_truthful_of_body _ _ rfl⟩
  intro htrue
  obtain ⟨c', hcalls, _⟩ := htrue
  exact not_callsBack_of_status freshConn rfl hcalls

end Kipfs.Shell
