import Kipfs.Foundation.Machine
import Kipfs.Go.Callbacks
import Kipfs.Go.Streaming

/-!
# Sessions with the shell package

A program that is bound to the Go package makes request builders, sets what they will send, sends
them in one of its ways, and reads and closes the responses that it was handed. A way of sending
closes its response, hands it out, or reads it for a callback; `kinds` lists which, for the requests
of a session in order. From that list, and from what the program has closed itself, one can tell
which responses are open (`open_iff`). The package panics when it looks for a body where the server
gave none (`panics_iff`).
-/

namespace Kipfs.Shell

open Foundation Ipfsapi

/-- `strconv.FormatBool`. -/
def FormatBool : Bool → Bytes
  | true => [116, 114, 117, 101]
  | false => [102, 97, 108, 115, 101]

/-- `RequestBuilder.BoolOptions`. The client formats the value. -/
def BoolOptions (key : Bytes) (value : Bool) : GoM Unit :=
  RequestBuilder.Option key (FormatBool value)

/-- `RequestBuilder.ByteOptions`. -/
def ByteOptions (key value : Bytes) : GoM Unit := RequestBuilder.Option key value

/-- `RequestBuilder.BodyString`. -/
def BodyString (body : Bytes) : GoM Unit := RequestBuilder.Body (.raw body)

/-- `RequestBuilder.BodyBytes`. -/
def BodyBytes (body : Bytes) : GoM Unit := RequestBuilder.Body (.raw body)

/-! ## Calls -/

/-- A call of a method of a request builder. -/
inductive BuilderCall where
  | argument (arg : Bytes)
  | boolOptions (key : Bytes) (value : Bool)
  | byteOptions (key value : Bytes)
  | stringOptions (key value : Bytes)
  | bodyString (body : Bytes)
  | bodyBytes (body : Bytes)
  | send
  | postData2 (data : Bytes)
  | postString2 (data : Bytes)
  | postData3 (data : Bytes)
  | postString3 (data : Bytes)
  | post4 (body : Bytes)
  | post (call : PostCall)
  deriving DecidableEq, Repr

/-- What a method does with the response to its request: it closes it, hands it out, or gives what
it has read of it to a callback. -/
inductive Kind where
  | closes
  | handsOut
  | callsBack
  deriving DecidableEq, Repr

namespace BuilderCall

/-- The method that is called, and the response that it hands out. -/
def program (out : Outside) : BuilderCall → GoM (Option Ipfsapi.Response)
  | argument arg => do Argument arg; pure none
  | boolOptions key value => do BoolOptions key value; pure none
  | byteOptions key value => do ByteOptions key value; pure none
  | stringOptions key value => do StringOptions key value; pure none
  | bodyString body => do BodyString body; pure none
  | bodyBytes body => do BodyBytes body; pure none
  | send => do let _ ← Send out; pure none
  | postData2 data => do let _ ← PostData2 out data; pure none
  | postString2 data => do let _ ← PostString2 out data; pure none
  | postData3 data => do let (res, _) ← PostData3 out data; pure res
  | postString3 data => do let (res, _) ← PostString3 out data; pure res
  | post4 body => do let (res, _) ← Post4 out body; pure res
  | post call => do call.program out; pure none

/-- The kind of a call that issues a request. A post of a directory that cannot be read issues
none. -/
def kind (out : Outside) : BuilderCall → Option Kind
  | send => some .closes
  | postData2 _ => some .closes
  | postString2 _ => some .closes
  | postData3 _ => some .handsOut
  | postString3 _ => some .handsOut
  | post4 _ => some .handsOut
  | post call =>
      match call.entry out with
      | .ok _ => some .callsBack
      | .error _ => none
  | _ => none

/-- The builder as the call sends it. -/
def sent (out : Outside) (rb : RequestBuilder) : BuilderCall → RequestBuilder
  | postData2 data => { rb with body := some (multiFileReader [] (.readerFile data)) }
  | postString2 data => { rb with body := some (multiFileReader [] (.readerFile data)) }
  | postData3 data => { rb with body := some (multiFileReader [] (.readerFile data)) }
  | postString3 data => { rb with body := some (multiFileReader [] (.readerFile data)) }
  | post4 body => { rb with body := some (.raw body) }
  | post call =>
      match call.entry out with
      | .ok file => { rb with body := some (multiFileReader file.name file.node) }
      | .error _ => rb
  | _ => rb

/-- The call is of a method that answers through a callback. -/
def isPost : BuilderCall → Bool
  | post _ => true
  | _ => false

end BuilderCall

/-! ## States and steps -/

/-- The builders and the responses that a program holds, and the network. -/
structure Session where
  builders : List RequestBuilder
  responses : List Ipfsapi.Response
  net : Net

/-- A session in which nothing has been done. -/
def Session.fresh : Session := ⟨[], [], ⟨[], [], []⟩⟩

/-- A call of the package. -/
inductive SessionCall where
  | newRequest (shell : Shell) (command : Bytes)
  | on (i : Nat) (call : BuilderCall)
  | read (k : Nat) (size : Nat)
  | close (k : Nat)
  deriving DecidableEq, Repr

namespace SessionCall

/-- The kind of a call that issues a request. -/
def kind (out : Outside) : SessionCall → Option Kind
  | on _ call => call.kind out
  | _ => none

/-- The call is of a method that answers through a callback. -/
def isPost : SessionCall → Bool
  | on _ call => call.isPost
  | _ => false

end SessionCall

/-- The kinds of the requests that calls issue, in order. -/
def kinds (out : Outside) (calls : List SessionCall) : List Kind :=
  calls.filterMap (SessionCall.kind out)

namespace Session

variable (out : Outside) (s : Session)

/-- Call a method of a builder. -/
def onBuilder (i : Nat) (call : BuilderCall) (rb : RequestBuilder) : Option Session :=
  match (call.program out).run ⟨rb, s.net⟩ with
  | .ok res c => some ⟨s.builders.set i c.rb, s.responses ++ res.toList, c.net⟩
  | .error _ _ => none

/-- Read from a response. -/
def read (k : Nat) (size : Nat) (res : Ipfsapi.Response) : Option Session :=
  match (Response.Read size).run res with
  | .ok _ res' => some { s with responses := s.responses.set k res' }
  | .error _ _ => none

/-- Close a response. -/
def close (res : Ipfsapi.Response) : Session :=
  { s with net := { s.net with closed := s.net.closed ++ [res.id] } }

/-- Make a call; none when there is no such object, or when the call has panicked. -/
def step (s : Session) : SessionCall → Option Session
  | .newRequest shell command =>
      some { s with builders := s.builders ++ [shell.NewRequest command] }
  | .on i call => s.builders[i]?.bind (s.onBuilder out i call)
  | .read k size => s.responses[k]?.bind (s.read k size)
  | .close k => s.responses[k]?.map s.close

end Session

/-! ## Outcomes -/

/-- A request with this outcome has brought a response. -/
def answered : SendOutcome → Bool
  | .failed _ => false
  | _ => true

/-- The outcome is an error status. -/
def refused : SendOutcome → Bool
  | .status _ => true
  | _ => false

/-- The outcome of the request with the given number. -/
def outcomeAt (out : Outside) (issued : List WireRequest) (id : Nat) : SendOutcome :=
  out.server (issued.take (id + 1))

/-- A call looks for a body where this outcome has none: `Post2` after a failure or an error status,
and `post` after an error status. -/
def BuilderCall.noBody (out : Outside) (o : SendOutcome) : BuilderCall → Bool
  | postData2 _ => !answered o || refused o
  | postString2 _ => !answered o || refused o
  | post call => (call.entry out).isOk && refused o
  | _ => false

section Outcomes

variable {out : Outside} {issued : List WireRequest} {w : WireRequest} {id : Nat}

/-- Later requests do not change an outcome. -/
theorem outcomeAt_append_of_lt (h : id < issued.length) :
    outcomeAt out (issued ++ [w]) id = outcomeAt out issued id := by
  rw [outcomeAt, outcomeAt, List.take_append_of_le_length h]

theorem outcomeAt_append_self :
    outcomeAt out (issued ++ [w]) issued.length = out.server (issued ++ [w]) := by
  rw [outcomeAt, List.take_of_length_le (by simp)]

/-- An outcome brings one response to close when it is answered, and else none. -/
theorem count_toClose (o : SendOutcome) (id id' : Nat) :
    (toClose o id).count id' = if id = id' ∧ answered o = true then 1 else 0 := by
  cases o with
  | failed err => simp [toClose, SendOutcome.reply, answered]
  | status err => simp [toClose, SendOutcome.reply, answered, List.count_singleton]
  | body output => simp [toClose, SendOutcome.reply, answered, List.count_singleton]

end Outcomes

/-! ## What a call does -/

/-- What a call has done that has returned, for the outcome of its request. The number of the
request is the number of requests issued before. -/
structure Returned (out : Outside) (o : SendOutcome) (call : BuilderCall) (c : Conn)
    (res : Option Ipfsapi.Response) (c' : Conn) : Prop where
  issued : c'.net.issued = c.net.issued ++
    if (call.kind out).isSome then [(call.sent out c.rb).wire] else []
  closed : c'.net.closed = c.net.closed ++
    if call.kind out = some .closes then toClose o c.net.issued.length else []
  res : res = if call.kind out = some .handsOut then (o.reply c.net.issued.length).1 else none
  callbacks : c'.net.callbacks.length = c.net.callbacks.length + if call.isPost then 1 else 0

/-- A call panics because there is no body, or returns. -/
def Ends (out : Outside) (o : SendOutcome) (call : BuilderCall) (c : Conn)
    (result : EStateM.Result GoPanic Conn (Option Ipfsapi.Response)) : Prop :=
  if call.noBody out o then ∃ c', result = .error .nilDereference c'
  else ∃ res c', result = .ok res c' ∧ Returned out o call c res c'

section Calls

variable (out : Outside) (o : SendOutcome) (c : Conn)

/-- A setting is stored in the builder. -/
theorem ends_setting {call : BuilderCall} (rb : RequestBuilder) (hkind : call.kind out = none)
    (hbody : call.noBody out o = false) (hpost : call.isPost = false) :
    Ends out o call c (.ok none { c with rb }) := by
  rw [Ends, hbody, if_neg nofun]
  refine ⟨none, _, rfl, ?_⟩
  constructor <;> simp [hkind, hpost]

/-- `Send` closes its response whatever the outcome. -/
theorem ends_send : Ends out o .send c ((BuilderCall.send.program (answering out o)).run c) := by
  rw [Ends, if_neg nofun]
  cases o with
  | failed err => exact ⟨none, c.issue, rfl, rfl, (List.append_nil _).symm, rfl, rfl⟩
  | status err => exact ⟨none, _, rfl, rfl, rfl, rfl, rfl⟩
  | body output => exact ⟨none, _, rfl, rfl, rfl, rfl, rfl⟩

/-- `Post2` closes its response when it has read it, and else panics. -/
theorem ends_post2 {call : BuilderCall} {name : Bytes} {file : Node}
    (hkind : call.kind out = some .closes)
    (hsent : call.sent out c.rb = { c.rb with body := some (multiFileReader name file) })
    (hbody : call.noBody out o = (!answered o || refused o)) (hpost : call.isPost = false) :
    Ends out o call c
      ((Post2 (answering out o) name file >>= fun _ =>
        (pure none : GoM (Option Ipfsapi.Response))).run
        c) := by
  rw [Ends, hbody]
  cases o with
  | failed err => exact ⟨_, rfl⟩
  | status err => exact ⟨_, rfl⟩
  | body output =>
      have hrun : (Post2 (answering out (.body output)) name file).run c = .ok (postResult output)
          { posted name file c with
            net := { (posted name file c).net with
              closed := (posted name file c).net.closed ++ [c.net.issued.length] } } := by
        rw [Post2, EStateM.run_bind, run_Body]
        dsimp only
        rw [EStateM.run_bind, run_client_Send]
        dsimp only [SendOutcome.reply]
        rw [run_ensure]
        simp only [postResult, deref, orAbort_some, pure_bind, ReadAll]
        rcases output.readAll with ⟨respData, _ | err⟩
        · rfl
        · rfl
      have hfound : ¬ (!answered (.body output) || refused (.body output)) = true :=
        Bool.false_ne_true
      rw [EStateM.run_bind, hrun, if_neg hfound]
      refine ⟨none, _, rfl, ?_⟩
      constructor
      · rw [hkind, hsent]
        rfl
      · rw [hkind]
        rfl
      · rw [hkind]
        rfl
      · rw [hpost]
        rfl

/-- A method that sets a body and hands the response out closes nothing. -/
theorem ends_handsOut {call : BuilderCall} {body : Ipfsapi.Body}
    (hkind : call.kind out = some .handsOut)
    (hsent : call.sent out c.rb = { c.rb with body := some body })
    (hbody : call.noBody out o = false) (hpost : call.isPost = false) :
    Ends out o call c
      ((RequestBuilder.Body body >>= fun _ => sendForResponse (answering out o) >>= fun reply =>
        (pure reply.1 : GoM (Option Ipfsapi.Response))).run c) := by
  have hrun : (RequestBuilder.Body body >>= fun _ =>
      sendForResponse (answering out o) >>= fun reply =>
      (pure reply.1 : GoM (Option Ipfsapi.Response))).run c =
        .ok (o.reply c.net.issued.length).1
          (Conn.issue { c with rb := { c.rb with body := some body } }) := by
    rw [EStateM.run_bind, run_Body]
    dsimp only
    rw [EStateM.run_bind, run_sendForResponse]
    rfl
  rw [Ends, hbody, if_neg nofun, hrun]
  refine ⟨_, _, rfl, ?_⟩
  constructor
  · rw [hkind, hsent]
    rfl
  · rw [hkind]
    exact (List.append_nil _).symm
  · rw [hkind, if_pos rfl]
  · rw [hpost]
    rfl

/-- After the callback of a post that has returned. -/
theorem returned_post {call : PostCall} {file : FileEntry} (hentry : call.entry out = .ok file)
    (event : CallbackEvent) :
    Returned out o (.post call) c none (notified event (posted file.name file.node c)) := by
  have hkind : (BuilderCall.post call).kind out = some .callsBack := by
    rw [BuilderCall.kind, hentry]
  have hsent : (BuilderCall.post call).sent out c.rb =
      { c.rb with body := some (multiFileReader file.name file.node) } := by
    rw [BuilderCall.sent, hentry]
  constructor
  · rw [hkind, hsent]
    rfl
  · rw [hkind]
    exact (List.append_nil _).symm
  · rw [hkind]
    rfl
  · exact List.length_append

/-- A post tells its callback, and leaves its response open. -/
theorem ends_post (call : PostCall) :
    Ends out o (.post call) c ((BuilderCall.program (answering out o) (.post call)).run c) := by
  rw [BuilderCall.program, EStateM.run_bind, Ends, BuilderCall.noBody]
  cases hentry : call.entry out with
  | error err =>
      -- nothing is sent
      have hrun : (call.program (answering out o)).run c =
          .ok () (notified (.OnError err.text) c) := by
        rw [PostCall.program_eq, show call.entry (answering out o) = .error err from hentry,
          run_notify]
      have hkind : (BuilderCall.post call).kind out = none := by rw [BuilderCall.kind, hentry]
      rw [hrun, if_neg nofun]
      refine ⟨none, _, rfl, ?_⟩
      constructor
      · rw [hkind]
        exact (List.append_nil _).symm
      · rw [hkind]
        exact (List.append_nil _).symm
      · rw [hkind]
        rfl
      · exact List.length_append
  | ok file =>
      rw [run_program_of_entry c hentry]
      cases o with
      | failed err =>
          rw [run_post_failed, if_neg nofun]
          exact ⟨none, _, rfl, returned_post out _ c hentry _⟩
      | status err =>
          rw [run_post_status]
          exact ⟨_, rfl⟩
      | body output =>
          rw [run_post_body, if_neg nofun]
          exact ⟨none, _, rfl, returned_post out _ c hentry _⟩

/-- Only the outcome of its own request matters to a call. -/
theorem run_answering (call : BuilderCall) :
    (call.program out).run c = (call.program (answering out
      (out.server (c.net.issued ++ [(call.sent out c.rb).wire])))).run c := by
  cases call with
  | post call =>
      have hpost : (call.program out).run c = (call.program (answering out
          (out.server
            (c.net.issued ++ [((BuilderCall.post call).sent out c.rb).wire])))).run c := by
        rw [PostCall.program_eq, PostCall.program_eq, BuilderCall.sent]
        cases hentry : call.entry out with
        | error err =>
            rw [show call.entry (answering out _) = .error err from hentry]
        | ok file =>
            rw [show call.entry (answering out _) = .ok file from hentry]
            rfl
      rw [BuilderCall.program, BuilderCall.program, EStateM.run_bind, EStateM.run_bind, hpost]
  | _ => rfl

/-- **How a call on a builder ends, and what it has done when it has returned.** -/
theorem program_ends (call : BuilderCall) :
    Ends out (out.server (c.net.issued ++ [(call.sent out c.rb).wire])) call c
      ((call.program out).run c) := by
  rw [run_answering]
  generalize out.server (c.net.issued ++ [(call.sent out c.rb).wire]) = o
  cases call with
  | argument arg => exact ends_setting out o c _ rfl rfl rfl
  | boolOptions key value => exact ends_setting out o c _ rfl rfl rfl
  | byteOptions key value => exact ends_setting out o c _ rfl rfl rfl
  | stringOptions key value => exact ends_setting out o c _ rfl rfl rfl
  | bodyString body => exact ends_setting out o c _ rfl rfl rfl
  | bodyBytes body => exact ends_setting out o c _ rfl rfl rfl
  | send => exact ends_send out o c
  | postData2 data => exact ends_post2 out o c rfl rfl rfl rfl
  | postString2 data => exact ends_post2 out o c rfl rfl rfl rfl
  | postData3 data => exact ends_handsOut out o c rfl rfl rfl rfl
  | postString3 data => exact ends_handsOut out o c rfl rfl rfl rfl
  | post4 body => exact ends_handsOut out o c rfl rfl rfl rfl
  | post call => exact ends_post out o c call

end Calls

/-! ## What a step does -/

/-- A step leaves the responses and the requests as they are, but for what can be read of a
response. -/
structure Quiet (s s' : Session) : Prop where
  issued : s'.net.issued = s.net.issued
  closed : s'.net.closed = s.net.closed
  length : s'.responses.length = s.responses.length
  responses : ∀ (k : Nat) (res' : Ipfsapi.Response), s'.responses[k]? = some res' →
    ∃ res : Ipfsapi.Response, s.responses[k]? = some res ∧ res'.id = res.id ∧
      (res'.Output = none ↔ res.Output = none)

/-- A step issues a request of the given kind. -/
structure IssuesOne (out : Outside) (kind : Kind) (s s' : Session) : Prop where
  issued : ∃ w, s'.net.issued = s.net.issued ++ [w]
  closed : s'.net.closed = s.net.closed ++
    if kind = .closes then toClose (outcomeAt out s'.net.issued s.net.issued.length)
      s.net.issued.length
    else []
  responses : s'.responses = s.responses ++
    if kind = .handsOut then
      ((outcomeAt out s'.net.issued s.net.issued.length).reply s.net.issued.length).1.toList
    else []

section Steps

variable {out : Outside} {s s' : Session} {call : SessionCall}

theorem Quiet.of_same (hissued : s'.net.issued = s.net.issued)
    (hclosed : s'.net.closed = s.net.closed)
    (hresponses : s'.responses = s.responses) : Quiet s s' where
  issued := hissued
  closed := hclosed
  length := by rw [hresponses]
  responses k res' hk := ⟨res', by rw [← hresponses]; exact hk, rfl, Iff.rfl⟩

/-- A response that is held is still held. -/
theorem Quiet.held (h : Quiet s s') {k : Nat} {res : Ipfsapi.Response}
    (hk : s.responses[k]? = some res) :
    ∃ res' : Ipfsapi.Response, s'.responses[k]? = some res' ∧ res'.id = res.id := by
  have hlt : k < s'.responses.length := by
    rw [h.length]
    exact (List.getElem?_eq_some_iff.mp hk).1
  have hk' : s'.responses[k]? = some s'.responses[k] := List.getElem?_eq_getElem hlt
  obtain ⟨res₀, hk₀, hid, _⟩ := h.responses k _ hk'
  cases hk.symm.trans hk₀
  exact ⟨_, hk', hid⟩

/-- A read of a response without a body panics, and a read of one with a body leaves it one. -/
theorem run_Read_cases (size : Nat) (res : Ipfsapi.Response) :
    (res.Output = none ∧ (Response.Read size).run res = .error .nilDereference res) ∨
    (res.Output ≠ none ∧ ∃ a output, (Response.Read size).run res =
      .ok a { res with Output := some output }) := by
  obtain ⟨id, failure, output⟩ := res
  cases output with
  | none => exact .inl ⟨rfl, rfl⟩
  | some r =>
      refine .inr ⟨nofun, ?_⟩
      obtain ⟨data, err, r', hread⟩ : ∃ data err r', r.read size = (data, err, r') := ⟨_, _, _, rfl⟩
      cases err with
      | none => exact ⟨_, r', run_Read_data hread⟩
      | some e =>
          cases e with
          | eof => exact ⟨_, r', run_Read_eof hread⟩
          | other text => exact ⟨_, r', run_Read_other hread⟩

/-- A call on a builder that has returned. -/
theorem onBuilder_eq_some {i : Nat} {call : BuilderCall} {rb : RequestBuilder}
    (h : s.onBuilder out i call rb = some s') :
    ∃ o res c', o = out.server (s.net.issued ++ [(call.sent out rb).wire]) ∧
      Returned out o call ⟨rb, s.net⟩ res c' ∧ s'.net = c'.net ∧
      s'.responses = s.responses ++ res.toList := by
  have hends := program_ends out ⟨rb, s.net⟩ call
  unfold Session.onBuilder at h
  rw [Ends] at hends
  split at hends
  · obtain ⟨c', hrun⟩ := hends
    rw [hrun] at h
    cases h
  · obtain ⟨res, c', hrun, hreturned⟩ := hends
    rw [hrun] at h
    cases h
    exact ⟨_, res, c', rfl, hreturned, rfl, rfl⟩

/-- **What a step does**: it issues a request of the kind of its call, or closes a response, or
leaves all of them as they are. -/
theorem step_cases (h : s.step out call = some s') :
    (∃ kind, call.kind out = some kind ∧ IssuesOne out kind s s') ∨
    (∃ k res, call = .close k ∧ s.responses[k]? = some res ∧ s' = s.close res) ∨
    (call.kind out = none ∧ (∀ k, call ≠ .close k) ∧ Quiet s s') := by
  cases call with
  | newRequest shell command =>
      cases h
      exact .inr (.inr ⟨rfl, nofun, .of_same rfl rfl rfl⟩)
  | read k size =>
      obtain ⟨res, hk, hread⟩ := Option.bind_eq_some_iff.mp h
      refine .inr (.inr ⟨rfl, nofun, ?_⟩)
      unfold Session.read at hread
      rcases run_Read_cases size res with ⟨_, hrun⟩ | ⟨houtput, a, output, hrun⟩
      · rw [hrun] at hread
        cases hread
      · rw [hrun] at hread
        cases hread
        refine ⟨rfl, rfl, List.length_set, fun k' res' hk' => ?_⟩
        dsimp only at hk'
        by_cases hsame : k = k'
        · subst hsame
          rw [List.getElem?_set_self (List.getElem?_eq_some_iff.mp hk).1] at hk'
          cases hk'
          exact ⟨res, hk, rfl, iff_of_false nofun houtput⟩
        · rw [List.getElem?_set_ne hsame] at hk'
          exact ⟨res', hk', rfl, Iff.rfl⟩
  | close k =>
      obtain ⟨res, hk, rfl⟩ := Option.map_eq_some_iff.mp h
      exact .inr (.inl ⟨k, res, rfl, hk, rfl⟩)
  | on i call =>
      obtain ⟨rb, _, hmove⟩ := Option.bind_eq_some_iff.mp h
      obtain ⟨o, res, c', ho, hreturned, hnet, hresponses⟩ := onBuilder_eq_some hmove
      have hissued := hreturned.issued
      have hclosed := hreturned.closed
      have hres := hreturned.res
      rw [← hnet] at hissued hclosed
      cases hkind : call.kind out with
      | none =>
          rw [hkind] at hissued hclosed hres
          refine .inr (.inr ⟨hkind, nofun, .of_same ?_ ?_ ?_⟩)
          · rw [hissued]
            exact List.append_nil _
          · rw [hclosed]
            exact List.append_nil _
          · rw [hresponses, hres]
            exact List.append_nil _
      | some kind =>
          rw [hkind] at hissued hclosed hres
          have hissued : s'.net.issued = s.net.issued ++ [(call.sent out rb).wire] := hissued
          have hoat : outcomeAt out s'.net.issued s.net.issued.length = o := by
            rw [hissued, outcomeAt_append_self, ho]
          refine .inl ⟨kind, hkind, ⟨⟨_, hissued⟩, ?_, ?_⟩⟩
          · rw [hclosed, hoat]
            simp only [Option.some.injEq]
          · rw [hresponses, hres, hoat]
            simp only [Option.some.injEq]
            split
            · rfl
            · rfl

end Steps

/-! ## Accounts -/

/-- What there is to say of every request and every response after some calls. -/
structure Accounts (out : Outside) (calls : List SessionCall) (s : Session) : Prop where
  issued : s.net.issued.length = (kinds out calls).length
  closes : ∀ id, (kinds out calls)[id]? = some .closes →
    s.net.closed.count id = if answered (outcomeAt out s.net.issued id) then 1 else 0
  callsBack : ∀ id, (kinds out calls)[id]? = some .callsBack → s.net.closed.count id = 0
  handsOut : ∀ id, (kinds out calls)[id]? = some .handsOut →
    if answered (outcomeAt out s.net.issued id) then
      ∃ (k : Nat) (res : Ipfsapi.Response), s.responses[k]? = some res ∧ res.id = id
    else s.net.closed.count id = 0
  unissued : ∀ id, s.net.issued.length ≤ id → s.net.closed.count id = 0
  response : ∀ (k : Nat) (res : Ipfsapi.Response), s.responses[k]? = some res →
    (kinds out calls)[res.id]? = some .handsOut ∧
      answered (outcomeAt out s.net.issued res.id) = true ∧
      s.net.closed.count res.id = calls.count (.close k) ∧
      (res.Output = none ↔ refused (outcomeAt out s.net.issued res.id) = true)
  distinct : ∀ (k k' : Nat) (res res' : Ipfsapi.Response), s.responses[k]? = some res →
    s.responses[k']? = some res' → res.id = res'.id → k = k'
  unheld : ∀ k, s.responses.length ≤ k → calls.count (.close k) = 0

section Accounting

variable {out : Outside} {s s' : Session} {calls : List SessionCall} {call : SessionCall}

theorem kinds_append (calls : List SessionCall) (call : SessionCall) :
    kinds out (calls ++ [call]) = kinds out calls ++ (call.kind out).toList := by
  rw [kinds, List.filterMap_append, kinds]
  cases hkind : call.kind out with
  | none => simp [hkind]
  | some kind => simp [hkind]

theorem count_close_append {k : Nat} (h : ∀ k, call ≠ .close k) :
    (calls ++ [call]).count (.close k) = calls.count (.close k) := by
  rw [List.count_append, List.count_singleton]
  simp [h k]

/-- A step that leaves everything as it is. -/
theorem Accounts.quiet (h : Accounts out calls s) (hkind : call.kind out = none)
    (hclose : ∀ k, call ≠ .close k) (hquiet : Quiet s s') : Accounts out (calls ++ [call]) s' := by
  have hkinds : kinds out (calls ++ [call]) = kinds out calls := by
    rw [kinds_append, hkind]
    exact List.append_nil _
  constructor
  · rw [hkinds, hquiet.issued]
    exact h.issued
  · rw [hkinds, hquiet.issued, hquiet.closed]
    exact h.closes
  · rw [hkinds, hquiet.closed]
    exact h.callsBack
  · intro id hid
    rw [hkinds] at hid
    rw [hquiet.issued, hquiet.closed]
    have hhands := h.handsOut id hid
    split at hhands
    · obtain ⟨k, res, hk, rfl⟩ := hhands
      obtain ⟨res', hk', hid'⟩ := hquiet.held hk
      rw [if_pos ‹_›]
      exact ⟨k, res', hk', hid'⟩
    · rw [if_neg ‹_›]
      exact hhands
  · rw [hquiet.issued, hquiet.closed]
    exact h.unissued
  · intro k res' hk'
    obtain ⟨res, hk, hid, houtput⟩ := hquiet.responses k res' hk'
    rw [hkinds, hquiet.issued, hquiet.closed, hid, houtput, count_close_append hclose]
    exact h.response k res hk
  · intro k k' res res' hk hk' heq
    obtain ⟨res₁, hk₁, hid₁, _⟩ := hquiet.responses k res hk
    obtain ⟨res₂, hk₂, hid₂, _⟩ := hquiet.responses k' res' hk'
    exact h.distinct k k' res₁ res₂ hk₁ hk₂ (by rw [← hid₁, ← hid₂, heq])
  · intro k hk
    rw [count_close_append hclose]
    exact h.unheld k (hquiet.length ▸ hk)

/-- A response that is closed. -/
theorem Accounts.close (h : Accounts out calls s) {k : Nat} {res : Ipfsapi.Response}
    (hk : s.responses[k]? = some res) : Accounts out (calls ++ [.close k]) (s.close res) := by
  have hkinds : kinds out (calls ++ [.close k]) = kinds out calls := by
    rw [kinds_append]
    exact List.append_nil _
  obtain ⟨hkind, hanswered, _, _⟩ := h.response k res hk
  have hcount : ∀ id, (s.close res).net.closed.count id =
      s.net.closed.count id + if res.id = id then 1 else 0 := by
    intro id
    show (s.net.closed ++ [res.id]).count id = _
    rw [List.count_append, List.count_singleton]
    simp only [beq_iff_eq]
  -- the response belongs to a request that hands out, and to no other one
  have hother : ∀ id kind, (kinds out calls)[id]? = some kind → kind ≠ .handsOut →
      (s.close res).net.closed.count id = s.net.closed.count id := by
    intro id kind hid hne
    rw [hcount, if_neg, Nat.add_zero]
    rintro rfl
    cases hkind.symm.trans hid
    exact hne rfl
  constructor
  · rw [hkinds]
    exact h.issued
  · intro id hid
    rw [hkinds] at hid
    rw [hother id _ hid nofun]
    exact h.closes id hid
  · intro id hid
    rw [hkinds] at hid
    rw [hother id _ hid nofun]
    exact h.callsBack id hid
  · intro id hid
    rw [hkinds] at hid
    have hhands := h.handsOut id hid
    show if answered (outcomeAt out s.net.issued id) then _ else _
    split
    · rw [if_pos ‹_›] at hhands
      exact hhands
    · rename_i hnot
      rw [if_neg hnot] at hhands
      rw [hcount, if_neg (by rintro rfl; exact hnot hanswered), hhands]
  · intro id hid
    have hlt : res.id < s.net.issued.length := by
      rw [h.issued]
      exact (List.getElem?_eq_some_iff.mp hkind).1
    have hid : s.net.issued.length ≤ id := hid
    rw [hcount, if_neg (by omega)]
    exact h.unissued id hid
  · intro k' res' hk'
    obtain ⟨hkind', hanswered', hcount', houtput'⟩ := h.response k' res' hk'
    rw [hkinds]
    refine ⟨hkind', hanswered', ?_, houtput'⟩
    rw [hcount, hcount', List.count_append, List.count_singleton]
    by_cases hsame : k = k'
    · subst hsame
      cases hk.symm.trans hk'
      simp
    · rw [if_neg fun heq => hsame (h.distinct k k' res res' hk hk' heq)]
      simp [hsame]
  · exact h.distinct
  · intro k' hk'
    have hk' : s.responses.length ≤ k' := hk'
    have hlt : k < s.responses.length := (List.getElem?_eq_some_iff.mp hk).1
    rw [List.count_append, h.unheld k' hk', List.count_singleton]
    have hne : k ≠ k' := by omega
    simp [hne]

/-- The response of a request, if there is one. -/
theorem reply_eq_some {o : SendOutcome} {id : Nat} {res : Ipfsapi.Response}
    (h : (o.reply id).1 = some res) :
    res.id = id ∧ answered o = true ∧ (res.Output = none ↔ refused o = true) := by
  cases o with
  | failed err => cases h
  | status err =>
      cases h
      exact ⟨rfl, rfl, iff_of_true rfl rfl⟩
  | body output =>
      cases h
      exact ⟨rfl, rfl, iff_of_false nofun nofun⟩

theorem reply_of_answered {o : SendOutcome} (id : Nat) (h : answered o = true) :
    ∃ res : Ipfsapi.Response, (o.reply id).1 = some res := by
  cases o with
  | failed err => cases h
  | status err => exact ⟨_, rfl⟩
  | body output => exact ⟨_, rfl⟩

section Issuing

variable {kind : Kind}

/-- A response that is held after a request was issued: it was held before, or is the new one. -/
theorem IssuesOne.response (h : IssuesOne out kind s s') {k : Nat} {res : Ipfsapi.Response}
    (hk : s'.responses[k]? = some res) :
    s.responses[k]? = some res ∨ kind = .handsOut ∧ k = s.responses.length ∧
      ((outcomeAt out s'.net.issued s.net.issued.length).reply s.net.issued.length).1 =
        some res := by
  rw [h.responses, List.getElem?_append] at hk
  split at hk
  · exact .inl hk
  · split at hk
    · rename_i hlt hkind
      cases hreply : ((outcomeAt out s'.net.issued s.net.issued.length).reply
          s.net.issued.length).1 with
      | none =>
          rw [hreply] at hk
          cases hk
      | some res' =>
          rw [hreply, Option.toList_some, List.getElem?_singleton] at hk
          split at hk
          · cases hk
            exact .inr ⟨hkind, by omega, rfl⟩
          · cases hk
    · cases hk

/-- A response that was held is held after a request was issued. -/
theorem IssuesOne.held (h : IssuesOne out kind s s') {k : Nat} {res : Ipfsapi.Response}
    (hk : s.responses[k]? = some res) : s'.responses[k]? = some res := by
  rw [h.responses, List.getElem?_append_left (List.getElem?_eq_some_iff.mp hk).1]
  exact hk

/-- What is closed when a request is issued is its own response. -/
theorem IssuesOne.count (h : IssuesOne out kind s s') (id : Nat) :
    s'.net.closed.count id = s.net.closed.count id +
      if kind = .closes ∧ s.net.issued.length = id ∧
        answered (outcomeAt out s'.net.issued s.net.issued.length) = true then 1 else 0 := by
  rw [h.closed, List.count_append]
  by_cases hkind : kind = .closes
  · rw [if_pos hkind, count_toClose]
    simp only [hkind, true_and]
  · rw [if_neg hkind, if_neg fun hall => hkind hall.1]
    rfl

/-- A request that is issued. -/
theorem Accounts.issue (h : Accounts out calls s) (hkind : call.kind out = some kind)
    (hissues : IssuesOne out kind s s') : Accounts out (calls ++ [call]) s' := by
  obtain ⟨w, hissued⟩ := hissues.issued
  have hclose : ∀ k, call ≠ .close k := by
    rintro k rfl
    cases hkind
  have hkinds : kinds out (calls ++ [call]) = kinds out calls ++ [kind] := by
    rw [kinds_append, hkind]
    rfl
  have hlength : s'.net.issued.length = s.net.issued.length + 1 := by
    rw [hissued]
    exact List.length_append
  -- what is said of earlier requests stays true
  have hsame : ∀ id, id < s.net.issued.length →
      outcomeAt out s'.net.issued id = outcomeAt out s.net.issued id ∧
        s'.net.closed.count id = s.net.closed.count id := by
    intro id hlt
    refine ⟨by rw [hissued, outcomeAt_append_of_lt hlt], ?_⟩
    rw [hissues.count, if_neg fun hall => by omega, Nat.add_zero]
  have hcases : ∀ id kind', (kinds out (calls ++ [call]))[id]? = some kind' →
      (id < s.net.issued.length ∧ (kinds out calls)[id]? = some kind') ∨
        id = s.net.issued.length ∧ kind' = kind := by
    intro id kind' hid
    rw [hkinds, List.getElem?_append, ← h.issued] at hid
    split at hid
    · exact .inl ⟨‹_›, hid⟩
    · rw [List.getElem?_singleton] at hid
      split at hid
      · cases hid
        exact .inr ⟨by omega, rfl⟩
      · cases hid
  have hnew := h.unissued s.net.issued.length le_rfl
  have hcount := hissues.count s.net.issued.length
  rw [hnew, Nat.zero_add] at hcount
  constructor
  · rw [hkinds, hlength, h.issued, List.length_append, List.length_singleton]
  · intro id hid
    rcases hcases id _ hid with ⟨hlt, hid⟩ | ⟨rfl, rfl⟩
    · rw [(hsame id hlt).1, (hsame id hlt).2]
      exact h.closes id hid
    · rw [hcount]
      simp only [true_and]
  · intro id hid
    rcases hcases id _ hid with ⟨hlt, hid⟩ | ⟨rfl, rfl⟩
    · rw [(hsame id hlt).2]
      exact h.callsBack id hid
    · rw [hcount, if_neg fun hall => nomatch hall.1]
  · intro id hid
    rcases hcases id _ hid with ⟨hlt, hid⟩ | ⟨rfl, rfl⟩
    · have hhands := h.handsOut id hid
      rw [(hsame id hlt).1, (hsame id hlt).2]
      split
      · rw [if_pos ‹_›] at hhands
        obtain ⟨k, res, hk, hres⟩ := hhands
        exact ⟨k, res, hissues.held hk, hres⟩
      · rw [if_neg ‹_›] at hhands
        exact hhands
    · split
      · obtain ⟨res, hreply⟩ := reply_of_answered s.net.issued.length ‹_›
        refine ⟨s.responses.length, res, ?_, (reply_eq_some hreply).1⟩
        rw [hissues.responses, if_pos rfl, hreply, List.getElem?_append_right le_rfl, Nat.sub_self]
        rfl
      · rw [hcount, if_neg fun hall => nomatch hall.1]
  · intro id hid
    rw [hissues.count, h.unissued id (by omega), if_neg fun hall => by omega]
  · intro k res hk
    rw [count_close_append hclose]
    rcases hissues.response hk with hold | ⟨rfl, rfl, hreply⟩
    · obtain ⟨hid, hanswered, hclosed, houtput⟩ := h.response k res hold
      have hlt : res.id < s.net.issued.length := by
        rw [h.issued]
        exact (List.getElem?_eq_some_iff.mp hid).1
      rw [(hsame _ hlt).1, (hsame _ hlt).2, hkinds, List.getElem?_append_left (h.issued ▸ hlt)]
      exact ⟨hid, hanswered, hclosed, houtput⟩
    · obtain ⟨hid, hanswered, houtput⟩ := reply_eq_some hreply
      rw [hid]
      refine ⟨?_, hanswered, ?_, houtput⟩
      · rw [hkinds, h.issued, List.getElem?_append_right le_rfl, Nat.sub_self]
        rfl
      · rw [hcount, if_neg fun hall => nomatch hall.1]
        exact (h.unheld _ le_rfl).symm
  · intro k k' res res' hk hk' heq
    -- the new response has the number of no other one
    have hnumber : ∀ {k : Nat} {res : Ipfsapi.Response}, s.responses[k]? = some res →
        res.id < s.net.issued.length := by
      intro k res hold
      rw [h.issued]
      exact (List.getElem?_eq_some_iff.mp (h.response k res hold).1).1
    rcases hissues.response hk with hold | ⟨_, rfl, hreply⟩
    · rcases hissues.response hk' with hold' | ⟨_, rfl, hreply'⟩
      · exact h.distinct k k' res res' hold hold' heq
      · have hlt := hnumber hold
        have hid := (reply_eq_some hreply').1
        omega
    · rcases hissues.response hk' with hold' | ⟨_, rfl, hreply'⟩
      · have hlt := hnumber hold'
        have hid := (reply_eq_some hreply).1
        omega
      · rfl
  · intro k hk
    have hlonger : s.responses.length ≤ s'.responses.length := by
      rw [hissues.responses, List.length_append]
      omega
    rw [count_close_append hclose]
    exact h.unheld k (by omega)

end Issuing

/-- **The accounts of a run.** -/
theorem accounts_run (hrun : run (Session.step out) Session.fresh calls = some s) :
    Accounts out calls s := by
  induction calls using List.reverseRecOn generalizing s with
  | nil =>
      cases hrun
      constructor
      · rfl
      · exact nofun
      · exact nofun
      · exact nofun
      · exact fun _ _ => rfl
      · exact nofun
      · exact nofun
      · exact fun _ _ => rfl
  | append_singleton calls call ih =>
      obtain ⟨middle, hbefore, hmove⟩ := run_snoc_eq_some.mp hrun
      have haccounts := ih hbefore
      rcases step_cases hmove with ⟨kind, hkind, hissues⟩ | ⟨k, res, rfl, hk, rfl⟩ |
          ⟨hkind, hclose, hquiet⟩
      · exact haccounts.issue hkind hissues
      · exact haccounts.close hk
      · exact haccounts.quiet hkind hclose hquiet

end Accounting

/-! ## Responses that are open -/

/-- The response of a request is open: there is one, and it has not been closed. -/
def Session.Open (out : Outside) (s : Session) (id : Nat) : Prop :=
  id < s.net.issued.length ∧ answered (outcomeAt out s.net.issued id) = true ∧ id ∉ s.net.closed

/-- The program was handed the response of a request, and holds it under a number of its own. -/
def Session.Holds (s : Session) (k id : Nat) : Prop :=
  ∃ res : Ipfsapi.Response, s.responses[k]? = some res ∧ res.id = id

section Open

variable {out : Outside} {s s' : Session} {calls : List SessionCall} {call : SessionCall} {id : Nat}

/-- A call of a method with a callback makes one callback, and no other call makes one. -/
theorem callbacks_step (h : s.step out call = some s') :
    s'.net.callbacks.length = s.net.callbacks.length + if call.isPost then 1 else 0 := by
  cases call with
  | newRequest shell command =>
      cases h
      rfl
  | read k size =>
      obtain ⟨res, _, hread⟩ := Option.bind_eq_some_iff.mp h
      unfold Session.read at hread
      split at hread
      · cases hread
        rfl
      · cases hread
  | close k =>
      obtain ⟨res, _, rfl⟩ := Option.map_eq_some_iff.mp h
      rfl
  | on i call =>
      obtain ⟨rb, _, hmove⟩ := Option.bind_eq_some_iff.mp h
      obtain ⟨_, _, _, _, hreturned, hnet, _⟩ := onBuilder_eq_some hmove
      rw [hnet]
      exact hreturned.callbacks

theorem callbacks_run (hrun : run (Session.step out) s calls = some s') :
    s'.net.callbacks.length = s.net.callbacks.length + calls.countP SessionCall.isPost := by
  induction calls generalizing s with
  | nil =>
      cases hrun
      rfl
  | cons call calls ih =>
      obtain ⟨middle, hmove, hrest⟩ := run_cons_eq_some.mp hrun
      rw [ih hrest, callbacks_step hmove, List.countP_cons]
      omega

/-- How often the response of a request has been closed. -/
theorem Accounts.count_closed (h : Accounts out calls s) {kind : Kind}
    (hkind : (kinds out calls)[id]? = some kind) :
    (kind = .closes ∧ s.net.closed.count id =
      if answered (outcomeAt out s.net.issued id) then 1 else 0) ∨
    (kind = .callsBack ∧ s.net.closed.count id = 0) ∨
    (kind = .handsOut ∧ answered (outcomeAt out s.net.issued id) = false ∧
      s.net.closed.count id = 0) ∨
    kind = .handsOut ∧ ∃ k, s.Holds k id ∧ s.net.closed.count id = calls.count (.close k) := by
  cases kind with
  | closes => exact .inl ⟨rfl, h.closes id hkind⟩
  | callsBack => exact .inr (.inl ⟨rfl, h.callsBack id hkind⟩)
  | handsOut =>
      have hhands := h.handsOut id hkind
      split at hhands
      · obtain ⟨k, res, hk, rfl⟩ := hhands
        exact .inr (.inr (.inr ⟨rfl, k, ⟨res, hk, rfl⟩, (h.response k res hk).2.2.1⟩))
      · exact .inr (.inr (.inl ⟨rfl, Bool.eq_false_iff.mpr ‹_›, hhands⟩))

/-- A request that has a response in the hands of the program. -/
theorem Accounts.of_holds (h : Accounts out calls s) {k : Nat} (hholds : s.Holds k id) :
    (kinds out calls)[id]? = some .handsOut ∧ answered (outcomeAt out s.net.issued id) = true ∧
      s.net.closed.count id = calls.count (.close k) := by
  obtain ⟨res, hk, rfl⟩ := hholds
  obtain ⟨hkind, hanswered, hcount, _⟩ := h.response k res hk
  exact ⟨hkind, hanswered, hcount⟩

/-- **Which responses are open, and which were closed twice.** After any calls, with any number of
builders, every call of a method with a callback has made one callback; the responses that are open
are those of the requests that were posted with a callback, and those that were handed out and not
closed by the program; and the responses that were closed more than once are those that the program
has closed more than once. -/
theorem open_iff (hrun : run (Session.step out) Session.fresh calls = some s) :
    s.net.issued.length = (kinds out calls).length ∧
      s.net.callbacks.length = calls.countP SessionCall.isPost ∧
      (∀ id, s.Open out id ↔ answered (outcomeAt out s.net.issued id) = true ∧
        ((kinds out calls)[id]? = some .callsBack ∨ ∃ k, s.Holds k id ∧ .close k ∉ calls)) ∧
      ∀ id, 1 < s.net.closed.count id ↔ ∃ k, s.Holds k id ∧ 1 < calls.count (.close k) := by
  have haccounts := accounts_run hrun
  have hcallbacks := callbacks_run hrun
  refine ⟨haccounts.issued, hcallbacks.trans (Nat.zero_add _), fun id => ?_, fun id => ?_⟩
  · constructor
    · rintro ⟨hlt, hanswered, hopen⟩
      have hzero : s.net.closed.count id = 0 := List.count_eq_zero.mpr hopen
      refine ⟨hanswered, ?_⟩
      rw [haccounts.issued] at hlt
      rcases haccounts.count_closed (List.getElem?_eq_getElem hlt) with
        ⟨_, hcount⟩ | ⟨hkind, _⟩ | ⟨_, hnot, _⟩ | ⟨_, k, hholds, hcount⟩
      · rw [hanswered, if_pos rfl] at hcount
        omega
      · exact .inl (hkind ▸ List.getElem?_eq_getElem hlt)
      · rw [hanswered] at hnot
        cases hnot
      · exact .inr ⟨k, hholds, List.count_eq_zero.mp (by omega)⟩
    · rintro ⟨hanswered, hkind | ⟨k, hholds, hnot⟩⟩
      · have hlt := (List.getElem?_eq_some_iff.mp hkind).1
        exact ⟨haccounts.issued ▸ hlt, hanswered,
          List.count_eq_zero.mp (haccounts.callsBack id hkind)⟩
      · obtain ⟨hkind, _, hcount⟩ := haccounts.of_holds hholds
        have hlt := (List.getElem?_eq_some_iff.mp hkind).1
        refine ⟨haccounts.issued ▸ hlt, hanswered, List.count_eq_zero.mp ?_⟩
        rw [hcount, List.count_eq_zero.mpr hnot]
  · constructor
    · intro htwice
      have hlt : id < (kinds out calls).length := by
        rw [← haccounts.issued]
        by_contra hnot
        have hzero := haccounts.unissued id (Nat.le_of_not_lt hnot)
        omega
      rcases haccounts.count_closed (List.getElem?_eq_getElem hlt) with
        ⟨_, hcount⟩ | ⟨_, hcount⟩ | ⟨_, _, hcount⟩ | ⟨_, k, hholds, hcount⟩
      · split at hcount <;> omega
      · omega
      · omega
      · exact ⟨k, hholds, by omega⟩
    · rintro ⟨k, hholds, htwice⟩
      rw [(haccounts.of_holds hholds).2.2]
      exact htwice

/-! ## Panics -/

/-- The object of a call is there. -/
def SessionCall.Has (s : Session) : SessionCall → Prop
  | .newRequest _ _ => True
  | .on i _ => i < s.builders.length
  | .read k _ => k < s.responses.length
  | .close k => k < s.responses.length

/-- A call looks for a body where the server gave none. -/
def SessionCall.NoBody (out : Outside) (s : Session) : SessionCall → Prop
  | .on i call => ∃ rb, s.builders[i]? = some rb ∧
      call.noBody out (out.server (s.net.issued ++ [(call.sent out rb).wire])) = true
  | .read k _ => ∃ res : Ipfsapi.Response, s.responses[k]? = some res ∧
      refused (outcomeAt out s.net.issued res.id) = true
  | _ => False

/-- **When the package panics.** After any calls, a call on an object that is there panics exactly
when it looks for a body where the server gave none: a post whose results are read, after a failure
of the transport or an error status; a post with a callback, after an error status; or a read of a
response that was handed out for an error status, whatever has been done since. -/
theorem panics_iff (hrun : run (Session.step out) Session.fresh calls = some s)
    (hhas : call.Has s) :
    s.step out call = none ↔ call.NoBody out s := by
  cases call with
  | newRequest shell command => exact iff_of_false nofun id
  | close k =>
      have hk : s.responses[k]? = some s.responses[k] := List.getElem?_eq_getElem hhas
      refine iff_of_false ?_ id
      rw [Session.step, hk]
      exact nofun
  | read k size =>
      have hk : s.responses[k]? = some s.responses[k] := List.getElem?_eq_getElem hhas
      generalize s.responses[k] = res at hk
      have houtput := ((accounts_run hrun).response k res hk).2.2.2
      have hbody : SessionCall.NoBody out s (.read k size) ↔ res.Output = none := by
        rw [houtput]
        constructor
        · rintro ⟨res', hk', hrefused⟩
          cases hk.symm.trans hk'
          exact hrefused
        · exact fun hrefused => ⟨res, hk, hrefused⟩
      rw [hbody, Session.step, hk, Option.bind_some, Session.read]
      rcases run_Read_cases size res with ⟨hnone, hread⟩ | ⟨hsome, a, output, hread⟩
      · rw [hread]
        exact iff_of_true rfl hnone
      · rw [hread]
        exact iff_of_false nofun hsome
  | on i call =>
      have hi : s.builders[i]? = some s.builders[i] := List.getElem?_eq_getElem hhas
      generalize s.builders[i] = rb at hi
      have hbody : SessionCall.NoBody out s (.on i call) ↔
          call.noBody out (out.server (s.net.issued ++ [(call.sent out rb).wire])) = true := by
        constructor
        · rintro ⟨rb', hi', hnone⟩
          cases hi.symm.trans hi'
          exact hnone
        · exact fun hnone => ⟨rb, hi, hnone⟩
      rw [hbody, Session.step, hi, Option.bind_some, Session.onBuilder]
      have hends := program_ends out ⟨rb, s.net⟩ call
      rw [Ends] at hends
      dsimp only at hends
      split at hends
      · obtain ⟨c', hcall⟩ := hends
        rw [hcall]
        exact iff_of_true rfl ‹_›
      · obtain ⟨res, c', hcall, _⟩ := hends
        rw [hcall]
        exact iff_of_false nofun ‹_›

end Open

/-- A request that is sent, posted for its response, which is then closed, and posted with a
callback. -/
theorem open_iff_posts :
    ∃ s, run (Session.step standalone.out) Session.fresh [.newRequest ⟨[104]⟩ [112], .on 0 .send,
        .on 0 (.postData3 [1]), .on 0 (.post (.postData [2])), .close 0] = some s ∧
      ¬ s.Open standalone.out 1 ∧ s.Open standalone.out 2 := by
  obtain ⟨s, hrun, hholds⟩ : ∃ s, run (Session.step standalone.out) Session.fresh
      [.newRequest ⟨[104]⟩ [112], .on 0 .send, .on 0 (.postData3 [1]),
        .on 0 (.post (.postData [2])), .close 0] = some s ∧
      ∀ k, s.Holds k 1 → k = 0 := by
    refine ⟨_, rfl, ?_⟩
    rintro k ⟨res, hk, _⟩
    have hlt := (List.getElem?_eq_some_iff.mp hk).1
    exact Nat.lt_one_iff.mp hlt
  obtain ⟨_, _, hopen, _⟩ := open_iff hrun
  refine ⟨s, hrun, ?_, (hopen 2).mpr ⟨rfl, .inl rfl⟩⟩
  intro hone
  rcases ((hopen 1).mp hone).2 with hkind | ⟨k, hk, hnot⟩
  · cases hkind
  · rw [hholds k hk] at hnot
    exact hnot (by decide)

/-- A read of a response to an error status. -/
theorem panics_iff_status :
    ∃ s, run (Session.step (answering standalone.out (.status (.other [120])))) Session.fresh
        [.newRequest ⟨[104]⟩ [112], .on 0 (.postData3 [1])] = some s ∧
      s.step (answering standalone.out (.status (.other [120]))) (.read 0 1) = none := by
  obtain ⟨s, hrun, hhas, hbody⟩ : ∃ s,
      run (Session.step (answering standalone.out (.status (.other [120])))) Session.fresh
        [.newRequest ⟨[104]⟩ [112], .on 0 (.postData3 [1])] = some s ∧
      SessionCall.Has s (.read 0 1) ∧
      SessionCall.NoBody (answering standalone.out (.status (.other [120]))) s (.read 0 1) :=
    ⟨_, rfl, Nat.one_pos, _, rfl, rfl⟩
  exact ⟨s, hrun, (panics_iff hrun hhas).mpr hbody⟩

end Kipfs.Shell
