import Kipfs.Go.Exports

/-!
# Posting against sending

`Send`, `Post2`, `post3` and `Post4` are four copies of one sequence: issue the request, look at
the error, look at the error status, read the output, close the response. `Send` does all of it in
order. `Post2` defers the close before it looks at the error and never looks at the status, and
`post3` and `Post4` leave the status to their caller. The lemmas here run each method against each
`SendOutcome`; `postsAsSend_iff` puts them together with the exports built on them.
-/

namespace Kipfs.Shell

open Foundation Ipfsapi

/-- The outside in which every request has the given outcome. -/
def answering (out : Outside) (o : SendOutcome) : Outside := { out with server := fun _ => o }

/-- The numbers of the responses an outcome brings, which are to be closed. -/
def toClose (o : SendOutcome) (id : Nat) : List Nat := (o.reply id).1.toList.map Ipfsapi.Response.id

/-- What `Send` returns for an outcome. -/
def sendResult : SendOutcome → Bytes × Option GoError
  | .failed err => ([], some err)
  | .status err => ([], some err)
  | .body output => output.readAll

/-- What `Post2` returns for a response with a body: no bytes with an error. -/
def postResult (output : Reader Bytes) : Bytes × Option GoError :=
  match output.readAll with
  | (_, some err) => ([], some err)
  | (respData, none) => (respData, none)

/-- Two results of which a caller that looks at the error first cannot tell one from the other. -/
def Agree (result result' : Bytes × Option GoError) : Prop :=
  result.2 = result'.2 ∧ (result.2 = none → result.1 = result'.1)

/-- A method returns what `Send` returns and closes what the outcome brings, once. -/
def EndsAsSend (m : Outside → GoM (Bytes × Option GoError)) (out : Outside) (o : SendOutcome)
    (c : Conn) : Prop :=
  ∃ result sent c' c'', (m (answering out o)).run c = .ok result c' ∧
    (Send (answering out o)).run c = .ok sent c'' ∧ Agree result sent ∧
    c'.net.closed = c.net.closed ++ toClose o c.net.issued.length

/-- A method returns, and with an error when there is nothing to read. -/
def ReportsFailure (m : Outside → GoM Reply) (out : Outside) (o : SendOutcome) (c : Conn) : Prop :=
  ∃ reply c', (m (answering out o)).run c = .ok reply c' ∧
    ((∀ output, o ≠ .body output) → reply.2 ≠ none)

section Methods

variable (out : Outside) (o : SendOutcome) (c : Conn)

/-- `Send` of the client issues the request and gives the outcome. -/
theorem run_client_Send :
    (RequestBuilder.Send (answering out o)).run c = .ok (o.reply c.net.issued.length) c.issue := rfl

/-- `Send` meets its contract on every outcome: it returns, and closes what there is to close. -/
theorem run_Send :
    ∃ c', (Send (answering out o)).run c = .ok (sendResult o) c' ∧
      c'.net.closed = c.net.closed ++ toClose o c.net.issued.length := by
  rw [Send, EStateM.run_bind, run_client_Send]
  cases o with
  | failed err => exact ⟨c.issue, rfl, (List.append_nil _).symm⟩
  | status err => exact ⟨_, rfl, rfl⟩
  | body output => exact ⟨_, rfl, rfl⟩

/-- Setting the body changes nothing but the body. -/
theorem run_Body (body : Ipfsapi.Body) :
    (RequestBuilder.Body body).run c = .ok () { c with rb := { c.rb with body := some body } } :=
  rfl

variable (name : Bytes) (file : Node)

/-- On a response with a body `Post2` returns what it read, and closes the response. -/
theorem run_Post2_body (output : Reader Bytes) :
    ∃ c', (Post2 (answering out (.body output)) name file).run c = .ok (postResult output) c' ∧
      c'.net.closed = c.net.closed ++ [c.net.issued.length] := by
  rw [Post2, EStateM.run_bind, run_Body]
  dsimp only
  rw [EStateM.run_bind, run_client_Send]
  dsimp only [SendOutcome.reply]
  rw [run_ensure]
  simp only [postResult, deref, orAbort_some, pure_bind, ReadAll]
  rcases output.readAll with ⟨respData, _ | err⟩
  · exact ⟨_, rfl, rfl⟩
  · exact ⟨_, rfl, rfl⟩

/-- When the transport fails, the deferred close of `Post2` meets a nil response. -/
theorem run_Post2_failed (err : GoError) :
    ∃ c', (Post2 (answering out (.failed err)) name file).run c = .error .nilDereference c' :=
  ⟨_, rfl⟩

/-- On an error status there is no output for `Post2` to read. -/
theorem run_Post2_status (err : GoError) :
    ∃ c', (Post2 (answering out (.status err)) name file).run c = .error .nilDereference c' :=
  ⟨_, rfl⟩

/-- `post3` hands out whatever the client returned, and so do `Post4` and its siblings. -/
theorem run_sendForResponse :
    (sendForResponse (answering out o)).run c =
      .ok (o.reply c.net.issued.length) c.issue := by
  rw [sendForResponse, EStateM.run_bind, run_client_Send]
  cases o <;> rfl

/-- What `Post2` reads agrees with what `Send` reads. -/
theorem agree_postResult (output : Reader Bytes) : Agree (postResult output) output.readAll := by
  rw [postResult]
  rcases output.readAll with ⟨respData, _ | err⟩
  · exact ⟨rfl, fun _ => rfl⟩
  · exact ⟨rfl, fun h => nomatch h⟩

/-- `Post2` ends as `Send` does exactly when there is a body to read. -/
theorem post2_endsAsSend_iff :
    EndsAsSend (Post2 · name file) out o c ↔ ∃ output, o = .body output := by
  constructor
  · rintro ⟨result, sent, c', c'', hpost, -⟩
    cases o with
    | failed err =>
        obtain ⟨_, hpanic⟩ := run_Post2_failed out c name file err
        exact nomatch hpost.symm.trans hpanic
    | status err =>
        obtain ⟨_, hpanic⟩ := run_Post2_status out c name file err
        exact nomatch hpost.symm.trans hpanic
    | body output => exact ⟨output, rfl⟩
  · rintro ⟨output, rfl⟩
    obtain ⟨c', hpost, hclosed⟩ := run_Post2_body out c name file output
    obtain ⟨c'', hsend, -⟩ := run_Send out (.body output) c
    exact ⟨_, _, c', c'', hpost, hsend, agree_postResult output, hclosed⟩

/-- A method that sets a body and hands out the response reports every failure but an error
status. -/
theorem reportsFailure_iff (body : Ipfsapi.Body) :
    ReportsFailure (fun out => do RequestBuilder.Body body; sendForResponse out) out o c ↔
      ∀ err, o ≠ .status err := by
  have hrun :
      ((do RequestBuilder.Body body; sendForResponse (answering out o)) : GoM Reply).run c =
        .ok (o.reply c.net.issued.length)
          (Conn.issue { c with rb := { c.rb with body := some body } }) := by
    rw [EStateM.run_bind, run_Body]
    exact run_sendForResponse out o _
  constructor
  · rintro ⟨reply, c', hpost, herr⟩ err rfl
    rw [hrun] at hpost
    cases hpost
    exact herr (fun _ => nofun) rfl
  · intro hstatus
    refine ⟨_, _, hrun, fun hbody => ?_⟩
    cases o with
    | failed err => exact nofun
    | status err => exact absurd rfl (hstatus err)
    | body output => exact absurd rfl (hbody output)

/-- `post3` reports every failure but an error status. -/
theorem post3_reportsFailure_iff :
    ReportsFailure (post3 · name file) out o c ↔ ∀ err, o ≠ .status err :=
  reportsFailure_iff out o c (multiFileReader name file)

/-- `Post4` reports every failure but an error status. -/
theorem post4_reportsFailure_iff (body : Bytes) :
    ReportsFailure (Post4 · body) out o c ↔ ∀ err, o ≠ .status err :=
  reportsFailure_iff out o c (.raw body)

end Methods

/-! ## The exports -/

/-- An export returns, and says in memory what `KRequestSend` says for the same outcome. -/
def SaysAsSend (export_ : Env → Prog SendReturn) (env : Env) (o : SendOutcome) (refnum : Int)
    (p : Process) : Prop :=
  ∃ r p' sent p'' message,
    (export_ { env with out := answering env.out o }).run p = .ok r p' ∧
    (KRequestSend { env with out := answering env.out o } refnum).run p = .ok sent p'' ∧
    r.Says p'.memory message ∧ sent.Says p''.memory message

section Exports

variable {env : Env} {p : Process} {refnum : Int} {ptr : Nat}

/-- An export that calls a method of the builder and returns its results. -/
theorem run_sending (h : p.refs.lookup refnum = some ⟨.requestBuilder, ptr⟩)
    {m : GoM (Bytes × Option GoError)} {result : Bytes × Option GoError} {c : Conn}
    (hrun : m.run ⟨p.builders ptr, p.net⟩ = .ok result c) :
    ∃ r p', (borrow refnum >>= fun obj => assertBuilder obj >>= fun rb =>
        onBuilder rb m >>= sendReturn).run p = .ok r p' ∧
      r.Says p'.memory (said result) := by
  obtain ⟨r, block, hreturn, hsays⟩ := run_sendReturn result (p.withConn ptr c)
  refine ⟨r, { p.withConn ptr c with memory := p.memory.add block }, ?_, hsays⟩
  rw [run_borrowBuilder h, EStateM.run_bind, run_onBuilder_ok hrun]
  exact hreturn

/-- An export whose method of the builder panics. -/
theorem run_sending_panic (h : p.refs.lookup refnum = some ⟨.requestBuilder, ptr⟩)
    {m : GoM (Bytes × Option GoError)} {e : GoPanic} {c : Conn}
    (hrun : m.run ⟨p.builders ptr, p.net⟩ = .error e c) :
    ∃ p', (borrow refnum >>= fun obj => assertBuilder obj >>= fun rb =>
        onBuilder rb m >>= sendReturn).run p = .error (.panic e) p' := by
  rw [run_borrowBuilder h, EStateM.run_bind, run_onBuilder_error hrun]
  exact ⟨_, rfl⟩

/-- What agrees with the results of `Send` says the same. -/
theorem said_of_agree {result result' : Bytes × Option GoError} (h : Agree result result') :
    said result = said result' := by
  rcases result with ⟨data, err⟩
  rcases result' with ⟨data', err'⟩
  obtain ⟨rfl, hdata⟩ := h
  cases err with
  | none => exact congrArg Except.ok (hdata rfl)
  | some err => rfl

/-- An export that posts with `Post2` says what `KRequestSend` says exactly when there is a body to
read. -/
theorem saysAsSend_iff (h : p.refs.lookup refnum = some ⟨.requestBuilder, ptr⟩) (o : SendOutcome)
    (name : Bytes) (file : Node) :
    SaysAsSend (fun env => borrow refnum >>= fun obj => assertBuilder obj >>= fun rb =>
        onBuilder rb (Post2 env.out name file) >>= sendReturn) env o refnum p ↔
      ∃ output, o = .body output := by
  rw [← post2_endsAsSend_iff env.out o ⟨p.builders ptr, p.net⟩ name file]
  constructor
  · -- an export whose method panics does not return
    rintro ⟨r, p', sent, p'', message, hpost, -⟩
    rw [post2_endsAsSend_iff]
    cases o with
    | failed err =>
        obtain ⟨_, hpanic⟩ := run_Post2_failed env.out ⟨p.builders ptr, p.net⟩ name file err
        obtain ⟨_, hexport⟩ := run_sending_panic h hpanic
        exact nomatch hpost.symm.trans hexport
    | status err =>
        obtain ⟨_, hpanic⟩ := run_Post2_status env.out ⟨p.builders ptr, p.net⟩ name file err
        obtain ⟨_, hexport⟩ := run_sending_panic h hpanic
        exact nomatch hpost.symm.trans hexport
    | body output => exact ⟨output, rfl⟩
  · rintro ⟨result, sent, c', c'', hpost, hsend, hagree, -⟩
    obtain ⟨r, p', hexport, hsays⟩ := run_sending h hpost
    obtain ⟨s, p'', hexport', hsays'⟩ := run_sending h hsend
    exact ⟨r, p', s, p'', said result, hexport, hexport', hsays, said_of_agree hagree ▸ hsays'⟩

/-- What the posting paths owe an outcome: `Post2` and the exports on it end as `Send` and
`KRequestSend` do, and `post3` and `Post4` report a failure. -/
structure PostsAsSend (env : Env) (o : SendOutcome) (c : Conn) (refnum : Int) (p : Process) :
    Prop where
  post2 : ∀ name file, EndsAsSend (Post2 · name file) env.out o c
  post3 : ∀ name file, ReportsFailure (post3 · name file) env.out o c
  post4 : ∀ body, ReportsFailure (Post4 · body) env.out o c
  postString : ∀ data, SaysAsSend (KRequestPostString · refnum data) env o refnum p
  postBytes : ∀ data : Bytes,
    SaysAsSend (KRequestPostBytes · refnum data data.length) env o refnum p

/-- **The posting paths fail exactly as `Send` does when the response has a body, and on no other
outcome.** Of the parts, those of `post3` and `Post4` hold on every outcome but an error status. -/
theorem postsAsSend_iff (h : p.refs.lookup refnum = some ⟨.requestBuilder, ptr⟩) (o : SendOutcome)
    (c : Conn) :
    (PostsAsSend env o c refnum p ↔ ∃ output, o = .body output) ∧
      ((∀ name file, ReportsFailure (post3 · name file) env.out o c) ∧
        (∀ body, ReportsFailure (Post4 · body) env.out o c) ↔ ∀ err, o ≠ .status err) := by
  refine ⟨⟨fun hposts => ?_, ?_⟩, ⟨fun hreports => ?_, fun hstatus => ⟨?_, ?_⟩⟩⟩
  · exact (post2_endsAsSend_iff env.out o c [] (.readerFile [])).mp (hposts.post2 _ _)
  · rintro ⟨output, rfl⟩
    have hstatus : ∀ err, SendOutcome.body output ≠ .status err := fun _ => nofun
    exact
      { post2 := fun name file => (post2_endsAsSend_iff _ _ _ name file).mpr ⟨output, rfl⟩
        post3 := fun name file => (post3_reportsFailure_iff _ _ _ name file).mpr hstatus
        post4 := fun body => (post4_reportsFailure_iff _ _ _ body).mpr hstatus
        postString := fun data =>
          (saysAsSend_iff h _ [] (.readerFile (goString data))).mpr ⟨output, rfl⟩
        postBytes := fun data => by
          simp only [KRequestPostBytes, GoBytes_length, pure_bind]
          exact (saysAsSend_iff h _ [] (.readerFile data)).mpr ⟨output, rfl⟩ }
  · exact (post4_reportsFailure_iff env.out o c []).mp (hreports.2 [])
  · exact fun name file => (post3_reportsFailure_iff _ _ _ name file).mpr hstatus
  · exact fun body => (post4_reportsFailure_iff _ _ _ body).mpr hstatus

end Exports

/-- A process with one request, under the reference -24. -/
def oneRequest : Process :=
  { Process.start with refs := RefTable.empty.enter (-24) ⟨.requestBuilder, 0⟩ (by decide) }

/-- A fresh builder and a network on which nothing has been sent. -/
def freshConn : Conn := ⟨Ipfsapi.Request [] [], ⟨[], [], []⟩⟩

/-- A response with a body of two bytes is posted for as it is sent for. -/
theorem postsAsSend_body :
    PostsAsSend standalone (.body (Reader.ofBytes .eof [104, 105])) freshConn (-24) oneRequest :=
  (postsAsSend_iff rfl _ _).1.mpr ⟨_, rfl⟩

/-- When the transport fails, and again on an error status, `Send` returns the error and `Post2`
panics; on the error status `post3` returns no error. -/
theorem not_postsAsSend_refused :
    (∃ c, (Send (answering standalone.out (.failed (.other [120])))).run freshConn =
        .ok ([], some (.other [120])) c) ∧
      (∃ c, (PostData2 (answering standalone.out (.failed (.other [120]))) [1]).run freshConn =
        .error .nilDereference c) ∧
      ¬ PostsAsSend standalone (.failed (.other [120])) freshConn (-24) oneRequest ∧
      (∃ c, (Send (answering standalone.out (.status (.other [120])))).run freshConn =
        .ok ([], some (.other [120])) c) ∧
      (∃ c, (PostData2 (answering standalone.out (.status (.other [120]))) [1]).run freshConn =
        .error .nilDereference c) ∧
      (∃ reply c,
        (PostData3 (answering standalone.out (.status (.other [120]))) [1]).run freshConn =
          .ok reply c ∧ reply.2 = none) ∧
      ¬ PostsAsSend standalone (.status (.other [120])) freshConn (-24) oneRequest := by
  refine ⟨⟨_, rfl⟩, ⟨_, rfl⟩, fun hposts => ?_, ⟨_, rfl⟩, ⟨_, rfl⟩, ⟨_, _, rfl, rfl⟩,
    fun hposts => ?_⟩
  · obtain ⟨_, hbody⟩ := (post2_endsAsSend_iff _ _ _ [] (.readerFile [])).mp (hposts.post2 _ _)
    cases hbody
  · obtain ⟨_, hbody⟩ := (post2_endsAsSend_iff _ _ _ [] (.readerFile [])).mp (hposts.post2 _ _)
    cases hbody

end Kipfs.Shell
