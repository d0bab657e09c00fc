import Kipfs.Kotlin.Simulation

/-!
# What a run guarantees

What holds of objects without references holds of the Kotlin objects, through either binding: every
response that a run has brought is closed, once and in order (`responses_closed`); what a call sends
is determined by the address, the command, the argument and the calls on its own request
(`sent_by_own_calls`); and how a call ends can be told from the call and its object
(`ends_as_blamed`).
-/

namespace Kipfs.Ideal

open Foundation Ipfsapi

/-! ## How a call ends -/

section Ends

variable {env : Env} {b : Binding} {p : Process} {s : State} {i : Nat} {m : Prog Unit}

/-- A shell of the process is a shell. -/
theorem Simulates.shell {ipfsAddress : KString} {ref : Int} (h : Simulates b p s)
    (ho : p.objects[i]? = some ⟨.shell ipfsAddress, ref⟩) :
    s.objs[i]? = some (.shell ipfsAddress) := by
  have hlt : i < s.objs.length := h.length ▸ (List.getElem?_eq_some_iff.mp ho).1
  have hx : s.objs[i]? = some s.objs[i] := List.getElem?_eq_getElem hlt
  rw [hx]
  generalize s.objs[i] = x at hx
  have hstands := h.stands i _ x ho hx
  cases x with
  | shell ipfsAddress' =>
      cases hstands.1
      rfl
  | request rb => cases rb <;> cases hstands.1

/-- A program on a request, and the request. -/
theorem onRequest_eq_some {m' : Prog Unit} (h : Call.program.onRequest p i m = some m') :
    m' = m ∧ ∃ o, p.objects[i]? = some o ∧ o.cls = .request := by
  unfold Call.program.onRequest at h
  split at h
  · rename_i ref ho
    cases h
    exact ⟨rfl, _, ho, rfl⟩
  · cases h

/-- Closing an object does not abort. -/
theorem aborted_close (h : Simulates b p s)
    (hm : (p.objects[i]?.map fun _ => KNativeObject.close (plain env b) i) = some m) :
    aborted (m.run p) = none := by
  obtain ⟨o, ho, rfl⟩ := Option.map_eq_some_iff.mp hm
  have hlt : i < s.objs.length := h.length ▸ (List.getElem?_eq_some_iff.mp ho).1
  obtain ⟨q, hrun, _⟩ := run_close env h (List.getElem?_eq_getElem hlt)
  rw [hrun]
  rfl

/-- A call that sends runs a method of the builder behind the reference of its request. -/
theorem program_of_sending (env : Env) {call : Call} {snd : Sending} {o : KNativeObject}
    (hsending : sending b call = some snd) (htarget : target call = some i)
    (ho : p.objects[i]? = some o) (hcls : o.cls = .request) :
    ∃ label m, (b = .native → label = "Request failed: ") ∧
      call.program (plain env b) p = some m ∧
      m.run p = (discard (Plain.sending b label (snd.method env.out) o.ref)).run p := by
  have honRequest : ∀ f : Int → Prog Bytes,
      ∃ m, Call.program.onRequest p i (discard (KNativeObject.getRef i >>= f)) = some m ∧
        m.run p = (discard (f o.ref)).run p := by
    intro f
    obtain ⟨cls, ref⟩ := o
    obtain rfl := hcls
    refine ⟨discard (KNativeObject.getRef i >>= f), by simp only [Call.program.onRequest, ho], ?_⟩
    rw [run_discard, EStateM.run_bind, run_getRef, refOf_eq ho, run_discard]
  cases call with
  | send j =>
      cases hsending
      cases htarget
      obtain ⟨m, hm, hrun⟩ := honRequest (plain env b).sendRequest
      exact ⟨_, m, fun _ => rfl, hm, hrun⟩
  | postString j data fileName =>
      cases b with
      | native =>
          cases hsending
          cases htarget
          obtain ⟨m, hm, hrun⟩ := honRequest fun ref => (plain env .native).postString ref data
          exact ⟨_, m, fun _ => rfl, hm, hrun⟩
      | jni => cases hsending
  | postData j data =>
      cases hsending
      cases htarget
      obtain ⟨m, hm, hrun⟩ := honRequest fun ref => (plain env b).postData ref data
      exact ⟨_, m, fun hb => by rw [hb], hm, hrun⟩
  | _ => cases hsending

/-- A call that sends ends as `blameSending` says. -/
theorem aborted_sending (call : Call) {snd : Sending} {o : KNativeObject} (h : Simulates b p s)
    (hsending : sending b call = some snd) (htarget : target call = some i)
    (ho : p.objects[i]? = some o) (hcls : o.cls = .request)
    (hm : call.program (plain env b) p = some m) :
    aborted (m.run p) = blameSending b env.out s i snd := by
  obtain ⟨label, m', hlabel, hm', hrun⟩ := program_of_sending env hsending htarget ho hcls
  obtain rfl := Option.some.inj (hm'.symm.trans hm)
  rw [hrun, aborted_discard, blameSending, State.builder]
  rcases run_sending_cases h ho hcls label snd with ⟨hx, hpanic⟩ | ⟨rb, q, hx, _, hresult⟩
  · rw [hpanic, hx]
    rfl
  · rw [hx]
    dsimp only
    cases hres : snd.result (env.out.server (s.issued ++ [(snd.posted rb).wire])) with
    | none =>
        rw [hres] at hresult
        rw [hresult]
        rfl
    | some result =>
        rw [hres] at hresult
        rw [hresult.2, aborted_deliver hlabel]

/-- What a call that sends has issued, however it ends: what its request stands for with the body of
the call, or nothing when the request is closed. -/
theorem issued_sending (env : Env) {call : Call} {snd : Sending} {rb : Option RequestBuilder}
    (h : Simulates b p s) (hsending : sending b call = some snd) (htarget : target call = some i)
    (hx : s.objs[i]? = some (.request rb)) :
    ∃ m, call.program (plain env b) p = some m ∧
      match rb with
      | some rb => (final (m.run p)).net.issued = s.issued ++ [(snd.posted rb).wire]
      | none => m.run p = .error (.panic (.unknownRefNum 0)) p := by
  obtain ⟨o, ho, hcls⟩ : ∃ o, p.objects[i]? = some o ∧ o.cls = .request := by
    obtain ⟨o, ho, hstands⟩ := h.object hx
    cases rb <;> exact ⟨o, ho, hstands.1⟩
  obtain ⟨label, m, hlabel, hm, hrun⟩ := program_of_sending env hsending htarget ho hcls
  refine ⟨m, hm, ?_⟩
  rw [hrun, run_discard]
  rcases run_sending_cases h ho hcls label snd with
    ⟨hclosed, hpanic⟩ | ⟨rb', q, hopen, hissued, hresult⟩
  · obtain rfl : rb = none := by
      cases hx.symm.trans hclosed
      rfl
    rw [hpanic]
  · obtain rfl : rb = some rb' := by
      cases hx.symm.trans hopen
      rfl
    dsimp only
    cases hres : snd.result (env.out.server (s.issued ++ [(snd.posted rb').wire])) with
    | none =>
        rw [hres] at hresult
        rw [hresult]
        exact hissued
    | some result =>
        rw [hres] at hresult
        -- the delivery of the results changes nothing any more
        rw [hresult.2, run_deliver hlabel]
        cases b.delivered result <;> exact hissued

/-- How a call ends without marshalling: as `blame` says, unless it is on a shell and the numbering
has no next number for a new reference. -/
theorem aborted_plain (h : Simulates b p s) {call : Call}
    (hm : call.program (plain env b) p = some m) :
    aborted (m.run p) = blame b env.out s call ∨
      OutOfNumbers env.numbering (m.run p) ∧ target call = none := by
  cases call with
  | createShell ipfsAddress =>
      cases hm
      exact .inl rfl
  | connect i =>
      simp only [Call.program] at hm
      split at hm
      · rename_i ipfsAddress ref ho
        cases hm
        rcases run_connect env h (h.shell ho) with ⟨q, _, _, hrun, _⟩ | hout
        · rw [hrun]
          exact .inl rfl
        · exact .inr ⟨hout, rfl⟩
      · cases hm
  | request i command arg =>
      simp only [Call.program] at hm
      split at hm
      · rename_i ipfsAddress ref ho
        cases hm
        rcases run_request env h (h.shell ho) command arg with ⟨q, hrun, _⟩ | hout
        · rw [hrun]
          exact .inl rfl
        · exact .inr ⟨hout, rfl⟩
      · cases hm
  | close i => exact .inl (aborted_close h hm)
  | finalize i => exact .inl (aborted_close h hm)
  | option i name value =>
      obtain ⟨rfl, o, ho, hcls⟩ := onRequest_eq_some hm
      refine .inl ?_
      rcases run_option_cases env h ho hcls name value with ⟨hx, hrun⟩ | ⟨rb, q, hx, hrun, _⟩ <;>
        rw [hrun, blame, State.builder, hx] <;> rfl
  | send i =>
      obtain ⟨_, o, ho, hcls⟩ := onRequest_eq_some hm
      exact .inl (aborted_sending (.send i) h rfl rfl ho hcls hm)
  | postString i data fileName =>
      obtain ⟨hprogram, o, ho, hcls⟩ := onRequest_eq_some hm
      cases b with
      | native =>
          exact .inl (aborted_sending (.postString i data fileName) h rfl rfl ho hcls hm)
      | jni =>
          rw [hprogram]
          exact .inl rfl
  | postData i data =>
      obtain ⟨_, o, ho, hcls⟩ := onRequest_eq_some hm
      exact .inl (aborted_sending (.postData i data) h rfl rfl ho hcls hm)

end Ends

section Runs

variable {env : Env} {b : Binding} {p q : Process} {s : State} {calls : List Call}

/-- The objects after a run that the process has survived. -/
theorem run_of_survived (h : Simulates b p s)
    (hrun : run (Kipfs.step (b.over (libkipfs env))) p calls = some q) :
    ∃ s', run (step b env.out) s calls = some s' ∧ Simulates b q s' := by
  have hover := run_over env b h calls
  rw [hrun] at hover
  exact hover.of_some

/-- The objects after a call that the process has survived. -/
theorem step_of_survived {call : Call} (h : Simulates b p s)
    (hmove : Kipfs.step (b.over (libkipfs env)) p call = some q) :
    ∃ s', step b env.out s call = some s' ∧ Simulates b q s' := by
  have hover := step_over env b p s call h
  rw [hmove] at hover
  exact hover.of_some

/-- **No run leaves a response open, or closes one twice.** Through either binding, the responses
closed after a run are those of the requests that were answered, and each call that sends has issued
one request. -/
theorem responses_closed (hinitial : Initial p)
    (hclosed : p.net.closed = answeredBy env.out p.net.issued)
    (hrun : run (Kipfs.step (b.over (libkipfs env))) p calls = some q) :
    q.net.closed = answeredBy env.out q.net.issued ∧
      q.net.issued.length =
        p.net.issued.length + calls.countP fun call => (sending b call).isSome := by
  obtain ⟨s', hideal, hq⟩ := run_of_survived (simulates_start b hinitial) hrun
  obtain ⟨hclosed', hlength⟩ := allClosed_run (s := start p)
    (show AllClosed env.out (start p) from hclosed) hideal
  rw [hq.closed, hq.issued]
  exact ⟨hclosed', hlength⟩

/-- A request stays a request, whatever is called on it. -/
theorem request_foldl (b : Binding) (calls : List Call) (rb : Option RequestBuilder) :
    ∃ rb', calls.foldl (Obj.after b) (.request rb) = .request rb' := by
  induction calls generalizing rb with
  | nil => exact ⟨rb, rfl⟩
  | cons call calls ih =>
      obtain ⟨rb', hafter⟩ : ∃ rb', Obj.after b (.request rb) call = .request rb' := by
        cases call <;> exact ⟨_, rfl⟩
      rw [List.foldl_cons, hafter]
      exact ih rb'

/-- **What a call sends depends on its own request only.** After any run `before` has come to `p₁`,
a request is made there of a shell, any run `middle` comes to `p₂`, and a call that sends is made on
the request: what it issues, however it ends, is determined by the address of the shell, the command
and the argument, and the calls on the request in `middle`; when these have closed the request, it
issues nothing and panics. -/
theorem sent_by_own_calls {before middle : List Call} {shell : Nat} {command : KString}
    {arg : Option KString} {call : Call} {snd : Sending} {p₁ p₂ : Process} (hinitial : Initial p)
    (hbefore : run (Kipfs.step (b.over (libkipfs env))) p before = some p₁)
    (hmiddle : run (Kipfs.step (b.over (libkipfs env))) p₁ (.request shell command arg :: middle) =
      some p₂)
    (hsending : sending b call = some snd) (htarget : target call = some p₁.objects.length) :
    ∃ ipfsAddress m, p₁.objects[shell]?.map KNativeObject.cls = some (.shell ipfsAddress) ∧
      call.program (b.over (libkipfs env)) p₂ = some m ∧
      match (own p₁.objects.length middle).foldl (Obj.after b)
        (.request (some (newRequest b ipfsAddress command arg))) with
      | .request (some rb) =>
          (final (m.run p₂)).net.issued = p₂.net.issued ++ [(snd.posted rb).wire]
      | .request none =>
          (final (m.run p₂)).net.issued = p₂.net.issued ∧
            aborted (m.run p₂) = some (.panic (.unknownRefNum 0))
      | .shell _ => False := by
  obtain ⟨s₁, _, hs₁⟩ := run_of_survived (simulates_start b hinitial) hbefore
  obtain ⟨made, hrequest, hrest⟩ := run_cons_eq_some.mp hmiddle
  obtain ⟨t₁, hideal, ht₁⟩ := step_of_survived hs₁ hrequest
  obtain ⟨s₂, hideal₂, hs₂⟩ := run_of_survived ht₁ hrest
  -- the new request is the last of the objects
  obtain ⟨ipfsAddress, haddress, rfl⟩ := Option.map_eq_some_iff.mp hideal
  have hnew : (s₁.objs ++ [Obj.request (some (newRequest b ipfsAddress command arg))])[
      p₁.objects.length]? = some (.request (some (newRequest b ipfsAddress command arg))) := by
    rw [hs₁.length, List.getElem?_append_right le_rfl, Nat.sub_self]
    rfl
  have hobject := object_run hnew hideal₂
  obtain ⟨rb, hrb⟩ := request_foldl b (own p₁.objects.length middle)
    (some (newRequest b ipfsAddress command arg))
  rw [hrb] at hobject
  obtain ⟨m', hm', hissued⟩ := issued_sending env hs₂ hsending htarget hobject
  have hboth := marshalled_program (marshals env b) (plain_memoryless env b) p₂ call
  cases hm : call.program (b.over (libkipfs env)) p₂ with
  | none =>
      rw [hm, hm'] at hboth
      cases hboth
  | some m =>
      rw [hm, hm'] at hboth
      obtain ⟨t, hsame⟩ := hboth.implements p₂
      refine ⟨ipfsAddress, m, ?_, rfl, ?_⟩
      · unfold State.address at haddress
        split at haddress
        · rename_i hx
          cases haddress
          obtain ⟨o, ho, hcls, _⟩ := hs₁.object hx
          rw [ho, Option.map_some, hcls]
        · cases haddress
      · -- the network is not in the memory
        rw [hrb, hsame]
        cases rb with
        | none =>
            rw [hissued]
            exact ⟨rfl, rfl⟩
        | some rb =>
            rw [hs₂.issued]
            dsimp only
            rw [← hissued]
            cases m'.run p₂ <;> rfl

/-- **Every way a call can end.** In whatever state a run through either binding has come to, a call
returns, throws or ends the process as can be told from its object without references, its arguments
and the answer to its request; unless it is made on a shell and panics because the numbering has no
next number for a new reference. -/
theorem ends_as_blamed {call : Call} {m : Prog Unit} (hinitial : Initial p)
    (hrun : run (Kipfs.step (b.over (libkipfs env))) p calls = some q)
    (hm : call.program (b.over (libkipfs env)) q = some m) :
    ∃ s, run (step b env.out) (start p) calls = some s ∧
      (aborted (m.run q) = blame b env.out s call ∨
        OutOfNumbers env.numbering (m.run q) ∧ target call = none) := by
  obtain ⟨s, hideal, hq⟩ := run_of_survived (simulates_start b hinitial) hrun
  refine ⟨s, hideal, ?_⟩
  have hboth := marshalled_program (marshals env b) (plain_memoryless env b) q call
  rw [hm] at hboth
  cases hm' : call.program (plain env b) q with
  | none =>
      rw [hm'] at hboth
      cases hboth
  | some m' =>
      rw [hm'] at hboth
      obtain ⟨t, hsame⟩ := hboth.implements q
      rw [hsame, aborted_overwrite]
      exact (aborted_plain hq hm').imp_right fun ⟨hout, hshell⟩ => ⟨hout.overwrite t, hshell⟩

end Runs

/-! ## Runs on the native binding -/

/-- A request that is sent twice. -/
theorem responses_closed_twice :
    ∃ q, run (Kipfs.step (Binding.native.over (libkipfs standalone))) Process.start
        [.createShell [104], .request 0 [112] none, .send 1, .send 1] = some q ∧
      q.net.closed = answeredBy standalone.out q.net.issued ∧ q.net.issued.length = 0 + 2 := by
  obtain ⟨q, hq⟩ : ∃ q, run (Kipfs.step (Binding.native.over (libkipfs standalone))) Process.start
      [.createShell [104], .request 0 [112] none, .send 1, .send 1] = some q := ⟨_, rfl⟩
  exact ⟨q, hq, responses_closed initial_start rfl hq⟩

/-- A request with an option, sent after another object has been made. -/
theorem sent_by_own_calls_option :
    ∃ p₁ p₂ ipfsAddress m,
      run (Kipfs.step (Binding.native.over (libkipfs standalone))) Process.start
        [.createShell [104]] = some p₁ ∧
      p₁.objects[0]?.map KNativeObject.cls = some (.shell ipfsAddress) ∧
      Call.program (Binding.native.over (libkipfs standalone)) p₂ (.send 1) = some m ∧
      (final (m.run p₂)).net.issued = p₂.net.issued ++
        [((newRequest .native ipfsAddress [112] none).withOption [97] [98]).wire] := by
  obtain ⟨p₁, h₁⟩ : ∃ p₁, p₁ = Process.start.withObject ⟨.shell [104], 0⟩ := ⟨_, rfl⟩
  obtain ⟨p₂, h₂⟩ : ∃ p₂, run (Kipfs.step (Binding.native.over (libkipfs standalone))) p₁
      [.request 0 [112] none, .option 1 [97] [98], .createShell [105]] = some p₂ := by
    rw [h₁]
    exact ⟨_, rfl⟩
  have h₀ : run (Kipfs.step (Binding.native.over (libkipfs standalone))) Process.start
      [.createShell [104]] = some p₁ := by rw [h₁]; rfl
  obtain ⟨ipfsAddress, m, haddress, hm, hissued⟩ :=
    sent_by_own_calls initial_start h₀ h₂ (rfl : sending .native (.send 1) = some .send)
      (by rw [h₁]; rfl)
  refine ⟨p₁, p₂, ipfsAddress, m, h₀, haddress, hm, ?_⟩
  -- of the calls after the request was made, only the option is on it
  rw [h₁] at hissued
  exact hissued

/-- Sending a request that has been closed. -/
theorem ends_as_blamed_closed :
    ∃ q m, run (Kipfs.step (Binding.native.over (libkipfs standalone))) Process.start
        [.createShell [104], .request 0 [112] none, .close 1] = some q ∧
      Call.program (Binding.native.over (libkipfs standalone)) q (.send 1) = some m ∧
      ∃ s, run (step .native standalone.out) (start Process.start)
          [.createShell [104], .request 0 [112] none, .close 1] = some s ∧
        aborted (m.run q) = blame .native standalone.out s (.send 1) := by
  obtain ⟨q, hq⟩ : ∃ q, run (Kipfs.step (Binding.native.over (libkipfs standalone))) Process.start
      [.createShell [104], .request 0 [112] none, .close 1] = some q := ⟨_, rfl⟩
  obtain ⟨m, hm⟩ : ∃ m, Call.program (Binding.native.over (libkipfs standalone)) q (.send 1) =
      some m := by
    cases hq
    exact ⟨_, rfl⟩
  obtain ⟨s, hs, hends⟩ := ends_as_blamed initial_start hq hm
  -- a request needs no new reference to be sent
  exact ⟨q, m, hq, hm, s, hs, hends.resolve_right fun h => nomatch h.2⟩

end Kipfs.Ideal
