import Kipfs.Api.Parameters
import Kipfs.Kotlin.Guarantees

/-!
# What the API functions answer

A function on a shell makes a request, sets its options, and sends or posts it. Through either
binding, and wherever a run has come to, this comes to one request at the server, the closing of the
response that it brought, and the delivery of the results (`answers`).
-/

namespace Kipfs.Ideal

open Foundation Ipfsapi

/-- What a request will send with some options set. -/
def withOptions (b : Binding) (options : List (KString × KString)) (rb : RequestBuilder) :
    RequestBuilder :=
  options.foldl (fun rb o => rb.withOption (b.encode o.1) (b.encode o.2)) rb

/-- What is sent for what a shell is asked. -/
def asks (b : Binding) (ipfsAddress : KString) (asked : Asked) : RequestBuilder :=
  asked.sending.posted
    (withOptions b asked.options (newRequest b ipfsAddress asked.command asked.arg))

/-- The objects after a shell has been asked: there is one more, an open request. -/
def afterAsking (b : Binding) (out : Outside) (s : State) (ipfsAddress : KString) (asked : Asked) :
    State where
  objs := s.objs ++ [.request (some (asks b ipfsAddress asked).spent)]
  issued := s.issued ++ [(asks b ipfsAddress asked).wire]
  closed := s.closed ++
    Shell.toClose (out.server (s.issued ++ [(asks b ipfsAddress asked).wire])) s.issued.length

/-! ## Marshalling -/

section Marshalling

variable {kipfs kipfs' : KIPFSNative} (hmarshals : Marshals kipfs kipfs')
  (hplain : Memoryless kipfs')
include hmarshals hplain

theorem marshalled_kshell_request (shell : Nat) (command : KString) (arg : Option KString) :
    Marshalled (KShell.request kipfs shell command arg)
      (KShell.request kipfs' shell command arg) := by
  have hrest : ∀ p : Process, Marshalled
      (KNativeShell.request kipfs shell (p.addressOf shell) command arg >>= fun _ =>
        (pure p.objects.length : Prog Nat))
      (KNativeShell.request kipfs' shell (p.addressOf shell) command arg >>= fun _ =>
        (pure p.objects.length : Prog Nat)) := fun p =>
    (marshalled_request hmarshals hplain shell (p.addressOf shell) command arg).bind
      fun _ => marshalled_self (ignores_pure _)
  -- the number and the address of an object are not in the memory
  exact ⟨fun p => (hrest p).implements p,
    ignores_get (fun _ _ => rfl) fun p => (hrest p).ignores⟩

theorem marshalled_setOptions (i : Nat) (options : List (KString × KString)) :
    Marshalled (setOptions kipfs i options) (setOptions kipfs' i options) := by
  induction options with
  | nil => exact marshalled_self (ignores_pure ())
  | cons option rest ih =>
      refine Marshalled.bind ((marshalled_getRef i).bind fun ref => ?_) fun _ => ih
      exact ⟨hmarshals.requestOption ref option.1 option.2,
        hplain.requestOption ref option.1 option.2⟩

theorem marshalled_sending (i : Nat) (sending : Sending) :
    Marshalled (sending.program kipfs i) (sending.program kipfs' i) := by
  cases sending with
  | send =>
      refine (marshalled_getRef i).bind fun ref => ?_
      exact ⟨hmarshals.sendRequest ref, hplain.sendRequest ref⟩
  | post data =>
      refine (marshalled_getRef i).bind fun ref => ?_
      exact ⟨hmarshals.postData ref data, hplain.postData ref data⟩

theorem marshalled_asked (shell : Nat) (asked : Asked) :
    Marshalled (asked.program kipfs shell) (asked.program kipfs' shell) :=
  (marshalled_kshell_request hmarshals hplain shell asked.command asked.arg).bind fun req =>
    (marshalled_setOptions hmarshals hplain req asked.options).bind fun _ =>
      marshalled_sending hmarshals hplain req asked.sending

end Marshalling

/-! ## A shell that is asked -/

section Asking

variable {env : Env} {b : Binding} {p q : Process} {s : State} {i shell : Nat}
  {rb : RequestBuilder} {ipfsAddress : KString}

/-- A request on the objects is a request of the process. -/
theorem Simulates.request (h : Simulates b p s) (hx : s.objs[i]? = some (.request (some rb))) :
    ∃ o, p.objects[i]? = some o ∧ o.cls = .request := by
  obtain ⟨o, ho, hcls, _⟩ := h.object hx
  exact ⟨o, ho, hcls⟩

/-- Options are set on an open request one after the other. -/
theorem run_setOptions (env : Env) (h : Simulates b p s)
    (hx : s.objs[i]? = some (.request (some rb))) (options : List (KString × KString)) :
    ∃ q, (setOptions (plain env b) i options).run p = .ok () q ∧
      Simulates b q
        { s with objs := s.objs.set i (.request (some (withOptions b options rb))) } := by
  induction options generalizing p s rb with
  | nil =>
      refine ⟨p, rfl, ?_⟩
      have hsame : s.objs.set i (.request (some rb)) = s.objs := by
        obtain ⟨hlt, hget⟩ := List.getElem?_eq_some_iff.mp hx
        rw [← hget, List.set_getElem_self]
      show Simulates b p { s with objs := s.objs.set i (.request (some rb)) }
      rw [hsame]
      exact h
  | cons option rest ih =>
      obtain ⟨o, ho, hcls⟩ := h.request hx
      rcases run_option_cases env h ho hcls option.1 option.2 with
        ⟨hclosed, _⟩ | ⟨rb', q, hopen, hrun, hq⟩
      · rw [hx] at hclosed
        cases hclosed
      · obtain rfl : rb = rb' := by
          rw [hx] at hopen
          cases hopen
          rfl
        have hlt : i < s.objs.length := (List.getElem?_eq_some_iff.mp hx).1
        obtain ⟨q', hrun', hq'⟩ := ih hq (List.getElem?_set_self hlt)
        refine ⟨q', ?_, ?_⟩
        · rw [setOptions, EStateM.run_bind, hrun]
          exact hrun'
        · rw [List.set_set] at hq'
          exact hq'

/-- An open request that is sent or posted issues itself and delivers the results. -/
theorem run_sending_open (env : Env) (h : Simulates b p s)
    (hx : s.objs[i]? = some (.request (some rb))) (sending : Sending) :
    ∃ q, match sending.result (env.out.server (s.issued ++ [(sending.posted rb).wire])) with
      | some result => Simulates b q (issued env.out s i sending rb) ∧
          (sending.program (plain env b) i).run p = ending q (b.delivered result)
      | none => (sending.program (plain env b) i).run p = .error (.panic .nilDereference) q := by
  obtain ⟨o, ho, hcls⟩ := h.request hx
  obtain ⟨label, hlabel, hprogram⟩ : ∃ label, (b = .native → label = "Request failed: ") ∧
      (sending.program (plain env b) i).run p =
        (Plain.sending b label (sending.method env.out) o.ref).run p := by
    cases sending with
    | send =>
        rw [Sending.program, KNativeRequest.send, EStateM.run_bind, run_getRef, refOf_eq ho]
        exact ⟨_, fun _ => rfl, rfl⟩
    | post data =>
        rw [Sending.program, KNativeRequest.postData, EStateM.run_bind, run_getRef, refOf_eq ho]
        exact ⟨_, fun hb => by subst hb; rfl, rfl⟩
  rw [hprogram]
  rcases run_sending_cases h ho hcls label sending with ⟨hclosed, _⟩ | ⟨rb', q, hopen, _, hresult⟩
  · rw [hx] at hclosed
    cases hclosed
  · obtain rfl : rb = rb' := by
      rw [hx] at hopen
      cases hopen
      rfl
    refine ⟨q, ?_⟩
    cases hres : sending.result (env.out.server (s.issued ++ [(sending.posted rb).wire])) with
    | none =>
        rw [hres] at hresult
        exact hresult
    | some result =>
        rw [hres] at hresult
        exact ⟨hresult.1, hresult.2.trans (run_deliver hlabel result q)⟩

/-- The last of the objects, and what it is set to. -/
theorem getElem_last (objs : List Obj) (x : Obj) : (objs ++ [x])[objs.length]? = some x := by
  rw [List.getElem?_append_right le_rfl, Nat.sub_self]
  rfl

theorem set_last (objs : List Obj) (x x' : Obj) :
    (objs ++ [x]).set objs.length x' = objs ++ [x'] := by
  rw [List.set_append_right _ _ le_rfl, Nat.sub_self]
  rfl

/-- Without marshalling, a shell that is asked issues one request and delivers the results, unless
there is no number for a new reference. -/
theorem run_asked (env : Env) (h : Simulates b p s)
    (hx : s.objs[shell]? = some (.shell ipfsAddress)) (asked : Asked) :
    OutOfNumbers env.numbering ((asked.program (plain env b) shell).run p) ∨
    ∃ q, match asked.sending.result
        (env.out.server (s.issued ++ [(asks b ipfsAddress asked).wire])) with
      | some result => Simulates b q (afterAsking b env.out s ipfsAddress asked) ∧
          (asked.program (plain env b) shell).run p = ending q (b.delivered result)
      | none => (asked.program (plain env b) shell).run p = .error (.panic .nilDereference) q := by
  obtain ⟨o, ho, hcls, _⟩ := h.object hx
  have haddress : p.addressOf shell = ipfsAddress := by
    rw [Process.addressOf, ho]
    obtain ⟨cls, ref⟩ := o
    obtain rfl := hcls
    rfl
  have hmade : (KShell.request (plain env b) shell asked.command asked.arg).run p =
      (KNativeShell.request (plain env b) shell ipfsAddress asked.command asked.arg >>= fun _ =>
        (pure p.objects.length : Prog Nat)).run p := by
    rw [← haddress]
    rfl
  rcases run_request env h hx asked.command asked.arg with ⟨p₁, hrun₁, h₁⟩ | hout
  · obtain ⟨p₂, hrun₂, h₂⟩ := run_setOptions env h₁ (getElem_last _ _) asked.options
    dsimp only at h₂
    rw [set_last] at h₂
    obtain ⟨q, hsent⟩ := run_sending_open env h₂ (getElem_last _ _) asked.sending
    rw [issued, set_last] at hsent
    have hrest : (setOptions (plain env b) p.objects.length asked.options >>= fun _ =>
        asked.sending.program (plain env b) p.objects.length).run p₁ =
          (asked.sending.program (plain env b) s.objs.length).run p₂ := by
      rw [h.length, EStateM.run_bind, hrun₂]
    refine .inr ⟨q, ?_⟩
    rw [Asked.program, EStateM.run_bind, hmade, EStateM.run_bind, hrun₁]
    rw [← hrest] at hsent
    exact hsent
  · have hout' : OutOfNumbers env.numbering
        ((KShell.request (plain env b) shell asked.command asked.arg).run p) := by
      rw [hmade]
      exact hout.bind _
    exact .inl (hout'.bind _)

/-- **What a function on a shell answers.** Wherever a run through either binding has come to, a
call of a function on a shell issues one request, closes the response that it has brought, and
delivers the results of the answer; after it there is one more object, an open request. It panics
when it posts and the answer has no body to read, or when the numbering has no next number for a new
reference. -/
theorem answers {f : ApiFunction} {args : f.Args} {asked : Asked} {calls : List Call} {ref : Int}
    (hinitial : Initial p) (hrun : run (Kipfs.step (b.over (libkipfs env))) p calls = some q)
    (hshell : q.objects[shell]? = some ⟨.shell ipfsAddress, ref⟩)
    (hasked : f.asked args = some asked) :
    OutOfNumbers env.numbering ((f.program (b.over (libkipfs env)) shell args).run q) ∨
    ∃ q', match asked.sending.result
        (env.out.server (q.net.issued ++ [(asks b ipfsAddress asked).wire])) with
      | some result =>
          (f.program (b.over (libkipfs env)) shell args).run q = ending q' (b.delivered result) ∧
          ∃ s, run (step b env.out) (start p) calls = some s ∧
            Simulates b q' (afterAsking b env.out s ipfsAddress asked)
      | none =>
          (∃ data, asked.sending = .post data) ∧
            (f.program (b.over (libkipfs env)) shell args).run q =
              .error (.panic .nilDereference) q' := by
  obtain ⟨s, hideal, hq⟩ := run_of_survived (simulates_start b hinitial) hrun
  obtain ⟨t, hsame⟩ := (marshalled_asked (marshals env b) (plain_memoryless env b) shell
    asked).implements q
  rw [ApiFunction.program_eq hasked, hsame, hq.issued]
  rcases run_asked env hq (hq.shell hshell) asked with hout | ⟨q', hrun'⟩
  · exact .inl (hout.overwrite t)
  · refine .inr ⟨memory.put t q', ?_⟩
    cases hres : asked.sending.result
        (env.out.server (s.issued ++ [(asks b ipfsAddress asked).wire])) with
    | none =>
        rw [hres] at hrun'
        refine ⟨(Sending.result_eq_none.mp hres).1, ?_⟩
        rw [hrun']
        rfl
    | some result =>
        rw [hres] at hrun'
        obtain ⟨hafter, hprogram⟩ := hrun'
        refine ⟨?_, s, hideal, hafter.put_memory t⟩
        rw [hprogram]
        cases b.delivered result with
        | ok bytes => rfl
        | error a => rfl

end Asking

/-- A node that answers every request with an empty JSON object. -/
def emptyObjects : Env :=
  { standalone with out := Shell.answering standalone.out (.body (.ofBytes .eof [123, 125])) }

/-- A `dagGet` on the JVM, on a new shell, answers what the node does. -/
theorem answers_dagGet :
    ∃ q, run (Kipfs.step (Binding.jni.over (libkipfs emptyObjects))) Process.start
        [.createShell [104]] = some q ∧
      ∃ q', (KShell.dagGet (Binding.jni.over (libkipfs emptyObjects)) 0 ⟨[99]⟩).run q =
          .ok [123, 125] q' ∧
        ∃ s, run (step .jni emptyObjects.out) (start Process.start) [.createShell [104]] = some s ∧
          Simulates .jni q' (afterAsking .jni emptyObjects.out s [104]
            ⟨kstring "dag/get", some [99], [], .send⟩) := by
  -- the call does not panic, so there was a number for the shell and one for the request
  obtain ⟨q, hq, hnet, hshell, hanswered⟩ : ∃ q,
      run (Kipfs.step (Binding.jni.over (libkipfs emptyObjects))) Process.start
        [.createShell [104]] = some q ∧ q.net.issued = [] ∧
      q.objects[0]? = some ⟨.shell [104], 0⟩ ∧
      aborted ((KShell.dagGet (Binding.jni.over (libkipfs emptyObjects)) 0 ⟨[99]⟩).run q) = none :=
    ⟨_, rfl, rfl, rfl, by decide⟩
  have hasked : ApiFunction.asked .dagGet (⟨[99]⟩ : DagGetArgs) =
      some ⟨kstring "dag/get", some [99], [], .send⟩ := rfl
  rcases answers initial_start hq hshell hasked with ⟨q', hrun, _⟩ | hanswers
  · have hpanics : aborted ((KShell.dagGet (Binding.jni.over (libkipfs emptyObjects)) 0
        ⟨[99]⟩).run q) = some (.panic .refsUnderflow) := congrArg aborted hrun
    cases hanswered.symm.trans hpanics
  · rw [hnet] at hanswers
    exact ⟨q, hq, hanswers⟩

end Kipfs.Ideal
