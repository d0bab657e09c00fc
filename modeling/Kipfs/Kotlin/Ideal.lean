import Kipfs.Go.Sessions
import Kipfs.Kotlin.Marshalling
import Kipfs.Kotlin.Residue

/-!
# Objects without references

What the Kotlin objects are for, said without the reference table, the Go heap and the memory: a
shell is the address it was made with, and a request is what it will send, until it is closed.
`Ideal.step` makes a call on such objects and records the requests issued and the responses closed.
The results about it are of two kinds: what a call sends depends on the calls on its own request
only (`object_run`), and every response that a call has brought is closed, once (`allClosed_run`).
-/

namespace Kipfs

open Foundation Ipfsapi

/-- The results of the Go method under a call, for the outcome of its request; none when it
panics. -/
def Sending.result : Sending → SendOutcome → Option (Bytes × Option GoError)
  | send, o => some (Shell.sendResult o)
  | post _, .body output => some (Shell.postResult output)
  | post _, _ => none

/-- Only a post panics, and only where the answer has no body. -/
theorem Sending.result_eq_none {s : Sending} {o : SendOutcome} :
    s.result o = none ↔ (∃ data, s = .post data) ∧ ∀ output, o ≠ .body output := by
  cases s with
  | send => exact ⟨nofun, fun h => nomatch h.1⟩
  | post data =>
      cases o with
      | failed err => exact ⟨fun _ => ⟨⟨data, rfl⟩, nofun⟩, fun _ => rfl⟩
      | status err => exact ⟨fun _ => ⟨⟨data, rfl⟩, nofun⟩, fun _ => rfl⟩
      | body output => exact ⟨nofun, fun h => absurd rfl (h.2 output)⟩

/-- The process survives the delivery of the results. -/
def Binding.delivers : Binding → Bytes × Option GoError → Bool
  | .native, _ => true
  | .jni, (_, some _) => false
  | .jni, (data, none) => 0 < toInt32 data.length

/-- What the delivery of the results comes to: an array, or an abort. -/
def Binding.delivered : Binding → Bytes × Option GoError → Except Abort Bytes
  | .native, (_, some err) =>
      .error (.thrown (kstring "Request failed: " ++ toKString (err.text ++ [0])))
  | .native, (data, none) =>
      if toInt32 data.length < 0 then .error (.thrown (kstring "NegativeArraySizeException"))
      else .ok (data.take (toInt32 data.length).toNat)
  | .jni, result =>
      if Binding.jni.delivers result then .ok (result.1.take (toInt32 result.1.length).toNat)
      else .error .terminated

/-- What the delivery of the results aborts with, if it does. -/
def Binding.complaint (b : Binding) (result : Bytes × Option GoError) : Option Abort :=
  match b.delivered result with
  | .ok _ => none
  | .error a => some a

/-- The process survives a call whose request has the outcome. -/
def Binding.survives (b : Binding) (s : Sending) (o : SendOutcome) : Bool :=
  match s.result o with
  | some result => b.delivers result
  | none => false

/-- The builder with an option set. -/
def Ipfsapi.RequestBuilder.withOption (rb : RequestBuilder) (key value : Bytes) : RequestBuilder :=
  { rb with opts := Function.update rb.opts key (some value) }

/-- The builder after its body has been sent. -/
def Ipfsapi.RequestBuilder.spent (rb : RequestBuilder) : RequestBuilder :=
  { rb with body := rb.body.map Body.drained }

namespace Ideal

/-- An object: a shell by its address, or a request by what it will send, until it is closed. -/
inductive Obj where
  | shell (ipfsAddress : KString)
  | request (rb : Option RequestBuilder)

/-- The objects, the requests issued, and the responses closed. -/
structure State where
  objs : List Obj
  issued : List WireRequest
  closed : List Nat

namespace State

variable (s : State)

/-- The address of a shell. -/
def address (i : Nat) : Option KString :=
  match s.objs[i]? with
  | some (.shell ipfsAddress) => some ipfsAddress
  | _ => none

/-- What an open request will send. -/
def builder (i : Nat) : Option RequestBuilder :=
  match s.objs[i]? with
  | some (.request rb) => rb
  | _ => none

/-- The object is a request, open or closed. -/
def isRequest (i : Nat) : Bool :=
  match s.objs[i]? with
  | some (.request _) => true
  | _ => false

end State

/-- An object after it has been closed. A shell connects again when it is used. -/
def Obj.close : Obj → Obj
  | shell ipfsAddress => shell ipfsAddress
  | request _ => request none

/-- What a new request will send. -/
def newRequest (b : Binding) (ipfsAddress command : KString) (arg : Option KString) :
    RequestBuilder :=
  { (Shell.NewShell (b.encode ipfsAddress)).NewRequest (b.encode command) with
    args := (arg.map b.encode).toList }

/-- Issue the request of an object. -/
def issue (b : Binding) (out : Outside) (s : State) (i : Nat) (sending : Sending) : Option State :=
  match s.builder i with
  | none => none
  | some rb =>
      let rb := sending.posted rb
      let o := out.server (s.issued ++ [rb.wire])
      if b.survives sending o then
        some
          { objs := s.objs.set i (.request (some rb.spent))
            issued := s.issued ++ [rb.wire]
            closed := s.closed ++ Shell.toClose o s.issued.length }
      else none

/-- Make a call. -/
def step (b : Binding) (out : Outside) (s : State) : Call → Option State
  | .createShell ipfsAddress => some { s with objs := s.objs ++ [.shell ipfsAddress] }
  | .connect i => (s.address i).map fun _ => s
  | .request i command arg => (s.address i).map fun ipfsAddress =>
      { s with objs := s.objs ++ [.request (some (newRequest b ipfsAddress command arg))] }
  | .close i => s.objs[i]?.map fun _ => { s with objs := s.objs.modify i Obj.close }
  | .finalize i => s.objs[i]?.map fun _ => { s with objs := s.objs.modify i Obj.close }
  | .option i name value => (s.builder i).map fun rb =>
      { s with
        objs := s.objs.set i (.request (some (rb.withOption (b.encode name) (b.encode value)))) }
  | .send i => issue b out s i .send
  | .postString i data _ =>
      match b with
      | .native => issue b out s i (.post (b.encode data))
      | .jni => if s.isRequest i then some s else none
  | .postData i data => issue b out s i (.post data)

/-- What a call that sends aborts with, if it does. -/
def blameSending (b : Binding) (out : Outside) (s : State) (i : Nat) (sending : Sending) :
    Option Abort :=
  match s.builder i with
  | none => some (.panic (.unknownRefNum 0))
  | some rb =>
      match sending.result (out.server (s.issued ++ [(sending.posted rb).wire])) with
      | none => some (.panic .nilDereference)
      | some result => b.complaint result

/-- What a call aborts with, if it does. -/
def blame (b : Binding) (out : Outside) (s : State) : Call → Option Abort
  | .option i _ _ => if (s.builder i).isSome then none else some (.panic (.unknownRefNum 0))
  | .send i => blameSending b out s i .send
  | .postString i data _ =>
      match b with
      | .native => blameSending b out s i (.post (b.encode data))
      | .jni => some (.thrown (kstring "An operation is not implemented: Not yet implemented"))
  | .postData i data => blameSending b out s i (.post data)
  | _ => none

/-- No objects, on a network as it is. -/
def start (p : Process) : State := ⟨[], p.net.issued, p.net.closed⟩

/-! ## Responses -/

/-- The numbers of the requests that were answered, in order. -/
def answeredBy (out : Outside) (issued : List WireRequest) : List Nat :=
  (List.range issued.length).filter fun id => Shell.answered (Shell.outcomeAt out issued id)

/-- The object of a call on a request. -/
def target : Call → Option Nat
  | .close i => some i
  | .finalize i => some i
  | .option i _ _ => some i
  | .send i => some i
  | .postString i _ _ => some i
  | .postData i _ => some i
  | _ => none

/-- What a call that sends brings with it. -/
def sending (b : Binding) : Call → Option Sending
  | .send _ => some .send
  | .postString _ data _ => if b = .native then some (.post (b.encode data)) else none
  | .postData _ data => some (.post data)
  | _ => none

/-- An object after a call on it. -/
def Obj.after (b : Binding) (x : Obj) (call : Call) : Obj :=
  match x, call with
  | x, .close _ => x.close
  | x, .finalize _ => x.close
  | .request rb, .option _ name value =>
      .request (rb.map fun rb => rb.withOption (b.encode name) (b.encode value))
  | .request rb, call =>
      .request (rb.map fun rb =>
        match sending b call with
        | some s => (s.posted rb).spent
        | none => rb)
  | x, _ => x

/-- The calls on an object. -/
def own (i : Nat) (calls : List Call) : List Call := calls.filter fun call => target call = some i

/-! ## One step -/

section Steps

variable {b : Binding} {out : Outside} {s s' : State} {i j : Nat}

/-- What issuing a request does, when the process survives it. -/
theorem issue_eq_some {sending : Sending} (h : issue b out s i sending = some s') :
    ∃ rb, s.objs[i]? = some (.request (some rb)) ∧
      s' = { objs := s.objs.set i (.request (some (sending.posted rb).spent))
             issued := s.issued ++ [(sending.posted rb).wire]
             closed := s.closed ++
               Shell.toClose (out.server (s.issued ++ [(sending.posted rb).wire]))
                 s.issued.length } := by
  unfold issue State.builder at h
  cases hx : s.objs[i]? with
  | none =>
      rw [hx] at h
      cases h
  | some x =>
      rw [hx] at h
      cases x with
      | shell ipfsAddress => cases h
      | request rb =>
          cases rb with
          | none => cases h
          | some rb =>
              dsimp only at h
              split at h
              · cases h
                exact ⟨rb, rfl, rfl⟩
              · cases h

/-- An open request and what it will send. -/
theorem State.builder_eq_some {rb : RequestBuilder} :
    s.builder i = some rb ↔ s.objs[i]? = some (.request (some rb)) := by
  unfold State.builder
  split <;> simp_all

/-- What a step does, in four cases: a new object, nothing, an object changed by a call on it, or a
request issued. -/
theorem step_cases {call : Call} (h : step b out s call = some s') :
    (∃ x, s' = { s with objs := s.objs ++ [x] } ∧ target call = none ∧ sending b call = none) ∨
    (s' = s ∧ sending b call = none ∧
      ∀ i x, target call = some i → s.objs[i]? = some x → x.after b call = x) ∨
    (∃ i x, target call = some i ∧ sending b call = none ∧ s.objs[i]? = some x ∧
      s' = { s with objs := s.objs.set i (x.after b call) }) ∨
    ∃ i rb snd, target call = some i ∧ sending b call = some snd ∧
      s.objs[i]? = some (.request (some rb)) ∧
      s' = { objs := s.objs.set i ((Obj.request (some rb)).after b call)
             issued := s.issued ++ [(snd.posted rb).wire]
             closed := s.closed ++
               Shell.toClose (out.server (s.issued ++ [(snd.posted rb).wire]))
                 s.issued.length } := by
  have hclose : ∀ {i : Nat} {x : Obj}, s.objs[i]? = some x →
      s.objs.modify i Obj.close = s.objs.set i x.close := by
    intro i x hx
    rw [List.modify_eq_set_getElem?, hx]
    rfl
  cases call with
  | createShell ipfsAddress =>
      cases h
      exact .inl ⟨_, rfl, rfl, rfl⟩
  | connect i =>
      obtain ⟨_, _, rfl⟩ := Option.map_eq_some_iff.mp h
      exact .inr (.inl ⟨rfl, rfl, nofun⟩)
  | request i command arg =>
      obtain ⟨_, _, rfl⟩ := Option.map_eq_some_iff.mp h
      exact .inl ⟨_, rfl, rfl, rfl⟩
  | close i =>
      obtain ⟨x, hx, rfl⟩ := Option.map_eq_some_iff.mp h
      exact .inr (.inr (.inl ⟨i, x, rfl, rfl, hx, by rw [hclose hx]; rfl⟩))
  | finalize i =>
      obtain ⟨x, hx, rfl⟩ := Option.map_eq_some_iff.mp h
      exact .inr (.inr (.inl ⟨i, x, rfl, rfl, hx, by rw [hclose hx]; rfl⟩))
  | option i name value =>
      obtain ⟨rb, hrb, rfl⟩ := Option.map_eq_some_iff.mp h
      exact .inr (.inr (.inl ⟨i, _, rfl, rfl, State.builder_eq_some.mp hrb, rfl⟩))
  | send i =>
      obtain ⟨rb, hx, rfl⟩ := issue_eq_some h
      exact .inr (.inr (.inr ⟨i, rb, .send, rfl, rfl, hx, rfl⟩))
  | postString i data fileName =>
      cases b with
      | native =>
          obtain ⟨rb, hx, rfl⟩ := issue_eq_some h
          exact .inr (.inr (.inr ⟨i, rb, _, rfl, rfl, hx, rfl⟩))
      | jni =>
          simp only [step] at h
          split at h
          · cases h
            refine .inr (.inl ⟨rfl, rfl, fun j x _ _ => ?_⟩)
            cases x with
            | shell ipfsAddress => rfl
            | request rb => cases rb <;> rfl
          · cases h
  | postData i data =>
      obtain ⟨rb, hx, rfl⟩ := issue_eq_some h
      exact .inr (.inr (.inr ⟨i, rb, _, rfl, rfl, hx, rfl⟩))

/-- An object after one call: what the call makes of it, when it is a call on it. -/
theorem object_step {call : Call} {x : Obj} (hx : s.objs[i]? = some x)
    (h : step b out s call = some s') :
    s'.objs[i]? = some (if target call = some i then x.after b call else x) := by
  have hlt : i < s.objs.length := (List.getElem?_eq_some_iff.mp hx).1
  rcases step_cases h with ⟨y, rfl, htarget, _⟩ | ⟨rfl, _, hsame⟩ |
      ⟨j, y, htarget, _, hy, rfl⟩ | ⟨j, rb, snd, htarget, _, hy, rfl⟩
  · rw [htarget, if_neg nofun]
    exact (List.getElem?_append_left hlt).trans hx
  · split
    · rw [hsame i x ‹_› hx, hx]
    · exact hx
  all_goals
    rw [htarget]
    by_cases hij : j = i
    · subst hij
      cases hx.symm.trans hy
      rw [if_pos rfl]
      exact List.getElem?_set_self hlt
    · rw [if_neg (fun heq => hij (Option.some.inj heq))]
      exact (List.getElem?_set_ne hij).trans hx

/-- **An object after a run is what the calls on it have made of it**, whatever else has run. -/
theorem object_run {calls : List Call} {x : Obj} (hx : s.objs[i]? = some x)
    (hrun : run (step b out) s calls = some s') :
    s'.objs[i]? = some ((own i calls).foldl (Obj.after b) x) := by
  induction calls generalizing s x with
  | nil =>
      cases hrun
      exact hx
  | cons call calls ih =>
      obtain ⟨middle, hmove, hrest⟩ := run_cons_eq_some.mp hrun
      rw [ih (object_step hx hmove) hrest, own, own, List.filter_cons]
      by_cases htarget : target call = some i
      · simp [htarget]
      · simp [htarget]

/-! ## Responses -/

/-- The numbers of the requests that were answered, with one more request. -/
theorem answeredBy_append (issued : List WireRequest) (w : WireRequest) :
    answeredBy out (issued ++ [w]) =
      answeredBy out issued ++ Shell.toClose (out.server (issued ++ [w])) issued.length := by
  have hlast : [issued.length].filter
      (fun id => Shell.answered (Shell.outcomeAt out (issued ++ [w]) id)) =
        Shell.toClose (out.server (issued ++ [w])) issued.length := by
    rw [List.filter_singleton, Shell.outcomeAt_append_self]
    cases out.server (issued ++ [w]) <;> rfl
  rw [answeredBy, List.length_append, List.length_singleton, List.range_succ, List.filter_append,
    hlast, answeredBy]
  congr 1
  refine List.filter_congr fun id hid => ?_
  rw [Shell.outcomeAt_append_of_lt (List.mem_range.mp hid)]

/-- The responses closed are those of the requests that were answered. -/
def AllClosed (out : Outside) (s : State) : Prop := s.closed = answeredBy out s.issued

/-- A step keeps all responses closed, and issues a request exactly when it is a call that sends. -/
theorem allClosed_step {call : Call} (hclosed : AllClosed out s) (h : step b out s call = some s') :
    AllClosed out s' ∧
      s'.issued.length = s.issued.length + if (sending b call).isSome then 1 else 0 := by
  rcases step_cases h with ⟨y, rfl, _, hnone⟩ | ⟨rfl, hnone, _⟩ | ⟨j, y, _, hnone, _, rfl⟩ |
      ⟨j, rb, snd, _, hsending, _, rfl⟩
  · rw [hnone]
    exact ⟨hclosed, rfl⟩
  · rw [hnone]
    exact ⟨hclosed, rfl⟩
  · rw [hnone]
    exact ⟨hclosed, rfl⟩
  · refine ⟨?_, by rw [hsending]; exact List.length_append⟩
    show s.closed ++ _ = answeredBy out (s.issued ++ [(snd.posted rb).wire])
    rw [answeredBy_append, show s.closed = answeredBy out s.issued from hclosed]

/-- A run keeps all responses closed, and issues as many requests as it has calls that send. -/
theorem allClosed_run {calls : List Call} (hclosed : AllClosed out s)
    (hrun : run (step b out) s calls = some s') :
    AllClosed out s' ∧
      s'.issued.length = s.issued.length + calls.countP fun call => (sending b call).isSome := by
  induction calls generalizing s with
  | nil =>
      cases hrun
      exact ⟨hclosed, rfl⟩
  | cons call calls ih =>
      obtain ⟨middle, hmove, hrest⟩ := run_cons_eq_some.mp hrun
      obtain ⟨hclosed', hlength⟩ := allClosed_step hclosed hmove
      obtain ⟨hclosed'', hlength'⟩ := ih hclosed' hrest
      refine ⟨hclosed'', ?_⟩
      rw [hlength', hlength, List.countP_cons]
      omega

end Steps

end Ideal

end Kipfs
