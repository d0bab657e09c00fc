import Kipfs.Go.Posting
import Kipfs.Kotlin.Leaks

/-!
# What a request sends

One Go builder lives behind a request and is shared by all calls on it. `Behind` says which builder
that is, and the step lemmas say what an option, a send and a post make of it: an option overwrites
its key, a post stores its body, and every call that issues a request leaves the body it sent,
drained. `noResidue_iff` compares what the `k`-th call issues with what it would issue if the
history were only the options last set.
-/

namespace Kipfs

open Foundation Ipfsapi

/-- A call that issues an HTTP request. -/
inductive Sending where
  | send
  | post (data : Bytes)
  deriving DecidableEq, Repr

/-- A call on a request. -/
inductive RequestCall where
  | option (name value : KString)
  | sending (s : Sending)
  deriving DecidableEq, Repr

/-- The method of the request with the given number. -/
def Sending.program (kipfs : KIPFSNative) (i : Nat) : Sending → Prog Bytes
  | send => KNativeRequest.send kipfs i
  | post data => KNativeRequest.postData kipfs i data

/-- The call as one of the process. -/
def RequestCall.call (i : Nat) : RequestCall → Call
  | option name value => .option i name value
  | sending .send => .send i
  | sending (.post data) => .postData i data

/-- The body a call brings itself: none, or one unnamed file. -/
def Sending.body : Sending → Option Body
  | send => none
  | post data => some (.multipart [⟨[], .readerFile data⟩])

/-- The call is a post. -/
def RequestCall.isPost : RequestCall → Bool
  | sending (.post _) => true
  | _ => false

/-- Neither a name nor a value of an option has a NUL. -/
def RequestCall.NulFree : RequestCall → Prop
  | option name value => 0 ∉ name ∧ 0 ∉ value
  | sending _ => True

/-- The last value of every option name. -/
abbrev Values := KString → Option KString

/-- The values after one more call. -/
def Values.after (values : Values) : RequestCall → Values
  | .option name value => Function.update values name (some value)
  | .sending _ => values

/-- The last value set for each option name by a sequence of calls. -/
def lastValues (calls : List RequestCall) : Values := calls.foldl Values.after fun _ => none

/-- The builder that a command and an argument stand for, on a node. -/
def builderFor (url : Bytes) (command : KString) (arg : Option KString) : RequestBuilder :=
  { (Shell.NewShell url).NewRequest (goString (cstr command)) with
    args := (arg.map fun arg => goString (cstr arg)).toList }

/-- The node that the requests of a shell are made for: that of the shell behind its reference, or
the one it will connect to. -/
def Process.nodeOf (p : Process) (shell : Nat) : Bytes :=
  match p.objects[shell]? with
  | some ⟨.shell ipfsAddress, ref⟩ =>
      if ref = 0 then goString (cstr ipfsAddress)
      else ((p.refs.lookup ref).map fun obj => (p.shells obj.ptr).url).getD []
  | _ => []

/-- The options are the values, encoded. -/
structure Encodes (values : Values) (opts : Bytes → Option Bytes) : Prop where
  value : ∀ name value, values name = some value → opts (utf8 name) = some (utf8 value)
  name : ∀ key text, opts key = some text →
    ∃ name value, values name = some value ∧ utf8 name = key ∧ utf8 value = text

/-- An HTTP request that is determined by a builder without options, by values for them, and by a
body. -/
def WireFor (rb : RequestBuilder) (values : Values) (body : Option Body) (w : WireRequest) : Prop :=
  w = { rb.wire with opts := w.opts, body } ∧ Encodes values w.opts

/-- The call issues one HTTP request, and the only one that the given builder and values and its own
body determine. -/
def NoResidue (env : Env) (p : Process) (i : Nat) (rb : RequestBuilder) (values : Values)
    (s : Sending) : Prop :=
  ∃ w, (final ((s.program (native (libkipfs env)) i).run p)).net.issued = p.net.issued ++ [w] ∧
    WireFor rb values s.body w ∧ ∀ w', WireFor rb values s.body w' → w' = w

/-- Two option names that Go cannot tell one from the other have values it cannot tell either. -/
def Consistent (values : Values) : Prop :=
  ∀ name name' value value', utf8 name = utf8 name' → values name = some value →
    values name' = some value' → utf8 value = utf8 value'

/-! ## Options -/

section Options

variable {values : Values} {opts : Bytes → Option Bytes} {name value : KString}

/-- Every option is a value, and every value has its option, if not its own text. -/
structure Reflects (values : Values) (opts : Bytes → Option Bytes) : Prop where
  name : ∀ key text, opts key = some text →
    ∃ name value, values name = some value ∧ utf8 name = key ∧ utf8 value = text
  present : ∀ name value, values name = some value → opts (utf8 name) ≠ none

theorem reflects_empty : Reflects (fun _ => none) fun _ => none := ⟨nofun, nofun⟩

/-- Setting a value and its option keeps the two together. -/
theorem Reflects.update (h : Reflects values opts) (name value : KString) :
    Reflects (Function.update values name (some value))
      (Function.update opts (utf8 name) (some (utf8 value))) := by
  refine ⟨fun key text hopts => ?_, fun name' value' hvalues => ?_⟩
  · by_cases hkey : key = utf8 name
    · subst hkey
      rw [Function.update_self] at hopts
      exact ⟨name, value, Function.update_self _ _ _, rfl, Option.some.inj hopts⟩
    · rw [Function.update_of_ne hkey] at hopts
      obtain ⟨name', value', hvalues, rfl, htext⟩ := h.name key text hopts
      have hname : name' ≠ name := fun heq => hkey (by rw [heq])
      exact ⟨name', value', by rw [Function.update_of_ne hname, hvalues], rfl, htext⟩
  · by_cases hkey : utf8 name' = utf8 name
    · rw [hkey, Function.update_self]
      exact nofun
    · have hname : name' ≠ name := fun heq => hkey (by rw [heq])
      rw [Function.update_of_ne hname] at hvalues
      rw [Function.update_of_ne hkey]
      exact h.present name' value' hvalues

/-- The options are the values, encoded, exactly when the values are consistent. -/
theorem Reflects.encodes_iff (h : Reflects values opts) :
    Encodes values opts ↔ Consistent values := by
  constructor
  · intro hencodes name name' value value' hname hvalue hvalue'
    have hopts := hencodes.value name value hvalue
    rw [hname, hencodes.value name' value' hvalue'] at hopts
    exact (Option.some.inj hopts).symm
  · intro hconsistent
    refine ⟨fun name value hvalue => ?_, h.name⟩
    obtain ⟨text, htext⟩ := Option.ne_none_iff_exists'.mp (h.present name value hvalue)
    obtain ⟨name', value', hvalue', hname, rfl⟩ := h.name _ _ htext
    rw [htext, hconsistent name' name value' value hname hvalue' hvalue]

/-- Values set under well-formed names are consistent. -/
theorem consistent_of_wellFormed (h : ∀ name value, values name = some value → WellFormed name) :
    Consistent values := by
  intro name name' value value' hname hvalue hvalue'
  obtain rfl := utf8_injective (h name value hvalue) (h name' value' hvalue') hname
  rw [Option.some.inj (hvalue.symm.trans hvalue')]

/-- The values determine the options. -/
theorem Encodes.unique {opts' : Bytes → Option Bytes} (h : Encodes values opts)
    (h' : Encodes values opts') : opts = opts' := by
  have hle : ∀ {o o' : Bytes → Option Bytes}, Encodes values o → Encodes values o' →
      ∀ key text, o key = some text → o' key = some text := by
    intro o o' ho ho' key text hkey
    obtain ⟨name, value, hvalue, rfl, rfl⟩ := ho.name key text hkey
    exact ho'.value name value hvalue
  funext key
  exact Option.ext fun text => ⟨hle h h' key text, hle h' h key text⟩

/-- The builder, the values and the body determine the HTTP request. -/
theorem WireFor.unique {rb : RequestBuilder} {body : Option Body} {w w' : WireRequest}
    (h : WireFor rb values body w) (h' : WireFor rb values body w') : w = w' := by
  rw [h.1, h'.1, h.2.unique h'.2]

end Options

/-! ## One call -/

/-- The builder behind a request. -/
def Behind (p : Process) (i : Nat) (rb : RequestBuilder) : Prop :=
  ∃ refnum ptr, p.objects[i]? = some ⟨.request, refnum⟩ ∧
    p.refs.lookup refnum = some ⟨.requestBuilder, ptr⟩ ∧ p.builders ptr = rb

/-- The builder with the body of a call, when it brings one. -/
def Sending.posted (s : Sending) (rb : RequestBuilder) : RequestBuilder :=
  { rb with body := s.body.or rb.body }

/-- The builder after a call. -/
def RequestCall.apply (rb : RequestBuilder) : RequestCall → RequestBuilder
  | option name value =>
      { rb with
        opts := Function.update rb.opts (goString (cstr name)) (some (goString (cstr value))) }
  | sending s => { s.posted rb with body := (s.posted rb).body.map Body.drained }

section Calls

variable {env : Env} {p q : Process} {i : Nat} {rb : RequestBuilder}

/-- The method of the builder under a call. -/
def Sending.method (out : Outside) : Sending → GoM (Bytes × Option GoError)
  | send => Shell.Send out
  | post data => Shell.PostData2 out data

/-- A view of the builder and of the requests issued. -/
def Ipfsapi.Conn.sent (c : Conn) : RequestBuilder × List WireRequest := (c.rb, c.net.issued)

theorem keeps_Close (res : Option Ipfsapi.Response) : Keeps Conn.sent (Response.Close res) := by
  cases res with
  | none => exact keeps_abort _
  | some res => exact keeps_modify fun _ => rfl

theorem keeps_ReadAll (output : Option (Reader Bytes)) : Keeps Conn.sent (Shell.ReadAll output) :=
  keeps_bind (keeps_orAbort _ _) fun _ => keeps_pure _

/-- What `Send` does after the request has been issued touches neither. -/
theorem sent_Send (out : Outside) (c : Conn) :
    (final ((Shell.Send out).run c)).sent = c.issue.sent := by
  refine final_bind_of_keeps (m := RequestBuilder.Send out) (fun reply => ?_) c
  obtain ⟨res, err⟩ := reply
  cases err with
  | some err => exact keeps_pure _
  | none =>
      refine keeps_ensure (keeps_bind (keeps_orAbort _ _) fun res => ?_) (keeps_Close res)
      cases res.Error with
      | some err => exact keeps_pure _
      | none => exact keeps_ReadAll _

/-- What `Post2` does after the request has been issued touches neither. -/
theorem sent_Post2 (out : Outside) (name : Bytes) (file : Node) (c : Conn) :
    (final ((Shell.Post2 out name file).run c)).sent =
      (Conn.issue
        { c with rb := { c.rb with body := some (Shell.multiFileReader name file) } }).sent := by
  rw [Shell.Post2, EStateM.run_bind, Shell.run_Body]
  refine final_bind_of_keeps (m := RequestBuilder.Send out) (fun reply => ?_) _
  obtain ⟨res, err⟩ := reply
  refine keeps_ensure ?_ (keeps_Close res)
  cases err with
  | some err => exact keeps_pure _
  | none =>
      refine keeps_bind (keeps_orAbort _ _) fun res => keeps_bind (keeps_ReadAll _) fun result => ?_
      obtain ⟨data, err⟩ := result
      cases err with
      | some err => exact keeps_pure _
      | none => exact keeps_pure _

/-- A call issues the request its builder stands for, with its own body or else with the one the
builder has. -/
theorem sent_method (out : Outside) (s : Sending) (c : Conn) :
    (final ((s.method out).run c)).sent =
      (RequestCall.apply c.rb (.sending s), c.net.issued ++ [(s.posted c.rb).wire]) := by
  cases s with
  | send => exact sent_Send out c
  | post data => exact sent_Post2 out [] (.readerFile data) c

/-- A call on a request, on the native binding, is the method of its builder, seen without the
memory. -/
theorem final_sending (env : Env) {τ : Type} (view : Process → τ) (hblind : Blind view)
    {refnum : Int} {ptr : Nat} (hobject : p.objects[i]? = some ⟨.request, refnum⟩)
    (hlookup : p.refs.lookup refnum = some ⟨.requestBuilder, ptr⟩) (s : Sending) :
    view (final ((s.program (native (libkipfs env)) i).run p)) =
      view (p.withConn ptr (final ((s.method env.out).run ⟨p.builders ptr, p.net⟩))) := by
  have hexport : ∀ m : GoM (Bytes × Option GoError),
      view (final (((borrow refnum >>= fun obj => assertBuilder obj >>= fun rb =>
          onBuilder rb m >>= sendReturn) >>= Native.unpack).run p)) =
        view (p.withConn ptr (final (m.run ⟨p.builders ptr, p.net⟩))) := by
    intro m
    rw [final_bind_of_keeps (fun r => Native.keeps_unpack hblind r), run_borrowBuilder hlookup,
      final_bind_of_keeps (fun result => keeps_sendReturn hblind result), onBuilder, final_zoom]
  have hfield : p.refOf i = refnum := refOf_eq hobject
  cases s with
  | send =>
      show view (final ((KNativeRequest.send (native (libkipfs env)) i).run p)) = _
      rw [KNativeRequest.send, EStateM.run_bind, run_getRef, hfield]
      exact hexport (Shell.Send env.out)
  | post data =>
      show view (final ((KNativeRequest.postData (native (libkipfs env)) i data).run p)) = _
      rw [KNativeRequest.postData, EStateM.run_bind, run_getRef, hfield]
      show view (final
        ((KRequestPostBytes env refnum data data.length >>= Native.unpack).run p)) = _
      simp only [KRequestPostBytes, GoBytes_length, pure_bind]
      exact hexport (Shell.PostData2 env.out data)

/-- **A send or a post issues one HTTP request from the builder behind the request.** -/
theorem issued_sending (env : Env) (h : Behind p i rb) (s : Sending) :
    (final ((s.program (native (libkipfs env)) i).run p)).net.issued =
      p.net.issued ++ [(s.posted rb).wire] := by
  obtain ⟨refnum, ptr, hobject, hlookup, rfl⟩ := h
  have hview := final_sending env (fun p => p.net.issued) (fun _ _ => rfl) hobject hlookup s
  exact hview.trans (congrArg Prod.snd (sent_method env.out s ⟨p.builders ptr, p.net⟩))

/-- After a send or a post the builder has the body that was sent, drained. -/
theorem behind_sending (h : Behind p i rb) (s : Sending) :
    Behind (final ((s.program (native (libkipfs env)) i).run p)) i
      (RequestCall.apply rb (.sending s)) := by
  obtain ⟨refnum, ptr, hobject, hlookup, rfl⟩ := h
  have hhandles := final_sending env _ blind_handles hobject hlookup s
  have hbuilder := final_sending env (fun p => p.builders ptr) (fun _ _ => rfl) hobject hlookup s
  obtain ⟨hrefs, hobjects⟩ := Prod.mk.inj hhandles
  refine ⟨refnum, ptr, by rw [hobjects]; exact hobject, by rw [hrefs]; exact hlookup, ?_⟩
  rw [hbuilder]
  show Function.update p.builders ptr _ ptr = _
  rw [Function.update_self]
  exact congrArg Prod.fst (sent_method env.out s ⟨p.builders ptr, p.net⟩)

/-- An option is stored in the builder behind the request. -/
theorem behind_option (h : Behind p i rb) (name value : KString) :
    Behind (final ((KNativeRequest.option (native (libkipfs env)) i name value).run p)) i
      (RequestCall.apply rb (.option name value)) := by
  obtain ⟨refnum, ptr, hobject, hlookup, rfl⟩ := h
  have hrun : (KNativeRequest.option (native (libkipfs env)) i name value).run p =
      .ok () (p.withConn ptr ⟨RequestCall.apply (p.builders ptr) (.option name value), p.net⟩) := by
    rw [KNativeRequest.option, EStateM.run_bind, run_getRef, refOf_eq hobject]
    exact (run_borrowBuilder hlookup _).trans (run_onBuilder_ok rfl)
  rw [hrun]
  exact ⟨refnum, ptr, hobject, hlookup, Function.update_self _ _ _⟩

/-- A call on a request that the process survives leaves behind the request what the call makes of
the builder. -/
theorem behind_step (h : Behind p i rb) (call : RequestCall)
    (hmove : step (native (libkipfs env)) p (call.call i) = some q) :
    Behind q i (call.apply rb) := by
  have hfinal : ∀ {α : Type} {m : Prog α}, survivor (m.run p) = some q → final (m.run p) = q := by
    intro α m hsurvivor
    rcases survivor_eq_some.mp hsurvivor with ⟨a, hrun⟩ | ⟨message, hrun⟩
    · rw [hrun, final_ok]
    · rw [hrun, final_error]
  have hdiscard : ∀ m : Prog Bytes, final ((discard m).run p) = final (m.run p) := by
    intro m
    rw [run_discard]
    cases m.run p <;> rfl
  obtain ⟨refnum, ptr, hobject, hrest⟩ := h
  have hrequest : ∀ m, Call.program.onRequest p i m = some m := by
    intro m
    simp only [Call.program.onRequest, hobject]
  obtain ⟨m, hprogram, hsurvivor⟩ := Option.bind_eq_some_iff.mp hmove
  -- whether the call returned or threw does not matter to the builder
  cases call with
  | option name value =>
      cases (hrequest _).symm.trans hprogram
      rw [← hfinal hsurvivor]
      exact behind_option ⟨refnum, ptr, hobject, hrest⟩ name value
  | sending s =>
      cases s with
      | send =>
          cases (hrequest _).symm.trans hprogram
          rw [← hfinal hsurvivor, hdiscard]
          exact behind_sending ⟨refnum, ptr, hobject, hrest⟩ .send
      | post data =>
          cases (hrequest _).symm.trans hprogram
          rw [← hfinal hsurvivor, hdiscard]
          exact behind_sending ⟨refnum, ptr, hobject, hrest⟩ (.post data)

/-- After a run of calls, behind the request is what the calls have made of its builder. -/
theorem behind_run (h : Behind p i rb) {calls : List RequestCall}
    (hrun : run (step (native (libkipfs env))) p (calls.map (RequestCall.call i)) = some q) :
    Behind q i (calls.foldl RequestCall.apply rb) := by
  induction calls generalizing p rb with
  | nil =>
      cases hrun
      exact h
  | cons call calls ih =>
      obtain ⟨middle, hmove, hrest⟩ := run_cons_eq_some.mp hrun
      exact ih (behind_step h call hmove) hrest

/-- Behind a new request is the builder for its command and argument, on the node of its shell. -/
theorem behind_request {shell : Nat} {command : KString} {arg : Option KString}
    (hmove : step (native (libkipfs env)) p (.request shell command arg) = some q) :
    Behind q p.objects.length (builderFor (p.nodeOf shell) command arg) := by
  obtain ⟨m, hprogram, hsurvivor⟩ := Option.bind_eq_some_iff.mp hmove
  simp only [Call.program] at hprogram
  split at hprogram
  · rename_i ipfsAddress ref hobject
    cases hprogram
    obtain ⟨connected, middle, refnum, hconnect, hcreate, hcreated, rfl⟩ :=
      survivor_request (native_contract env) hsurvivor
    -- the shell is connected to its node, whether it was before or not
    have hconnected : connected.objects.length = p.objects.length ∧
        ∀ kShell, connected.refs.lookup (connected.refOf shell) = some ⟨.shell, kShell⟩ →
          connected.shells kShell = Shell.NewShell (p.nodeOf shell) := by
      have hfield : p.refOf shell = ref := refOf_eq hobject
      rcases (survivor_connect (native_contract env) hconnect).2 with
        ⟨hne, rfl⟩ | ⟨hzero, made, shellRef, hmake, hmade, rfl⟩
      · refine ⟨rfl, fun kShell hlookup => ?_⟩
        rw [hfield] at hne hlookup
        simp only [Process.nodeOf, hobject, if_neg hne, hlookup, Option.map_some, Option.getD_some,
          Shell.NewShell]
      · obtain ⟨r, q₁, hexport, hreturn⟩ := bind_eq_ok.mp hmake
        obtain ⟨fresh, rfl, _⟩ := created_of_ok (creates_KCreateShell env _) hexport
        cases hreturn
        obtain ⟨ptr, hentered, hshell⟩ := KCreateShell_spec hexport
        refine ⟨by simp [Process.withRef, hmade.1], fun kShell hlookup => ?_⟩
        have hobject' : (made.withRef shell fresh).objects[shell]? =
            some ⟨.shell ipfsAddress, fresh⟩ := by
          simp [Process.withRef, hmade.1, hobject]
        rw [refOf_eq hobject'] at hlookup
        cases hentered.symm.trans hlookup
        rw [hfield] at hzero
        subst hzero
        simp only [Process.nodeOf, hobject, if_true]
        exact hshell
    obtain ⟨r, q₁, hexport, hreturn⟩ := bind_eq_ok.mp hcreate
    obtain ⟨fresh, rfl, _⟩ := created_of_ok (creates_KCreateRequest env _ _ _) hexport
    cases hreturn
    obtain ⟨kShell, ptr, hshell, hentered, hbuilder⟩ := KCreateRequest_spec hexport
    refine ⟨fresh, ptr, ?_, hentered, ?_⟩
    · rw [← hconnected.1, ← hcreated.1]
      simp [Process.withObject]
    · show middle.builders ptr = _
      rw [hbuilder, hconnected.2 kShell hshell, builderFor, Option.map_map]
      rfl
  · cases hprogram

end Calls

/-! ## Sequences of calls -/

section Sequences

variable {rb : RequestBuilder} {calls : List RequestCall}

/-- What a sequence of calls makes of a new builder: the options reflect the last values, and there
is a body, drained, when there has been a post. -/
theorem applied_spec (rb : RequestBuilder) (hopts : rb.opts = fun _ => none)
    (hbody : rb.body = none) (hnul : ∀ call ∈ calls, call.NulFree) :
    ∃ opts, Reflects (lastValues calls) opts ∧ calls.foldl RequestCall.apply rb =
      { rb with
        opts
        body := if calls.any RequestCall.isPost then some (.multipart []) else none } := by
  -- the last values are folded from the left, so the induction takes off the last call
  induction calls using List.reverseRecOn with
  | nil => exact ⟨rb.opts, hopts ▸ reflects_empty, by simp [← hbody]⟩
  | append_singleton calls call ih =>
      obtain ⟨opts, hreflects, happlied⟩ :=
        ih fun call hcall => hnul call (List.mem_append_left _ hcall)
      have hlast : lastValues (calls ++ [call]) = (lastValues calls).after call := by
        rw [lastValues, List.foldl_append]
        rfl
      rw [List.foldl_append, List.foldl_cons, List.foldl_nil, happlied, hlast, List.any_append]
      cases call with
      | option name value =>
          obtain ⟨hname, hvalue⟩ := hnul (.option name value) (by simp)
          have hkey : goString (cstr name) = utf8 name :=
            goString_terminated (zero_notMem_utf8 hname) _
          have htext : goString (cstr value) = utf8 value :=
            goString_terminated (zero_notMem_utf8 hvalue) _
          refine ⟨_, hreflects.update name value, ?_⟩
          simp [RequestCall.apply, RequestCall.isPost, hkey, htext]
      | sending s =>
          refine ⟨opts, hreflects, ?_⟩
          cases s with
          | send =>
              cases calls.any RequestCall.isPost <;>
                simp [RequestCall.apply, Sending.posted, Sending.body, RequestCall.isPost,
                  Body.drained]
          | post data =>
              simp [RequestCall.apply, Sending.posted, Sending.body, RequestCall.isPost,
                Body.drained]

/-- **On the native binding, what a send or a post issues after a sequence of calls is determined by
the command, the argument, the last values and its own body exactly when it is not a send after a
post and the values are consistent.** -/
theorem noResidue_iff {env : Env} {p q : Process} {shell : Nat} {command : KString}
    {arg : Option KString} (hnul : ∀ call ∈ calls, call.NulFree)
    (hrun : run (step (native (libkipfs env))) p
      (.request shell command arg :: calls.map (RequestCall.call p.objects.length)) = some q)
    (s : Sending) :
    NoResidue env q p.objects.length (builderFor (p.nodeOf shell) command arg)
        (lastValues calls) s ↔
      (s = .send → ∀ call ∈ calls, ¬ call.isPost) ∧ Consistent (lastValues calls) := by
  obtain ⟨made, hmove, hcalls⟩ := run_cons_eq_some.mp hrun
  have hbehind := behind_run (behind_request hmove) hcalls
  obtain ⟨opts, hreflects, happlied⟩ :=
    applied_spec (builderFor (p.nodeOf shell) command arg) rfl rfl hnul
  rw [happlied] at hbehind
  have hissued := issued_sending env hbehind s
  -- what is left to compare is the body and the options of the one request issued
  have hnoResidue : NoResidue env q p.objects.length (builderFor (p.nodeOf shell) command arg)
      (lastValues calls) s ↔
        s.body.or (if calls.any RequestCall.isPost then some (.multipart []) else none) = s.body ∧
          Encodes (lastValues calls) opts := by
    constructor
    · rintro ⟨w, hw, ⟨hwire, hencodes⟩, -⟩
      rw [hissued] at hw
      obtain rfl := List.singleton_inj.mp (List.append_cancel_left hw)
      exact ⟨congrArg WireRequest.body hwire, hencodes⟩
    · rintro ⟨hbody, hencodes⟩
      have hwire : WireFor (builderFor (p.nodeOf shell) command arg) (lastValues calls) s.body
          (s.posted { builderFor (p.nodeOf shell) command arg with
            opts
            body := if calls.any RequestCall.isPost then some (.multipart []) else none }).wire :=
        ⟨by simp only [RequestBuilder.wire, Sending.posted, hbody], hencodes⟩
      exact ⟨_, hissued, hwire, fun _ hwire' => hwire'.unique hwire⟩
  rw [hnoResidue, hreflects.encodes_iff]
  refine and_congr_left fun _ => ?_
  cases s with
  | send => simp [Sending.body]
  | post data => simp [Sending.body]

end Sequences

/-- After an option and a send, a post of one byte issues what it should. -/
theorem noResidue_post :
    ∃ q, run (step (native (libkipfs standalone))) oneShell
        [.request 0 [105] none, .option 1 [98] [99], .send 1] = some q ∧
      NoResidue standalone q 1 (builderFor [104] [105] none)
        (lastValues [.option [98] [99], .sending .send]) (.post [1]) := by
  have hvalues : ∀ name value, lastValues [.option [98] [99], .sending .send] name = some value →
      value = [99] := by
    intro name value hvalue
    simp only [lastValues, List.foldl_cons, List.foldl_nil, Values.after,
      Function.update_apply] at hvalue
    split at hvalue
    · exact (Option.some.inj hvalue).symm
    · cases hvalue
  have hnul : ∀ call ∈ [RequestCall.option [98] [99], .sending .send], call.NulFree := by
    simp [RequestCall.NulFree]
  have hrun : run (step (native (libkipfs standalone))) oneShell
      (.request 0 [105] none :: [.option [98] [99], .sending .send].map
        (RequestCall.call oneShell.objects.length)) = some _ := rfl
  refine ⟨_, hrun, (noResidue_iff hnul hrun (.post [1])).mpr ⟨nofun, ?_⟩⟩
  intro name name' value value' _ hvalue hvalue'
  rw [hvalues name value hvalue, hvalues name' value' hvalue']

/-- After a post, a send issues a request with the body of the post, drained. -/
theorem residue_send :
    ∃ q, run (step (native (libkipfs standalone))) oneShell
        [.request 0 [105] none, .postData 1 [1]] = some q ∧
      (∃ w, (final ((KNativeRequest.send (native (libkipfs standalone)) 1).run q)).net.issued =
        q.net.issued ++ [w] ∧ w.body = some (.multipart [])) ∧
      ¬ NoResidue standalone q 1 (builderFor [104] [105] none)
        (lastValues [.sending (.post [1])]) .send := by
  refine ⟨_, rfl, ⟨_, rfl, rfl⟩, ?_⟩
  rintro ⟨w, hissued, ⟨hwire, -⟩, -⟩
  have hbody : w.body = some (.multipart []) :=
    congrArg WireRequest.body (List.singleton_inj.mp (List.append_cancel_left hissued)).symm
  rw [hwire] at hbody
  cases hbody

end Kipfs
