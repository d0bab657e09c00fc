import Kipfs.Go.Lifetimes
import Kipfs.Kotlin.Marshalling

/-!
# Requests in one call

`KRequest` of `libkipfs.go` makes a request of a shell and sends it, and the `request` of
`JNIImpl.kt` calls it from Java. The builder gets no reference. Everything else is as after
`KCreateRequest` and `KRequestSend`, in every state: the results, the network, the builders and the
shells (`request_once`).
-/

namespace Kipfs

open Foundation Ipfsapi

/-- `Java_kipfs_golib_jni_JNI_request`. -/
def Jni.request (env : Env) (shellRefID : Int) (cmd : KString) (arg : Option KString) :
    Prog Bytes :=
  cName do
    let cmdC ← GetStringUTFChars cmd
    match arg with
    | none => do
        let r ← KRequest env shellRefID (← charsAt cmdC) none
        ReleaseStringUTFChars cmdC
        unpack "Request failed: " r
    | some arg => do
        let argC ← GetStringUTFChars arg
        let r ← KRequest env shellRefID (← charsAt cmdC) (some (← charsAt argC))
        ReleaseStringUTFChars cmdC
        ReleaseStringUTFChars argC
        unpack "Request failed: " r

theorem Process.put_refs (p : Process) : { p with refs := p.refs } = p := rfl

/-- The reference table of the process. -/
def refs : Part Process (RefTable Iface) where
  get := Process.refs
  put refs p := { p with refs }
  get_put _ _ := rfl
  put_get := Process.put_refs
  put_put _ _ _ := rfl

/-- The reference table and the memory. -/
def refsAndMemory : Part Process (RefTable Iface × Ledger Block) where
  get p := (p.refs, p.memory)
  put t p := { p with refs := t.1, memory := t.2 }
  get_put _ _ := rfl
  put_get _ := rfl
  put_put _ _ _ := rfl

/-- A table with at most one reference more, which is counted twice. -/
def OneMore (t t' : RefTable Iface) : Prop :=
  t' = t ∨ ∃ r, t.lookup r = none ∧ t'.count r = 2 ∧
    ∀ q, q ≠ r → t'.lookup q = t.lookup q ∧ t'.count q = t.count q

namespace Plain

/-- Set the argument of a builder, if there is one, and send it. -/
def argumentAndSend (env : Env) (rb : Nat) (arg : Option Bytes) :
    Prog (Bytes × Option GoError) := do
  match arg with
  | some arg => onBuilder rb (Shell.Argument arg)
  | none => pure ()
  onBuilder rb (Shell.Send env.out)

/-- Make a request of a shell and send it. -/
def requestOnce (env : Env) (shellRef : Int) (command : Bytes) (arg : Option Bytes) :
    Prog (Bytes × Option GoError) := do
  let kShell ← assertShell (← borrow shellRef)
  let rb ← newBuilder (kShell.NewRequest command)
  argumentAndSend env rb arg

/-- Make a request of a shell, enter it, and send it. -/
def requestTwice (env : Env) (shellRef : Int) (command : Bytes) (arg : Option Bytes) :
    Prog (Bytes × Option GoError) := do
  let refnum ← enterRequest env shellRef command arg
  let rb ← assertBuilder (← borrow refnum)
  onBuilder rb (Shell.Send env.out)

end Plain

section Once

variable {env : Env}

/-- Whatever is behind a reference, what follows the borrowing of a shell runs on the shell or does
not run at all. -/
theorem run_borrowShell_or {α : Type} (refnum : Int) (p : Process) :
    (∃ kShell, ∀ f : Shell → Prog α,
      (borrow refnum >>= fun obj => assertShell obj >>= f).run p = (f kShell).run p) ∨
    ∃ x, ∀ f : Shell → Prog α,
      (borrow refnum >>= fun obj => assertShell obj >>= f).run p = .error (.panic x) p := by
  cases hlookup : p.refs.lookup refnum with
  | none =>
      refine .inr ⟨.unknownRefNum refnum, fun f => ?_⟩
      rw [EStateM.run_bind, run_borrow_absent hlookup]
  | some obj =>
      rcases obj with ⟨type, ptr⟩
      cases type with
      | shell =>
          refine .inl ⟨p.shells ptr, fun f => ?_⟩
          rw [EStateM.run_bind, run_borrow hlookup]
          rfl
      | requestBuilder =>
          refine .inr ⟨.typeAssertion, fun f => ?_⟩
          rw [EStateM.run_bind, run_borrow hlookup]
          rfl

/-- A new builder is at the next address. -/
theorem run_newBuilder_bind {α : Type} (rb : RequestBuilder) (f : Nat → Prog α) (p : Process) :
    (newBuilder rb >>= f).run p = (f p.allocated).run
      { p with
        builders := Function.update p.builders p.allocated rb
        allocated := p.allocated + 1 } := rfl

theorem ignores_refs_argumentAndSend (rb : Nat) (arg : Option Bytes) :
    Ignores refs (Plain.argumentAndSend env rb arg) := by
  have hbuilder : ∀ {β : Type} (m : GoM β), Ignores refs (onBuilder rb m) :=
    fun m => ignores_zoom (fun _ _ => rfl) fun _ _ _ => rfl
  cases arg with
  | none => exact ignores_bind (ignores_pure ()) fun _ => hbuilder _
  | some arg => exact ignores_bind (hbuilder _) fun _ => hbuilder _

/-- The argument of an entered builder is set before the builder is borrowed. -/
theorem run_argument_borrow {q : Process} {refnum : Int} {rb : Nat}
    (hlookup : q.refs.lookup refnum = some ⟨.requestBuilder, rb⟩) (arg : Option Bytes) :
    ((match arg with
      | some arg => onBuilder rb (Shell.Argument arg)
      | none => pure ()) >>= fun _ => borrow refnum >>= fun obj => assertBuilder obj >>= fun rb =>
        onBuilder rb (Shell.Send env.out)).run q = (Plain.argumentAndSend env rb arg).run q := by
  cases arg with
  | none => exact run_borrowBuilder hlookup _
  | some arg => exact run_borrowBuilder (p := q.withConn rb _) hlookup _

/-- A request that is entered before it is sent leaves one more reference, and does nothing else
that it would not have done. -/
theorem run_requestTwice (env : Env) (p : Process) (shellRef : Int) (command : Bytes)
    (arg : Option Bytes) :
    OutOfNumbers env.numbering ((Plain.requestTwice env shellRef command arg).run p) ∨
    ∃ t, OneMore p.refs t ∧ (Plain.requestTwice env shellRef command arg).run p =
      refs.overwrite t ((Plain.requestOnce env shellRef command arg).run p) := by
  have htwice : Plain.requestTwice env shellRef command arg =
      borrow shellRef >>= fun obj => assertShell obj >>= fun kShell =>
        newBuilder (kShell.NewRequest command) >>= fun rb =>
          createRef env ⟨.requestBuilder, rb⟩ >>= fun refnum =>
            (match arg with
              | some arg => onBuilder rb (Shell.Argument arg)
              | none => pure ()) >>= fun _ =>
                borrow refnum >>= fun obj => assertBuilder obj >>= fun rb =>
                  onBuilder rb (Shell.Send env.out) := by
    simp only [Plain.requestTwice, Plain.enterRequest, bind_assoc]
    cases arg <;> simp
  rw [htwice, Plain.requestOnce]
  rcases run_borrowShell_or (α := Bytes × Option GoError) shellRef p with
    ⟨kShell, hborrow⟩ | ⟨x, hborrow⟩
  · rw [hborrow, hborrow, run_newBuilder_bind, run_newBuilder_bind, EStateM.run_bind]
    cases href : (createRef env ⟨.requestBuilder, p.allocated⟩).run
        { p with
          builders := Function.update p.builders p.allocated (kShell.NewRequest command)
          allocated := p.allocated + 1 } with
    | error a q =>
        obtain ⟨rfl, hnext⟩ := createRef_error href
        exact .inl ⟨q, rfl, hnext⟩
    | ok refnum q =>
        obtain ⟨_, habsent, hrest, hlookup, hothers, hcount⟩ := createRef_spec href
        refine .inr ⟨q.refs, .inr ⟨refnum, habsent, ?_, fun r hr => ⟨hothers r hr, ?_⟩⟩, ?_⟩
        · rw [hcount, if_pos rfl]
        · rw [hcount, if_neg hr]
        · dsimp only
          rw [run_argument_borrow hlookup, ← ignores_refs_argumentAndSend]
          exact congrArg _ hrest
  · rw [hborrow, hborrow]
    exact .inr ⟨p.refs, .inl rfl, rfl⟩

/-- Making and sending a request in one go leaves the table alone. -/
theorem keeps_requestOnce (env : Env) (shellRef : Int) (command : Bytes) (arg : Option Bytes)
    (p : Process) :
    (final ((Plain.requestOnce env shellRef command arg).run p)).refs = p.refs := by
  rw [Plain.requestOnce]
  rcases run_borrowShell_or (α := Bytes × Option GoError) shellRef p with
    ⟨kShell, hborrow⟩ | ⟨x, hborrow⟩
  · rw [hborrow, run_newBuilder_bind]
    exact (ignores_refs_argumentAndSend _ arg).keeps _
  · rw [hborrow]
    rfl

end Once

/-! ## The exports -/

section Exported

/-- `KRequest` makes and sends a request in one go. -/
theorem KRequest_eq (env : Env) (shellRef : Int) (command : Bytes) (arg : Option Bytes) :
    KRequest env shellRef command arg =
      Plain.requestOnce env shellRef (goString command) (arg.map goString) >>= sendReturn := by
  simp only [KRequest, Plain.requestOnce, Plain.argumentAndSend, bind_assoc]
  cases arg <;> rfl

/-- `KCreateRequest` and `KRequestSend` enter the request in between. -/
theorem KCreateRequest_KRequestSend_eq (env : Env) (shellRef : Int) (command : Bytes)
    (arg : Option Bytes) :
    (KCreateRequest env shellRef command arg >>= fun r => KRequestSend env r.r0) =
      Plain.requestTwice env shellRef (goString command) (arg.map goString) >>= sendReturn := by
  rw [KCreateRequest_eq_enterRequest, Plain.requestTwice]
  simp only [bind_assoc, pure_bind, KRequestSend]

theorem ignores_refs_sendReturn (result : Bytes × Option GoError) :
    Ignores refs (sendReturn result) := by
  rcases result with ⟨data, _ | err⟩ <;> exact fun _ _ => rfl

/-- The second program does what the first does, and leaves at most one more reference behind. -/
theorem oneMore_bind {α : Type} {num : Numbering} {once twice : Prog (Bytes × Option GoError)}
    {f : Bytes × Option GoError → Prog α} {p : Process} (hf : ∀ result, Ignores refs (f result))
    (h : OutOfNumbers num (twice.run p) ∨
      ∃ t, OneMore p.refs t ∧ twice.run p = refs.overwrite t (once.run p)) :
    OutOfNumbers num ((twice >>= f).run p) ∨
      ∃ t, OneMore p.refs t ∧ (twice >>= f).run p = refs.overwrite t ((once >>= f).run p) := by
  rcases h with hout | ⟨t, hmore, hrun⟩
  · exact .inl (hout.bind f)
  · refine .inr ⟨t, hmore, ?_⟩
    rw [EStateM.run_bind, EStateM.run_bind, hrun]
    cases once.run p with
    | ok result q => exact hf result q t
    | error a q => rfl

/-- What follows on the results leaves the table as it was. -/
theorem keeps_once_bind {α : Type} (env : Env) (shellRef : Int)
    {f : Bytes × Option GoError → Prog α}
    (hf : ∀ result, Ignores refs (f result)) (command : Bytes) (arg : Option Bytes) (p : Process) :
    (final ((Plain.requestOnce env shellRef command arg >>= f).run p)).refs = p.refs :=
  have hkeeps : Keeps Process.refs (Plain.requestOnce env shellRef command arg >>= f) :=
    keeps_bind (keeps_requestOnce env shellRef command arg) fun result => (hf result).keeps
  hkeeps p

end Exported

/-! ## From Java -/

section Java

/-- Two exported functions, one after the other, are as one. -/
theorem cName_bind {α β : Type} (m : Prog α) (f : α → Prog β) :
    (cName m >>= fun a => cName (f a)) = cName (m >>= f) := by
  refine eq_of_run fun p => ?_
  rw [EStateM.run_bind, run_cName, run_cName, EStateM.run_bind]
  cases m.run p with
  | ok a q => rfl
  | error a q => cases a <;> rfl

/-- A result is unpacked after buffers have been released, that were entered before it. -/
theorem run_released {release : Prog Unit} {m m' : Ledger Block} (p : Process)
    (hrelease : ∀ (q : Process) block, q.memory = m.add block →
      release.run q = .ok () { q with memory := m'.add block })
    (hnext : m'.next = m.next) (label : String) (result : Bytes × Option GoError) :
    ∃ t, (do
      let r ← sendReturn result
      release
      Jni.unpack label r : Prog Bytes).run { p with memory := m } =
        memory.overwrite t ((Binding.jni.deliver label result).run p) := by
  rcases result with ⟨data, _ | err⟩
  · refine ⟨m'.add (.heap data), ?_⟩
    have hrun : (do
        let r ← sendReturn (data, none)
        release
        Jni.unpack label r : Prog Bytes).run { p with memory := m } =
          (readBytes m'.next (toInt32 data.length) >>= Binding.jni.array).run
            { p with memory := m'.add (.heap data) } := by
      rw [EStateM.run_bind, run_sendReturn_ok]
      dsimp only
      rw [EStateM.run_bind, hrelease _ _ rfl, hnext]
      rfl
    have hpayload := implements_payload (b := .jni) label data { p with memory := m' }
    rw [hrun]
    refine hpayload.trans ?_
    have hignores : Ignores memory (Binding.jni.deliver label (data, none)) :=
      ignores_deliver label _
    exact (congrArg (memory.overwrite _) (hignores p m')).trans (overwrite_overwrite _ _ _)
  · refine ⟨m'.skip, ?_⟩
    have hthrow : (throwIfError label (some m.next)).run
        { p with memory := m'.add (.heap (err.text ++ [0])) } =
          .error (.thrown (kstring label ++ toKString (err.text ++ [0])))
            { p with memory := m'.skip } :=
      run_throwIfError (Ledger.find_add_of_eq _ _ hnext.symm)
        (Ledger.remove_add_of_eq _ _ hnext.symm)
    rw [EStateM.run_bind, sendReturn]
    simp only [EStateM.run_bind, run_CString, EStateM.run_pure]
    rw [hrelease _ (.heap (err.text ++ [0])) rfl]
    dsimp only
    rw [Jni.unpack, EStateM.run_bind, hthrow]
    rfl

/-- What is sent and unpacked while buffers are held, and after they have been released. -/
theorem run_sent_released {f : Prog (Bytes × Option GoError)} (hf : Ignores memory f)
    {release : Prog Unit} {m m' : Ledger Block} (p : Process)
    (hrelease : ∀ (q : Process) block, q.memory = m.add block →
      release.run q = .ok () { q with memory := m'.add block })
    (hnext : m'.next = m.next) (label : String) :
    ∃ t, (do
      let r ← f >>= sendReturn
      release
      Jni.unpack label r : Prog Bytes).run { p with memory := m } =
        memory.overwrite t ((f >>= Binding.jni.deliver label).run p) := by
  have hrun : f.run { p with memory := m } = memory.overwrite m (f.run p) := hf p m
  simp only [bind_assoc]
  rw [EStateM.run_bind, EStateM.run_bind, hrun]
  cases f.run p with
  | ok result q => exact run_released q hrelease hnext label result
  | error a q => exact ⟨m, rfl⟩

theorem ignores_requestOnce (env : Env) (shellRef : Int) (command : Bytes) (arg : Option Bytes) :
    Ignores memory (Plain.requestOnce env shellRef command arg) := by
  refine ignores_bind (ignores_borrow shellRef) fun obj =>
    ignores_bind (ignores_assertShell obj) fun kShell => ignores_bind (fun _ _ => rfl) fun rb => ?_
  cases arg with
  | none => exact ignores_bind (ignores_pure ()) fun _ => ignores_onBuilder rb _
  | some arg => exact ignores_bind (ignores_onBuilder rb _) fun _ => ignores_onBuilder rb _

/-- `request` on the JVM makes and sends a request in one go. -/
theorem implements_request (env : Env) (shellRef : Int) (cmd : KString) (arg : Option KString) :
    Implements memory (Jni.request env shellRef cmd arg)
      (Binding.jni.call (Plain.requestOnce env shellRef (Binding.jni.encode cmd)
        (arg.map Binding.jni.encode) >>= Binding.jni.deliver "Request failed: ")) := by
  refine implements_call (b := .jni) fun p => ?_
  have honce := fun arg => ignores_requestOnce env shellRef (Binding.jni.encode cmd) arg
  cases arg with
  | none =>
      have hrelease : ∀ (q : Process) block,
          q.memory = (p.memory.add (.chars (modifiedUtf8 cmd ++ [0]))).add block →
            (ReleaseStringUTFChars p.memory.next).run q =
              .ok () { q with memory := p.memory.skip.add block } := by
        intro q block hq
        simp [ReleaseStringUTFChars, hq]
      have hsent := run_sent_released (honce none) p hrelease rfl "Request failed: "
      simp only [EStateM.run_bind, run_GetStringUTFChars, run_charsAt_eq, Ledger.find_add_self,
        KRequest_eq] at hsent ⊢
      exact hsent
  | some arg =>
      have hne : p.memory.next ≠ (p.memory.add (.chars (modifiedUtf8 cmd ++ [0]))).next := by simp
      have hrelease : ∀ (q : Process) block,
          q.memory = ((p.memory.add (.chars (modifiedUtf8 cmd ++ [0]))).add
            (.chars (modifiedUtf8 arg ++ [0]))).add block →
            (ReleaseStringUTFChars p.memory.next >>= fun _ =>
              ReleaseStringUTFChars (p.memory.next + 1)).run q =
                .ok () { q with memory := p.memory.skip.skip.add block } := by
        intro q block hq
        have hfar : p.memory.next ≠ p.memory.next + 1 + 1 := by omega
        simp [ReleaseStringUTFChars, hq, hfar]
      have hsent := run_sent_released (honce (some (Binding.jni.encode arg))) p hrelease rfl
        "Request failed: "
      simp only [EStateM.run_bind, bind_assoc, run_GetStringUTFChars, run_charsAt_eq,
        Ledger.find_add_self, Ledger.find_add_of_ne _ _ hne, KRequest_eq] at hsent ⊢
      exact hsent

/-- `createRequest` and `sendRequest` on the JVM make a request, enter it, and send it. -/
theorem implements_createRequest_sendRequest (env : Env) (shellRef : Int) (cmd : KString)
    (arg : Option KString) :
    Implements memory
      ((jvm (libkipfs env)).createRequest shellRef cmd arg >>= (jvm (libkipfs env)).sendRequest)
      (Binding.jni.call (Plain.requestTwice env shellRef (Binding.jni.encode cmd)
        (arg.map Binding.jni.encode) >>= Binding.jni.deliver "Request failed: ")) := by
  have hplain := plain_memoryless env .jni
  have hboth := Implements.bind ((jvm_marshals env).createRequest shellRef cmd arg)
    (jvm_marshals env).sendRequest hplain.sendRequest
  have hcalls : ((plain env .jni).createRequest shellRef cmd arg >>= (plain env .jni).sendRequest) =
      cName (Plain.requestTwice env shellRef (Binding.jni.encode cmd)
        (arg.map Binding.jni.encode) >>= Binding.jni.deliver "Request failed: ") := by
    rw [Plain.requestTwice]
    simp only [bind_assoc]
    exact cName_bind _ _
  rw [hcalls] at hboth
  exact hboth

/-- An exported function of a program that leaves at most one more reference behind. -/
theorem oneMore_cName {α : Type} {num : Numbering} {once twice : Prog α} {p : Process}
    (h : OutOfNumbers num (twice.run p) ∨
      ∃ t, OneMore p.refs t ∧ twice.run p = refs.overwrite t (once.run p)) :
    OutOfNumbers num ((cName twice).run p) ∨
      ∃ t, OneMore p.refs t ∧ (cName twice).run p = refs.overwrite t ((cName once).run p) := by
  rcases h with hout | ⟨t, hmore, hrun⟩
  · exact .inl (hout.call (b := .jni))
  · refine .inr ⟨t, hmore, ?_⟩
    rw [run_cName, run_cName, hrun]
    cases once.run p with
    | ok result q => rfl
    | error a q => cases a <;> rfl

end Java

/-- **A request in one call is a request made and sent, without the reference.** In every state,
whatever the shell reference, the command and the argument are, and whatever comes of the request:
`KRequest` leaves the table as it is and does all that `KCreateRequest` and `KRequestSend` do, which
leave one more reference behind, or panic because the numbering has no next number for it. Called
from Java it is the same, but for the memory. -/
theorem request_once (env : Env) (p : Process) (shellRef : Int) :
    (∀ command arg,
      (final ((KRequest env shellRef command arg).run p)).refs = p.refs ∧
      (OutOfNumbers env.numbering
          ((KCreateRequest env shellRef command arg >>= fun r => KRequestSend env r.r0).run p) ∨
        ∃ t, OneMore p.refs t ∧
          (KCreateRequest env shellRef command arg >>= fun r => KRequestSend env r.r0).run p =
            refs.overwrite t ((KRequest env shellRef command arg).run p))) ∧
    ∀ cmd arg,
      (final ((Jni.request env shellRef cmd arg).run p)).refs = p.refs ∧
      (OutOfNumbers env.numbering (((jvm (libkipfs env)).createRequest shellRef cmd arg >>=
          (jvm (libkipfs env)).sendRequest).run p) ∨
        ∃ t memory', OneMore p.refs t ∧
          ((jvm (libkipfs env)).createRequest shellRef cmd arg >>=
            (jvm (libkipfs env)).sendRequest).run p =
              refsAndMemory.overwrite (t, memory') ((Jni.request env shellRef cmd arg).run p)) := by
  refine ⟨fun command arg => ?_, fun cmd arg => ?_⟩
  · rw [KRequest_eq, KCreateRequest_KRequestSend_eq]
    exact ⟨keeps_once_bind env shellRef ignores_refs_sendReturn _ _ p,
      oneMore_bind ignores_refs_sendReturn (run_requestTwice env p shellRef _ _)⟩
  · -- both are exported functions, which do the same but for the memory
    have hdeliver : ∀ result, Ignores refs (Binding.jni.deliver "Request failed: " result) :=
      fun result => ignores_deliver _ result
    obtain ⟨m, honce⟩ := implements_request env shellRef cmd arg p
    obtain ⟨m', htwice⟩ := implements_createRequest_sendRequest env shellRef cmd arg p
    refine ⟨?_, ?_⟩
    · rw [honce]
      have hkeeps : Keeps Process.refs (cName
          (Plain.requestOnce env shellRef (Binding.jni.encode cmd)
            (arg.map Binding.jni.encode) >>= Binding.jni.deliver "Request failed: ")) :=
        keeps_cName fun p => keeps_once_bind env shellRef hdeliver _ _ p
      refine Eq.trans ?_ (hkeeps p)
      show (final (memory.overwrite m ((cName _).run p))).refs = _
      cases (cName _).run p <;> rfl
    · rcases oneMore_cName (oneMore_bind hdeliver
        (run_requestTwice env p shellRef (Binding.jni.encode cmd)
          (arg.map Binding.jni.encode))) with
        hout | ⟨t, hmore, hrun⟩
      · rw [htwice]
        exact .inl (hout.overwrite m')
      · refine .inr ⟨t, m', hmore, ?_⟩
        rw [htwice, honce]
        refine (congrArg (memory.overwrite m') hrun).trans ?_
        show memory.overwrite m' (refs.overwrite t ((cName _).run p)) =
          refsAndMemory.overwrite (t, m') (memory.overwrite m ((cName _).run p))
        cases (cName _).run p <;> rfl

end Kipfs
