import Kipfs.Foundation.Parts
import Kipfs.Kotlin.Objects
import Kipfs.Kotlin.Resources

/-!
# Marshalling

A binding copies strings and arrays into C blocks and JNI buffers, calls an export on them, and
reads the result back out of a block. `plain` is the same interface without all this: strings go to
Go as the binding encodes them, and what comes back is delivered as the binding delivers it. Every
function of a binding implements the one of `plain`, but for the memory (`marshals`), and so does
every run of calls on Kotlin objects (`marshalling_invisible`). The frames at the end hold for any
view of the process that takes no part in the references.
-/

namespace Kipfs

open Foundation Ipfsapi

/-- The C blocks and JNI buffers of the process. -/
def memory : Part Process (Ledger Block) where
  get := Process.memory
  put memory p := { p with memory }
  get_put _ _ := rfl
  put_get _ := rfl
  put_put _ _ _ := rfl

/-- The Go string that a Kotlin string arrives as. -/
def Binding.encode : Binding → KString → Bytes
  | .native, s => goString (cstr s)
  | .jni, s => goString (modifiedUtf8 s ++ [0])

/-- The Kotlin string that a Go string arrives as, when it is returned. -/
def Binding.decode : Binding → Bytes → KString
  | .native, text => toKString (text ++ [0])
  | .jni, text => decodeModified (goString (text ++ [0]))

/-- What an exception in a function of the binding comes to. -/
def Binding.call {α : Type} : Binding → Prog α → Prog α
  | .native, m => m
  | .jni, m => cName m

/-- An array of the given bytes, as the binding makes it. -/
def Binding.array : Binding → Bytes → Prog Bytes
  | .native, bytes => pure bytes
  | .jni, bytes => newByteArray bytes

/-- What the binding makes of the results of a Go method. The number of bytes goes through 32
bits. -/
def Binding.deliver (b : Binding) (label : String) : Bytes × Option GoError → Prog Bytes
  | (_, some err) => throwException (kstring label ++ toKString (err.text ++ [0]))
  | (data, none) =>
      if toInt32 data.length < 0 then throwException (kstring "NegativeArraySizeException")
      else b.array (data.take (toInt32 data.length).toNat)

namespace Plain

variable (env : Env) (b : Binding)

/-- Call a method of the builder behind a reference, and deliver its results. -/
def sending (label : String) (m : GoM (Bytes × Option GoError)) (refnum : Int) : Prog Bytes :=
  b.call do
    let rb ← assertBuilder (← borrow refnum)
    b.deliver label (← onBuilder rb m)

/-- Make a shell and its reference. -/
def enterShell (url : Bytes) : Prog Int := do
  let kShell ← newShell (Shell.NewShell url)
  createRef env ⟨.shell, kShell⟩

/-- Make a request of the shell behind a reference, and the reference of the request. -/
def enterRequest (shellRef : Int) (command : Bytes) (arg : Option Bytes) : Prog Int := do
  let kShell ← assertShell (← borrow shellRef)
  let rb ← newBuilder (kShell.NewRequest command)
  let refnum ← createRef env ⟨.requestBuilder, rb⟩
  match arg with
  | some arg => onBuilder rb (Shell.Argument arg)
  | none => pure ()
  pure refnum

/-- `createNativeShell`. -/
def createNativeShell (address : KString) : Prog Int := b.call (enterShell env (b.encode address))

/-- `createRequest`. -/
def createRequest (shellRef : Int) (command : KString) (arg : Option KString) : Prog Int :=
  b.call (enterRequest env shellRef (b.encode command) (arg.map b.encode))

/-- `requestOption`. -/
def requestOption (requestRefID : Int) (name value : KString) : Prog Unit := b.call do
  let rb ← assertBuilder (← borrow requestRefID)
  onBuilder rb (Shell.StringOptions (b.encode name) (b.encode value))

/-- `sendRequest`. -/
def sendRequest (requestRefID : Int) : Prog Bytes :=
  sending b "Request failed: " (Shell.Send env.out) requestRefID

/-- `postString`, which the JVM does not implement. -/
def postString (requestRefID : Int) (data : KString) : Prog Bytes :=
  match b with
  | .native => sending b "Request failed: " (Shell.PostString2 env.out (b.encode data)) requestRefID
  | .jni => throwException (kstring "An operation is not implemented: Not yet implemented")

/-- `postData`. -/
def postData (requestRefID : Int) (data : Bytes) : Prog Bytes :=
  sending b (match b with | .native => "Request failed: " | .jni => "PostData failed: ")
    (Shell.PostData2 env.out data) requestRefID

/-- `dagCID`. -/
def dagCID (json : KString) : Prog KString := b.call do
  match Cids.DagCid env.codecs (b.encode json) with
  | .error p => abort (.panic p)
  | .ok cid => pure (b.decode cid)

end Plain

/-- The interface without marshalling. -/
def plain (env : Env) (b : Binding) : KIPFSNative where
  createNativeShell := Plain.createNativeShell env b
  disposeGoObject := KDecRef
  createRequest := Plain.createRequest env b
  requestOption := Plain.requestOption b
  sendRequest := Plain.sendRequest env b
  postString := Plain.postString env b
  postData := Plain.postData env b
  getTime := pure (b.decode env.time)
  dagCID := Plain.dagCID env b

section Outcomes

variable {α : Type} {b : Binding} {p q : Process} {num : Numbering}

theorem run_call_ok {m : Prog α} {a : α} (h : m.run p = .ok a q) : (b.call m).run p = .ok a q := by
  cases b with
  | native => exact h
  | jni =>
      show (cName m).run p = _
      rw [run_cName, h]

theorem run_call_panic {m : Prog α} {x : GoPanic} (h : m.run p = .error (.panic x) q) :
    (b.call m).run p = .error (.panic x) q := by
  cases b with
  | native => exact h
  | jni =>
      show (cName m).run p = _
      rw [run_cName, h]

theorem OutOfNumbers.call {m : Prog α} (h : OutOfNumbers num (m.run p)) :
    OutOfNumbers num ((b.call m).run p) := by
  obtain ⟨q, hrun, hnext⟩ := h
  exact ⟨q, run_call_panic hrun, hnext⟩

/-- The numbers are not in the memory. -/
theorem OutOfNumbers.overwrite {result : EStateM.Result Abort Process α}
    (h : OutOfNumbers num result) (t : Ledger Block) :
    OutOfNumbers num (memory.overwrite t result) := by
  obtain ⟨q, rfl, hnext⟩ := h
  exact ⟨memory.put t q, rfl, hnext⟩

end Outcomes

/-! ## What ignores the memory -/

section Ignoring

variable {α : Type} {env : Env} {b : Binding}

theorem ignores_Inc (refnum : Int) : Ignores memory (Seq.Inc refnum) := by
  intro p t
  show Seq.Inc refnum { p with memory := t } = memory.overwrite t (Seq.Inc refnum p)
  unfold Seq.Inc
  cases p.refs.inc refnum <;> rfl

theorem ignores_Delete (refnum : Int) : Ignores memory (Seq.Delete refnum) := by
  intro p t
  show Seq.Delete refnum { p with memory := t } = memory.overwrite t (Seq.Delete refnum p)
  unfold Seq.Delete
  cases p.refs.delete refnum <;> rfl

theorem ignores_ToRefNum (num : Numbering) (obj : Iface) :
    Ignores memory (Seq.ToRefNum num obj) := by
  intro p t
  show Seq.ToRefNum num obj { p with memory := t } = memory.overwrite t (Seq.ToRefNum num obj p)
  unfold Seq.ToRefNum
  cases RefTable.toRefNum num obj p.refs <;> rfl

theorem ignores_borrow (refnum : Int) : Ignores memory (borrow refnum) :=
  ignores_bind (ignores_Inc refnum) fun _ =>
    ignores_get (fun _ _ => rfl) fun _ => ignores_bind (ignores_orAbort _ _) fun obj =>
      ignores_bind (ignores_Delete refnum) fun _ => ignores_pure obj

theorem ignores_createRef (env : Env) (obj : Iface) : Ignores memory (createRef env obj) :=
  ignores_bind (ignores_ToRefNum _ obj) fun refnum =>
    ignores_bind (ignores_Inc refnum) fun _ => ignores_pure refnum

theorem ignores_assertBuilder (obj : Iface) : Ignores memory (assertBuilder obj) := by
  unfold assertBuilder
  split
  · exact ignores_pure _
  · exact ignores_abort _

theorem ignores_assertShell (obj : Iface) : Ignores memory (assertShell obj) := by
  refine ignores_get (fun _ _ => rfl) fun p => ?_
  split
  · exact ignores_pure _
  · exact ignores_abort _

/-- What follows the borrowing of a builder. -/
theorem ignores_borrowing {f : Nat → Prog α} (refnum : Int) (hf : ∀ rb, Ignores memory (f rb)) :
    Ignores memory (borrow refnum >>= fun obj => assertBuilder obj >>= f) :=
  ignores_bind (ignores_borrow refnum) fun obj => ignores_bind (ignores_assertBuilder obj) hf

theorem ignores_onBuilder (ptr : Nat) (m : GoM α) : Ignores memory (onBuilder ptr m) :=
  ignores_zoom (fun _ _ => rfl) fun _ _ _ => rfl

theorem ignores_call {τ : Type} {part : Part Process τ} {m : Prog α} (h : Ignores part m) :
    Ignores part (b.call m) := by
  cases b with
  | native => exact h
  | jni =>
      intro p t
      show (cName m).run (part.put t p) = part.overwrite t ((cName m).run p)
      rw [run_cName, run_cName, h p t]
      cases m.run p with
      | ok a q => rfl
      | error a q => cases a <;> rfl

theorem ignores_array {τ : Type} {part : Part Process τ} (bytes : Bytes) :
    Ignores part (b.array bytes) := by
  cases b with
  | native => exact ignores_pure bytes
  | jni =>
      refine ignores_bind ?_ fun _ => ignores_pure bytes
      unfold addressOf
      split
      · exact ignores_pure ()
      · exact ignores_abort _

theorem ignores_deliver {τ : Type} {part : Part Process τ} (label : String)
    (result : Bytes × Option GoError) : Ignores part (b.deliver label result) := by
  rcases result with ⟨data, _ | err⟩
  · unfold Binding.deliver
    dsimp only
    split
    · exact ignores_abort _
    · exact ignores_array _
  · exact ignores_abort _

theorem ignores_sending (label : String) (m : GoM (Bytes × Option GoError)) (refnum : Int) :
    Ignores memory (Plain.sending b label m refnum) :=
  ignores_call (ignores_borrowing refnum fun rb =>
    ignores_bind (ignores_onBuilder rb m) fun result => ignores_deliver label result)

theorem ignores_enterShell (env : Env) (url : Bytes) : Ignores memory (Plain.enterShell env url) :=
  ignores_bind (fun _ _ => rfl) fun _ => ignores_createRef env _

theorem ignores_enterRequest (env : Env) (shellRef : Int) (command : Bytes) (arg : Option Bytes) :
    Ignores memory (Plain.enterRequest env shellRef command arg) := by
  refine ignores_bind (ignores_borrow shellRef) fun obj =>
    ignores_bind (ignores_assertShell obj) fun kShell => ignores_bind (fun _ _ => rfl) fun rb =>
      ignores_bind (ignores_createRef env _) fun refnum => ?_
  cases arg with
  | none => exact ignores_pure refnum
  | some arg => exact ignores_bind (ignores_onBuilder rb _) fun _ => ignores_pure refnum

theorem ignores_KRequestOption (refnum : Int) (name value : Bytes) :
    Ignores memory (KRequestOption refnum name value) :=
  ignores_borrowing refnum fun rb => ignores_onBuilder rb _

end Ignoring

/-! ## What the bindings implement -/

section Implementing

variable {α β : Type} {env : Env} {b : Binding}

theorem implements_call {m m' : Prog α} (h : Implements memory m m') :
    Implements memory (b.call m) (b.call m') := by
  cases b with
  | native => exact h
  | jni =>
      intro p
      obtain ⟨t, hrun⟩ := h p
      refine ⟨t, ?_⟩
      show (cName m).run p = memory.overwrite t ((cName m').run p)
      rw [run_cName, run_cName, hrun]
      cases m'.run p with
      | ok a q => rfl
      | error a q => cases a <;> rfl

/-- Reading a block by its length, which goes through 32 bits. -/
theorem run_readBytes_length {p : Process} {id : Nat} {data : Bytes}
    (hfind : p.memory.find id = some (.heap data)) :
    (readBytes id (toInt32 data.length)).run p =
      if toInt32 data.length < 0 then .error (.thrown (kstring "NegativeArraySizeException")) p
      else .ok (data.take (toInt32 data.length).toNat) p := by
  have hle := toInt32_length_le data
  have hroom : ¬ (data.length : Int) < toInt32 data.length := by omega
  rw [readBytes, EStateM.run_bind, run_heapBytes hfind]
  simp only [if_neg hroom]
  split <;> rfl

/-- What is read of a payload is made into an array, by either binding. -/
theorem implements_payload (label : String) (data : Bytes) (p : Process) :
    ((readBytes p.memory.next (toInt32 data.length) >>= b.array).run
        { p with memory := p.memory.add (.heap data) }) =
      memory.overwrite (p.memory.add (.heap data)) ((b.deliver label (data, none)).run p) := by
  rw [EStateM.run_bind, run_readBytes_length (Ledger.find_add_self _ _), Binding.deliver]
  by_cases hneg : toInt32 data.length < 0
  · simp only [if_pos hneg]
    rfl
  · simp only [if_neg hneg]
    have hignores : Ignores memory (b.array (data.take (toInt32 data.length).toNat)) :=
      ignores_array _
    exact hignores p _

/-- The native binding reads as many bytes as it is told, and frees a message. -/
theorem Native.implements_deliver (result : Bytes × Option GoError) :
    Implements memory (sendReturn result >>= Native.unpack)
      (Binding.native.deliver "Request failed: " result) := by
  intro p
  rcases result with ⟨data, _ | err⟩
  · have hrun : (sendReturn (data, none) >>= Native.unpack).run p =
        (readBytes p.memory.next (toInt32 data.length)).run
          { p with memory := p.memory.add (.heap data) } := rfl
    have harray := implements_payload (b := .native) "Request failed: " data p
    rw [show Binding.native.array = pure from rfl, bind_pure] at harray
    exact ⟨p.memory.add (.heap data), hrun.trans harray⟩
  · exact ⟨p.memory.skip, Native.run_unpack_error⟩

/-- The JNI binding does the same, and then makes a Java array. -/
theorem Jni.implements_deliver (label : String) (result : Bytes × Option GoError) :
    Implements memory (sendReturn result >>= Jni.unpack label)
      (Binding.jni.deliver label result) := by
  intro p
  rcases result with ⟨data, _ | err⟩
  · have hrun : (sendReturn (data, none) >>= Jni.unpack label).run p =
        (readBytes p.memory.next (toInt32 data.length) >>= Binding.jni.array).run
          { p with memory := p.memory.add (.heap data) } := rfl
    exact ⟨p.memory.add (.heap data), hrun.trans (implements_payload label data p)⟩
  · exact ⟨p.memory.skip, Jni.run_unpack_error label⟩

/-- A program on the characters of a string: they are in their buffer while it runs, and the buffer
can be released after it. -/
theorem implements_chars (s : KString) {f : Bytes → Prog α} (hf : ∀ chars, Ignores memory (f chars))
    {g g' : α → Prog β} (hg : ∀ a, Implements memory (g a) (g' a))
    (hg' : ∀ a, Ignores memory (g' a)) :
    Implements memory (do
      let id ← GetStringUTFChars s
      let a ← f (← charsAt id)
      ReleaseStringUTFChars id
      g a) (f (modifiedUtf8 s ++ [0]) >>= g') := by
  intro p
  have hread := hf (modifiedUtf8 s ++ [0]) p (p.memory.add (.chars (modifiedUtf8 s ++ [0])))
  simp only [memory] at hread
  simp only [EStateM.run_bind, run_GetStringUTFChars, run_charsAt_eq, Ledger.find_add_self, hread]
  cases (f (modifiedUtf8 s ++ [0])).run p with
  | error e q => exact ⟨_, rfl⟩
  | ok a q =>
      obtain ⟨t, hrun⟩ := hg a { q with memory := p.memory.skip }
      refine ⟨t, ?_⟩
      simp only [overwrite_ok, ReleaseStringUTFChars, EStateM.run_bind, run_charsAt_eq,
        Ledger.find_add_self, run_giveBack, Ledger.remove_add_self, hrun]
      exact (congrArg (memory.overwrite t) (hg' a q p.memory.skip)).trans
        (overwrite_overwrite _ _ _)

/-- A program on the characters of two strings. -/
theorem implements_chars₂ (s s' : KString) {f : Bytes → Bytes → Prog α}
    (hf : ∀ chars chars', Ignores memory (f chars chars'))
    {g g' : α → Prog β} (hg : ∀ a, Implements memory (g a) (g' a))
    (hg' : ∀ a, Ignores memory (g' a)) :
    Implements memory (do
      let id ← GetStringUTFChars s
      let id' ← GetStringUTFChars s'
      let a ← f (← charsAt id) (← charsAt id')
      ReleaseStringUTFChars id
      ReleaseStringUTFChars id'
      g a) (f (modifiedUtf8 s ++ [0]) (modifiedUtf8 s' ++ [0]) >>= g') := by
  intro p
  have hread := hf (modifiedUtf8 s ++ [0]) (modifiedUtf8 s' ++ [0]) p
    ((p.memory.add (.chars (modifiedUtf8 s ++ [0]))).add (.chars (modifiedUtf8 s' ++ [0])))
  simp only [memory] at hread
  have hfind : p.memory.next ≠ (p.memory.add (.chars (modifiedUtf8 s ++ [0]))).next := by simp
  simp only [EStateM.run_bind, run_GetStringUTFChars, run_charsAt_eq, Ledger.find_add_self,
    Ledger.find_add_of_ne _ _ hfind, hread]
  cases (f (modifiedUtf8 s ++ [0]) (modifiedUtf8 s' ++ [0])).run p with
  | error e q => exact ⟨_, rfl⟩
  | ok a q =>
      obtain ⟨t, hrun⟩ := hg a { q with memory := p.memory.skip.skip }
      refine ⟨t, ?_⟩
      simp [ReleaseStringUTFChars, hrun]
      exact (congrArg (memory.overwrite t) (hg' a q p.memory.skip.skip)).trans
        (overwrite_overwrite _ _ _)

/-- No function of the interface looks at the memory or changes it. -/
structure Memoryless (kipfs : KIPFSNative) : Prop where
  createNativeShell : ∀ address, Ignores memory (kipfs.createNativeShell address)
  disposeGoObject : ∀ ref, Ignores memory (kipfs.disposeGoObject ref)
  createRequest : ∀ shellRef command arg, Ignores memory (kipfs.createRequest shellRef command arg)
  requestOption : ∀ ref name value, Ignores memory (kipfs.requestOption ref name value)
  sendRequest : ∀ ref, Ignores memory (kipfs.sendRequest ref)
  postString : ∀ ref data, Ignores memory (kipfs.postString ref data)
  postData : ∀ ref data, Ignores memory (kipfs.postData ref data)
  getTime : Ignores memory kipfs.getTime
  dagCID : ∀ json, Ignores memory (kipfs.dagCID json)

theorem plain_memoryless (env : Env) (b : Binding) : Memoryless (plain env b) where
  createNativeShell address := ignores_call (ignores_enterShell env _)
  disposeGoObject ref := ignores_Delete ref
  createRequest shellRef command arg := ignores_call (ignores_enterRequest env shellRef _ _)
  requestOption ref name value :=
    ignores_call (ignores_borrowing ref fun rb => ignores_onBuilder rb _)
  sendRequest := ignores_sending _ _
  postString ref data := by
    cases b with
    | native => exact ignores_sending (b := .native) _ (Shell.PostString2 env.out _) ref
    | jni => exact ignores_abort _
  postData ref data := ignores_sending _ (Shell.PostData2 env.out data) ref
  getTime := ignores_pure _
  dagCID json := by
    refine ignores_call ?_
    cases Cids.DagCid env.codecs (b.encode json) with
    | error x => exact ignores_abort _
    | ok cid => exact ignores_pure _

/-- One interface does what the other does, but for the memory. -/
structure Marshals (kipfs kipfs' : KIPFSNative) : Prop where
  createNativeShell : ∀ address,
    Implements memory (kipfs.createNativeShell address) (kipfs'.createNativeShell address)
  disposeGoObject : ∀ ref,
    Implements memory (kipfs.disposeGoObject ref) (kipfs'.disposeGoObject ref)
  createRequest : ∀ shellRef command arg,
    Implements memory (kipfs.createRequest shellRef command arg)
      (kipfs'.createRequest shellRef command arg)
  requestOption : ∀ ref name value,
    Implements memory (kipfs.requestOption ref name value) (kipfs'.requestOption ref name value)
  sendRequest : ∀ ref, Implements memory (kipfs.sendRequest ref) (kipfs'.sendRequest ref)
  postString : ∀ ref data,
    Implements memory (kipfs.postString ref data) (kipfs'.postString ref data)
  postData : ∀ ref data, Implements memory (kipfs.postData ref data) (kipfs'.postData ref data)
  getTime : Implements memory kipfs.getTime kipfs'.getTime
  dagCID : ∀ json, Implements memory (kipfs.dagCID json) (kipfs'.dagCID json)

/-- What follows the borrowing of a builder. -/
theorem implements_borrowing {f f' : Nat → Prog α} (refnum : Int)
    (hf : ∀ rb, Implements memory (f rb) (f' rb)) (hf' : ∀ rb, Ignores memory (f' rb)) :
    Implements memory (borrow refnum >>= fun obj => assertBuilder obj >>= f)
      (borrow refnum >>= fun obj => assertBuilder obj >>= f') :=
  .bind (ignores_borrow refnum).implements
    (fun obj => .bind (ignores_assertBuilder obj).implements hf hf')
    fun obj => ignores_bind (ignores_assertBuilder obj) hf'

/-- A sending export, unpacked. -/
theorem implements_sending {unpack : SendReturn → Prog Bytes} {label : String} (refnum : Int)
    (m : GoM (Bytes × Option GoError))
    (hunpack : ∀ result,
      Implements memory (sendReturn result >>= unpack) (b.deliver label result)) :
    Implements memory ((borrow refnum >>= fun obj => assertBuilder obj >>= fun rb =>
        onBuilder rb m >>= sendReturn) >>= unpack)
      (borrow refnum >>= fun obj => assertBuilder obj >>= fun rb =>
        onBuilder rb m >>= b.deliver label) := by
  simp only [bind_assoc]
  refine implements_borrowing refnum (fun rb => ?_) fun rb => ?_
  · exact .bind (ignores_onBuilder rb m).implements hunpack fun result =>
      ignores_deliver label result
  · exact ignores_bind (ignores_onBuilder rb m) fun result => ignores_deliver label result

/-- A creating export returns a reference and no message. -/
theorem KCreateShell_eq_enterShell (env : Env) (url : Bytes) :
    KCreateShell env url =
      Plain.enterShell env (goString url) >>= fun refnum => pure ⟨refnum, none⟩ := by
  simp only [KCreateShell, Plain.enterShell, bind_assoc]

theorem KCreateRequest_eq_enterRequest (env : Env) (shellRef : Int) (command : Bytes)
    (arg : Option Bytes) :
    KCreateRequest env shellRef command arg =
      Plain.enterRequest env shellRef (goString command) (arg.map goString) >>=
        fun refnum => pure ⟨refnum, none⟩ := by
  simp only [KCreateRequest, Plain.enterRequest, bind_assoc]
  cases arg <;> simp

/-! ## The native binding -/

theorem native_createNativeShell (address : KString) :
    Native.createNativeShell (libkipfs env) address =
      Plain.createNativeShell env .native address := by
  simp only [Native.createNativeShell, libkipfs, KCreateShell_eq_enterShell, bind_assoc, pure_bind,
    throwIfError, bind_pure]
  rfl

theorem native_createRequest (shellRef : Int) (command : KString) (arg : Option KString) :
    Native.createRequest (libkipfs env) shellRef command arg =
      Plain.createRequest env .native shellRef command arg := by
  simp only [Native.createRequest, libkipfs, KCreateRequest_eq_enterRequest, bind_assoc, pure_bind,
    throwIfError, bind_pure, Option.map_map]
  rfl

/-- Natively, making a request involves no marshalling that could be left out. -/
theorem native_request (env : Env) (i : Nat) (ipfsAddress command : KString)
    (arg : Option KString) :
    KNativeShell.request (native (libkipfs env)) i ipfsAddress command arg =
      KNativeShell.request (plain env .native) i ipfsAddress command arg := by
  have hshell : (native (libkipfs env)).createNativeShell = (plain env .native).createNativeShell :=
    funext native_createNativeShell
  have hrequest : (native (libkipfs env)).createRequest = (plain env .native).createRequest :=
    funext fun ref => funext fun command => funext fun arg => native_createRequest ref command arg
  simp only [KNativeShell.request, KNativeShell.connect, hshell, hrequest]

/-- A C string that is copied is freed. -/
theorem implements_copied (text : Bytes) :
    Implements memory (CString text >>= fun cs => notNull cs >>= copyToKString)
      (pure (Binding.native.decode text)) := by
  intro p
  have hrun : (CString text >>= fun cs => notNull cs >>= copyToKString).run p =
      .ok (toKString (text ++ [0])) { p with memory := p.memory.skip } :=
    run_copyToKString (Ledger.find_add_self _ _) (Ledger.remove_add_self _ _)
  exact ⟨p.memory.skip, hrun⟩

/-- The native binding marshals. -/
theorem native_marshals (env : Env) : Marshals (native (libkipfs env)) (plain env .native) where
  createNativeShell address := by
    show Implements memory (Native.createNativeShell (libkipfs env) address) _
    rw [native_createNativeShell]
    exact ((plain_memoryless env .native).createNativeShell address).implements
  disposeGoObject ref := (ignores_Delete ref).implements
  createRequest shellRef command arg := by
    show Implements memory (Native.createRequest (libkipfs env) shellRef command arg) _
    rw [native_createRequest]
    exact ((plain_memoryless env .native).createRequest shellRef command arg).implements
  requestOption ref _ _ := (ignores_KRequestOption ref _ _).implements
  sendRequest ref := implements_sending ref (Shell.Send env.out) Native.implements_deliver
  postString ref data :=
    implements_sending ref (Shell.PostString2 env.out (goString (cstr data)))
      Native.implements_deliver
  postData ref data := by
    show Implements memory (KRequestPostBytes env ref data data.length >>= Native.unpack) _
    simp only [KRequestPostBytes, GoBytes_length, pure_bind]
    exact implements_sending ref (Shell.PostData2 env.out data) Native.implements_deliver
  getTime := implements_copied env.time
  dagCID json := by
    show Implements memory (KCID env (cstr json) >>= fun cs => notNull cs >>= copyToKString)
      (match Cids.DagCid env.codecs (goString (cstr json)) with
        | .error x => abort (.panic x)
        | .ok cid => pure (Binding.native.decode cid))
    rw [KCID]
    cases Cids.DagCid env.codecs (goString (cstr json)) with
    | error x => exact (ignores_abort _).implements
    | ok cid => exact implements_copied cid

/-! ## The JNI binding -/

/-- The Java string of a C string, which is not freed. -/
theorem implements_NewStringUTF (text : Bytes) :
    Implements memory (CString text >>= fun cs => notNull cs >>= NewStringUTF)
      (pure (Binding.jni.decode text)) := by
  intro p
  refine ⟨p.memory.add (.heap (text ++ [0])), ?_⟩
  simp [notNull, NewStringUTF, Binding.decode, memory]

/-- An exported function whose body never throws. -/
theorem jni_disposeGoObject (ref : Int) : Jni.disposeGoObject (libkipfs env) ref = KDecRef ref := by
  refine eq_of_run fun p => ?_
  show (cName (KDecRef ref)).run p = _
  rw [run_cName]
  simp only [EStateM.run, KDecRef, Seq.Delete]
  cases p.refs.delete ref <;> rfl

theorem jni_createNativeShell (address : KString) :
    Implements memory (Jni.createNativeShell (libkipfs env) address)
      (Plain.createNativeShell env .jni address) := by
  refine implements_call (b := .jni) ?_
  simp only [libkipfs, KCreateShell_eq_enterShell, bind_assoc, pure_bind, ne_eq, not_true_eq_false,
    if_false]
  have hchars := implements_chars address
    (f := fun chars => Plain.enterShell env (goString chars)) (fun _ => ignores_enterShell env _)
    (fun refnum => (ignores_pure refnum).implements) ignores_pure
  rw [bind_pure] at hchars
  exact hchars

/-- A request is created from the characters of its command, and from those of its argument if it
has one. -/
theorem jni_createRequest (shellRef : Int) (command : KString) (arg : Option KString) :
    Implements memory (Jni.createRequest (libkipfs env) shellRef command arg)
      (Plain.createRequest env .jni shellRef command arg) := by
  refine implements_call (b := .jni) ?_
  simp only [libkipfs, KCreateRequest_eq_enterRequest, bind_assoc, pure_bind, throwIfError]
  cases arg with
  | none =>
      have hchars := implements_chars command
        (f := fun chars => Plain.enterRequest env shellRef (goString chars) none)
        (fun _ => ignores_enterRequest env shellRef _ _)
        (fun refnum => (ignores_pure refnum).implements) ignores_pure
      rw [bind_pure] at hchars
      exact hchars
  | some arg =>
      have hchars := implements_chars₂ command arg
        (f := fun chars chars' =>
          Plain.enterRequest env shellRef (goString chars) (some (goString chars')))
        (fun _ _ => ignores_enterRequest env shellRef _ _)
        (fun refnum => (ignores_pure refnum).implements) ignores_pure
      rw [bind_pure] at hchars
      exact hchars

/-- The elements of an array are in their buffer while a program runs on them. -/
theorem implements_elements (data : Bytes) {f : Bytes → Prog α} {m : Prog α}
    (hf : Implements memory (f data) m) (hm : Ignores memory m) :
    Implements memory (do
      let id ← GetByteArrayElements data
      f (← elementsAt id)) m := by
  intro p
  obtain ⟨t, hrun⟩ := hf { p with memory := p.memory.add (.elements data) }
  refine ⟨t, ?_⟩
  rw [EStateM.run_bind, run_GetByteArrayElements]
  dsimp only
  rw [EStateM.run_bind, run_elementsAt (Ledger.find_add_self _ _)]
  dsimp only
  rw [hrun]
  exact (congrArg (memory.overwrite t) (hm p _)).trans (overwrite_overwrite _ _ _)

/-- The identifier comes back in a C string, which the characters of the text have no part in. -/
theorem jni_dagCID (json : KString) :
    Implements memory (do
      let jsonC ← GetStringUTFChars json
      let s ← notNull (← KCID env (← charsAt jsonC))
      ReleaseStringUTFChars jsonC
      NewStringUTF s)
      (match Cids.DagCid env.codecs (Binding.jni.encode json) with
        | .error x => abort (.panic x)
        | .ok cid => pure (Binding.jni.decode cid)) := by
  intro p
  cases hcid : Cids.DagCid env.codecs (Binding.jni.encode json) with
  | error x =>
      have hexport : KCID env (modifiedUtf8 json ++ [0]) = abort (.panic x) := by
        rw [KCID, show Cids.DagCid env.codecs (goString (modifiedUtf8 json ++ [0])) = _ from hcid]
      refine ⟨p.memory.add (.chars (modifiedUtf8 json ++ [0])), ?_⟩
      simp [hexport]
      rfl
  | ok cid =>
      have hexport : KCID env (modifiedUtf8 json ++ [0]) = CString cid := by
        rw [KCID, show Cids.DagCid env.codecs (goString (modifiedUtf8 json ++ [0])) = _ from hcid]
      refine ⟨p.memory.skip.add (.heap (cid ++ [0])), ?_⟩
      simp [hexport, notNull, ReleaseStringUTFChars, NewStringUTF, Binding.decode, memory]

/-- The JNI binding marshals. -/
theorem jvm_marshals (env : Env) : Marshals (jvm (libkipfs env)) (plain env .jni) where
  createNativeShell := jni_createNativeShell
  disposeGoObject ref := by
    show Implements memory (Jni.disposeGoObject (libkipfs env) ref) _
    rw [jni_disposeGoObject]
    exact (ignores_Delete ref).implements
  createRequest := jni_createRequest
  requestOption ref name value := implements_call (b := .jni) <| by
    have hchars := implements_chars₂ name value (ignores_KRequestOption ref)
      (fun a : Unit => (ignores_pure ()).implements) fun _ => ignores_pure ()
    simp only [bind_pure_unit] at hchars
    exact hchars
  sendRequest ref := implements_call (b := .jni) <|
    implements_sending ref (Shell.Send env.out) (Jni.implements_deliver _)
  postString ref data := (ignores_abort _).implements
  postData ref data := implements_call (b := .jni) <| by
    refine implements_elements data
      (f := fun bytes => KRequestPostBytes env ref bytes data.length >>=
        Jni.unpack "PostData failed: ")
      ?_ ?_
    · simp only [KRequestPostBytes, GoBytes_length, pure_bind]
      exact implements_sending ref (Shell.PostData2 env.out data) (Jni.implements_deliver _)
    · exact ignores_borrowing ref fun rb => ignores_bind (ignores_onBuilder rb _) fun result =>
        ignores_deliver _ result
  getTime := implements_call (b := .jni) (implements_NewStringUTF env.time)
  dagCID json := implements_call (b := .jni) (jni_dagCID json)

end Implementing

/-- Both bindings do, in every state, what their interface says without marshalling. -/
theorem marshals (env : Env) (b : Binding) :
    Marshals (b.over (libkipfs env)) (plain env b) := by
  cases b with
  | native => exact native_marshals env
  | jni => exact jvm_marshals env

/-! ## Calls on objects -/

section Calls

variable {kipfs kipfs' : KIPFSNative} {p : Process} {i : Nat}

/-- One program implements the other, which ignores the memory. -/
structure Marshalled {α : Type} (m m' : Prog α) : Prop where
  implements : Implements memory m m'
  ignores : Ignores memory m'

theorem marshalled_self {α : Type} {m : Prog α} (h : Ignores memory m) : Marshalled m m :=
  ⟨h.implements, h⟩

theorem Marshalled.bind {α β : Type} {m m' : Prog α} {f f' : α → Prog β} (hm : Marshalled m m')
    (hf : ∀ a, Marshalled (f a) (f' a)) : Marshalled (m >>= f) (m' >>= f') :=
  ⟨hm.implements.bind (fun a => (hf a).implements) fun a => (hf a).ignores,
    ignores_bind hm.ignores fun a => (hf a).ignores⟩

theorem Marshalled.discard {α : Type} {m m' : Prog α} (h : Marshalled m m') :
    Marshalled (discard m) (discard m') := ⟨h.implements.discard, h.ignores.discard⟩

theorem marshalled_getRef (i : Nat) :
    Marshalled (KNativeObject.getRef i) (KNativeObject.getRef i) :=
  marshalled_self (ignores_get (fun _ _ => rfl) fun _ => ignores_pure _)

theorem marshalled_setRef (i : Nat) (ref : Int) :
    Marshalled (KNativeObject.setRef i ref) (KNativeObject.setRef i ref) :=
  marshalled_self (ignores_modify fun _ _ => rfl)

theorem marshalled_new (cls : ObjectClass) (ref : Int) :
    Marshalled (KNativeObject.new cls ref) (KNativeObject.new cls ref) :=
  marshalled_self (ignores_modify fun _ _ => rfl)

variable (hmarshals : Marshals kipfs kipfs') (hplain : Memoryless kipfs')
include hmarshals hplain

theorem marshalled_close (i : Nat) :
    Marshalled (KNativeObject.close kipfs i) (KNativeObject.close kipfs' i) := by
  refine (marshalled_getRef i).bind fun ref => ?_
  split
  · refine (marshalled_getRef i).bind fun ref => Marshalled.bind ?_ fun _ => marshalled_setRef i 0
    exact ⟨hmarshals.disposeGoObject ref, hplain.disposeGoObject ref⟩
  · exact marshalled_self (ignores_pure ())

theorem marshalled_connect (i : Nat) (ipfsAddress : KString) :
    Marshalled (KNativeShell.connect kipfs i ipfsAddress)
      (KNativeShell.connect kipfs' i ipfsAddress) := by
  refine (marshalled_getRef i).bind fun ref => ?_
  split
  · exact marshalled_self (ignores_pure ())
  · refine Marshalled.bind ?_ fun ref => marshalled_setRef i ref
    exact ⟨hmarshals.createNativeShell ipfsAddress, hplain.createNativeShell ipfsAddress⟩

theorem marshalled_request (i : Nat) (ipfsAddress command : KString) (arg : Option KString) :
    Marshalled (KNativeShell.request kipfs i ipfsAddress command arg)
      (KNativeShell.request kipfs' i ipfsAddress command arg) := by
  refine (marshalled_connect hmarshals hplain i ipfsAddress).bind fun _ =>
    (marshalled_getRef i).bind fun ref => Marshalled.bind ?_ fun ref => marshalled_new .request ref
  exact ⟨hmarshals.createRequest ref command arg, hplain.createRequest ref command arg⟩

/-- The program of a call, when both interfaces have one. -/
def BothMarshalled : Option (Prog Unit) → Option (Prog Unit) → Prop
  | some m, some m' => Marshalled m m'
  | none, none => True
  | _, _ => False

omit hmarshals hplain in
theorem marshalled_onRequest {m m' : Prog Unit} (h : Marshalled m m') :
    BothMarshalled (Call.program.onRequest p i m) (Call.program.onRequest p i m') := by
  unfold Call.program.onRequest
  split
  · exact h
  · trivial

/-- Every call is made of the functions of the interface and of what is done with the fields. -/
theorem marshalled_program (p : Process) (call : Call) :
    BothMarshalled (call.program kipfs p) (call.program kipfs' p) := by
  cases call with
  | createShell ipfsAddress => exact marshalled_new _ 0
  | connect i =>
      simp only [Call.program]
      split
      · exact marshalled_connect hmarshals hplain i _
      · trivial
  | request i command arg =>
      simp only [Call.program]
      split
      · exact marshalled_request hmarshals hplain i _ command arg
      · trivial
  | close i =>
      simp only [Call.program]
      cases p.objects[i]? with
      | none => trivial
      | some o => exact marshalled_close hmarshals hplain i
  | finalize i =>
      simp only [Call.program]
      cases p.objects[i]? with
      | none => trivial
      | some o => exact marshalled_close hmarshals hplain i
  | option i name value =>
      refine marshalled_onRequest ((marshalled_getRef i).bind fun ref => ?_)
      exact ⟨hmarshals.requestOption ref name value, hplain.requestOption ref name value⟩
  | send i =>
      refine marshalled_onRequest (((marshalled_getRef i).bind fun ref => ?_).discard)
      exact ⟨hmarshals.sendRequest ref, hplain.sendRequest ref⟩
  | postString i data fileName =>
      refine marshalled_onRequest (((marshalled_getRef i).bind fun ref => ?_).discard)
      exact ⟨hmarshals.postString ref data, hplain.postString ref data⟩
  | postData i data =>
      refine marshalled_onRequest (((marshalled_getRef i).bind fun ref => ?_).discard)
      exact ⟨hmarshals.postData ref data, hplain.postData ref data⟩

/-- One call, made with any memory. -/
theorem step_marshals (p : Process) (call : Call) (t : Ledger Block) :
    ∃ t', step kipfs (memory.put t p) call = (step kipfs' p call).map (memory.put t') := by
  have hsame : call.program kipfs (memory.put t p) = call.program kipfs p := by cases call <;> rfl
  have hboth := marshalled_program hmarshals hplain p call
  unfold step
  rw [hsame]
  cases hprogram : call.program kipfs p with
  | none =>
      cases hprogram' : call.program kipfs' p with
      | none => exact ⟨t, rfl⟩
      | some m' =>
          rw [hprogram, hprogram'] at hboth
          cases hboth
  | some m =>
      cases hprogram' : call.program kipfs' p with
      | none =>
          rw [hprogram, hprogram'] at hboth
          cases hboth
      | some m' =>
          rw [hprogram, hprogram'] at hboth
          obtain ⟨t', hrun⟩ := hboth.implements (memory.put t p)
          refine ⟨t', ?_⟩
          show survivor (m.run (memory.put t p)) = (survivor (m'.run p)).map (memory.put t')
          rw [hrun, hboth.ignores p t, overwrite_overwrite]
          cases m'.run p with
          | ok a q => rfl
          | error a q => cases a <;> rfl

/-- A run of calls, started with any memory. -/
theorem run_marshals_of (calls : List Call) (p : Process) (t : Ledger Block) :
    ∃ t', run (step kipfs) (memory.put t p) calls =
      (run (step kipfs') p calls).map (memory.put t') := by
  induction calls generalizing p t with
  | nil => exact ⟨t, rfl⟩
  | cons call calls ih =>
      obtain ⟨t', hstep⟩ := step_marshals hmarshals hplain p call t
      rw [run_cons, run_cons, hstep]
      cases step kipfs' p call with
      | none => exact ⟨t, rfl⟩
      | some q => exact ih q t'

end Calls

/-! ## Frames -/

section Frames

variable {τ : Type} {view : Process → τ} {b : Binding}

theorem keeps_call {α : Type} {m : Prog α} (h : Keeps view m) : Keeps view (b.call m) := by
  cases b with
  | native => exact h
  | jni => exact keeps_cName h

/-- Delivering results changes nothing. -/
theorem keeps_deliver (label : String) (result : Bytes × Option GoError) :
    Keeps view (b.deliver label result) := by
  rcases result with ⟨data, _ | err⟩
  · unfold Binding.deliver
    dsimp only
    split
    · exact keeps_abort _
    · cases b with
      | native => exact keeps_pure _
      | jni => exact keeps_newByteArray _
  · exact keeps_abort _

theorem KNativeObject.keeps_close (htable : Tableless view)
    (hfield : ∀ (p : Process) i ref, view (p.withRef i ref) = view p) (env : Env) (i : Nat) :
    Keeps view (KNativeObject.close (plain env b) i) := by
  refine keeps_bind (keeps_getRef i) fun ref => ?_
  split
  · exact keeps_bind (keeps_getRef i) fun ref => keeps_bind (keeps_Delete htable ref) fun _ p =>
      hfield p i 0
  · exact keeps_pure ()

variable (htable : Tableless view) (hheap : Heapless view)
include htable hheap

theorem keeps_enterShell (env : Env) (url : Bytes) : Keeps view (Plain.enterShell env url) :=
  keeps_bind (fun p => hheap p _ _ _) fun _ => keeps_createRef htable env _

theorem keeps_enterRequest (env : Env) (shellRef : Int) (command : Bytes) (arg : Option Bytes) :
    Keeps view (Plain.enterRequest env shellRef command arg) := by
  refine keeps_bind (keeps_borrow shellRef) fun obj => keeps_bind (keeps_assertShell obj) fun _ =>
    keeps_bind (fun p => hheap p _ _ _) fun rb =>
      keeps_bind (keeps_createRef htable env _) fun _ => ?_
  cases arg with
  | none => exact keeps_pure _
  | some arg => exact keeps_bind (fun p => hheap p _ _ _) fun _ => keeps_pure _

variable (hfield : ∀ (p : Process) i ref, view (p.withRef i ref) = view p)
include hfield

theorem KNativeShell.keeps_connect (env : Env) (i : Nat) (ipfsAddress : KString) :
    Keeps view (KNativeShell.connect (plain env b) i ipfsAddress) := by
  refine keeps_bind (keeps_getRef i) fun ref => ?_
  split
  · exact keeps_pure ()
  · exact keeps_bind (keeps_call (keeps_enterShell htable hheap env _)) fun ref p => hfield p i ref

theorem KNativeShell.keeps_request
    (hnew : ∀ (p : Process) ref, view (p.withObject ⟨.request, ref⟩) = view p) (env : Env) (i : Nat)
    (ipfsAddress command : KString) (arg : Option KString) :
    Keeps view (KNativeShell.request (plain env b) i ipfsAddress command arg) :=
  keeps_bind (KNativeShell.keeps_connect htable hheap hfield env i ipfsAddress) fun _ =>
    keeps_bind (keeps_getRef i) fun ref =>
      keeps_bind (keeps_call (keeps_enterRequest htable hheap env ref _ _)) fun ref p => hnew p ref

end Frames

end Kipfs
