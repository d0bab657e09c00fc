import Kipfs.Kotlin.Native

/-!
# The JNI binding

`JNIImpl.kt` and `requests.kt`: the functions exported to Java under their C names, and
`KIPFSJvmLib`, which calls them from the JVM. The characters of a Java string come as modified
UTF-8 in a buffer that has to be released, and so do the elements of a byte array. An exception
that leaves an exported function has no Kotlin caller and ends the process (`cName`).
-/

namespace Kipfs

open Foundation

/-- A function with a `@CName`, called from outside Kotlin. -/
def cName {α : Type} (m : Prog α) : Prog α := fun p =>
  match m.run p with
  | .error (.thrown _) p' => .error .terminated p'
  | result => result

@[simp] theorem run_cName {α : Type} (m : Prog α) (p : Process) :
    (cName m).run p =
      match m.run p with
      | .error (.thrown _) p' => .error .terminated p'
      | result => result := rfl

/-- `GetStringUTFChars`. -/
def GetStringUTFChars (s : KString) : Prog Nat := allocate (.chars (modifiedUtf8 s ++ [0]))

/-- The characters at an address, for a C function that reads them. -/
def charsAt (id : Nat) : Prog Bytes := do
  match ← resource id with
  | .chars bytes => pure bytes
  | _ => abort .memoryFault

/-- `ReleaseStringUTFChars`. -/
def ReleaseStringUTFChars (id : Nat) : Prog Unit := do
  let _ ← charsAt id
  giveBack id

/-- `GetByteArrayElements`. -/
def GetByteArrayElements (data : Bytes) : Prog Nat := allocate (.elements data)

/-- The elements at an address, for a C function that reads them. -/
def elementsAt (id : Nat) : Prog Bytes := do
  match ← resource id with
  | .elements bytes => pure bytes
  | _ => abort .memoryFault

/-- `NewStringUTF`: the Java string of a C string in modified UTF-8. -/
def NewStringUTF (id : Nat) : Prog KString := do
  let memory ← heapBytes id
  pure (decodeModified (goString memory))

/-- `pinned.addressOf(index)`. -/
def addressOf (bytes : Bytes) (index : Nat) : Prog Unit :=
  if index < bytes.length then pure ()
  else throwException (kstring "ArrayIndexOutOfBoundsException")

/-- `NewByteArray`, then `SetByteArrayRegion` with the pinned bytes. -/
def newByteArray (bytes : Bytes) : Prog Bytes := do
  addressOf bytes 0
  pure bytes

namespace Jni

variable (kipfsgo : Kipfsgo)

/-- `Java_kipfs_golib_jni_JNI_getTime`. -/
def getTime : Prog KString := cName do
  NewStringUTF (← notNull (← kipfsgo.GetTime))

/-- `Java_kipfs_golib_jni_JNI_disposeGoObject`. -/
def disposeGoObject (refnum : Int) : Prog Unit := cName (kipfsgo.KDecRef refnum)

/-- `Java_kipfs_golib_jni_JNI_dagCID`. -/
def dagCID (json : KString) : Prog KString := cName do
  let jsonC ← GetStringUTFChars json
  let s ← notNull (← kipfsgo.KCID (← charsAt jsonC))
  ReleaseStringUTFChars jsonC
  NewStringUTF s

/-- `Java_kipfs_golib_jni_JNI_createNativeShell`. -/
def createNativeShell (address : KString) : Prog Int := cName do
  let addrC ← GetStringUTFChars address
  let s ← kipfsgo.KCreateShell (← charsAt addrC)
  ReleaseStringUTFChars addrC
  if s.r1 ≠ none then pure (-1) else pure s.r0

/-- How `sendRequest` and `postData` turn a result into a Java array. -/
def unpack (label : String) (r : SendReturn) : Prog Bytes := do
  throwIfError label r.r2
  let data ← notNull r.r0
  newByteArray (← readBytes data (toInt32 r.r1))

/-- `Java_kipfs_golib_jni_JNI_sendRequest`. -/
def sendRequest (requestRefID : Int) : Prog Bytes := cName do
  unpack "Request failed: " (← kipfsgo.KRequestSend requestRefID)

/-- `Java_kipfs_golib_jni_JNI_requestOption`. -/
def requestOption (requestRefID : Int) (jName jValue : KString) : Prog Unit := cName do
  let cName ← GetStringUTFChars jName
  let cValue ← GetStringUTFChars jValue
  kipfsgo.KRequestOption requestRefID (← charsAt cName) (← charsAt cValue)
  ReleaseStringUTFChars cName
  ReleaseStringUTFChars cValue

/-- `Java_kipfs_golib_jni_JNI_postData`. The elements are not released. -/
def postData (requestRefID : Int) (jData : Bytes) : Prog Bytes := cName do
  let cData ← GetByteArrayElements jData
  let r ← kipfsgo.KRequestPostBytes requestRefID (← elementsAt cData) jData.length
  unpack "PostData failed: " r

/-- `Java_kipfs_golib_jni_JNI_createRequest`. -/
def createRequest (shellRefId : Int) (jCommand : KString) (jArg : Option KString) : Prog Int :=
  cName do
    let cCommand ← GetStringUTFChars jCommand
    match jArg with
    | none => do
        let r ← kipfsgo.KCreateRequest shellRefId (← charsAt cCommand) none
        ReleaseStringUTFChars cCommand
        throwIfError "CreateRequest failed: " r.r1
        pure r.r0
    | some jArg => do
        let cArg ← GetStringUTFChars jArg
        let r ← kipfsgo.KCreateRequest shellRefId (← charsAt cCommand) (some (← charsAt cArg))
        ReleaseStringUTFChars cCommand
        ReleaseStringUTFChars cArg
        throwIfError "CreateRequest failed: " r.r1
        pure r.r0

end Jni

/-- `KIPFSJvmLib`, the object `initKIPFSLib` returns on the JVM. -/
def jvm (kipfsgo : Kipfsgo) : KIPFSNative where
  createNativeShell := Jni.createNativeShell kipfsgo
  disposeGoObject := Jni.disposeGoObject kipfsgo
  createRequest := Jni.createRequest kipfsgo
  requestOption := Jni.requestOption kipfsgo
  sendRequest := Jni.sendRequest kipfsgo
  postString _ _ := throwException (kstring "An operation is not implemented: Not yet implemented")
  postData := Jni.postData kipfsgo
  getTime := Jni.getTime kipfsgo
  dagCID := Jni.dagCID kipfsgo

/-! ## Runs and frames of the helpers -/

section Helpers

variable {p : Process} {id : Nat} {bytes : Bytes} {memory : Ledger Block}

@[simp] theorem run_GetStringUTFChars (s : KString) :
    (GetStringUTFChars s).run p =
      .ok p.memory.next { p with memory := p.memory.add (.chars (modifiedUtf8 s ++ [0])) } := rfl

@[simp] theorem run_GetByteArrayElements (data : Bytes) :
    (GetByteArrayElements data).run p =
      .ok p.memory.next { p with memory := p.memory.add (.elements data) } := rfl

/-- Whatever is read, it is the characters of a string or a fault. -/
@[simp] theorem run_charsAt_eq (id : Nat) :
    (charsAt id).run p =
      match p.memory.find id with
      | some (.chars bytes) => .ok bytes p
      | _ => .error .memoryFault p := by
  cases hfind : p.memory.find id with
  | none => simp [charsAt, resource, hfind, orAbort]
  | some block => cases block <;> simp [charsAt, resource, hfind]

/-- Reading the elements of a Java byte array. -/
theorem run_elementsAt (h : p.memory.find id = some (.elements bytes)) :
    (elementsAt id).run p = .ok bytes p := by
  rw [elementsAt, EStateM.run_bind, run_resource h]
  rfl

variable {τ α : Type} {view : Process → τ}

theorem keeps_GetStringUTFChars (h : Blind view) (s : KString) :
    Keeps view (GetStringUTFChars s) := keeps_allocate h _

theorem keeps_charsAt (id : Nat) : Keeps view (charsAt id) := by
  refine keeps_bind (keeps_resource id) fun block => ?_
  cases block with
  | heap bytes => exact keeps_abort _
  | chars bytes => exact keeps_pure bytes
  | elements bytes => exact keeps_abort _

theorem keeps_elementsAt (id : Nat) : Keeps view (elementsAt id) := by
  refine keeps_bind (keeps_resource id) fun block => ?_
  cases block with
  | heap bytes => exact keeps_abort _
  | chars bytes => exact keeps_abort _
  | elements bytes => exact keeps_pure bytes

theorem keeps_ReleaseStringUTFChars (h : Blind view) (id : Nat) :
    Keeps view (ReleaseStringUTFChars id) :=
  keeps_bind (keeps_charsAt id) fun _ => keeps_giveBack h id

theorem keeps_newByteArray (bytes : Bytes) : Keeps view (newByteArray bytes) := by
  refine keeps_bind ?_ fun _ => keeps_pure bytes
  unfold addressOf
  split
  · exact keeps_pure ()
  · exact keeps_abort _

/-- An exported function keeps what its body keeps. -/
theorem keeps_cName {m : Prog α} (h : Keeps view m) : Keeps view (cName m) := by
  intro p
  have hbody := h p
  show view (final (cName m p)) = view p
  unfold cName
  split
  · rename_i hrun
    rwa [hrun] at hbody
  · exact hbody

theorem Jni.keeps_unpack (h : Blind view) (label : String) (r : SendReturn) :
    Keeps view (Jni.unpack label r) :=
  keeps_bind (keeps_throwIfError h _ _) fun _ =>
    keeps_bind (keeps_notNull _) fun _ =>
      keeps_bind (keeps_readBytes _ _) fun _ => keeps_newByteArray _

end Helpers

end Kipfs
