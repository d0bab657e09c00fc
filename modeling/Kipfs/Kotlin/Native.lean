import Kipfs.Go.Exports

/-!
# The native binding

`KIPFSNativeImpl.kt`. `KIPFSNative` is the interface that the Kotlin objects are written against;
`native` implements it over the exports. A pointer that an export returns is read through
`copyToKString`, which frees it, or through `readBytes`, which does not.
-/

namespace Kipfs

open Foundation

/-- The interface `KIPFSNative`, with the two functions of `KIPFS` that call into Go. -/
structure KIPFSNative where
  createNativeShell : KString → Prog Int
  disposeGoObject : Int → Prog Unit
  createRequest : Int → KString → Option KString → Prog Int
  requestOption : Int → KString → KString → Prog Unit
  sendRequest : Int → Prog Bytes
  postString : Int → KString → Prog Bytes
  postData : Int → Bytes → Prog Bytes
  getTime : Prog KString
  dagCID : KString → Prog KString

/-- A Kotlin string literal. -/
def kstring (s : String) : KString := encodeUtf16 s.toList

/-- `throw Exception(message)`. -/
def throwException {α : Type} (message : KString) : Prog α := abort (.thrown message)

/-- `x!!`. -/
def notNull : CPtr → Prog Nat := orAbort (.thrown (kstring "NullPointerException"))

/-- `String.cstr` and `String.utf8`: NUL-terminated UTF-8. -/
def cstr (s : KString) : Bytes := utf8 s ++ [0]

/-- `toKString`. -/
def toKString (memory : Bytes) : KString := encodeUtf16 (decodeUtf8 (goString memory))

/-- `copyToKString`: read the C string, then free it. -/
def copyToKString (id : Nat) : Prog KString := do
  let memory ← heapBytes id
  free id
  pure (toKString memory)

/-- `r?.copyToKString()?.also { throw Exception("label$it") }`. -/
def throwIfError (label : String) : CPtr → Prog Unit
  | none => pure ()
  | some id => do
      let message ← copyToKString id
      throwException (kstring label ++ message)

/-- `p.readBytes(count)`. -/
def readBytes (id : Nat) (count : Int) : Prog Bytes := do
  let memory ← heapBytes id
  if count < 0 then throwException (kstring "NegativeArraySizeException")
  else if memory.length < count then abort .memoryFault
  else pure (memory.take count.toNat)

namespace Native

variable (kipfsgo : Kipfsgo)

/-- `createNativeShell`. -/
def createNativeShell (address : KString) : Prog Int := do
  let r ← kipfsgo.KCreateShell (cstr address)
  throwIfError "" r.r1
  pure r.r0

/-- `createRequest`. -/
def createRequest (shellRef : Int) (command : KString) (arg : Option KString) : Prog Int := do
  let r ← kipfsgo.KCreateRequest shellRef (cstr command) (arg.map cstr)
  throwIfError "Create request failed: " r.r1
  pure r.r0

/-- `requestOption`. -/
def requestOption (requestRefID : Int) (name value : KString) : Prog Unit :=
  kipfsgo.KRequestOption requestRefID (cstr name) (cstr value)

/-- How the three sending functions unpack the result of their export. -/
def unpack (r : SendReturn) : Prog Bytes := do
  throwIfError "Request failed: " r.r2
  let data ← notNull r.r0
  readBytes data (toInt32 r.r1)

/-- `sendRequest`. -/
def sendRequest (requestRefID : Int) : Prog Bytes := do
  unpack (← kipfsgo.KRequestSend requestRefID)

/-- `postString`. -/
def postString (requestRefID : Int) (data : KString) : Prog Bytes := do
  unpack (← kipfsgo.KRequestPostString requestRefID (cstr data))

/-- `postData`. -/
def postData (requestRefID : Int) (data : Bytes) : Prog Bytes := do
  unpack (← kipfsgo.KRequestPostBytes requestRefID data data.length)

/-- `getTime`. -/
def getTime : Prog KString := do
  copyToKString (← notNull (← kipfsgo.GetTime))

/-- `dagCID`. -/
def dagCID (json : KString) : Prog KString := do
  copyToKString (← notNull (← kipfsgo.KCID (cstr json)))

end Native

/-- The object `initKIPFSLib` returns on a native target. -/
def native (kipfsgo : Kipfsgo) : KIPFSNative where
  createNativeShell := Native.createNativeShell kipfsgo
  disposeGoObject := kipfsgo.KDecRef
  createRequest := Native.createRequest kipfsgo
  requestOption := Native.requestOption kipfsgo
  sendRequest := Native.sendRequest kipfsgo
  postString := Native.postString kipfsgo
  postData := Native.postData kipfsgo
  getTime := Native.getTime kipfsgo
  dagCID := Native.dagCID kipfsgo

/-! ## Runs and frames of the helpers -/

section Helpers

variable {p : Process} {id : Nat}

/-- Reading a C string frees it. -/
theorem run_copyToKString {bytes : Bytes} {memory : Ledger Block}
    (hfind : p.memory.find id = some (.heap bytes)) (hremove : p.memory.remove id = some memory) :
    (copyToKString id).run p = .ok (toKString bytes) { p with memory } := by
  rw [copyToKString, EStateM.run_bind, run_heapBytes hfind]
  dsimp only
  rw [EStateM.run_bind, run_free hfind hremove]
  rfl

/-- An error message is read, freed and thrown. -/
theorem run_throwIfError {label : String} {bytes : Bytes} {memory : Ledger Block}
    (hfind : p.memory.find id = some (.heap bytes)) (hremove : p.memory.remove id = some memory) :
    (throwIfError label (some id)).run p =
      .error (.thrown (kstring label ++ toKString bytes)) { p with memory } := by
  rw [throwIfError, EStateM.run_bind, run_copyToKString hfind hremove]
  rfl

/-- Reading a block from its start, no further than its end. -/
theorem run_readBytes {bytes : Bytes} {count : Nat} (hfind : p.memory.find id = some (.heap bytes))
    (hcount : count ≤ bytes.length) :
    (readBytes id count).run p = .ok (bytes.take count) p := by
  have hnonneg : ¬ (count : Int) < 0 := by omega
  have hroom : ¬ (bytes.length : Int) < count := by omega
  rw [readBytes, EStateM.run_bind, run_heapBytes hfind]
  simp only [if_neg hnonneg, if_neg hroom, Int.toNat_natCast, EStateM.run_pure]

/-- The length of an array is the same as a 32-bit number. -/
theorem toInt32_length {bytes : Bytes} (h : bytes.length < 2 ^ 31) :
    toInt32 bytes.length = bytes.length := by
  have h' : bytes.length < 2147483648 := h
  unfold toInt32
  rw [Int.bmod_def]
  omega

/-- A length as a 32-bit number is never more than the length. -/
theorem toInt32_length_le (bytes : Bytes) : toInt32 bytes.length ≤ bytes.length := by
  unfold toInt32
  rw [Int.bmod_def]
  split <;> omega

/-- Reading a block, no further than its end, changes nothing, whatever the number is. -/
theorem run_readBytes_cases {bytes : Bytes} {count : Int}
    (hfind : p.memory.find id = some (.heap bytes)) (hcount : count ≤ bytes.length) :
    (∃ got, (readBytes id count).run p = .ok got p) ∨
      ∃ message, (readBytes id count).run p = .error (.thrown message) p := by
  by_cases hneg : count < 0
  · refine .inr ⟨kstring "NegativeArraySizeException", ?_⟩
    rw [readBytes, EStateM.run_bind, run_heapBytes hfind]
    simp only [if_pos hneg]
    rfl
  · obtain ⟨n, rfl⟩ : ∃ n : Nat, count = n := ⟨count.toNat, by omega⟩
    exact .inl ⟨_, run_readBytes hfind (by omega)⟩

variable {τ : Type} {view : Process → τ}

theorem keeps_notNull (c : CPtr) : Keeps view (notNull c) := keeps_orAbort _ c

theorem keeps_copyToKString (h : Blind view) (id : Nat) : Keeps view (copyToKString id) :=
  keeps_bind (keeps_heapBytes id) fun _ => keeps_bind (keeps_free h id) fun _ => keeps_pure _

theorem keeps_throwIfError (h : Blind view) (label : String) (c : CPtr) :
    Keeps view (throwIfError label c) := by
  cases c with
  | none => exact keeps_pure ()
  | some id => exact keeps_bind (keeps_copyToKString h id) fun _ => keeps_abort _

theorem keeps_readBytes (id : Nat) (count : Int) : Keeps view (readBytes id count) := by
  refine keeps_bind (keeps_heapBytes id) fun memory => ?_
  split
  · exact keeps_abort _
  · split
    · exact keeps_abort _
    · exact keeps_pure _

theorem Native.keeps_unpack (h : Blind view) (r : SendReturn) : Keeps view (Native.unpack r) :=
  keeps_bind (keeps_throwIfError h _ _) fun _ =>
    keeps_bind (keeps_notNull _) fun _ => keeps_readBytes _ _

end Helpers

end Kipfs
