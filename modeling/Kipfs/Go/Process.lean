import Kipfs.Foundation.Ledger
import Kipfs.Foundation.RefTable
import Kipfs.Foundation.Unicode
import Kipfs.Go.Cids
import Kipfs.Go.Shell

/-!
# The process and its memory

One state for everything the bindings touch: the reference table of `golang.org/x/mobile/bind/seq`,
the Go objects behind it, the network, the ledger of C blocks and JNI buffers, and the Kotlin
objects that hold references. A program over it is a `Prog`; it aborts with a Kotlin exception,
with a Go panic, or with the end of the process. The operations of `seq` and of cgo are defined
here as they are documented.
-/

namespace Kipfs

open Foundation

/-- A Kotlin `String`. -/
abbrev KString := Utf16

/-- The dynamic type of an `interface{}` in the reference table. -/
inductive GoType where
  | shell
  | requestBuilder
  deriving DecidableEq, Repr

/-- An `interface{}` that holds a pointer. -/
structure Iface where
  type : GoType
  ptr : Nat
  deriving DecidableEq, Repr

/-- A resource on the ledger: a block of the C heap, the characters of a Java string, or the
elements of a Java byte array. -/
inductive Block where
  | heap (bytes : Bytes)
  | chars (bytes : Bytes)
  | elements (bytes : Bytes)
  deriving DecidableEq, Repr

/-- The class of a `KNativeObject`, with the state it adds. -/
inductive ObjectClass where
  | shell (ipfsAddress : KString)
  | request
  deriving DecidableEq, Repr

/-- A `KNativeObject`. -/
structure KNativeObject where
  cls : ObjectClass
  ref : Int
  deriving DecidableEq, Repr

/-- The whole process. Go objects are found by their pointer; `allocated` is the next free one. -/
structure Process where
  refs : RefTable Iface
  shells : Nat → Shell
  builders : Nat → Ipfsapi.RequestBuilder
  allocated : Nat
  net : Ipfsapi.Net
  memory : Ledger Block
  objects : List KNativeObject

/-- The handles of a process: the reference table and the Kotlin objects. -/
def Process.handles (p : Process) : RefTable Iface × List KNativeObject := (p.refs, p.objects)

/-- Why a program did not return. An exception can be caught; a panic, an exception that escapes
to a caller which is not Kotlin, and an invalid use of memory end the process. -/
inductive Abort where
  | thrown (message : KString)
  | panic (p : GoPanic)
  | terminated
  | memoryFault
  deriving DecidableEq, Repr

/-- A program of the process. -/
abbrev Prog := EStateM Abort Process

/-- The process after a program that returned or threw. -/
def survivor {α : Type} : EStateM.Result Abort Process α → Option Process
  | .ok _ p => some p
  | .error (.thrown _) p => some p
  | .error _ _ => none

/-- `go-multibase`. -/
structure Multibase where
  Encode : Int → Bytes → Except GoError Bytes
  Decode : Bytes → Except GoError (Int × Bytes)

/-- What the library is linked with and what it meets: the numbering of references, the network and
the file system, the time of day as `GetTime` formats it, and the codecs. -/
structure Env where
  numbering : Numbering
  out : Ipfsapi.Outside
  time : Bytes
  codecs : Codecs
  multibase : Multibase

/-- The process before the first call. -/
def Process.start : Process where
  refs := .empty
  shells _ := ⟨[]⟩
  builders _ := Ipfsapi.Request [] []
  allocated := 0
  net := ⟨[], [], []⟩
  memory := .empty
  objects := []

/-- A library on its own, for runs on fixed inputs: every request is answered with an empty body,
every file is missing, and a node is the text it was decoded from. -/
def standalone : Env where
  numbering := countdown (-23) (by decide)
  out := ⟨fun _ => .body (.done .eof), fun _ => some (.other []), fun _ => .error (.other [])⟩
  time := [48]
  codecs := ⟨Bytes, fun data => (some data, none), fun data => (some data, none), .ok, .ok⟩
  multibase := ⟨fun _ _ => .error (.other []), fun _ => .error (.other [])⟩

/-! ## References -/

namespace Seq

/-- `NullRefNum`. -/
def NullRefNum : Int := 41

/-- `Inc`. -/
def Inc (refnum : Int) : Prog Unit := fun p =>
  match p.refs.inc refnum with
  | some refs => .ok () { p with refs }
  | none => .error (.panic (.unknownRefNum refnum)) p

/-- `Delete`. -/
def Delete (refnum : Int) : Prog Unit := fun p =>
  match p.refs.delete refnum with
  | some refs => .ok () { p with refs }
  | none => .error (.panic (.unknownRefNum refnum)) p

/-- `FromRefNum(refnum).Get()`: look the object up, then `Delete`. -/
def Get (refnum : Int) : Prog Iface := do
  let p ← get
  let obj ← orAbort (.panic (.unknownRefNum refnum)) (p.refs.lookup refnum)
  Delete refnum
  pure obj

/-- `ToRefNum`, for an object that is not in the table. -/
def ToRefNum (num : Numbering) (obj : Iface) : Prog Int := fun p =>
  match RefTable.toRefNum num obj p.refs with
  | some (refnum, refs) => .ok refnum { p with refs }
  | none => .error (.panic .refsUnderflow) p

end Seq

/-! ## C memory -/

/-- A pointer into C memory: null, or a block of the ledger. -/
abbrev CPtr := Option Nat

/-- Enter a resource on the ledger. -/
def allocate (block : Block) : Prog Nat := fun p =>
  .ok p.memory.next { p with memory := p.memory.add block }

/-- `C.CString`. -/
def CString (s : Bytes) : Prog CPtr := some <$> allocate (.heap (s ++ [0]))

/-- `C.CBytes`. -/
def CBytes (b : Bytes) : Prog CPtr := some <$> allocate (.heap b)

/-- The resource at an address that is in use. -/
def resource (id : Nat) : Prog Block := do
  let p ← get
  orAbort .memoryFault (p.memory.find id)

/-- Give the resource at an address back. -/
def giveBack (id : Nat) : Prog Unit := fun p =>
  match p.memory.remove id with
  | some memory => .ok () { p with memory }
  | none => .error .memoryFault p

/-- The bytes of a block of the C heap. -/
def heapBytes (id : Nat) : Prog Bytes := do
  match ← resource id with
  | .heap bytes => pure bytes
  | _ => abort .memoryFault

/-- `free`. -/
def free (id : Nat) : Prog Unit := do
  let _ ← heapBytes id
  giveBack id

/-- `C.GoBytes(p, n)` and `C.GoStringN(p, n)`, given the memory from `p` on. -/
def GoBytes (memory : Bytes) (n : Int) : Prog Bytes :=
  if n < 0 then abort (.panic .negativeLength)
  else if memory.length < n then abort .memoryFault
  else pure (memory.take n.toNat)

/-- An `int` as a `C.int32_t`. -/
def toInt32 (n : Int) : Int := n.bmod (2 ^ 32)

/-! ## Go objects -/

/-- `&Shell{..}`. -/
def newShell (s : Shell) : Prog Nat := fun p =>
  .ok p.allocated { p with
    shells := Function.update p.shells p.allocated s
    allocated := p.allocated + 1 }

/-- `&RequestBuilder{..}`. -/
def newBuilder (rb : Ipfsapi.RequestBuilder) : Prog Nat := fun p =>
  .ok p.allocated { p with
    builders := Function.update p.builders p.allocated rb
    allocated := p.allocated + 1 }

/-- The process after a program on the builder at `ptr` has ended. -/
def Process.withConn (ptr : Nat) (c : Ipfsapi.Conn) (p : Process) : Process :=
  { p with builders := Function.update p.builders ptr c.rb, net := c.net }

/-- Call a method of the builder at an address. -/
def onBuilder {α : Type} (ptr : Nat) (m : Ipfsapi.GoM α) : Prog α :=
  zoom (fun p => ⟨p.builders ptr, p.net⟩) (Process.withConn ptr) .panic m

/-- `x.(*shell.Shell)`, and the shell pointed to. -/
def assertShell (obj : Iface) : Prog Shell := do
  let p ← get
  if obj.type = .shell then pure (p.shells obj.ptr) else abort (.panic .typeAssertion)

/-- `x.(*shell.RequestBuilder)`. -/
def assertBuilder (obj : Iface) : Prog Nat :=
  if obj.type = .requestBuilder then pure obj.ptr else abort (.panic .typeAssertion)

/-! ## Runs and frames of the memory operations -/

section Memory

variable {p : Process} {id : Nat}

/-- Entering a resource succeeds, under the next identifier. -/
@[simp] theorem run_allocate (block : Block) :
    (allocate block).run p = .ok p.memory.next { p with memory := p.memory.add block } := rfl

@[simp] theorem run_CString (s : Bytes) :
    (CString s).run p =
      .ok (some p.memory.next) { p with memory := p.memory.add (.heap (s ++ [0])) } := rfl

/-- Reading a resource that is held. -/
theorem run_resource {block : Block} (h : p.memory.find id = some block) :
    (resource id).run p = .ok block p := by
  simp [resource, h]

/-- Giving back a resource takes it off the ledger. -/
@[simp] theorem run_giveBack (id : Nat) :
    (giveBack id).run p =
      match p.memory.remove id with
      | some memory => .ok () { p with memory }
      | none => .error .memoryFault p := rfl

/-- Whatever is read, it is a block of the heap or a fault. -/
@[simp] theorem run_heapBytes_eq (id : Nat) :
    (heapBytes id).run p =
      match p.memory.find id with
      | some (.heap bytes) => .ok bytes p
      | _ => .error .memoryFault p := by
  cases hfind : p.memory.find id with
  | none => simp [heapBytes, resource, hfind, orAbort]
  | some block => cases block <;> simp [heapBytes, resource, hfind]

/-- Reading a block of the heap. -/
theorem run_heapBytes {bytes : Bytes} (h : p.memory.find id = some (.heap bytes)) :
    (heapBytes id).run p = .ok bytes p := by
  rw [run_heapBytes_eq, h]

/-- Freeing a block of the heap. -/
theorem run_free {bytes : Bytes} {memory : Ledger Block}
    (hfind : p.memory.find id = some (.heap bytes)) (hremove : p.memory.remove id = some memory) :
    (free id).run p = .ok () { p with memory } := by
  rw [free, EStateM.run_bind, run_heapBytes hfind]
  simp [hremove]

/-- A view of the process that does not look at the ledger. -/
def Blind {τ : Type} (view : Process → τ) : Prop :=
  ∀ p memory, view { p with memory } = view p

theorem blind_handles : Blind Process.handles := fun _ _ => rfl

variable {τ : Type} {view : Process → τ}

theorem keeps_allocate (h : Blind view) (block : Block) : Keeps view (allocate block) :=
  fun p => h p _

theorem keeps_resource (id : Nat) : Keeps view (resource id) :=
  keeps_bind keeps_get fun _ => keeps_orAbort _ _

theorem keeps_giveBack (h : Blind view) (id : Nat) : Keeps view (giveBack id) := by
  intro p
  show view (final (giveBack id p)) = view p
  unfold giveBack
  split
  · exact h p _
  · rfl

theorem keeps_heapBytes (id : Nat) : Keeps view (heapBytes id) := by
  refine keeps_bind (keeps_resource id) fun block => ?_
  cases block with
  | heap bytes => exact keeps_pure bytes
  | chars bytes => exact keeps_abort _
  | elements bytes => exact keeps_abort _

theorem keeps_free (h : Blind view) (id : Nat) : Keeps view (free id) :=
  keeps_bind (keeps_heapBytes id) fun _ => keeps_giveBack h id

end Memory

end Kipfs
