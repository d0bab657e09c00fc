import Kipfs.Foundation.Machine
import Kipfs.Kotlin.Jni

/-!
# The Kotlin objects

`KNativeObject.kt` and `KNativeShell.kt`: shells and requests, each with its field `ref`, written
against the interface `KIPFSNative`. A `Call` is one method call on one object of the process,
`step` makes it, and a run is a list of calls. A call that returns or throws is followed by the
next; a Go panic or the end of the process is not.
-/

namespace Kipfs

open Foundation

namespace Process

/-- The field `ref` of an object. -/
def refOf (p : Process) (i : Nat) : Int := (p.objects[i]?.map KNativeObject.ref).getD 0

/-- The process with the field `ref` of an object written. -/
def withRef (i : Nat) (ref : Int) (p : Process) : Process :=
  { p with objects := p.objects.modify i fun o => { o with ref } }

/-- The process with one more object. -/
def withObject (o : KNativeObject) (p : Process) : Process := { p with objects := p.objects ++ [o] }

end Process

variable (kipfs : KIPFSNative)

namespace KNativeObject

/-- Read the field `ref` of an object. -/
def getRef (i : Nat) : Prog Int := do
  let p ← get
  pure (p.refOf i)

/-- Write the field `ref` of an object. -/
def setRef (i : Nat) (ref : Int) : Prog Unit := modify (Process.withRef i ref)

/-- Add an object. -/
def new (cls : ObjectClass) (ref : Int) : Prog Unit := modify (Process.withObject ⟨cls, ref⟩)

/-- `close`. -/
def close (i : Nat) : Prog Unit := do
  if (← getRef i) ≠ 0 then
    kipfs.disposeGoObject (← getRef i)
    setRef i 0
  else pure ()

/-- `finalize`. -/
def finalize (i : Nat) : Prog Unit := close kipfs i

end KNativeObject

namespace KNativeShell

open KNativeObject

/-- `connect`. -/
def connect (i : Nat) (ipfsAddress : KString) : Prog Unit := do
  if (← getRef i) ≠ 0 then pure ()
  else setRef i (← kipfs.createNativeShell ipfsAddress)

/-- `request`. -/
def request (i : Nat) (ipfsAddress command : KString) (arg : Option KString) : Prog Unit := do
  connect kipfs i ipfsAddress
  new .request (← kipfs.createRequest (← getRef i) command arg)

end KNativeShell

namespace KNativeRequest

open KNativeObject

/-- `send`. -/
def send (i : Nat) : Prog Bytes := do kipfs.sendRequest (← getRef i)

/-- `post(data: String, fileName: String)`. -/
def postString (i : Nat) (data _fileName : KString) : Prog Bytes := do
  kipfs.postString (← getRef i) data

/-- `post(data: ByteArray)`. -/
def postData (i : Nat) (data : Bytes) : Prog Bytes := do kipfs.postData (← getRef i) data

/-- `option`, for a value by its `toString()`. -/
def option (i : Nat) (name value : KString) : Prog Unit := do
  kipfs.requestOption (← getRef i) name value

end KNativeRequest

/-- A method call on the object with the given number, or the creation of a shell. -/
inductive Call where
  | createShell (ipfsAddress : KString)
  | connect (shell : Nat)
  | request (shell : Nat) (command : KString) (arg : Option KString)
  | close (object : Nat)
  | finalize (object : Nat)
  | option (request : Nat) (name value : KString)
  | send (request : Nat)
  | postString (request : Nat) (data fileName : KString)
  | postData (request : Nat) (data : Bytes)
  deriving DecidableEq, Repr

/-- The program of a call; none for an object that does not exist or has no such method. -/
def Call.program (p : Process) : Call → Option (Prog Unit)
  | .createShell ipfsAddress => some (KNativeObject.new (.shell ipfsAddress) 0)
  | .connect i =>
      match p.objects[i]? with
      | some ⟨.shell ipfsAddress, _⟩ => some (KNativeShell.connect kipfs i ipfsAddress)
      | _ => none
  | .request i command arg =>
      match p.objects[i]? with
      | some ⟨.shell ipfsAddress, _⟩ =>
          some (KNativeShell.request kipfs i ipfsAddress command arg)
      | _ => none
  | .close i => p.objects[i]?.map fun _ => KNativeObject.close kipfs i
  | .finalize i => p.objects[i]?.map fun _ => KNativeObject.finalize kipfs i
  | .option i name value => onRequest p i (KNativeRequest.option kipfs i name value)
  | .send i => onRequest p i (discard (KNativeRequest.send kipfs i))
  | .postString i data fileName =>
      onRequest p i (discard (KNativeRequest.postString kipfs i data fileName))
  | .postData i data => onRequest p i (discard (KNativeRequest.postData kipfs i data))
where
  /-- The program, when the object is a request. -/
  onRequest (p : Process) (i : Nat) (m : Prog Unit) : Option (Prog Unit) :=
    match p.objects[i]? with
    | some ⟨.request, _⟩ => some m
    | _ => none

/-- Make a call. -/
def step (p : Process) (call : Call) : Option Process :=
  (call.program kipfs p).bind fun m => survivor (m.run p)

/-- A process with one shell, which is not connected. -/
def oneShell : Process := { Process.start with objects := [⟨.shell [104], 0⟩] }

section Runs

variable {p : Process} {i : Nat}

@[simp] theorem run_getRef : (KNativeObject.getRef i).run p = .ok (p.refOf i) p := rfl

theorem keeps_getRef {τ : Type} {view : Process → τ} (i : Nat) :
    Keeps view (KNativeObject.getRef i) := keeps_bind keeps_get fun _ => keeps_pure _

@[simp] theorem run_setRef (ref : Int) :
    (KNativeObject.setRef i ref).run p = .ok () (p.withRef i ref) := rfl

@[simp] theorem run_new (cls : ObjectClass) (ref : Int) :
    (KNativeObject.new cls ref).run p = .ok () (p.withObject ⟨cls, ref⟩) := rfl

/-- The field of an object that is there. -/
theorem refOf_eq {o : KNativeObject} (h : p.objects[i]? = some o) : p.refOf i = o.ref := by
  rw [Process.refOf, h]
  rfl

/-- The process survives a program that returned or threw. -/
theorem survivor_eq_some {α : Type} {result : EStateM.Result Abort Process α} {q : Process} :
    survivor result = some q ↔
      (∃ a, result = .ok a q) ∨ ∃ message, result = .error (.thrown message) q := by
  unfold survivor
  split
  · simp
  · simp
  · rename_i a q' hother
    constructor
    · intro h
      cases h
    · rintro (⟨_, h⟩ | ⟨message, h⟩)
      · cases h
      · cases h
        exact (hother message rfl).elim

/-- When a program has returned whenever the process survives it, a sequence that the process
survives has got past it. -/
theorem survivor_bind {α β : Type} {m : Prog α} {f : α → Prog β} {P : α → Process → Prop}
    {q : Process} (hreturns : ∀ q, survivor (m.run p) = some q → ∃ a, m.run p = .ok a q ∧ P a q)
    (h : survivor ((m >>= f).run p) = some q) :
    ∃ a middle, m.run p = .ok a middle ∧ P a middle ∧ survivor ((f a).run middle) = some q := by
  rw [EStateM.run_bind] at h
  cases hrun : m.run p with
  | ok a middle =>
      obtain ⟨a', hrun', hresult⟩ := hreturns middle (by rw [hrun]; rfl)
      cases hrun.symm.trans hrun'
      rw [hrun] at h
      exact ⟨a, middle, rfl, hresult, h⟩
  | error a q' =>
      rw [hrun] at h
      cases a with
      | thrown message =>
          -- the exception would have survived, but then the program has returned
          cases h
          obtain ⟨a, hrun', _⟩ := hreturns q (by rw [hrun]; rfl)
          cases hrun.symm.trans hrun'
      | _ => cases h

end Runs

end Kipfs
