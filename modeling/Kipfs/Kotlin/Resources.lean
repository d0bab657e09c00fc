import Kipfs.Foundation.Machine
import Kipfs.Kotlin.Outcomes

/-!
# What a call leaves on the ledger

Every wrapper acquires some C blocks and JNI buffers and is to give each back once. `leftover` lists
what a call of a binding does not give back for an outcome, `leaves_leftover` proves it of the
wrappers, and `live_run_iff` adds it up over runs of calls. `ledger_iff` draws the conclusion:
which calls balance, and which runs.
-/

namespace Kipfs

open Foundation

/-- The two bindings. -/
inductive Binding where
  | native
  | jni
  deriving DecidableEq, Repr

/-- A binding over a library. -/
def Binding.over : Binding → Kipfsgo → KIPFSNative
  | .native => Kipfs.native
  | .jni => jvm

/-- A call of one of the wrappers. -/
inductive ForeignCall where
  | getTime
  | dagCID (json : KString)
  | createNativeShell (address : KString)
  | createRequest (shellRef : Int) (command : KString) (arg : Option KString)
  | requestOption (requestRefID : Int) (name value : KString)
  | sendRequest (requestRefID : Int)
  | postData (requestRefID : Int) (data : Bytes)
  deriving DecidableEq, Repr

/-- The program of a call. -/
def ForeignCall.program (kipfs : KIPFSNative) : ForeignCall → Prog Unit
  | .getTime => discard kipfs.getTime
  | .dagCID json => discard (kipfs.dagCID json)
  | .createNativeShell address => discard (kipfs.createNativeShell address)
  | .createRequest shellRef command arg => discard (kipfs.createRequest shellRef command arg)
  | .requestOption requestRefID name value => kipfs.requestOption requestRefID name value
  | .sendRequest requestRefID => discard (kipfs.sendRequest requestRefID)
  | .postData requestRefID data => discard (kipfs.postData requestRefID data)

/-- A program uses no resource that is not held, and ends, however it ends, with the resources it
found and some new ones. -/
def Leaves {α : Type} (m : Prog α) (p : Process) (blocks : List Block) : Prop :=
  (∀ q, m.run p ≠ .error .memoryFault q) ∧
    ∃ entries : List (Nat × Block), entries.map Prod.snd = blocks ∧
      (final (m.run p)).memory.live = entries ++ p.memory.live

/-- A program gives back, once, all that it acquires. -/
def Balanced {α : Type} (m : Prog α) (p : Process) : Prop :=
  (∀ q, m.run p ≠ .error .memoryFault q) ∧ (final (m.run p)).memory.live = p.memory.live

/-- The payload of a result, which stays in its block; a message is freed. -/
def payload : Bytes × Option GoError → List Block
  | (data, none) => [.heap data]
  | (_, some _) => []

/-- What a call does not give back. -/
def leftover : Binding → ForeignCall → Outcomes → List Block
  | .native, .sendRequest _, o => payload o.sent
  | .native, .postData _ _, o => payload o.sent
  | .native, _, _ => []
  | .jni, .getTime, o => [.heap (o.time ++ [0])]
  | .jni, .dagCID _, o => [.heap (o.cid ++ [0])]
  | .jni, .createNativeShell _, o =>
      match o.created with
      | .ok _ => []
      | .error text => [.heap (text ++ [0])]
  | .jni, .createRequest _ _ _, _ => []
  | .jni, .requestOption _ _ _, _ => []
  | .jni, .sendRequest _, o => payload o.sent
  | .jni, .postData _ data, o => payload o.sent ++ [.elements data]

section Leaves

variable {α : Type} {m : Prog α} {p p' : Process} {blocks : List Block}

/-- A program leaves what the entries it adds to the ledger hold. -/
theorem Leaves.of_result {result : EStateM.Result Abort Process α} (hrun : m.run p = result)
    (hfault : ∀ q, result ≠ .error .memoryFault q) (entries : List (Nat × Block))
    (hlive : (final result).memory.live = entries ++ p.memory.live) :
    Leaves m p (entries.map Prod.snd) := by
  subst hrun
  exact ⟨hfault, entries, rfl, hlive⟩

/-- A program that returned. -/
theorem Leaves.of_ok {a : α} (hrun : m.run p = .ok a p') (entries : List (Nat × Block))
    (hlive : p'.memory.live = entries ++ p.memory.live) : Leaves m p (entries.map Prod.snd) :=
  .of_result hrun nofun entries hlive

/-- A program that threw. -/
theorem Leaves.of_thrown {message : KString} (hrun : m.run p = .error (.thrown message) p')
    (entries : List (Nat × Block)) (hlive : p'.memory.live = entries ++ p.memory.live) :
    Leaves m p (entries.map Prod.snd) :=
  .of_result hrun nofun entries hlive

/-- Dropping the result leaves the same. -/
theorem Leaves.discard (h : Leaves m p blocks) : Leaves (discard m) p blocks := by
  unfold Leaves at h ⊢
  rw [run_discard]
  cases hrun : m.run p with
  | ok a q =>
      rw [hrun] at h
      exact ⟨nofun, h.2⟩
  | error a q =>
      rw [hrun] at h
      exact ⟨fun q' hfault => h.1 q' (by cases hfault; rfl), h.2⟩

/-- Leaving an exported function leaves the same. -/
theorem Leaves.cName (h : Leaves m p blocks) : Leaves (cName m) p blocks := by
  unfold Leaves at h ⊢
  rw [run_cName]
  split
  · rename_i hrun
    rw [hrun] at h
    exact ⟨nofun, h.2⟩
  · exact h

/-- A program that runs as another does, from a process that holds some more. -/
theorem Leaves.of_run {m' : Prog α} {p₁ : Process} (h : Leaves m' p₁ blocks)
    (hrun : m.run p = m'.run p₁) (more : List (Nat × Block))
    (hlive : p₁.memory.live = more ++ p.memory.live) :
    Leaves m p (blocks ++ more.map Prod.snd) := by
  obtain ⟨hfault, entries, rfl, hentries⟩ := h
  unfold Leaves
  rw [hrun, ← List.map_append]
  refine ⟨hfault, entries ++ more, rfl, ?_⟩
  rw [hentries, hlive, List.append_assoc]

/-- A program is balanced exactly when it leaves nothing. -/
theorem Leaves.balanced_iff (h : Leaves m p blocks) : Balanced m p ↔ blocks = [] := by
  obtain ⟨hfault, entries, rfl, hentries⟩ := h
  unfold Balanced
  rw [hentries, List.append_left_eq_self, List.map_eq_nil_iff]
  exact and_iff_right hfault

end Leaves

section Unpack

variable {p : Process}

/-- Both bindings free the message of a result and keep the block of a payload, even one whose
length is no 32-bit number. -/
theorem Native.leaves_unpack (sent : Bytes × Option GoError) :
    Leaves (sendReturn sent >>= Native.unpack) p (payload sent) := by
  rcases sent with ⟨data, _ | err⟩
  · have hread : (sendReturn (data, none) >>= Native.unpack).run p =
        (readBytes p.memory.next (toInt32 data.length)).run
          { p with memory := p.memory.add (.heap data) } := rfl
    rcases run_readBytes_cases (p := { p with memory := p.memory.add (.heap data) })
      (Ledger.find_add_self _ _) (toInt32_length_le data) with ⟨got, hrun⟩ | ⟨message, hrun⟩
    · exact .of_ok (hread.trans hrun) [(_, .heap data)] rfl
    · exact .of_thrown (hread.trans hrun) [(_, .heap data)] rfl
  · exact .of_thrown Native.run_unpack_error [] rfl

theorem Jni.leaves_unpack (label : String) (sent : Bytes × Option GoError) :
    Leaves (sendReturn sent >>= Jni.unpack label) p (payload sent) := by
  rcases sent with ⟨data, _ | err⟩
  · rcases run_readBytes_cases (p := { p with memory := p.memory.add (.heap data) })
      (Ledger.find_add_self _ _) (toInt32_length_le data) with ⟨got, hread⟩ | ⟨message, hread⟩
    · have hrun : (sendReturn (data, none) >>= Jni.unpack label).run p =
          (newByteArray got).run { p with memory := p.memory.add (.heap data) } := by
        rw [EStateM.run_bind, run_sendReturn_ok]
        simp only [Jni.unpack, throwIfError, notNull, orAbort_some, pure_bind, EStateM.run_bind,
          hread]
      cases got with
      | nil => exact .of_thrown hrun [(_, .heap data)] rfl
      | cons byte rest => exact .of_ok hrun [(_, .heap data)] rfl
    · have hrun : (sendReturn (data, none) >>= Jni.unpack label).run p =
          .error (.thrown message) { p with memory := p.memory.add (.heap data) } := by
        rw [EStateM.run_bind, run_sendReturn_ok]
        simp only [Jni.unpack, throwIfError, notNull, orAbort_some, pure_bind, EStateM.run_bind,
          hread]
      exact .of_thrown hrun [(_, .heap data)] rfl
  · exact .of_thrown (Jni.run_unpack_error label) [] rfl

end Unpack

/-! ## The wrappers -/

section Wrappers

variable (o : Outcomes) (p : Process)

/-- A C string that is copied is freed. -/
theorem leaves_copied (text : Bytes) :
    Leaves (CString text >>= fun cs => notNull cs >>= copyToKString) p [] := by
  have hrun : (CString text >>= fun cs => notNull cs >>= copyToKString).run p =
      .ok (toKString (text ++ [0])) { p with memory := p.memory.skip } :=
    run_copyToKString (Ledger.find_add_self _ _) (Ledger.remove_add_self _ _)
  exact .of_ok hrun [] rfl

theorem Native.leaves_getTime : Leaves (Native.getTime o.library) p [] := leaves_copied p o.time

theorem Native.leaves_dagCID (json : KString) : Leaves (Native.dagCID o.library json) p [] :=
  leaves_copied p o.cid

/-- What follows a creating export, when it frees the message. -/
theorem leaves_created (label : String) (created : Except Bytes Int) :
    Leaves (createReturn created >>= fun r => do
      throwIfError label r.r1
      pure r.r0) p [] := by
  cases created with
  | ok refnum =>
      have hrun : (createReturn (.ok refnum) >>= fun r => do
          throwIfError label r.r1
          pure r.r0).run p = .ok refnum p := rfl
      exact .of_ok hrun [] rfl
  | error text =>
      have hthrow : (throwIfError label (some p.memory.next)).run
          { p with memory := p.memory.add (.heap (text ++ [0])) } =
            .error (.thrown (kstring label ++ toKString (text ++ [0])))
              { p with memory := p.memory.skip } :=
        run_throwIfError (Ledger.find_add_self _ _) (Ledger.remove_add_self _ _)
      have hrun : (createReturn (.error text) >>= fun r => do
          throwIfError label r.r1
          pure r.r0).run p = .error (.thrown (kstring label ++ toKString (text ++ [0])))
            { p with memory := p.memory.skip } := by
        simp only [createReturn, bind_assoc, pure_bind, EStateM.run_bind, run_CString]
        rw [hthrow]
      exact .of_thrown hrun [] rfl

theorem Native.leaves_createNativeShell (address : KString) :
    Leaves (Native.createNativeShell o.library address) p [] := leaves_created p _ o.created

theorem Native.leaves_createRequest (shellRef : Int) (command : KString) (arg : Option KString) :
    Leaves (Native.createRequest o.library shellRef command arg) p [] :=
  leaves_created p _ o.created

theorem Native.leaves_requestOption (requestRefID : Int) (name value : KString) :
    Leaves (Native.requestOption o.library requestRefID name value) p [] := by
  have hrun : (Native.requestOption o.library requestRefID name value).run p = .ok () p := rfl
  exact .of_ok hrun [] rfl

theorem Native.leaves_sendRequest (requestRefID : Int) :
    Leaves (Native.sendRequest o.library requestRefID) p (payload o.sent) :=
  Native.leaves_unpack o.sent

theorem Native.leaves_postData (requestRefID : Int) (data : Bytes) :
    Leaves (Native.postData o.library requestRefID data) p (payload o.sent) :=
  Native.leaves_unpack o.sent

theorem Jni.leaves_getTime : Leaves (Jni.getTime o.library) p [.heap (o.time ++ [0])] := by
  have hrun : (Jni.getTime o.library).run p =
      .ok (decodeModified (goString (o.time ++ [0])))
        { p with memory := p.memory.add (.heap (o.time ++ [0])) } := by
    simp [Jni.getTime, Outcomes.library, notNull, NewStringUTF]
  exact .of_ok hrun [(_, .heap (o.time ++ [0]))] rfl

theorem Jni.leaves_dagCID (json : KString) :
    Leaves (Jni.dagCID o.library json) p [.heap (o.cid ++ [0])] := by
  have hrun : (Jni.dagCID o.library json).run p =
      .ok (decodeModified (goString (o.cid ++ [0])))
        { p with memory := p.memory.skip.add (.heap (o.cid ++ [0])) } := by
    simp [Jni.dagCID, Outcomes.library, notNull, ReleaseStringUTFChars, NewStringUTF]
  exact .of_ok hrun [(_, .heap (o.cid ++ [0]))] rfl

/-- A message stays in its block: only its presence is looked at. -/
theorem Jni.leaves_createNativeShell (address : KString) :
    Leaves (Jni.createNativeShell o.library address) p
      (leftover .jni (.createNativeShell address) o) := by
  cases hcreated : o.created with
  | ok refnum =>
      have hrun : (Jni.createNativeShell o.library address).run p =
          .ok refnum { p with memory := p.memory.skip } := by
        simp [Jni.createNativeShell, Outcomes.library, hcreated, createReturn,
          ReleaseStringUTFChars]
      simp only [leftover, hcreated]
      exact .of_ok hrun [] rfl
  | error text =>
      have hrun : (Jni.createNativeShell o.library address).run p =
          .ok (-1) { p with memory := p.memory.skip.add (.heap (text ++ [0])) } := by
        simp [Jni.createNativeShell, Outcomes.library, hcreated, createReturn,
          ReleaseStringUTFChars]
      simp only [leftover, hcreated]
      exact .of_ok hrun [(_, .heap (text ++ [0]))] rfl

theorem Jni.leaves_createRequest (shellRef : Int) (command : KString) (arg : Option KString) :
    Leaves (Jni.createRequest o.library shellRef command arg) p [] := by
  -- the characters are released in the order in which they were read, and then the message
  cases hcreated : o.created with
  | ok refnum =>
      have hrun : ∃ memory, (Jni.createRequest o.library shellRef command arg).run p =
          .ok refnum { p with memory } ∧ memory.live = p.memory.live := by
        cases arg <;>
          simp [Jni.createRequest, Outcomes.library, hcreated, createReturn,
            ReleaseStringUTFChars, throwIfError]
      obtain ⟨memory, hrun, hlive⟩ := hrun
      exact .of_ok hrun [] hlive
  | error text =>
      have hne : p.memory.next ≠ p.memory.next + 1 + 1 := by omega
      have hrun : ∃ memory, (Jni.createRequest o.library shellRef command arg).run p =
          .error .terminated { p with memory } ∧ memory.live = p.memory.live := by
        cases arg <;>
          simp [Jni.createRequest, Outcomes.library, hcreated, createReturn,
            ReleaseStringUTFChars, throwIfError, copyToKString, free, throwException, hne]
      obtain ⟨memory, hrun, hlive⟩ := hrun
      refine .of_result hrun ?_ [] hlive
      intro q hfault
      cases hfault

theorem Jni.leaves_requestOption (requestRefID : Int) (name value : KString) :
    Leaves (Jni.requestOption o.library requestRefID name value) p [] := by
  have hrun : (Jni.requestOption o.library requestRefID name value).run p =
      .ok () { p with memory := p.memory.skip.skip } := by
    simp [Jni.requestOption, Outcomes.library, ReleaseStringUTFChars]
  exact .of_ok hrun [] rfl

theorem Jni.leaves_sendRequest (requestRefID : Int) :
    Leaves (Jni.sendRequest o.library requestRefID) p (payload o.sent) :=
  .cName (Jni.leaves_unpack _ o.sent)

/-- The elements of the array are not released. -/
theorem Jni.leaves_postData (requestRefID : Int) (data : Bytes) :
    Leaves (Jni.postData o.library requestRefID data) p (payload o.sent ++ [.elements data]) := by
  have hrun : (Jni.postData o.library requestRefID data).run p =
      (cName (sendReturn o.sent >>= Jni.unpack "PostData failed: ")).run
        { p with memory := p.memory.add (.elements data) } := by
    simp only [Jni.postData, run_cName, EStateM.run_bind, run_GetByteArrayElements]
    rw [run_elementsAt (Ledger.find_add_self _ _)]
    rfl
  exact Leaves.of_run (.cName (Jni.leaves_unpack _ o.sent)) hrun [(_, .elements data)] rfl

end Wrappers

/-! ## Calls and runs -/

/-- A call of a binding, with the outcome of the export it wraps. -/
structure Made where
  binding : Binding
  call : ForeignCall
  outcomes : Outcomes

/-- The program of a call that is made. -/
def Made.program (x : Made) : Prog Unit := x.call.program (x.binding.over x.outcomes.library)

/-- What the call does not give back. -/
def Made.leftover (x : Made) : List Block := Kipfs.leftover x.binding x.call x.outcomes

/-- The calls that give back all they acquire. The native binding does, but for the payload of a
success; the JNI binding does where it creates a request or sets an option, where it creates a
shell with success, and where it sends with an error. -/
def Made.Releases (x : Made) : Prop :=
  match x.binding, x.call with
  | .native, .sendRequest _ => x.outcomes.sent.2 ≠ none
  | .native, .postData _ _ => x.outcomes.sent.2 ≠ none
  | .native, _ => True
  | .jni, .createNativeShell _ => ∃ refnum, x.outcomes.created = .ok refnum
  | .jni, .createRequest _ _ _ => True
  | .jni, .requestOption _ _ _ => True
  | .jni, .sendRequest _ => x.outcomes.sent.2 ≠ none
  | .jni, _ => False

/-- Make a call; the process is over when it ends with anything but a result or an exception. -/
def makeCall (p : Process) (x : Made) : Option Process := survivor (x.program.run p)

/-- A payload is kept by the outcomes without an error. -/
theorem payload_eq_nil_iff (sent : Bytes × Option GoError) : payload sent = [] ↔ sent.2 ≠ none := by
  rcases sent with ⟨data, _ | err⟩ <;> simp [payload]

/-- A call leaves nothing exactly when it releases everything. -/
theorem Made.leftover_eq_nil_iff (x : Made) : x.leftover = [] ↔ x.Releases := by
  rcases x with ⟨_ | _, call, o⟩
  · cases call with
    | sendRequest requestRefID => exact payload_eq_nil_iff o.sent
    | postData requestRefID data => exact payload_eq_nil_iff o.sent
    | _ => exact iff_of_true rfl trivial
  · cases call with
    | createNativeShell address =>
        cases hcreated : o.created <;> simp [leftover, Kipfs.leftover, Releases, hcreated]
    | createRequest shellRef command arg => exact iff_of_true rfl trivial
    | requestOption requestRefID name value => exact iff_of_true rfl trivial
    | sendRequest requestRefID => exact payload_eq_nil_iff o.sent
    | postData requestRefID data => simp [leftover, Kipfs.leftover, Releases]
    | getTime => simp [leftover, Kipfs.leftover, Releases]
    | dagCID json => simp [leftover, Kipfs.leftover, Releases]

/-- Every call leaves what `leftover` says. -/
theorem Made.leaves_leftover (x : Made) (p : Process) : Leaves x.program p x.leftover := by
  rcases x with ⟨_ | _, call, o⟩
  · cases call with
    | getTime => exact (Native.leaves_getTime o p).discard
    | dagCID json => exact (Native.leaves_dagCID o p json).discard
    | createNativeShell address => exact (Native.leaves_createNativeShell o p address).discard
    | createRequest shellRef command arg =>
        exact (Native.leaves_createRequest o p shellRef command arg).discard
    | requestOption requestRefID name value =>
        exact Native.leaves_requestOption o p requestRefID name value
    | sendRequest requestRefID => exact (Native.leaves_sendRequest o p requestRefID).discard
    | postData requestRefID data => exact (Native.leaves_postData o p requestRefID data).discard
  · cases call with
    | getTime => exact (Jni.leaves_getTime o p).discard
    | dagCID json => exact (Jni.leaves_dagCID o p json).discard
    | createNativeShell address => exact (Jni.leaves_createNativeShell o p address).discard
    | createRequest shellRef command arg =>
        exact (Jni.leaves_createRequest o p shellRef command arg).discard
    | requestOption requestRefID name value =>
        exact Jni.leaves_requestOption o p requestRefID name value
    | sendRequest requestRefID => exact (Jni.leaves_sendRequest o p requestRefID).discard
    | postData requestRefID data => exact (Jni.leaves_postData o p requestRefID data).discard

/-- A call that the process survives puts what it leaves on the ledger. -/
theorem live_makeCall {p p' : Process} {x : Made} (h : makeCall p x = some p') :
    ∃ entries : List (Nat × Block), entries.map Prod.snd = x.leftover ∧
      p'.memory.live = entries ++ p.memory.live := by
  have hfinal : final (x.program.run p) = p' := by
    unfold makeCall survivor at h
    split at h <;> cases h <;> rename_i hrun <;> rw [hrun] <;> rfl
  obtain ⟨_, entries, hblocks, hlive⟩ := x.leaves_leftover p
  rw [hfinal] at hlive
  exact ⟨entries, hblocks, hlive⟩

/-- A run from an empty ledger ends with an empty ledger exactly when all its calls release. -/
theorem live_run_iff {calls : List Made} {p p' : Process} (hempty : p.memory.live = [])
    (hrun : run makeCall p calls = some p') :
    p'.memory.live = [] ↔ ∀ x ∈ calls, x.Releases := by
  induction calls using List.reverseRecOn generalizing p' with
  | nil =>
      cases hrun
      exact iff_of_true hempty (by simp)
  | append_singleton calls x ih =>
      obtain ⟨middle, hbefore, hlast⟩ := run_snoc_eq_some.mp hrun
      obtain ⟨entries, hblocks, hlive⟩ := live_makeCall hlast
      rw [hlive, List.append_eq_nil_iff, ih hbefore, ← List.map_eq_nil_iff, hblocks,
        x.leftover_eq_nil_iff, List.forall_mem_append, List.forall_mem_singleton, and_comm]

/-- **A call gives back all that it acquires exactly when it `Releases`, and the ledger stays empty
over a run exactly when all calls do.** -/
theorem ledger_iff (p : Process) :
    (∀ x : Made, Balanced x.program p ↔ x.Releases) ∧
      (p.memory.live = [] → ∀ (calls : List Made) (p' : Process), run makeCall p calls = some p' →
        (p'.memory.live = [] ↔ ∀ x ∈ calls, x.Releases)) := by
  refine ⟨fun x => ?_, fun hempty calls p' hrun => ?_⟩
  · rw [(x.leaves_leftover p).balanced_iff]
    exact x.leftover_eq_nil_iff
  · exact live_run_iff hempty hrun

/-- Five calls that leak: the payload of a response on either target, the C strings of the time and
of an identifier on the JVM, the message of a shell that could not be created there, and the
elements of an array posted there. -/
theorem not_balanced :
    ¬ Balanced
      (Made.program ⟨.native, .sendRequest (-24), { Outcomes.blank with sent := ([104], none) }⟩)
        Process.start ∧
      ¬ Balanced (Made.program ⟨.jni, .getTime, Outcomes.blank⟩) Process.start ∧
      ¬ Balanced (Made.program ⟨.jni, .dagCID [123, 125], Outcomes.blank⟩) Process.start ∧
      ¬ Balanced (Made.program ⟨.jni, .createNativeShell [],
        { Outcomes.blank with created := .error [120] }⟩) Process.start ∧
      ¬ Balanced (Made.program ⟨.jni, .postData (-24) [1],
        { Outcomes.blank with sent := ([], some (.other [120])) }⟩) Process.start := by
  refine ⟨?_, ?_, ?_, ?_, ?_⟩ <;>
    · rw [(Made.leaves_leftover _ _).balanced_iff]
      decide

end Kipfs
