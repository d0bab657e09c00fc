import Kipfs.Go.Posting
import Kipfs.Kotlin.Jni

/-!
# Every outcome of the exports

The wrappers of both bindings are to be right for every outcome an export may have, so they are run
here against a library that plays given `Outcomes`. `libkipfs_plays` ties this to the code: in
every state each export of the library plays some outcome, or panics.
-/

namespace Kipfs

open Foundation Ipfsapi

/-- What the exports come to: the time, an identifier, a reference or an error message, and the
results of a Go method that sends. -/
structure Outcomes where
  time : Bytes
  cid : Bytes
  created : Except Bytes Int
  sent : Bytes × Option GoError

/-- What the creating exports return: a reference, or an error message. -/
def createReturn : Except Bytes Int → Prog CreateReturn
  | .ok refnum => pure ⟨refnum, none⟩
  | .error text => do
      let message ← CString text
      pure ⟨Seq.NullRefNum, message⟩

/-- A library that plays given outcomes. -/
def Outcomes.library (o : Outcomes) : Kipfsgo where
  GetTime := CString o.time
  KCID _ := CString o.cid
  KDecRef _ := pure ()
  KCreateShell _ := createReturn o.created
  KCreateRequest _ _ _ := createReturn o.created
  KRequestSend _ := sendReturn o.sent
  KRequestPostString _ _ := sendReturn o.sent
  KRequestPostBytes _ _ _ := sendReturn o.sent
  KRequestOption _ _ _ := pure ()

/-- An export does, with the memory it finds, what it does in the library that plays some outcomes,
or it panics. -/
def Plays {α : Type} (export_ : Kipfsgo → Prog α) (env : Env) (p : Process) : Prop :=
  (∃ (o : Outcomes) (p' : Process), p'.memory = p.memory ∧
    (export_ (libkipfs env)).run p = (export_ o.library).run p') ∨
  ∃ x p', (export_ (libkipfs env)).run p = .error (.panic x) p'

section Plays

variable {env : Env} {p : Process} {refnum : Int}

/-- Outcomes of which only one matters. -/
def Outcomes.blank : Outcomes := ⟨[], [], .ok 0, ([], none)⟩

/-- An export that calls a method of the builder and returns its results plays these. -/
theorem plays_sending (refnum : Int) (p : Process) (m : GoM (Bytes × Option GoError)) :
    (∃ sent p', p'.memory = p.memory ∧
      (borrow refnum >>= fun obj => assertBuilder obj >>= fun rb =>
        onBuilder rb m >>= sendReturn).run p = (sendReturn sent).run p') ∨
    ∃ x p', (borrow refnum >>= fun obj => assertBuilder obj >>= fun rb =>
        onBuilder rb m >>= sendReturn).run p = .error (.panic x) p' := by
  rcases run_borrowBuilder_cases refnum p
    fun rb => onBuilder rb m >>= sendReturn with ⟨ptr, _, hrun⟩ | ⟨x, hrun⟩
  · rw [hrun, EStateM.run_bind]
    cases hm : m.run ⟨p.builders ptr, p.net⟩ with
    | ok sent c =>
        rw [run_onBuilder_ok hm]
        exact .inl ⟨sent, p.withConn ptr c, rfl, rfl⟩
    | error x c =>
        rw [run_onBuilder_error hm]
        exact .inr ⟨x, p.withConn ptr c, rfl⟩
  · exact .inr ⟨x, p, hrun⟩

theorem plays_KRequestSend : Plays (Kipfsgo.KRequestSend · refnum) env p := by
  rcases plays_sending refnum p (Shell.Send env.out) with
    ⟨sent, p', hmemory, hrun⟩ | hpanic
  · exact .inl ⟨{ Outcomes.blank with sent }, p', hmemory, hrun⟩
  · exact .inr hpanic

theorem plays_KRequestPostBytes (data : Bytes) :
    Plays (fun kipfsgo => kipfsgo.KRequestPostBytes refnum data data.length) env p := by
  have hexport : (libkipfs env).KRequestPostBytes refnum data data.length =
      (borrow refnum >>= fun obj => assertBuilder obj >>= fun rb =>
        onBuilder rb (Shell.PostData2 env.out data) >>= sendReturn) := by
    simp only [libkipfs, KRequestPostBytes, GoBytes_length, pure_bind]
  rcases plays_sending refnum p (Shell.PostData2 env.out data) with
    ⟨sent, p', hmemory, hrun⟩ | ⟨x, p', hrun⟩
  · exact .inl ⟨{ Outcomes.blank with sent }, p', hmemory, by rw [← hexport] at hrun; exact hrun⟩
  · exact .inr ⟨x, p', by rw [← hexport] at hrun; exact hrun⟩

theorem plays_GetTime : Plays Kipfsgo.GetTime env p :=
  .inl ⟨{ Outcomes.blank with time := env.time }, p, rfl, rfl⟩

theorem plays_KCID (json : Bytes) : Plays (Kipfsgo.KCID · json) env p := by
  cases hcid : Cids.DagCid env.codecs (goString json) with
  | error x =>
      refine .inr ⟨x, p, ?_⟩
      show (KCID env json).run p = _
      rw [KCID, hcid]
      rfl
  | ok cid =>
      refine .inl ⟨{ Outcomes.blank with cid }, p, rfl, ?_⟩
      show (KCID env json).run p = _
      rw [KCID, hcid]
      rfl

/-- An export that creates a reference plays its creation. -/
theorem plays_of_creates {export_ : Kipfsgo → Prog CreateReturn}
    (h : Creates (export_ (libkipfs env)))
    (hplay : ∀ o : Outcomes, export_ o.library = createReturn o.created) : Plays export_ env p := by
  rcases h p with ⟨refnum, q, hrun, hmemory, _⟩ | hpanic
  · refine .inl ⟨{ Outcomes.blank with created := .ok refnum }, q, hmemory, ?_⟩
    rw [hplay]
    exact hrun
  · exact .inr hpanic

theorem plays_KRequestOption (name value : Bytes) :
    Plays (fun kipfsgo => kipfsgo.KRequestOption refnum name value) env p := by
  rcases run_borrowBuilder_cases refnum p
    fun rb => onBuilder rb (Shell.StringOptions (goString name) (goString value)) with
    ⟨ptr, _, hrun⟩ | ⟨x, hrun⟩
  · obtain ⟨c, hset⟩ : ∃ c, (Shell.StringOptions (goString name) (goString value)).run
        ⟨p.builders ptr, p.net⟩ = .ok () c := ⟨_, rfl⟩
    exact .inl ⟨Outcomes.blank, p.withConn ptr c, rfl, hrun.trans (run_onBuilder_ok hset)⟩
  · exact .inr ⟨x, p, hrun⟩

/-- **In every state, every export that the wrappers call plays some outcome, or panics.** -/
theorem libkipfs_plays (env : Env) (p : Process) :
    Plays Kipfsgo.GetTime env p ∧ (∀ json, Plays (Kipfsgo.KCID · json) env p) ∧
      (∀ url, Plays (Kipfsgo.KCreateShell · url) env p) ∧
      (∀ refnum command arg,
        Plays (fun kipfsgo => kipfsgo.KCreateRequest refnum command arg) env p) ∧
      (∀ refnum, Plays (Kipfsgo.KRequestSend · refnum) env p) ∧
      (∀ refnum (data : Bytes),
        Plays (fun kipfsgo => kipfsgo.KRequestPostBytes refnum data data.length) env p) ∧
      ∀ refnum name value,
        Plays (fun kipfsgo => kipfsgo.KRequestOption refnum name value) env p :=
  ⟨plays_GetTime, plays_KCID,
    fun url => plays_of_creates (creates_KCreateShell env url) fun _ => rfl,
    fun refnum command arg =>
      plays_of_creates (creates_KCreateRequest env refnum command arg) fun _ => rfl,
    fun _ => plays_KRequestSend, fun _ => plays_KRequestPostBytes, fun _ => plays_KRequestOption⟩

end Plays

/-! ## Unpacking a result -/

section Unpack

variable {p : Process} {data : Bytes} {err : GoError}

@[simp] theorem run_sendReturn_ok (data : Bytes) :
    (sendReturn (data, none)).run p =
      .ok ⟨some p.memory.next, data.length, none⟩ { p with memory := p.memory.add (.heap data) } :=
  rfl

@[simp] theorem run_sendReturn_error (data : Bytes) (err : GoError) :
    (sendReturn (data, some err)).run p =
      .ok ⟨none, -1, some p.memory.next⟩
        { p with memory := p.memory.add (.heap (err.text ++ [0])) } := rfl

/-- The native binding returns the payload and keeps its block. -/
theorem Native.run_unpack_ok (hlen : data.length < 2 ^ 31) :
    (sendReturn (data, none) >>= Native.unpack).run p =
      .ok data { p with memory := p.memory.add (.heap data) } := by
  rw [EStateM.run_bind, run_sendReturn_ok]
  simp only [Native.unpack, throwIfError, notNull, orAbort_some, pure_bind, toInt32_length hlen]
  rw [run_readBytes (Ledger.find_add_self _ _) le_rfl, List.take_length]

/-- The native binding frees the message and throws it. -/
theorem Native.run_unpack_error :
    (sendReturn (data, some err) >>= Native.unpack).run p =
      .error (.thrown (kstring "Request failed: " ++ toKString (err.text ++ [0])))
        { p with memory := p.memory.skip } := by
  rw [EStateM.run_bind, run_sendReturn_error]
  simp only [Native.unpack, EStateM.run_bind]
  rw [run_throwIfError (Ledger.find_add_self _ _) (Ledger.remove_add_self _ _)]

/-- The JNI binding returns the payload and keeps its block, but an empty payload has no first byte
to copy from. -/
theorem Jni.run_unpack_ok (label : String) (hlen : data.length < 2 ^ 31) :
    (sendReturn (data, none) >>= Jni.unpack label).run p =
      if data = [] then
        .error (.thrown (kstring "ArrayIndexOutOfBoundsException"))
          { p with memory := p.memory.add (.heap data) }
      else .ok data { p with memory := p.memory.add (.heap data) } := by
  rw [EStateM.run_bind, run_sendReturn_ok]
  simp only [Jni.unpack, throwIfError, notNull, orAbort_some, pure_bind, toInt32_length hlen,
    EStateM.run_bind]
  rw [run_readBytes (Ledger.find_add_self _ _) le_rfl, List.take_length]
  cases data <;> rfl

/-- The JNI binding frees the message and throws it, too. -/
theorem Jni.run_unpack_error (label : String) :
    (sendReturn (data, some err) >>= Jni.unpack label).run p =
      .error (.thrown (kstring label ++ toKString (err.text ++ [0])))
        { p with memory := p.memory.skip } := by
  rw [EStateM.run_bind, run_sendReturn_error]
  simp only [Jni.unpack, EStateM.run_bind]
  rw [run_throwIfError (Ledger.find_add_self _ _) (Ledger.remove_add_self _ _)]

end Unpack

end Kipfs
