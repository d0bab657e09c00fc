import Kipfs.Kotlin.Outcomes

/-!
# The results the caller gets

`sendRequest` and `postData` unpack the same triple in both bindings. On a native target every
outcome is delivered: the payload, or an exception with the message. On the JVM the exception leaves
an exported function, and so does the one that `addressOf` throws for an empty payload, and the
process ends. `sameResults_iff` says which outcomes both bindings deliver.
-/

namespace Kipfs

open Foundation

/-- A call delivers an outcome: it returns the payload, or throws an exception with the message as a
C string carries it, and in both cases leaves the handles as they were. -/
def Delivers (call : Prog Bytes) (p : Process) : Bytes × Option GoError → Prop
  | (data, none) => ∃ p', call.run p = .ok data p' ∧ p'.handles = p.handles
  | (_, some err) => ∃ label p',
      call.run p = .error (.thrown (label ++ toKString (err.text ++ [0]))) p' ∧
        p'.handles = p.handles

/-- A call that runs as another does, from the same handles, delivers the same. -/
theorem Delivers.of_run {call call' : Prog Bytes} {p p₁ : Process} {sent : Bytes × Option GoError}
    (h : Delivers call' p₁ sent) (hrun : call.run p = call'.run p₁)
    (hhandles : p₁.handles = p.handles) : Delivers call p sent := by
  rcases sent with ⟨body, _ | err⟩
  · obtain ⟨p', hreturn, hkept⟩ := h
    exact ⟨p', hrun.trans hreturn, hkept.trans hhandles⟩
  · obtain ⟨label, p', hthrow, hkept⟩ := h
    exact ⟨label, p', hrun.trans hthrow, hkept.trans hhandles⟩

/-- Both bindings deliver an outcome, of `sendRequest` as well as of `postData`. -/
structure SameResults (o : Outcomes) (refnum : Int) (data : Bytes) (p : Process) : Prop where
  native_send : Delivers ((native o.library).sendRequest refnum) p o.sent
  native_post : Delivers ((native o.library).postData refnum data) p o.sent
  jvm_send : Delivers ((jvm o.library).sendRequest refnum) p o.sent
  jvm_post : Delivers ((jvm o.library).postData refnum data) p o.sent

section Results

variable {o : Outcomes} (refnum : Int) (data : Bytes) (p : Process)

/-- The native binding delivers every outcome. -/
theorem native_delivers (hlen : o.sent.1.length < 2 ^ 31) :
    Delivers (sendReturn o.sent >>= Native.unpack) p o.sent := by
  rcases hsent : o.sent with ⟨body, _ | err⟩
  · rw [hsent] at hlen
    exact ⟨_, Native.run_unpack_ok hlen, rfl⟩
  · exact ⟨_, _, Native.run_unpack_error, rfl⟩

/-- An exported function delivers what its body delivers, but no exception. -/
theorem jvm_delivers_iff (label : String) (hlen : o.sent.1.length < 2 ^ 31) :
    Delivers (cName (sendReturn o.sent >>= Jni.unpack label)) p o.sent ↔
      o.sent.2 = none ∧ o.sent.1 ≠ [] := by
  rcases hsent : o.sent with ⟨body, _ | err⟩
  · rw [hsent] at hlen
    have hrun := Jni.run_unpack_ok (p := p) label hlen
    constructor
    · rintro ⟨p', hreturn, -⟩
      refine ⟨rfl, fun hempty => ?_⟩
      rw [run_cName, hrun, if_pos hempty] at hreturn
      cases hreturn
    · rintro ⟨-, hne⟩
      refine ⟨{ p with memory := p.memory.add (.heap body) }, ?_, rfl⟩
      rw [run_cName, hrun, if_neg hne]
  · constructor
    · rintro ⟨message, p', hthrow, -⟩
      rw [run_cName, Jni.run_unpack_error] at hthrow
      cases hthrow
    · rintro ⟨hnone, -⟩
      cases hnone

/-- `postData` of the JNI binding is an exported function that unpacks the outcome. -/
theorem run_jvm_postData :
    ((jvm o.library).postData refnum data).run p =
      (cName (sendReturn o.sent >>= Jni.unpack "PostData failed: ")).run
        { p with memory := p.memory.add (.elements data) } := by
  show (Jni.postData o.library refnum data).run p = _
  simp only [Jni.postData, run_cName, EStateM.run_bind, run_GetByteArrayElements]
  rw [run_elementsAt (Ledger.find_add_self _ _)]
  rfl

/-- **The bindings deliver the same results exactly for a response whose body is not empty.** -/
theorem sameResults_iff (hlen : o.sent.1.length < 2 ^ 31) :
    SameResults o refnum data p ↔ o.sent.2 = none ∧ o.sent.1 ≠ [] := by
  constructor
  · intro hsame
    exact (jvm_delivers_iff p _ hlen).mp hsame.jvm_send
  · intro hbody
    have hpost := (jvm_delivers_iff { p with memory := p.memory.add (.elements data) }
      "PostData failed: " hlen).mpr hbody
    exact
      { native_send := native_delivers p hlen
        native_post := native_delivers p hlen
        jvm_send := (jvm_delivers_iff p _ hlen).mpr hbody
        jvm_post := hpost.of_run (run_jvm_postData refnum data p) rfl }

end Results

/-- Outcomes with the given results of sending. -/
def Outcomes.sending (sent : Bytes × Option GoError) : Outcomes := { Outcomes.blank with sent }

/-- A body of two bytes reaches both callers. -/
theorem sameResults_body :
    SameResults (.sending ([104, 105], none)) (-24) [1] Process.start :=
  (sameResults_iff (-24) [1] Process.start (by decide)).mpr ⟨rfl, by decide⟩

/-- An empty body, and an error with the message `x`, reach the native caller, and on the JVM end
the process. -/
theorem not_sameResults :
    (∃ p, ((native (Outcomes.sending ([], none)).library).sendRequest (-24)).run Process.start =
        .ok [] p) ∧
      (∃ p, ((jvm (Outcomes.sending ([], none)).library).sendRequest (-24)).run Process.start =
        .error .terminated p) ∧
      ¬ SameResults (.sending ([], none)) (-24) [1] Process.start ∧
      (∃ message p, ((native (Outcomes.sending ([], some (.other [120]))).library).sendRequest
        (-24)).run Process.start = .error (.thrown message) p) ∧
      (∃ p, ((jvm (Outcomes.sending ([], some (.other [120]))).library).sendRequest (-24)).run
        Process.start = .error .terminated p) ∧
      ¬ SameResults (.sending ([], some (.other [120]))) (-24) [1] Process.start := by
  refine ⟨⟨_, rfl⟩, ⟨_, rfl⟩, fun hsame => ?_, ⟨_, _, rfl⟩, ⟨_, rfl⟩, fun hsame => ?_⟩
  · obtain ⟨_, hne⟩ :=
      (jvm_delivers_iff (o := .sending ([], none)) _ _ (by decide)).mp hsame.jvm_send
    exact hne rfl
  · obtain ⟨hnone, _⟩ := (jvm_delivers_iff (o := .sending ([], some (.other [120]))) _ _
      (by decide)).mp hsame.jvm_send
    cases hnone

end Kipfs
