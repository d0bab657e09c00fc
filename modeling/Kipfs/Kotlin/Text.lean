import Kipfs.Kotlin.Jni

/-!
# The text Go receives

A Kotlin string reaches Go in one of six places. The native binding passes it as UTF-8, the JNI
binding as modified UTF-8. `goText` runs a binding against a library that shows the Go string it is
handed in a given place, and `sameText_iff` says for which strings both bindings hand over the
same, standard encoding.
-/

namespace Kipfs

open Foundation

/-- A place for a text among the arguments of the exports, with the texts beside it. -/
inductive TextPlace where
  | json
  | url
  | command (arg : Option KString)
  | arg (command : KString)
  | name (value : KString)
  | value (name : KString)
  deriving DecidableEq, Repr

/-- End the process by showing the Go string of an argument. -/
def showText {α : Type} (memory : Bytes) : Prog α := abort (.panic (.value (goString memory)))

/-- A library that shows the text it is handed in the given place. -/
def showing (place : TextPlace) : Kipfsgo where
  GetTime := abort .terminated
  KCID json := showText json
  KDecRef _ := pure ()
  KCreateShell url := showText url
  KCreateRequest _ command arg :=
    match place, arg with
    | .arg _, some arg => showText arg
    | _, _ => showText command
  KRequestSend _ := abort .terminated
  KRequestPostString _ _ := abort .terminated
  KRequestPostBytes _ _ _ := abort .terminated
  KRequestOption _ name value :=
    match place with
    | .value _ => showText value
    | _ => showText name

/-- The call that passes a text in the given place. -/
def TextPlace.pass (kipfs : KIPFSNative) (s : KString) (refnum : Int) : TextPlace → Prog Unit
  | .json => discard (kipfs.dagCID s)
  | .url => discard (kipfs.createNativeShell s)
  | .command beside => discard (kipfs.createRequest refnum s beside)
  | .arg beside => discard (kipfs.createRequest refnum beside (some s))
  | .name beside => kipfs.requestOption refnum s beside
  | .value beside => kipfs.requestOption refnum beside s

/-- The Go string that arrives in a place when a binding passes a text in it. -/
def goText (binding : Kipfsgo → KIPFSNative) (place : TextPlace) (s : KString) (refnum : Int)
    (p : Process) : Option Bytes :=
  match (place.pass (binding (showing place)) s refnum).run p with
  | .error (.panic (.value text)) _ => some text
  | _ => none

section Places

variable (place : TextPlace) (s : KString) (refnum : Int) (p : Process)

/-- The native binding passes UTF-8 up to its terminating NUL in every place. -/
theorem goText_native : goText native place s refnum p = some (goString (cstr s)) := by
  cases place with
  | json => rfl
  | url => rfl
  | command arg => rfl
  | arg command => rfl
  | name value => rfl
  | value name => rfl

/-- Every JNI function hands the characters of its string to the export. -/
theorem run_pass_jvm :
    ∃ p', (place.pass (jvm (showing place)) s refnum).run p =
      .error (.panic (.value (goString (modifiedUtf8 s ++ [0])))) p' := by
  cases place with
  | json => simp [TextPlace.pass, jvm, Jni.dagCID, showing, showText]
  | url => simp [TextPlace.pass, jvm, Jni.createNativeShell, showing, showText]
  | command arg =>
      cases arg with
      | none =>
          simp [TextPlace.pass, jvm, Jni.createRequest, showing, showText]
      | some arg =>
          simp [TextPlace.pass, jvm, Jni.createRequest, showing, showText]
  | arg command =>
      simp [TextPlace.pass, jvm, Jni.createRequest, showing, showText]
  | name value =>
      simp [TextPlace.pass, jvm, Jni.requestOption, showing, showText]
  | value name =>
      simp [TextPlace.pass, jvm, Jni.requestOption, showing, showText]

/-- The JNI binding passes modified UTF-8 up to its terminating NUL in every place. -/
theorem goText_jvm : goText jvm place s refnum p = some (goString (modifiedUtf8 s ++ [0])) := by
  obtain ⟨p', hrun⟩ := run_pass_jvm place s refnum p
  rw [goText, hrun]

end Places

section Cid

variable {env : Env} {s : KString} {cid : Bytes} (p : Process)

/-- `dagCID` on a native target, for a text that has an identifier. -/
theorem run_native_dagCID (h : Cids.DagCid env.codecs (goString (cstr s)) = .ok cid) :
    ∃ p', ((native (libkipfs env)).dagCID s).run p = .ok (toKString (cid ++ [0])) p' := by
  have hcid : KCID env (cstr s) = CString cid := by rw [KCID, h]
  refine ⟨{ p with memory := p.memory.skip }, ?_⟩
  show (Native.dagCID (libkipfs env) s).run p = _
  simp only [Native.dagCID, libkipfs, hcid, EStateM.run_bind, run_CString, notNull, orAbort_some,
    EStateM.run_pure]
  exact run_copyToKString (Ledger.find_add_self _ _) (Ledger.remove_add_self _ _)

/-- `dagCID` on the JVM, for a text that has an identifier. -/
theorem run_jvm_dagCID (h : Cids.DagCid env.codecs (goString (modifiedUtf8 s ++ [0])) = .ok cid) :
    ∃ p', ((jvm (libkipfs env)).dagCID s).run p =
      .ok (decodeModified (goString (cid ++ [0]))) p' := by
  have hcid : KCID env (modifiedUtf8 s ++ [0]) = CString cid := by rw [KCID, h]
  simp [jvm, Jni.dagCID, libkipfs, hcid, notNull, ReleaseStringUTFChars, NewStringUTF]

end Cid

/-- Both bindings hand Go the standard UTF-8 encoding of the string in every place, and so they
compute the same identifier from it. The text of an identifier is ASCII. -/
structure SameText (s : KString) : Prop where
  native_text : ∀ place refnum p, goText native place s refnum p = some (utf8 s)
  jvm_text : ∀ place refnum p, goText jvm place s refnum p = some (utf8 s)
  cid : ∀ (env : Env) (p : Process) (cid : Bytes), Cids.DagCid env.codecs (utf8 s) = .ok cid →
    (∀ b ∈ cid, b ≠ 0 ∧ b.toNat < 0x80) →
      ∃ text p' p'', ((native (libkipfs env)).dagCID s).run p = .ok text p' ∧
        ((jvm (libkipfs env)).dagCID s).run p = .ok text p''

section SameText

variable {s : KString}

/-- The text of an identifier is the same whichever of the two decoders reads it. -/
theorem decode_cid {cid : Bytes} (h : ∀ b ∈ cid, b ≠ 0 ∧ b.toNat < 0x80) :
    toKString (cid ++ [0]) = decodeModified (goString (cid ++ [0])) := by
  have hzero : (0 : UInt8) ∉ cid := fun hmem => (h 0 hmem).1 rfl
  have hascii : ∀ b ∈ cid, b.toNat < 0x80 := fun b hb => (h b hb).2
  rw [toKString, goString_terminated hzero, decodeModified_ascii hascii,
    encodeUtf16_decodeUtf8_ascii hascii]

/-- A string of the basic plane is handed over alike. -/
theorem sameText_of_basic (hzero : 0 ∉ s) (hbasic : Basic s) : SameText s := by
  have hnative : goString (cstr s) = utf8 s := goString_terminated (zero_notMem_utf8 hzero) []
  have hjvm : goString (modifiedUtf8 s ++ [0]) = utf8 s := by
    rw [goString_terminated (zero_notMem_modifiedUtf8 s), modifiedUtf8_eq_utf8 hbasic hzero]
  refine ⟨fun place refnum p => ?_, fun place refnum p => ?_, fun env p cid hcid hascii => ?_⟩
  · rw [goText_native, hnative]
  · rw [goText_jvm, hjvm]
  · obtain ⟨p', hrun⟩ := run_native_dagCID (s := s) p (hnative.symm ▸ hcid)
    obtain ⟨p'', hrun'⟩ := run_jvm_dagCID (s := s) p (hjvm.symm ▸ hcid)
    exact ⟨_, p', p'', hrun, decode_cid hascii ▸ hrun'⟩

/-- **For a well-formed string without U+0000, both bindings hand Go the standard UTF-8 encoding,
and compute the same identifier, exactly when the string has no supplementary character.** -/
theorem sameText_iff (hwf : WellFormed s) (hzero : 0 ∉ s) : SameText s ↔ Basic s := by
  refine ⟨fun hsame => ?_, sameText_of_basic hzero⟩
  have hjvm := hsame.jvm_text .json 0 Process.start
  rw [goText_jvm, goString_terminated (zero_notMem_modifiedUtf8 s)] at hjvm
  exact (modifiedUtf8_eq_utf8_iff hwf hzero).mp (Option.some.inj hjvm)

/-- The text `é€` is handed over alike. -/
theorem sameText_basic : SameText [0xE9, 0x20AC] :=
  (sameText_iff (by decide) (by decide)).mpr (by decide)

/-- The character U+1F600 arrives as six bytes from the JVM and as four from a native target. -/
theorem not_sameText_supplementary :
    WellFormed [0xD83D, 0xDE00] ∧ (0 : UInt16) ∉ ([0xD83D, 0xDE00] : KString) ∧
      ¬ SameText [0xD83D, 0xDE00] ∧
      goText native .json [0xD83D, 0xDE00] 0 Process.start = some [0xF0, 0x9F, 0x98, 0x80] ∧
      goText jvm .json [0xD83D, 0xDE00] 0 Process.start =
        some [0xED, 0xA0, 0xBD, 0xED, 0xB8, 0x80] := by
  have hnative : goText native .json [0xD83D, 0xDE00] 0 Process.start =
      some [0xF0, 0x9F, 0x98, 0x80] := by
    rw [goText_native]
    decide
  have hjvm : goText jvm .json [0xD83D, 0xDE00] 0 Process.start =
      some [0xED, 0xA0, 0xBD, 0xED, 0xB8, 0x80] := by
    rw [goText_jvm]
    decide
  refine ⟨by decide, by decide, fun hsame => ?_, hnative, hjvm⟩
  have hsame' := (hsame.native_text .json 0 Process.start).trans
    (hsame.jvm_text .json 0 Process.start).symm
  rw [hnative, hjvm] at hsame'
  exact absurd hsame' (by decide)

end SameText

end Kipfs
