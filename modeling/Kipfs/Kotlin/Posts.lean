import Kipfs.Kotlin.Residue

/-!
# Posting a text

A request posts a text and an array along two paths: the text as a NUL-terminated string through
`KRequestPostString`, the array as a pointer with a length through `KRequestPostBytes`. On the
native binding the first path is the second on the bytes before the first NUL,
`postString_eq_postData`, so a text is posted whole exactly when it has none. -/

namespace Kipfs

open Foundation Ipfsapi

/-- `String.encodeToByteArray`: UTF-8, with U+FFFD for an unpaired surrogate. -/
def encodeToByteArray (s : KString) : Bytes := utf8 s

/-- The content of the one file in a multipart body. -/
def fileContent (w : WireRequest) : Option Bytes :=
  match w.body with
  | some (.multipart [⟨_, .readerFile content⟩]) => some content
  | _ => none

/-- A program issues one HTTP request, the given one. -/
def Issues {α : Type} (m : Prog α) (p : Process) (w : WireRequest) : Prop :=
  (final (m.run p)).net.issued = p.net.issued ++ [w]

/-- A request posts a text by giving the server a file with exactly the bytes of the text, as it
does when it posts the bytes. -/
def PostsItsBytes (env : Env) (p : Process) (i : Nat) (s fileName : KString) : Prop :=
  ∃ w w', Issues (KNativeRequest.postString (native (libkipfs env)) i s fileName) p w ∧
    Issues (KNativeRequest.postData (native (libkipfs env)) i (encodeToByteArray s)) p w' ∧
    fileContent w = some (encodeToByteArray s) ∧ fileContent w' = fileContent w

section Posts

variable {env : Env} {p : Process} {i : Nat} {refnum : Int} {rb : RequestBuilder}
  {s fileName : KString} {data : Bytes} {w : WireRequest}

/-- What one program issues is one request. -/
theorem Issues.unique {α : Type} {m : Prog α} {w' : WireRequest} (h : Issues m p w)
    (h' : Issues m p w') : w = w' :=
  List.singleton_inj.mp (List.append_cancel_left (h.symm.trans h'))

/-- **Posting a text is posting the bytes before its first NUL.** -/
theorem postString_eq_postData (env : Env) (i : Nat) (s fileName : KString) :
    KNativeRequest.postString (native (libkipfs env)) i s fileName =
      KNativeRequest.postData (native (libkipfs env)) i (goString (cstr s)) := by
  have hexport : ∀ refnum : Int, KRequestPostString env refnum (cstr s) =
      KRequestPostBytes env refnum (goString (cstr s)) (goString (cstr s)).length := by
    intro refnum
    simp only [KRequestPostString, KRequestPostBytes, GoBytes_length, pure_bind]
    rfl
  have hnative : ∀ refnum : Int, (native (libkipfs env)).postString refnum s =
      (native (libkipfs env)).postData refnum (goString (cstr s)) := by
    intro refnum
    show (KRequestPostString env refnum (cstr s) >>= Native.unpack) = _
    rw [hexport]
    rfl
  simp only [KNativeRequest.postString, KNativeRequest.postData, hnative]

/-- The bytes of a text before its first NUL are all of them exactly when it has no U+0000. -/
theorem goString_cstr_iff : goString (cstr s) = encodeToByteArray s ↔ 0 ∉ s := by
  rw [cstr, encodeToByteArray, goString_terminated_iff]
  exact ⟨fun h hmem => h (zero_mem_utf8 hmem), zero_notMem_utf8⟩

/-- An open request posts an array as one file. -/
theorem issues_postData (env : Env) (h : Behind p i rb) (data : Bytes) :
    Issues (KNativeRequest.postData (native (libkipfs env)) i data) p
      ((Sending.post data).posted rb).wire :=
  issued_sending env h (.post data)

theorem fileContent_posted (rb : RequestBuilder) (data : Bytes) :
    fileContent ((Sending.post data).posted rb).wire = some data := rfl

/-- A request that posts something is open: a builder is behind it. -/
theorem behind_of_issues (hrequest : p.objects[i]? = some ⟨.request, refnum⟩)
    (h : Issues (KNativeRequest.postData (native (libkipfs env)) i data) p w) :
    ∃ rb, Behind p i rb := by
  rcases run_borrowBuilder_cases refnum p fun rb =>
      onBuilder rb (Shell.PostData2 env.out data) >>= sendReturn with
    ⟨ptr, hlookup, _⟩ | ⟨x, hpanic⟩
  · exact ⟨p.builders ptr, refnum, ptr, hrequest, hlookup, rfl⟩
  · have hexport : (KRequestPostBytes env refnum data data.length).run p = .error (.panic x) p := by
      simp only [KRequestPostBytes, GoBytes_length, pure_bind]
      exact hpanic
    have hrun : (KNativeRequest.postData (native (libkipfs env)) i data).run p =
        .error (.panic x) p := by
      rw [KNativeRequest.postData, EStateM.run_bind, run_getRef, refOf_eq hrequest]
      show (KRequestPostBytes env refnum data data.length >>= Native.unpack).run p = _
      rw [EStateM.run_bind, hexport]
    rw [Issues, hrun] at h
    simp at h

/-- An open request posts a text as its bytes exactly when the text has no U+0000. -/
theorem postsItsBytes_open_iff (h : Behind p i rb) (s fileName : KString) :
    PostsItsBytes env p i s fileName ↔ 0 ∉ s := by
  unfold PostsItsBytes
  rw [postString_eq_postData]
  constructor
  · intro hposts
    obtain ⟨w, w', hissues, _, hcontent, _⟩ := hposts
    rw [hissues.unique (issues_postData env h _), fileContent_posted] at hcontent
    exact goString_cstr_iff.mp (Option.some.inj hcontent)
  · intro hzero
    rw [goString_cstr_iff.mpr hzero]
    have hissues := issues_postData env h (encodeToByteArray s)
    exact ⟨_, _, hissues, hissues, fileContent_posted rb _, rfl⟩

/-- **A request posts a text as its bytes exactly when it is open and the text has no U+0000.** -/
theorem postsItsBytes_iff (hrequest : p.objects[i]? = some ⟨.request, refnum⟩)
    (s fileName : KString) :
    PostsItsBytes env p i s fileName ↔ (∃ rb, Behind p i rb) ∧ 0 ∉ s := by
  constructor
  · intro h
    obtain ⟨rb, hbehind⟩ : ∃ rb, Behind p i rb := by
      obtain ⟨w, _, hissues, _⟩ := h
      rw [postString_eq_postData] at hissues
      exact behind_of_issues hrequest hissues
    exact ⟨⟨rb, hbehind⟩, (postsItsBytes_open_iff hbehind s fileName).mp h⟩
  · intro h
    obtain ⟨⟨rb, hbehind⟩, hzero⟩ := h
    exact (postsItsBytes_open_iff hbehind s fileName).mpr hzero

/-- After any calls on it a new request is still open. -/
theorem postsItsBytes_run {q : Process} {shell : Nat} {command : KString} {arg : Option KString}
    {calls : List RequestCall}
    (hrun : run (step (native (libkipfs env))) p
      (.request shell command arg :: calls.map (RequestCall.call p.objects.length)) = some q)
    (s fileName : KString) :
    PostsItsBytes env q p.objects.length s fileName ↔ 0 ∉ s := by
  obtain ⟨made, hmove, hcalls⟩ := run_cons_eq_some.mp hrun
  exact postsItsBytes_open_iff (behind_run (behind_request hmove) hcalls) s fileName

end Posts

/-- The first request of a shell is open. -/
theorem oneShell_request :
    ∃ q, step (native (libkipfs standalone)) oneShell (.request 0 [105] none) = some q ∧
      Behind q 1 (builderFor [104] [105] none) := by
  have hmove : step (native (libkipfs standalone)) oneShell (.request 0 [105] none) = some _ := rfl
  exact ⟨_, hmove, behind_request hmove⟩

/-- The text `é€` is posted whole. -/
theorem postsItsBytes_basic :
    ∃ q, step (native (libkipfs standalone)) oneShell (.request 0 [105] none) = some q ∧
      PostsItsBytes standalone q 1 [0xE9, 0x20AC] [] := by
  obtain ⟨q, hmove, refnum, ptr, hrequest, hrest⟩ := oneShell_request
  exact ⟨q, hmove, (postsItsBytes_iff hrequest _ _).mpr
    ⟨⟨_, refnum, ptr, hrequest, hrest⟩, by decide⟩⟩

/-- Of a text with U+0000 after its first character the server gets the first character. -/
theorem not_postsItsBytes_nul :
    ∃ q, step (native (libkipfs standalone)) oneShell (.request 0 [105] none) = some q ∧
      (∃ w, Issues (KNativeRequest.postString (native (libkipfs standalone)) 1 [97, 0, 98] []) q w ∧
        fileContent w = some [97]) ∧
      (∃ w, Issues (KNativeRequest.postData (native (libkipfs standalone)) 1
          (encodeToByteArray [97, 0, 98])) q w ∧ fileContent w = some [97, 0, 98]) ∧
      ¬ PostsItsBytes standalone q 1 [97, 0, 98] [] := by
  obtain ⟨q, hmove, hbehind⟩ := oneShell_request
  have hcut : goString (cstr [97, 0, 98]) = [97] := by decide
  have hbytes : encodeToByteArray [97, 0, 98] = [97, 0, 98] := by decide
  have hissues := issues_postData standalone hbehind [97]
  rw [← hcut, ← postString_eq_postData standalone 1 [97, 0, 98] [], hcut] at hissues
  refine ⟨q, hmove, ⟨_, hissues, rfl⟩, ⟨_, issues_postData standalone hbehind _, ?_⟩, ?_⟩
  · rw [fileContent_posted, hbytes]
  · intro h
    obtain ⟨w, _, hissues', _, hcontent, _⟩ := h
    rw [hissues'.unique hissues, hbytes, fileContent_posted] at hcontent
    cases hcontent

end Kipfs
