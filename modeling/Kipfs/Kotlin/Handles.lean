import Kipfs.Kotlin.Objects

/-!
# What the bindings do to handles

The Kotlin objects know a binding by the interface `KIPFSNative` only. As far as the reference table
goes they rely on three things, collected in `HandleContract`: creating enters one fresh reference,
with count two; disposing deletes once; and the other functions leave the table alone. Both bindings
meet the contract over the library.
-/

namespace Kipfs

open Foundation

/-- A program that, when the process survives it, has created a reference and returns it. -/
def MakesHandle (m : Prog Int) : Prop :=
  ∀ p q, survivor (m.run p) = some q → ∃ refnum, m.run p = .ok refnum q ∧ Created p q refnum

/-- What the Kotlin objects rely on. -/
structure HandleContract (kipfs : KIPFSNative) : Prop where
  createNativeShell : ∀ address, MakesHandle (kipfs.createNativeShell address)
  createRequest : ∀ shellRef command arg, MakesHandle (kipfs.createRequest shellRef command arg)
  disposeGoObject : ∀ ref p q, survivor ((kipfs.disposeGoObject ref).run p) = some q →
    (kipfs.disposeGoObject ref).run p = .ok () q ∧ q.objects = p.objects ∧
      p.refs.delete ref = some q.refs
  requestOption : ∀ ref name value, Keeps Process.handles (kipfs.requestOption ref name value)
  sendRequest : ∀ ref, Keeps Process.handles (kipfs.sendRequest ref)
  postString : ∀ ref data, Keeps Process.handles (kipfs.postString ref data)
  postData : ∀ ref data, Keeps Process.handles (kipfs.postData ref data)

/-! ## The bindings -/

section Bindings

variable {env : Env} {p q : Process}

/-- A view that neither the memory nor a method of a builder touches: the handles. -/
theorem handles_withConn (ptr : Nat) (c : Ipfsapi.Conn) (p : Process) :
    (p.withConn ptr c).handles = p.handles := rfl

/-- Deleting succeeds, or is a panic. -/
theorem survivor_KDecRef {ref : Int} (h : survivor ((KDecRef ref).run p) = some q) :
    (KDecRef ref).run p = .ok () q ∧ q.objects = p.objects ∧ p.refs.delete ref = some q.refs := by
  cases hdelete : p.refs.delete ref with
  | none =>
      have hrun : (KDecRef ref).run p = .error (.panic (.unknownRefNum ref)) p := by
        simp [EStateM.run, KDecRef, Seq.Delete, hdelete]
      rw [hrun] at h
      cases h
  | some refs =>
      have hrun : (KDecRef ref).run p = .ok () { p with refs } := by
        simp [EStateM.run, KDecRef, Seq.Delete, hdelete]
      rw [hrun] at h
      cases h
      exact ⟨hrun, rfl, rfl⟩

/-- An exported function that the process survives has returned what its body returns. -/
theorem survivor_cName {α : Type} {m : Prog α} (h : survivor ((cName m).run p) = some q) :
    ∃ a, m.run p = .ok a q ∧ (cName m).run p = .ok a q := by
  rw [run_cName] at h ⊢
  cases hrun : m.run p with
  | ok a q' =>
      rw [hrun] at h
      cases h
      exact ⟨a, rfl, rfl⟩
  | error a q' =>
      rw [hrun] at h
      cases a <;> cases h

/-- A creating export that returned. -/
theorem created_of_ok {m : Prog CreateReturn} (hm : Creates m) {r : CreateReturn}
    (hrun : m.run p = .ok r q) : ∃ refnum, r = ⟨refnum, none⟩ ∧ Created p q refnum := by
  rcases hm p with ⟨refnum, q', hrun', _, hcreated⟩ | ⟨x, q', hrun'⟩
  · cases hrun.symm.trans hrun'
    exact ⟨refnum, rfl, hcreated⟩
  · cases hrun.symm.trans hrun'

/-- The native functions that create return the reference of their export. -/
theorem makesHandle_native {m : Prog CreateReturn} (hm : Creates m) (label : String) :
    MakesHandle (m >>= fun r => do
      throwIfError label r.r1
      pure r.r0) := by
  intro p q h
  rcases hm p with ⟨refnum, q', hrun, _, hcreated⟩ | ⟨x, q', hrun⟩
  · have hreturn : (m >>= fun r => do
        throwIfError label r.r1
        pure r.r0).run p = .ok refnum q' := by
      rw [EStateM.run_bind, hrun]
      rfl
    rw [hreturn] at h
    cases h
    exact ⟨refnum, hreturn, hcreated⟩
  · rw [EStateM.run_bind, hrun] at h
    cases h

/-- The native binding meets the contract. -/
theorem native_contract (env : Env) : HandleContract (native (libkipfs env)) where
  createNativeShell address := makesHandle_native (creates_KCreateShell env (cstr address)) _
  createRequest shellRef command arg :=
    makesHandle_native (creates_KCreateRequest env shellRef (cstr command) (arg.map cstr)) _
  disposeGoObject _ _ _ := survivor_KDecRef
  requestOption ref _ _ := keeps_KRequestOption handles_withConn ref _ _
  sendRequest ref := keeps_bind (keeps_KRequestSend blind_handles handles_withConn env ref) fun r =>
    Native.keeps_unpack blind_handles r
  postString ref _ :=
    keeps_bind (keeps_KRequestPostString blind_handles handles_withConn env ref _) fun r =>
      Native.keeps_unpack blind_handles r
  postData ref data :=
    keeps_bind (keeps_KRequestPostBytes blind_handles handles_withConn env ref data _) fun r =>
      Native.keeps_unpack blind_handles r

/-- The native export under a JNI function returned the reference that the function returns. -/
theorem jvm_createNativeShell (address : KString) :
    MakesHandle ((jvm (libkipfs env)).createNativeShell address) := by
  intro p q h
  obtain ⟨result, hbody, hreturn⟩ := survivor_cName h
  obtain ⟨addrC, p₁, hget, hbody⟩ := bind_eq_ok.mp hbody
  obtain ⟨chars, p₂, hchars, hbody⟩ := bind_eq_ok.mp hbody
  obtain ⟨r, p₃, hexport, hbody⟩ := bind_eq_ok.mp hbody
  obtain ⟨_, p₄, hrelease, hbody⟩ := bind_eq_ok.mp hbody
  -- what is done for the characters, before and after the export, leaves the handles alone
  have hbefore : p₂.handles = p.handles :=
    ((keeps_charsAt addrC).of_run hchars).trans
      ((keeps_GetStringUTFChars blind_handles address).of_run hget)
  have hafter : p₄.handles = p₃.handles :=
    (keeps_ReleaseStringUTFChars blind_handles addrC).of_run hrelease
  obtain ⟨refnum, hr, hcreated⟩ := created_of_ok (creates_KCreateShell env _) hexport
  subst hr
  cases hbody
  exact ⟨refnum, hreturn, hcreated.congr hbefore.symm hafter⟩

theorem jvm_createRequest (shellRef : Int) (command : KString) (arg : Option KString) :
    MakesHandle ((jvm (libkipfs env)).createRequest shellRef command arg) := by
  intro p q h
  obtain ⟨result, hbody, hreturn⟩ := survivor_cName h
  obtain ⟨cCommand, p₁, hget, hbody⟩ := bind_eq_ok.mp hbody
  have hget := (keeps_GetStringUTFChars blind_handles command).of_run hget
  cases arg with
  | none =>
      obtain ⟨chars, p₂, hchars, hbody⟩ := bind_eq_ok.mp hbody
      obtain ⟨r, p₃, hexport, hbody⟩ := bind_eq_ok.mp hbody
      obtain ⟨_, p₄, hrelease, hbody⟩ := bind_eq_ok.mp hbody
      have hbefore : p₂.handles = p.handles := ((keeps_charsAt cCommand).of_run hchars).trans hget
      have hafter : p₄.handles = p₃.handles :=
        (keeps_ReleaseStringUTFChars blind_handles cCommand).of_run hrelease
      obtain ⟨refnum, hr, hcreated⟩ :=
        created_of_ok (creates_KCreateRequest env shellRef chars none) hexport
      subst hr
      cases hbody
      exact ⟨refnum, hreturn, hcreated.congr hbefore.symm hafter⟩
  | some arg =>
      obtain ⟨cArg, p₂, hgetArg, hbody⟩ := bind_eq_ok.mp hbody
      obtain ⟨chars, p₃, hchars, hbody⟩ := bind_eq_ok.mp hbody
      obtain ⟨charsArg, p₄, hcharsArg, hbody⟩ := bind_eq_ok.mp hbody
      obtain ⟨r, p₅, hexport, hbody⟩ := bind_eq_ok.mp hbody
      obtain ⟨_, p₆, hrelease, hbody⟩ := bind_eq_ok.mp hbody
      obtain ⟨_, p₇, hreleaseArg, hbody⟩ := bind_eq_ok.mp hbody
      have hbefore : p₄.handles = p.handles :=
        calc p₄.handles = p₃.handles := (keeps_charsAt cArg).of_run hcharsArg
          _ = p₂.handles := (keeps_charsAt cCommand).of_run hchars
          _ = p₁.handles := (keeps_GetStringUTFChars blind_handles arg).of_run hgetArg
          _ = p.handles := hget
      have hafter : p₇.handles = p₅.handles :=
        calc p₇.handles = p₆.handles :=
              (keeps_ReleaseStringUTFChars blind_handles cArg).of_run hreleaseArg
          _ = p₅.handles := (keeps_ReleaseStringUTFChars blind_handles cCommand).of_run hrelease
      obtain ⟨refnum, hr, hcreated⟩ := created_of_ok
        (creates_KCreateRequest env shellRef chars (some charsArg)) hexport
      subst hr
      cases hbody
      exact ⟨refnum, hreturn, hcreated.congr hbefore.symm hafter⟩

/-- The JNI binding meets the contract. -/
theorem jvm_contract (env : Env) : HandleContract (jvm (libkipfs env)) where
  createNativeShell := jvm_createNativeShell
  createRequest := jvm_createRequest
  disposeGoObject ref p q h := by
    obtain ⟨_, hbody, hreturn⟩ := survivor_cName h
    have hdelete := survivor_KDecRef (q := q) (by rw [show (KDecRef ref).run p = _ from hbody]; rfl)
    exact ⟨hreturn, hdelete.2⟩
  requestOption ref name value :=
    keeps_cName (keeps_bind (keeps_GetStringUTFChars blind_handles name) fun cName =>
      keeps_bind (keeps_GetStringUTFChars blind_handles value) fun cValue =>
        keeps_bind (keeps_charsAt cName) fun _ => keeps_bind (keeps_charsAt cValue) fun _ =>
          keeps_bind (keeps_KRequestOption handles_withConn ref _ _) fun _ =>
            keeps_bind (keeps_ReleaseStringUTFChars blind_handles cName) fun _ =>
              keeps_ReleaseStringUTFChars blind_handles cValue)
  sendRequest ref :=
    keeps_cName (keeps_bind (keeps_KRequestSend blind_handles handles_withConn env ref) fun r =>
      Jni.keeps_unpack blind_handles _ r)
  postString _ _ := keeps_abort _
  postData ref data :=
    keeps_cName (keeps_bind (keeps_allocate blind_handles _) fun cData =>
      keeps_bind (keeps_elementsAt cData) fun _ =>
        keeps_bind (keeps_KRequestPostBytes blind_handles handles_withConn env ref _ _) fun r =>
          Jni.keeps_unpack blind_handles _ r)

end Bindings

/-! ## The methods of an object -/

section Methods

variable {kipfs : KIPFSNative} {p q : Process} {i : Nat}

/-- Connecting does nothing on a shell with a reference, and creates one for a shell without. -/
theorem survivor_connect (hcontract : HandleContract kipfs) {ipfsAddress : KString}
    (h : survivor ((KNativeShell.connect kipfs i ipfsAddress).run p) = some q) :
    (KNativeShell.connect kipfs i ipfsAddress).run p = .ok () q ∧
      (p.refOf i ≠ 0 ∧ q = p ∨
        p.refOf i = 0 ∧ ∃ middle refnum,
          (kipfs.createNativeShell ipfsAddress).run p = .ok refnum middle ∧
            Created p middle refnum ∧ q = middle.withRef i refnum) := by
  rw [KNativeShell.connect, EStateM.run_bind, run_getRef] at h ⊢
  dsimp only at h ⊢
  by_cases hzero : p.refOf i = 0
  · rw [if_neg (not_not.mpr hzero)] at h ⊢
    obtain ⟨refnum, middle, hrun, hcreated, hset⟩ :=
      survivor_bind (hcontract.createNativeShell ipfsAddress p) h
    cases hset
    refine ⟨?_, .inr ⟨hzero, middle, refnum, hrun, hcreated, rfl⟩⟩
    rw [EStateM.run_bind, hrun]
    rfl
  · rw [if_pos hzero] at h ⊢
    cases h
    exact ⟨rfl, .inl ⟨hzero, rfl⟩⟩

/-- A request connects, creates a reference and gives it to a new object. -/
theorem survivor_request (hcontract : HandleContract kipfs) {ipfsAddress command : KString}
    {arg : Option KString}
    (h : survivor ((KNativeShell.request kipfs i ipfsAddress command arg).run p) = some q) :
    ∃ connected middle refnum,
      survivor ((KNativeShell.connect kipfs i ipfsAddress).run p) = some connected ∧
        (kipfs.createRequest (connected.refOf i) command arg).run connected = .ok refnum middle ∧
        Created connected middle refnum ∧ q = middle.withObject ⟨.request, refnum⟩ := by
  obtain ⟨_, connected, hconnect, _, hrest⟩ :=
    survivor_bind (P := fun _ _ => True)
      (fun q hq => ⟨(), (survivor_connect hcontract hq).1, trivial⟩) h
  rw [EStateM.run_bind, run_getRef] at hrest
  obtain ⟨refnum, middle, hrun, hcreated, hnew⟩ :=
    survivor_bind (hcontract.createRequest (connected.refOf i) command arg connected) hrest
  cases hnew
  refine ⟨connected, middle, refnum, ?_, hrun, hcreated, rfl⟩
  rw [hconnect]
  rfl

/-- Closing does nothing on an object without a reference, and deletes the reference of another. -/
theorem survivor_close (hcontract : HandleContract kipfs)
    (h : survivor ((KNativeObject.close kipfs i).run p) = some q) :
    p.refOf i = 0 ∧ q = p ∨ p.refOf i ≠ 0 ∧ ∃ middle : Process, middle.objects = p.objects ∧
      p.refs.delete (p.refOf i) = some middle.refs ∧ q = middle.withRef i 0 := by
  rw [KNativeObject.close, EStateM.run_bind, run_getRef] at h
  dsimp only at h
  by_cases hzero : p.refOf i = 0
  · rw [if_neg (not_not.mpr hzero)] at h
    cases h
    exact .inl ⟨hzero, rfl⟩
  · rw [if_pos hzero, EStateM.run_bind, run_getRef] at h
    refine .inr ⟨hzero, ?_⟩
    obtain ⟨_, middle, _, ⟨hobjects, hdelete⟩, hset⟩ :=
      survivor_bind
        (P := fun _ q => q.objects = p.objects ∧ p.refs.delete (p.refOf i) = some q.refs)
        (fun q hq => ⟨(), hcontract.disposeGoObject (p.refOf i) p q hq⟩) h
    cases hset
    exact ⟨middle, hobjects, hdelete, rfl⟩

end Methods

end Kipfs
