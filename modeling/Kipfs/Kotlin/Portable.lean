import Kipfs.Go.Lifetimes
import Kipfs.Kotlin.Simulation

/-!
# One program on two bindings

A program whose texts both bindings hand to Go alike, and which posts bytes only, runs through the
JNI binding as it does through the native one: in every state the two processes are the same but for
their memory. The JVM ends earlier only where a native caller is given an exception or an empty
array, and there it always does (`bindings_agree`).
-/

namespace Kipfs

open Foundation Ipfsapi

/-- A text without U+0000 and without surrogates. -/
def PortableText (s : KString) : Prop := 0 ∉ s ∧ Basic s

instance (s : KString) : Decidable (PortableText s) := inferInstanceAs (Decidable (_ ∧ _))

/-- The call has portable texts only, and posts none. -/
def Call.Portable : Call → Prop
  | .createShell ipfsAddress => PortableText ipfsAddress
  | .request _ command arg => PortableText command ∧ ∀ text ∈ arg, PortableText text
  | .option _ name value => PortableText name ∧ PortableText value
  | .postString _ _ _ => False
  | _ => True

instance : DecidablePred Call.Portable
  | .createShell ipfsAddress => inferInstanceAs (Decidable (PortableText ipfsAddress))
  | .request _ _ _ => inferInstanceAs (Decidable (_ ∧ _))
  | .option _ _ _ => inferInstanceAs (Decidable (_ ∧ _))
  | .postString _ _ _ => inferInstanceAs (Decidable False)
  | .connect _ | .close _ | .finalize _ | .send _ | .postData _ _ =>
      inferInstanceAs (Decidable True)

/-- The address of a shell. -/
def ObjectClass.address : ObjectClass → Option KString
  | shell ipfsAddress => some ipfsAddress
  | request => none

/-- The addresses of the shells. -/
def Process.addresses (p : Process) : List KString :=
  (p.objects.map KNativeObject.cls).filterMap ObjectClass.address

/-- The addresses of the shells are portable. -/
def Process.Portable (p : Process) : Prop := ∀ ipfsAddress ∈ p.addresses, PortableText ipfsAddress

/-- The method under a call that brings its caller bytes. -/
def Call.fetch (kipfs : KIPFSNative) : Call → Option (Prog Bytes)
  | .send i => some (KNativeRequest.send kipfs i)
  | .postString i data fileName => some (KNativeRequest.postString kipfs i data fileName)
  | .postData i data => some (KNativeRequest.postData kipfs i data)
  | _ => none

/-- An exception or an empty array. -/
def Barren (result : EStateM.Result Abort Process Bytes) : Prop :=
  (∃ message q, result = .error (.thrown message) q) ∨ ∃ q, result = .ok [] q

/-- The call brings its caller an exception or an empty array. -/
def Fruitless (kipfs : KIPFSNative) (p : Process) (call : Call) : Prop :=
  ∃ m, call.fetch kipfs = some m ∧ Barren (m.run p)

/-- What a call comes to on the JVM, by whether it brings nothing and what it comes to natively. -/
def Agrees (fruitless : Prop) (jvm native : Option Process) : Prop :=
  (fruitless → jvm = none) ∧ (¬ fruitless → jvm = native)

/-- An exception of Kotlin. -/
def Thrown : Abort → Prop
  | .thrown _ => True
  | _ => False

/-! ## Texts -/

/-- Both bindings hand a portable text to Go as the same string. -/
theorem encode_portable {s : KString} (h : PortableText s) :
    Binding.jni.encode s = Binding.native.encode s := by
  obtain ⟨hzero, hbasic⟩ := h
  show goString (modifiedUtf8 s ++ [0]) = goString (utf8 s ++ [0])
  rw [modifiedUtf8_eq_utf8 hbasic hzero]

/-! ## Functions that throw nothing -/

section Throwing

variable {α : Type} {env : Env} {m : Prog α}

/-- Where nothing is thrown, an exported function does what its body does. -/
theorem cName_of_spares (h : Spares Thrown m) : cName m = m := by
  refine eq_of_run fun p => ?_
  have hp := h p
  rw [run_cName]
  cases hrun : m.run p with
  | ok a q => rfl
  | error a q =>
      rw [hrun] at hp
      cases a with
      | thrown message => exact absurd trivial (hp _ rfl)
      | _ => rfl

/-- Go throws no exceptions. -/
theorem spares_onBuilder (rb : Nat) (m : GoM α) : Spares Thrown (onBuilder rb m) :=
  spares_zoom fun _ _ _ => id

theorem spares_enterShell (env : Env) (url : Bytes) : Spares Thrown (Plain.enterShell env url) :=
  spares_bind (spares_of_ok fun _ => ⟨_, _, rfl⟩) fun _ => spares_createRef id env _

theorem spares_enterRequest (env : Env) (shellRef : Int) (command : Bytes) (arg : Option Bytes) :
    Spares Thrown (Plain.enterRequest env shellRef command arg) := by
  refine spares_bind (spares_borrow (fun _ => id) shellRef) fun obj =>
    spares_bind (spares_assertShell id obj) fun kShell =>
      spares_bind (spares_of_ok fun _ => ⟨_, _, rfl⟩) fun rb =>
        spares_bind (spares_createRef id env _) fun refnum => ?_
  cases arg with
  | none => exact spares_of_ok fun p => ⟨refnum, p, rfl⟩
  | some arg =>
      exact spares_bind (spares_onBuilder rb _) fun _ => spares_of_ok fun p => ⟨refnum, p, rfl⟩

/-- A method of the builder behind a reference. -/
theorem spares_borrowing (refnum : Int) (m : GoM α) :
    Spares Thrown (borrow refnum >>= fun obj => assertBuilder obj >>= fun rb => onBuilder rb m) :=
  spares_bind (spares_borrow (fun _ => id) refnum) fun obj =>
    spares_bind (spares_assertBuilder id obj) fun rb => spares_onBuilder rb m

theorem createNativeShell_portable (env : Env) {address : KString} (h : PortableText address) :
    Plain.createNativeShell env .jni address = Plain.createNativeShell env .native address := by
  rw [Plain.createNativeShell, encode_portable h]
  exact cName_of_spares (spares_enterShell env _)

theorem createRequest_portable (env : Env) (shellRef : Int) {command : KString}
    {arg : Option KString}
    (hcommand : PortableText command) (harg : ∀ text ∈ arg, PortableText text) :
    Plain.createRequest env .jni shellRef command arg =
      Plain.createRequest env .native shellRef command arg := by
  have hencode : arg.map Binding.jni.encode = arg.map Binding.native.encode :=
    Option.map_congr fun text htext => encode_portable (harg text htext)
  rw [Plain.createRequest, encode_portable hcommand, hencode]
  exact cName_of_spares (spares_enterRequest env shellRef _ _)

theorem requestOption_portable (requestRef : Int) {name value : KString} (hname : PortableText name)
    (hvalue : PortableText value) :
    Plain.requestOption .jni requestRef name value =
      Plain.requestOption .native requestRef name value := by
  rw [Plain.requestOption, encode_portable hname, encode_portable hvalue]
  exact cName_of_spares (spares_borrowing requestRef _)

end Throwing

/-! ## Functions that bring bytes -/

section Fetching

variable {p : Process}

/-- A prefix of the bytes, when it has a first byte. -/
theorem prefix_of_pos {n : Int} {data : Bytes} (hle : n ≤ data.length) (hpos : 0 < n) (e : Abort) :
    (if n < 0 then .error e else .ok (data.take n.toNat) : Except Abort Bytes) =
        .ok (data.take n.toNat) ∧
      data.take n.toNat ≠ [] := by
  refine ⟨if_neg (not_lt_of_gt hpos), List.ne_nil_of_length_pos ?_⟩
  rw [List.length_take]
  omega

/-- A prefix of the bytes that has none. -/
theorem prefix_of_not_pos {n : Int} (hpos : ¬ 0 < n) (data : Bytes) (e : Abort) :
    (if n < 0 then .error e else .ok (data.take n.toNat) : Except Abort Bytes) = .error e ∨
      (if n < 0 then .error e else .ok (data.take n.toNat) : Except Abort Bytes) = .ok [] := by
  by_cases hneg : n < 0
  · exact .inl (if_pos hneg)
  · obtain rfl : n = 0 := by omega
    exact .inr rfl

/-- Results that the JVM makes an array of are delivered natively as the same bytes. -/
theorem delivered_of_delivers {result : Bytes × Option GoError}
    (h : Binding.jni.delivers result = true) :
    Binding.native.delivered result = .ok (result.1.take (toInt32 result.1.length).toNat) ∧
      result.1.take (toInt32 result.1.length).toNat ≠ [] := by
  rcases result with ⟨data, _ | err⟩
  · have hpos : decide (0 < toInt32 data.length) = true := h
    rw [decide_eq_true_iff] at hpos
    simp only [Binding.delivered]
    exact prefix_of_pos (toInt32_length_le data) hpos _
  · cases h

/-- All others are delivered natively as an exception or an empty array. -/
theorem delivered_of_not_delivers {result : Bytes × Option GoError}
    (h : Binding.jni.delivers result = false) :
    (∃ message, Binding.native.delivered result = .error (.thrown message)) ∨
      Binding.native.delivered result = .ok [] := by
  rcases result with ⟨data, _ | err⟩
  · have hpos : decide (0 < toInt32 data.length) = false := h
    rw [decide_eq_false_iff_not] at hpos
    simp only [Binding.delivered]
    exact (prefix_of_not_pos hpos data _).imp_left fun hthrown => ⟨_, hthrown⟩
  · exact .inl ⟨_, rfl⟩

/-- The JVM survives the delivery of the results of a program that throws nothing as a native
program does, and ends where that is given nothing. -/
theorem deliver_agrees {body : Prog (Bytes × Option GoError)} (hspares : Spares Thrown body)
    (label : String) :
    Agrees
      (Barren ((Binding.native.call (body >>= Binding.native.deliver "Request failed: ")).run p))
      (survivor ((Binding.jni.call (body >>= Binding.jni.deliver label)).run p))
      (survivor ((Binding.native.call
        (body >>= Binding.native.deliver "Request failed: ")).run p)) := by
  have hthrows := hspares p
  cases hrun : body.run p with
  | error a q =>
      -- a panic ends both
      rw [hrun] at hthrows
      have hnative : (Binding.native.call
          (body >>= Binding.native.deliver "Request failed: ")).run p = .error a q := by
        show (body >>= _).run p = _
        rw [EStateM.run_bind, hrun]
      have hjni : (Binding.jni.call (body >>= Binding.jni.deliver label)).run p = .error a q := by
        show (cName (body >>= _)).run p = _
        rw [run_cName, EStateM.run_bind, hrun]
        cases a with
        | thrown message => exact absurd trivial (hthrows _ rfl)
        | _ => rfl
      rw [hnative, hjni]
      refine ⟨?_, fun _ => rfl⟩
      rintro (⟨message, q', heq⟩ | ⟨q', heq⟩)
      · cases heq
        exact absurd trivial (hthrows _ rfl)
      · cases heq
  | ok result q =>
      rw [Ideal.run_call_bind hrun, Ideal.run_call_bind hrun, Ideal.run_deliver_jni,
        Ideal.run_deliver fun _ => rfl]
      cases hdelivers : Binding.jni.delivers result with
      | true =>
          obtain ⟨hdelivered, hne⟩ := delivered_of_delivers hdelivers
          rw [hdelivered]
          refine ⟨?_, fun _ => rfl⟩
          rintro (⟨message, q', heq⟩ | ⟨q', heq⟩)
          · cases heq
          · exact absurd (EStateM.Result.ok.inj heq).1 hne
      | false =>
          refine ⟨fun _ => rfl, fun hfruitful => absurd ?_ hfruitful⟩
          rcases delivered_of_not_delivers hdelivers with ⟨message, hthrown⟩ | hempty
          · rw [hthrown]
            exact .inl ⟨message, q, rfl⟩
          · rw [hempty]
            exact .inr ⟨q, rfl⟩

theorem sending_agrees (label : String) (m : GoM (Bytes × Option GoError)) (ref : Int) :
    Agrees (Barren ((Plain.sending .native "Request failed: " m ref).run p))
      (survivor ((Plain.sending .jni label m ref).run p))
      (survivor ((Plain.sending .native "Request failed: " m ref).run p)) := by
  have hsplit : ∀ b label, Plain.sending b label m ref =
      b.call ((borrow ref >>= fun obj => assertBuilder obj >>= fun rb => onBuilder rb m) >>=
        b.deliver label) := by
    intro b label
    simp only [Plain.sending, bind_assoc]
  rw [hsplit, hsplit]
  exact deliver_agrees (spares_borrowing ref m) label

end Fetching

/-! ## The addresses of the shells -/

section Addresses

variable {env : Env} {p q : Process} {call : Call}

theorem addresses_withRef (p : Process) (i : Nat) (ref : Int) :
    (p.withRef i ref).addresses = p.addresses := by
  have hclasses : (p.objects.modify i fun o => { o with ref }).map KNativeObject.cls =
      p.objects.map KNativeObject.cls := by
    refine List.ext_getElem? fun j => ?_
    rw [List.getElem?_map, List.getElem?_map, List.getElem?_modify]
    split
    · cases p.objects[j]? <;> rfl
    · cases p.objects[j]? <;> rfl
  rw [Process.addresses, Process.addresses, Process.withRef, hclasses]

/-- A request has no address. -/
theorem addresses_newRequest (p : Process) (ref : Int) :
    (p.withObject ⟨.request, ref⟩).addresses = p.addresses := by
  simp [Process.addresses, Process.withObject, ObjectClass.address]

theorem addresses_sending (i : Nat) (label : String) (m : GoM (Bytes × Option GoError)) :
    Keeps Process.addresses (discard (KNativeObject.getRef i >>= Plain.sending .native label m)) :=
  keeps_discard (keeps_bind (keeps_getRef i) fun ref => keeps_bind (keeps_borrow ref) fun obj =>
    keeps_bind (keeps_assertBuilder obj) fun _ =>
      keeps_bind (keeps_zoom fun _ _ => rfl) fun result => keeps_deliver label result)

/-- Only a new shell brings an address. -/
theorem addresses_program {m : Prog Unit} (hne : ∀ ipfsAddress, call ≠ .createShell ipfsAddress)
    (hprogram : call.program (plain env .native) p = some m) : Keeps Process.addresses m := by
  have honRequest : ∀ {i : Nat} {m' : Prog Unit}, Call.program.onRequest p i m' = some m →
      Keeps Process.addresses m' → Keeps Process.addresses m := by
    intro i m' honRequest hkeeps
    unfold Call.program.onRequest at honRequest
    split at honRequest
    · cases honRequest
      exact hkeeps
    · cases honRequest
  have htable : Tableless Process.addresses := fun _ _ => rfl
  have hheap : Heapless Process.addresses := fun _ _ _ _ => rfl
  cases call with
  | createShell ipfsAddress => exact absurd rfl (hne ipfsAddress)
  | connect i =>
      simp only [Call.program] at hprogram
      split at hprogram
      · cases hprogram
        exact KNativeShell.keeps_connect htable hheap addresses_withRef env i _
      · cases hprogram
  | request i command arg =>
      simp only [Call.program] at hprogram
      split at hprogram
      · cases hprogram
        exact KNativeShell.keeps_request htable hheap addresses_withRef addresses_newRequest env i
          _ _ _
      · cases hprogram
  | close i =>
      obtain ⟨_, _, rfl⟩ := Option.map_eq_some_iff.mp hprogram
      exact KNativeObject.keeps_close htable addresses_withRef env i
  | finalize i =>
      obtain ⟨_, _, rfl⟩ := Option.map_eq_some_iff.mp hprogram
      exact KNativeObject.keeps_close htable addresses_withRef env i
  | option i name value =>
      exact honRequest hprogram (keeps_bind (keeps_getRef i) fun ref =>
        keeps_bind (keeps_borrow ref) fun obj => keeps_bind (keeps_assertBuilder obj) fun _ =>
          keeps_zoom fun _ _ => rfl)
  | send i => exact honRequest hprogram (addresses_sending i _ _)
  | postString i data fileName => exact honRequest hprogram (addresses_sending i _ _)
  | postData i data => exact honRequest hprogram (addresses_sending i _ _)

/-- The addresses stay portable. -/
theorem portable_step (hp : p.Portable) (hcall : call.Portable)
    (h : step (plain env .native) p call = some q) : q.Portable := by
  obtain ⟨m, hprogram, hsurvivor⟩ := Option.bind_eq_some_iff.mp h
  by_cases hshell : ∃ ipfsAddress, call = .createShell ipfsAddress
  · obtain ⟨ipfsAddress, rfl⟩ := hshell
    cases hprogram
    cases hsurvivor
    intro text htext
    rw [Process.addresses, Process.withObject, List.map_append, List.filterMap_append,
      List.mem_append] at htext
    rcases htext with hold | hnew
    · exact hp text hold
    · cases List.mem_singleton.mp hnew
      exact hcall
  · have hkeeps := addresses_program (fun ipfsAddress heq => hshell ⟨ipfsAddress, heq⟩) hprogram p
    rw [final_of_survivor hsurvivor] at hkeeps
    exact fun text htext => hp text (hkeeps ▸ htext)

end Addresses

/-! ## Calls -/

section Calls

variable {env : Env} {p : Process} {call : Call} {i : Nat}

theorem connect_portable (env : Env) (i : Nat) {ipfsAddress : KString}
    (h : PortableText ipfsAddress) :
    KNativeShell.connect (plain env .jni) i ipfsAddress =
      KNativeShell.connect (plain env .native) i ipfsAddress := by
  simp only [KNativeShell.connect, plain, createNativeShell_portable env h]

/-- The address of a shell that is there. -/
theorem Process.Portable.of_shell (hp : p.Portable) {ipfsAddress : KString} {ref : Int}
    (h : p.objects[i]? = some ⟨.shell ipfsAddress, ref⟩) : PortableText ipfsAddress := by
  refine hp _ (List.mem_filterMap.mpr ⟨.shell ipfsAddress, ?_, rfl⟩)
  exact List.mem_map.mpr ⟨_, List.mem_of_getElem? h, rfl⟩

/-- A call that brings no bytes is one program on both bindings. -/
theorem program_portable (env : Env) (hp : p.Portable) (hcall : call.Portable)
    (hfetch : call.fetch (plain env .native) = none) :
    call.program (plain env .jni) p = call.program (plain env .native) p := by
  cases call with
  | createShell ipfsAddress => rfl
  | connect i =>
      simp only [Call.program]
      split
      · rw [connect_portable env i (hp.of_shell ‹_›)]
      · rfl
  | request i command arg =>
      simp only [Call.program]
      split
      · rw [KNativeShell.request, KNativeShell.request, connect_portable env i (hp.of_shell ‹_›)]
        simp only [plain, createRequest_portable env _ hcall.1 hcall.2]
      · rfl
  | close i => rfl
  | finalize i => rfl
  | option i name value =>
      simp only [Call.program, KNativeRequest.option, plain,
        requestOption_portable _ hcall.1 hcall.2]
  | send i => cases hfetch
  | postString i data fileName => cases hfetch
  | postData i data => cases hfetch

/-- A call of a method that brings bytes. -/
theorem fetch_agrees (i : Nat) (label : String) (m : GoM (Bytes × Option GoError)) :
    Agrees (Barren ((KNativeObject.getRef i >>= Plain.sending .native "Request failed: " m).run p))
      ((Call.program.onRequest p i (discard (KNativeObject.getRef i >>=
        Plain.sending .jni label m))).bind fun m => survivor (m.run p))
      ((Call.program.onRequest p i (discard (KNativeObject.getRef i >>=
        Plain.sending .native "Request failed: " m))).bind fun m => survivor (m.run p)) := by
  unfold Call.program.onRequest
  split
  · rw [Option.bind_some, Option.bind_some, Ideal.survivor_discard, Ideal.survivor_discard]
    exact sending_agrees label m (p.refOf i)
  · exact ⟨fun _ => rfl, fun _ => rfl⟩

/-- A call ends the JVM that natively brings nothing, and does the same on both bindings
otherwise. -/
theorem step_agrees (env : Env) (hp : p.Portable) (hcall : call.Portable) :
    Agrees (Fruitless (plain env .native) p call) (step (plain env .jni) p call)
      (step (plain env .native) p call) := by
  have hfetching : ∀ {m : Prog Bytes}, call.fetch (plain env .native) = some m →
      (Fruitless (plain env .native) p call ↔ Barren (m.run p)) := by
    intro m hm
    rw [Fruitless, hm]
    exact ⟨fun ⟨_, heq, hbarren⟩ => Option.some.inj heq ▸ hbarren, fun hbarren => ⟨m, rfl, hbarren⟩⟩
  have hother : call.fetch (plain env .native) = none →
      Agrees (Fruitless (plain env .native) p call) (step (plain env .jni) p call)
        (step (plain env .native) p call) := by
    intro hfetch
    refine ⟨fun ⟨_, hm, _⟩ => ?_, fun _ => ?_⟩
    · rw [hfetch] at hm
      cases hm
    · rw [step, step, program_portable env hp hcall hfetch]
  cases call with
  | send i =>
      rw [hfetching rfl]
      exact fetch_agrees i _ _
  | postData i data =>
      rw [hfetching rfl]
      exact fetch_agrees i _ _
  | postString i data fileName => cases hcall
  | createShell | connect | request | close | finalize | option => exact hother rfl

end Calls

/-! ## Runs -/

section Runs

variable {env : Env}

theorem barren_overwrite (t : Ledger Block) (result : EStateM.Result Abort Process Bytes) :
    Barren (memory.overwrite t result) ↔ Barren result := by
  unfold Barren
  cases result <;> simp

/-- The memory has no part in what a call brings. -/
theorem fruitless_native (env : Env) (p : Process) (t : Ledger Block) (call : Call) :
    Fruitless (native (libkipfs env)) (memory.put t p) call ↔
      Fruitless (plain env .native) p call := by
  have hmethod : ∀ {i : Nat} {m m' : Int → Prog Bytes}, (∀ ref, Marshalled (m ref) (m' ref)) →
      (Barren ((KNativeObject.getRef i >>= m).run (memory.put t p)) ↔
        Barren ((KNativeObject.getRef i >>= m').run p)) := by
    intro i m m' h
    have hboth := (marshalled_getRef i).bind h
    obtain ⟨t', hrun⟩ := hboth.implements (memory.put t p)
    rw [hrun, hboth.ignores p t, overwrite_overwrite, barren_overwrite]
  have hmarshals := native_marshals env
  have hplain := plain_memoryless env .native
  cases call with
  | send i =>
      simp only [Fruitless, Call.fetch, Option.some.injEq, exists_eq_left']
      exact hmethod fun ref => ⟨hmarshals.sendRequest ref, hplain.sendRequest ref⟩
  | postString i data fileName =>
      simp only [Fruitless, Call.fetch, Option.some.injEq, exists_eq_left']
      exact hmethod fun ref => ⟨hmarshals.postString ref data, hplain.postString ref data⟩
  | postData i data =>
      simp only [Fruitless, Call.fetch, Option.some.injEq, exists_eq_left']
      exact hmethod fun ref => ⟨hmarshals.postData ref data, hplain.postData ref data⟩
  | createShell | connect | request | close | finalize | option => simp [Fruitless, Call.fetch]

/-- A run gets to a call that brings nothing with the memory or without it. -/
theorem excused_native (env : Env) (p : Process) (calls : List Call) :
    Excused (step (native (libkipfs env))) (Fruitless (native (libkipfs env))) p calls ↔
      Excused (step (plain env .native)) (Fruitless (plain env .native)) p calls := by
  have hrun : ∀ before, ∃ t, run (step (native (libkipfs env))) p before =
      (run (step (plain env .native)) p before).map (memory.put t) := fun before =>
    run_marshals_of (native_marshals env) (plain_memoryless env .native) before p p.memory
  constructor
  · rintro ⟨before, call, after, q, rfl, hbefore, hfruitless⟩
    obtain ⟨t, hplain⟩ := hrun before
    rw [hplain, Option.map_eq_some_iff] at hbefore
    obtain ⟨q', hq', rfl⟩ := hbefore
    exact ⟨before, call, after, q', rfl, hq', (fruitless_native env q' t call).mp hfruitless⟩
  · rintro ⟨before, call, after, q, rfl, hbefore, hfruitless⟩
    obtain ⟨t, hplain⟩ := hrun before
    refine ⟨before, call, after, memory.put t q, rfl, ?_,
      (fruitless_native env q t call).mpr hfruitless⟩
    rw [hplain, hbefore]
    rfl

/-- **A portable program runs on the JVM as it does natively.** When a run of portable calls
natively gets to a call that brings its caller an exception or an empty array, the run on the JVM
does not survive; when it does not, the JVM gets as far, to the same process but for the memory. -/
theorem bindings_agree (env : Env) {p : Process} (hp : p.Portable) {calls : List Call}
    (hcalls : ∀ call ∈ calls, call.Portable) :
    (Excused (step (native (libkipfs env))) (Fruitless (native (libkipfs env))) p calls →
      run (step (jvm (libkipfs env))) p calls = none) ∧
    (¬ Excused (step (native (libkipfs env))) (Fruitless (native (libkipfs env))) p calls →
      ∃ memory', run (step (jvm (libkipfs env))) p calls =
        (run (step (native (libkipfs env))) p calls).map
          fun q => { q with memory := memory' }) := by
  obtain ⟨hends, hagrees⟩ := @run_agrees _ _ (step (plain env .jni)) (step (plain env .native))
    Process.Portable (Fruitless (plain env .native)) calls
    (fun p call hcall hp => (step_agrees env hp (hcalls call hcall)).1)
    (fun p call hcall hp => (step_agrees env hp (hcalls call hcall)).2)
    (fun p call hcall q hp => portable_step hp (hcalls call hcall)) p hp
  obtain ⟨t, hjvm⟩ :=
    run_marshals_of (jvm_marshals env) (plain_memoryless env .jni) calls p p.memory
  obtain ⟨t', hnative⟩ :=
    run_marshals_of (native_marshals env) (plain_memoryless env .native) calls p p.memory
  have hjvm : run (step (jvm (libkipfs env))) p calls = _ := hjvm
  have hnative : run (step (native (libkipfs env))) p calls = _ := hnative
  rw [excused_native]
  constructor
  · intro hexcused
    rw [hjvm, hends hexcused]
    rfl
  · intro hnot
    refine ⟨t, ?_⟩
    rw [hjvm, hagrees hnot, hnative, Option.map_map]
    rfl

/-- An empty answer is an empty array natively, and ends the JVM. -/
theorem bindings_agree_empty :
    run (step (jvm (libkipfs standalone))) Process.start
      [.createShell [104], .request 0 [0xE9] none, .option 1 [97] [98], .send 1, .close 1] = none :=
  (bindings_agree standalone (p := Process.start) nofun (by decide)).1
    ⟨[.createShell [104], .request 0 [0xE9] none, .option 1 [97] [98]], .send 1, [.close 1], _,
      rfl, rfl, _, rfl, .inr ⟨_, rfl⟩⟩

end Runs

end Kipfs
