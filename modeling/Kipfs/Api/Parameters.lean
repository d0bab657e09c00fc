import Kipfs.Api.Functions
import Kipfs.Kotlin.Marshalling

/-!
# The parameters on the wire

Every function on a shell asks for the same thing, a new request with options that is sent or posted
(`Asked`), and `issues_asked` says what the server gets of it. What is left is to read the arguments
off the wire: `lossless_iff` says for which pairs of calls of one function that can be done.
-/

namespace Kipfs

open Foundation Ipfsapi

/-- What a function asks of a shell: a request for a command and an argument, its options, and how
it is issued. -/
structure Asked where
  command : KString
  arg : Option KString
  options : List (KString × KString)
  sending : Sending

/-- Set options, in order. -/
def setOptions (kipfs : KIPFSNative) (i : Nat) : List (KString × KString) → Prog Unit
  | [] => pure ()
  | (name, value) :: rest => do
      KNativeRequest.option kipfs i name value
      setOptions kipfs i rest

/-- Make the request, set its options, and issue it. -/
def Asked.program (kipfs : KIPFSNative) (shell : Nat) (asked : Asked) : Prog Bytes := do
  let req ← KShell.request kipfs shell asked.command asked.arg
  setOptions kipfs req asked.options
  asked.sending.program kipfs req

/-- What the functions on a shell ask for. -/
def ApiFunction.asked : (f : ApiFunction) → f.Args → Option Asked
  | dagGet, args => some ⟨kstring "dag/get", some args.arg, [], .send⟩
  | dagPut, args =>
      some ⟨kstring "dag/put", none,
        [(kstring "pin", boolText args.pin), (kstring "hash", args.hash),
          (kstring "input-codec", args.inputCodec), (kstring "store-codec", args.storeCodec),
          (kstring "allow-big-block", boolText args.allowBigBlock)],
        .post args.data⟩
  | id, _ => some ⟨kstring "id", none, [], .send⟩
  | multibaseEncode, args =>
      some ⟨kstring "multibase/encode", none, [(kstring "b", lowercase args.encoding.name)],
        .post (encodeToByteArray args.data)⟩
  | post, _ => none

/-- A function on a shell does what it asks for. -/
theorem ApiFunction.program_eq {kipfs : KIPFSNative} {shell : Nat} {f : ApiFunction} {args : f.Args}
    {asked : Asked} (h : f.asked args = some asked) :
    f.program kipfs shell args = asked.program kipfs shell := by
  cases f with
  | dagGet | id =>
      cases h
      rfl
  | dagPut | multibaseEncode =>
      cases h
      simp only [program, KShell.dagPut, KShell.multibaseEncode, Asked.program, setOptions,
        Sending.program, bind_assoc, pure_bind]
  | post => cases h

/-! ## Requests issued -/

/-- The builder with some options set. -/
def withOptions (options : List (KString × KString)) (rb : RequestBuilder) : RequestBuilder :=
  (options.map fun o => RequestCall.option o.1 o.2).foldl RequestCall.apply rb

/-- The request that the server gets, from a shell of the given node. -/
def Asked.wire (url : Bytes) (asked : Asked) : WireRequest :=
  (asked.sending.posted (withOptions asked.options (builderFor url asked.command asked.arg))).wire

/-- A view of the requests issued. -/
def Process.issued (p : Process) : List WireRequest := p.net.issued

section Frames

/-- Making a request issues nothing. -/
theorem keeps_request (env : Env) (shell : Nat) (command : KString) (arg : Option KString) :
    Keeps Process.issued (KShell.request (native (libkipfs env)) shell command arg) := by
  refine keeps_bind keeps_get fun p => keeps_bind ?_ fun _ => keeps_pure _
  rw [native_request]
  exact KNativeShell.keeps_request (fun _ _ => rfl) (fun _ _ _ _ => rfl) (fun _ _ _ => rfl)
    (fun _ _ => rfl) env shell _ command arg

/-- Setting an option issues nothing. -/
theorem keeps_option (env : Env) (i : Nat) (name value : KString) :
    Keeps Process.issued (KNativeRequest.option (native (libkipfs env)) i name value) := by
  refine keeps_bind (keeps_getRef i) fun ref => ?_
  exact keeps_bind (keeps_borrow ref) fun obj => keeps_bind (keeps_assertBuilder obj) fun _ _ => rfl

end Frames

section Issued

variable {env : Env} {p q : Process} {shell i : Nat} {rb : RequestBuilder} {w : WireRequest}

/-- When the first half of a sequence issues nothing, the request comes from the second half. -/
theorem Issues.of_bind {α β : Type} {m : Prog α} {f : α → Prog β} (hkeeps : Keeps Process.issued m)
    (h : Issues (m >>= f) p w) : ∃ a q, m.run p = .ok a q ∧ Issues (f a) q w := by
  have hissued : (final (m.run p)).issued = p.issued := hkeeps p
  rw [Issues, EStateM.run_bind] at h
  cases hrun : m.run p with
  | ok a q =>
      rw [hrun] at h hissued
      exact ⟨a, q, rfl, h.trans (congrArg (· ++ [w]) hissued.symm)⟩
  | error e q =>
      rw [hrun] at h hissued
      have hnone : p.issued = p.issued ++ [w] := hissued.symm.trans h
      simp at hnone

/-- What is issued with options set is the builder with these options. -/
theorem issues_setOptions {options : List (KString × KString)} {s : Sending} (h : Behind p i rb)
    (hissues : Issues (setOptions (native (libkipfs env)) i options >>= fun _ =>
      s.program (native (libkipfs env)) i) p w) :
    w = (s.posted (withOptions options rb)).wire := by
  induction options generalizing p rb with
  | nil => exact hissues.unique (issued_sending env h s)
  | cons option rest ih =>
      obtain ⟨name, value⟩ := option
      rw [setOptions, bind_assoc] at hissues
      obtain ⟨_, q, hrun, hrest⟩ := hissues.of_bind (keeps_option env i name value)
      have hbehind :
          Behind (final ((KNativeRequest.option (native (libkipfs env)) i name value).run p)) i
            (RequestCall.apply rb (.option name value)) := behind_option h name value
      rw [hrun, final_ok] at hbehind
      exact ih hbehind hrest

/-- Behind the request that a shell has made is a builder for its command and argument. -/
theorem behind_of_request {ipfsAddress command : KString} {arg : Option KString} {ref : Int}
    (hshell : p.objects[shell]? = some ⟨.shell ipfsAddress, ref⟩)
    (hrun : (KShell.request (native (libkipfs env)) shell command arg).run p = .ok i q) :
    Behind q i (builderFor (p.nodeOf shell) command arg) := by
  have haddress : p.addressOf shell = ipfsAddress := by rw [Process.addressOf, hshell]
  obtain ⟨_, _, hget, hrest⟩ := bind_eq_ok.mp hrun
  cases hget
  obtain ⟨_, q', hrequest, hreturn⟩ := bind_eq_ok.mp hrest
  cases hreturn
  rw [haddress] at hrequest
  have hmove : step (native (libkipfs env)) p (.request shell command arg) = some q := by
    simp only [step, Call.program, hshell, Option.bind_some, hrequest, survivor]
  exact behind_request hmove

/-- **The request a shell issues for what it is asked.** -/
theorem issues_asked {ipfsAddress : KString} {ref : Int} {asked : Asked}
    (hshell : p.objects[shell]? = some ⟨.shell ipfsAddress, ref⟩)
    (h : Issues (asked.program (native (libkipfs env)) shell) p w) :
    w = asked.wire (p.nodeOf shell) := by
  obtain ⟨req, q, hrun, hrest⟩ := h.of_bind (keeps_request env shell asked.command asked.arg)
  exact issues_setOptions (behind_of_request hshell hrun) hrest

end Issued

/-! ## Reading a request -/

/-- A well-formed string without U+0000. -/
def Sound (s : KString) : Prop := WellFormed s ∧ 0 ∉ s

instance (s : KString) : Decidable (Sound s) := inferInstanceAs (Decidable (_ ∧ _))

/-- The server cannot tell the requests apart by their commands, arguments, options or files. -/
structure SameRequest (w w' : WireRequest) : Prop where
  command : w.command = w'.command
  args : w.args = w'.args
  opts : w.opts = w'.opts
  body : w.body = w'.body

section Reading

variable {s s' name value value' : KString} {options : List (KString × KString)}
  {rb : RequestBuilder} {url url' : Bytes} {asked asked' : Asked}

/-- Go can tell sound strings apart. -/
theorem goString_cstr_injective (h : Sound s) (h' : Sound s')
    (heq : goString (cstr s) = goString (cstr s')) : s = s' := by
  rw [goString_cstr_iff.mpr h.2, goString_cstr_iff.mpr h'.2] at heq
  exact utf8_injective h.1 h'.1 heq

/-- Setting options changes nothing but the options. -/
theorem withOptions_eq (options : List (KString × KString)) (rb : RequestBuilder) :
    withOptions options rb = { rb with opts := (withOptions options rb).opts } := by
  induction options generalizing rb with
  | nil => rfl
  | cons option rest ih => exact ih (RequestCall.apply rb (.option option.1 option.2))

/-- An option stays as it is when others are set. -/
theorem opts_withOptions_of_ne {key : Bytes} (h : ∀ o ∈ options, goString (cstr o.1) ≠ key) :
    (withOptions options rb).opts key = rb.opts key := by
  induction options generalizing rb with
  | nil => rfl
  | cons option rest ih =>
      have hne := h option (List.mem_cons_self ..)
      have hrest : (withOptions (option :: rest) rb).opts key =
          (RequestCall.apply rb (.option option.1 option.2)).opts key :=
        ih fun o ho => h o (List.mem_cons_of_mem _ ho)
      exact hrest.trans (Function.update_of_ne hne.symm _ _)

/-- An option that is set once is there with its value. -/
theorem opts_withOptions (hdistinct : (options.map fun o => goString (cstr o.1)).Nodup)
    (hmem : (name, value) ∈ options) :
    (withOptions options rb).opts (goString (cstr name)) = some (goString (cstr value)) := by
  induction options generalizing rb with
  | nil => cases hmem
  | cons option rest ih =>
      obtain ⟨hfirst, hrest⟩ := List.nodup_cons.mp hdistinct
      rcases List.mem_cons.mp hmem with rfl | hmem
      · -- the options after it have other names
        have hothers : ∀ o ∈ rest, goString (cstr o.1) ≠ goString (cstr name) :=
          fun o ho heq => hfirst (List.mem_map.mpr ⟨o, ho, heq⟩)
        have hlast : (withOptions ((name, value) :: rest) rb).opts (goString (cstr name)) =
            (RequestCall.apply rb (.option name value)).opts (goString (cstr name)) :=
          opts_withOptions_of_ne hothers
        exact hlast.trans (Function.update_self _ _ _)
      · exact ih hrest hmem

theorem Asked.wire_args (asked : Asked) (url : Bytes) :
    (asked.wire url).args = (asked.arg.map fun arg => goString (cstr arg)).toList := by
  show (withOptions asked.options (builderFor url asked.command asked.arg)).args = _
  rw [withOptions_eq]
  rfl

/-- The body of a request is what the function posts. -/
theorem Asked.wire_body (asked : Asked) (url : Bytes) :
    (asked.wire url).body = asked.sending.body := by
  show asked.sending.body.or
    (withOptions asked.options (builderFor url asked.command asked.arg)).body = _
  rw [withOptions_eq]
  exact Option.or_none

/-- An option that is set once by each of two functions, to values that Go can tell apart, is set to
the same value in the same requests. -/
theorem SameRequest.option_eq (h : SameRequest (asked.wire url) (asked'.wire url'))
    (hdistinct : (asked.options.map fun o => goString (cstr o.1)).Nodup)
    (hdistinct' : (asked'.options.map fun o => goString (cstr o.1)).Nodup)
    {k : Nat} (hoption : asked.options[k]? = some (name, value))
    (hoption' : asked'.options[k]? = some (name, value')) (hsound : Sound value)
    (hsound' : Sound value') : value = value' := by
  have hopts : (withOptions asked.options (builderFor url asked.command asked.arg)).opts =
      (withOptions asked'.options (builderFor url' asked'.command asked'.arg)).opts := h.opts
  have hkey := congrFun hopts (goString (cstr name))
  rw [opts_withOptions hdistinct (List.mem_of_getElem? hoption),
    opts_withOptions hdistinct' (List.mem_of_getElem? hoption')] at hkey
  exact goString_cstr_injective hsound hsound' (Option.some.inj hkey)

/-- The same requests have the same file. -/
theorem SameRequest.data_eq {data data' : Bytes}
    (h : SameRequest (asked.wire url) (asked'.wire url')) (hpost : asked.sending = .post data)
    (hpost' : asked'.sending = .post data') : data = data' := by
  have hbody := h.body
  rw [Asked.wire_body, Asked.wire_body, hpost, hpost'] at hbody
  simpa [Sending.body] using hbody

end Reading

/-! ## The functions -/

/-- Every string among the arguments is well formed and has no U+0000. -/
def ApiFunction.Sound : (f : ApiFunction) → f.Args → Prop
  | dagGet, args => Kipfs.Sound args.arg
  | dagPut, args =>
      Kipfs.Sound args.hash ∧ Kipfs.Sound args.inputCodec ∧ Kipfs.Sound args.storeCodec
  | id, args => ∀ s, args.peerID = some s → Kipfs.Sound s
  | multibaseEncode, args => Kipfs.Sound args.data
  | post, args => Kipfs.Sound args.data ∧ Kipfs.Sound args.fileName

/-- Two calls that agree in the parameters their function passes on agree in the one that it drops:
`peerID`, the only parameter of `id`, or `fileName`, which `post` has beside `data`. -/
def ApiFunction.Kept : (f : ApiFunction) → f.Args → f.Args → Prop
  | id, args, args' => args.peerID = args'.peerID
  | post, args, args' => args.data = args'.data → args.fileName = args'.fileName
  | _, _, _ => True

section Functions

variable {url url' : Bytes}

theorem sound_boolText (b : Bool) : Sound (boolText b) := by
  cases b <;> decide

theorem boolText_injective {b b' : Bool} (h : boolText b = boolText b') : b = b' := by
  revert b b'
  decide

theorem sound_lowercase_name (e : MultibaseEncoding) : Sound (lowercase e.name) := by
  cases e <;> decide

/-- The argument of `dagGet` is the argument of its request. -/
theorem dagGet_lossless {args args' : DagGetArgs} {asked asked' : Asked} (h : Sound args.arg)
    (h' : Sound args'.arg) (hasked : ApiFunction.asked .dagGet args = some asked)
    (hasked' : ApiFunction.asked .dagGet args' = some asked')
    (hsame : SameRequest (asked.wire url) (asked'.wire url')) : args = args' := by
  cases hasked
  cases hasked'
  have hargs := hsame.args
  rw [Asked.wire_args, Asked.wire_args] at hargs
  have harg : args.arg = args'.arg :=
    goString_cstr_injective h h' (List.singleton_inj.mp hargs)
  cases args
  cases args'
  exact congrArg DagGetArgs.mk harg

/-- The arguments of `dagPut` are the options and the file of its request. -/
theorem dagPut_lossless {args args' : DagPutArgs} {asked asked' : Asked}
    (h : ApiFunction.Sound .dagPut args) (h' : ApiFunction.Sound .dagPut args')
    (hasked : ApiFunction.asked .dagPut args = some asked)
    (hasked' : ApiFunction.asked .dagPut args' = some asked')
    (hsame : SameRequest (asked.wire url) (asked'.wire url')) : args = args' := by
  obtain ⟨hhash, hinput, hstore⟩ := h
  obtain ⟨hhash', hinput', hstore'⟩ := h'
  cases hasked
  cases hasked'
  have hdistinct : ([kstring "pin", kstring "hash", kstring "input-codec", kstring "store-codec",
      kstring "allow-big-block"].map fun name => goString (cstr name)).Nodup := by decide
  have hdata := hsame.data_eq rfl rfl
  have hpin :=
    hsame.option_eq hdistinct hdistinct (k := 0) rfl rfl (sound_boolText _) (sound_boolText _)
  have hhash := hsame.option_eq hdistinct hdistinct (k := 1) rfl rfl hhash hhash'
  have hinput := hsame.option_eq hdistinct hdistinct (k := 2) rfl rfl hinput hinput'
  have hstore := hsame.option_eq hdistinct hdistinct (k := 3) rfl rfl hstore hstore'
  have hbig :=
    hsame.option_eq hdistinct hdistinct (k := 4) rfl rfl (sound_boolText _) (sound_boolText _)
  cases args
  cases args'
  simp only [DagPutArgs.mk.injEq]
  exact ⟨hdata, boolText_injective hpin, hhash, hinput, hstore, boolText_injective hbig⟩

/-- The arguments of `multibaseEncode` are the option and the file of its request. -/
theorem multibaseEncode_lossless {args args' : MultibaseEncodeArgs} {asked asked' : Asked}
    (h : Sound args.data) (h' : Sound args'.data)
    (hasked : ApiFunction.asked .multibaseEncode args = some asked)
    (hasked' : ApiFunction.asked .multibaseEncode args' = some asked')
    (hsame : SameRequest (asked.wire url) (asked'.wire url')) : args = args' := by
  cases hasked
  cases hasked'
  have hdistinct : ([kstring "b"].map fun name => goString (cstr name)).Nodup := by decide
  have hdata := hsame.data_eq rfl rfl
  have hname := hsame.option_eq hdistinct hdistinct (k := 0) rfl rfl (sound_lowercase_name _)
    (sound_lowercase_name _)
  cases args
  cases args'
  simp only [MultibaseEncodeArgs.mk.injEq]
  exact ⟨utf8_injective h.1 h'.1 hdata, lowercase_name_injective hname⟩

end Functions

section Lossless

variable {env : Env} {p p' : Process} {i i' : Nat} {w w' : WireRequest}

/-- A call on a shell issues what it asks for. -/
theorem issues_shell {f : ApiFunction} {args : f.Args} {asked : Asked}
    (hasked : f.asked args = some asked) (hreceives : f.Receives p i)
    (h : Issues (f.program (native (libkipfs env)) i args) p w) : w = asked.wire (p.nodeOf i) := by
  rw [ApiFunction.program_eq hasked] at h
  cases f with
  | dagGet | dagPut | id | multibaseEncode =>
      obtain ⟨ipfsAddress, ref, hshell⟩ := hreceives
      exact issues_asked hshell h
  | post => cases hasked

/-- A post of a text issues the bytes of the text before its first NUL, whatever its name. -/
theorem issues_postText {args args' : PostArgs} (hreceives : ApiFunction.Receives p i .post)
    (h : Issues (ApiFunction.program (native (libkipfs env)) i .post args) p w)
    (h' : Issues (ApiFunction.program (native (libkipfs env)) i .post args') p w') :
    ∃ rb : RequestBuilder, w = ((Sending.post (goString (cstr args.data))).posted rb).wire ∧
      w' = ((Sending.post (goString (cstr args'.data))).posted rb).wire := by
  obtain ⟨ref, hrequest⟩ := hreceives
  simp only [ApiFunction.program, postString_eq_postData] at h h'
  obtain ⟨rb, hbehind⟩ := behind_of_issues hrequest h
  exact ⟨rb, h.unique (issues_postData env hbehind _), h'.unique (issues_postData env hbehind _)⟩

/-- **Two calls of one function, with sound strings, that issue the same request have the same
arguments, exactly when they agree in the parameter that the function drops, if it drops one.** The
calls may be on different shells and in different states; a `post` is on one request. -/
theorem lossless_iff (env : Env) (f : ApiFunction) {args args' : f.Args} (hsound : f.Sound args)
    (hsound' : f.Sound args') (hreceives : f.Receives p i) (hreceives' : f.Receives p' i')
    (hfixed : f = .post → p' = p ∧ i' = i)
    (h : Issues (f.program (native (libkipfs env)) i args) p w)
    (h' : Issues (f.program (native (libkipfs env)) i' args') p' w') :
    (SameRequest w w' → args = args') ↔ f.Kept args args' := by
  cases f with
  | dagGet =>
      obtain rfl := issues_shell rfl hreceives h
      obtain rfl := issues_shell rfl hreceives' h'
      exact iff_of_true (dagGet_lossless hsound hsound' rfl rfl) trivial
  | dagPut =>
      obtain rfl := issues_shell rfl hreceives h
      obtain rfl := issues_shell rfl hreceives' h'
      exact iff_of_true (dagPut_lossless hsound hsound' rfl rfl) trivial
  | multibaseEncode =>
      obtain rfl := issues_shell rfl hreceives h
      obtain rfl := issues_shell rfl hreceives' h'
      exact iff_of_true (multibaseEncode_lossless hsound hsound' rfl rfl) trivial
  | id =>
      -- any two calls issue the same request
      obtain rfl := issues_shell rfl hreceives h
      obtain rfl := issues_shell rfl hreceives' h'
      constructor
      · intro hlossless
        exact congrArg IdArgs.peerID (hlossless ⟨rfl, rfl, rfl, rfl⟩)
      · intro hpeer _
        cases args
        cases args'
        exact congrArg IdArgs.mk hpeer
  | post =>
      obtain ⟨rfl, rfl⟩ := hfixed rfl
      obtain ⟨rb, rfl, rfl⟩ := issues_postText hreceives h h'
      constructor
      · intro hlossless hdata
        rw [hdata] at hlossless
        exact congrArg PostArgs.fileName (hlossless ⟨rfl, rfl, rfl, rfl⟩)
      · intro hname hsame
        have hbody := hsame.body
        simp only [RequestBuilder.wire, Sending.posted, Sending.body, Option.some_or,
          Option.some.injEq, Body.multipart.injEq, List.cons.injEq, FileEntry.mk.injEq,
          Node.readerFile.injEq, true_and, and_true] at hbody
        have hdata := goString_cstr_injective hsound.1 hsound'.1 hbody
        cases args
        cases args'
        exact congr (congrArg PostArgs.mk hdata) (hname hdata)

end Lossless

/-- Two puts of one byte that differ in `pin` issue different requests. -/
theorem lossless_dagPut :
    ∃ w w', Issues (KShell.dagPut (native (libkipfs standalone)) 0 { data := [1] }) oneShell w ∧
      Issues (KShell.dagPut (native (libkipfs standalone)) 0 { data := [1], pin := false }) oneShell
        w' ∧ ¬ SameRequest w w' := by
  have hreceives : ApiFunction.Receives oneShell 0 .dagPut := ⟨[104], 0, rfl⟩
  have hhash : Sound (kstring "sha2-256") := by decide
  have hinput : Sound (kstring "dag-json") := by decide
  have hstore : Sound (kstring "dag-cbor") := by decide
  have hsound : ∀ pin, ApiFunction.Sound .dagPut ({ data := [1], pin } : DagPutArgs) :=
    fun _ => ⟨hhash, hinput, hstore⟩
  have hissues : ∀ pin, ∃ w, Issues (ApiFunction.program (native (libkipfs standalone)) 0 .dagPut
      ({ data := [1], pin } : DagPutArgs)) oneShell w := fun _ => ⟨_, rfl⟩
  obtain ⟨w, h⟩ := hissues true
  obtain ⟨w', h'⟩ := hissues false
  refine ⟨w, w', h, h', ?_⟩
  intro hsame
  have hnot : ApiFunction.dagPut ≠ .post := by decide
  have hargs := (lossless_iff standalone .dagPut (hsound true) (hsound false) hreceives hreceives
    (fun heq => absurd heq hnot) h h').mpr trivial hsame
  cases hargs

/-- Asking for the node itself and asking for another issue the same request, and so does posting
one text under two names. -/
theorem not_lossless_id_post :
    (∀ s ∈ ([[97], [98], [120]] : List KString), Sound s) ∧
      (∃ w, Issues (KShell.id (native (libkipfs standalone)) 0 { peerID := none }) oneShell w ∧
        Issues (KShell.id (native (libkipfs standalone)) 0 { peerID := some [120] }) oneShell w) ∧
      ({ peerID := none } : IdArgs) ≠ { peerID := some [120] } ∧
      (∃ q w, step (native (libkipfs standalone)) oneShell (.request 0 [105] none) = some q ∧
        Issues (KNativeRequest.postString (native (libkipfs standalone)) 1 [120] [97]) q w ∧
        Issues (KNativeRequest.postString (native (libkipfs standalone)) 1 [120] [98]) q w) ∧
      ({ data := [120], fileName := [97] } : PostArgs) ≠ { data := [120], fileName := [98] } := by
  refine ⟨by decide, ⟨_, rfl, rfl⟩, ?_, ?_, ?_⟩
  · intro h
    cases h
  · obtain ⟨q, hmove, hbehind⟩ := oneShell_request
    have hissues := issues_postData standalone hbehind (goString (cstr [120]))
    have hfirst := hissues
    rw [← postString_eq_postData standalone 1 [120] [97]] at hfirst
    rw [← postString_eq_postData standalone 1 [120] [98]] at hissues
    exact ⟨q, _, hmove, hfirst, hissues⟩
  · intro h
    cases h

end Kipfs
