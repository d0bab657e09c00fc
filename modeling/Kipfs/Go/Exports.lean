import Kipfs.Go.Process

/-!
# The C exports of the Go library

`libkipfs.go`. An argument of type `*C.char` is given as the memory from its address on. `Kipfsgo`
is the header the bindings are compiled against, and `libkipfs` the library itself; the bindings
take any `Kipfsgo`, so that they can be run against every outcome an export may have.

The second half says what each export does to the reference table. A call through a reference
that is present and of the right type leaves the table as it was (`run_borrow`): the count that
`Inc` adds is the one that `Get` takes away. Creating an object enters it with count two, one from
`ToRefNum` and one from `Inc` (`createRef_spec`), unless there is no next number
(`createRef_error`).
-/

namespace Kipfs

open Foundation

/-- `KRequestSend_return`: a block, its length, and an error message. -/
structure SendReturn where
  r0 : CPtr
  r1 : Int
  r2 : CPtr
  deriving DecidableEq, Repr

/-- `KCreateShell_return` and `KCreateRequest_return`: a reference and an error message. -/
structure CreateReturn where
  r0 : Int
  r1 : CPtr
  deriving DecidableEq, Repr

/-- `KMultiBaseDecode_return`. -/
structure DecodeReturn where
  r0 : Int
  r1 : CPtr
  r2 : Int
  r3 : CPtr
  deriving DecidableEq, Repr

/-- The exports the bindings call. -/
structure Kipfsgo where
  GetTime : Prog CPtr
  KCID : Bytes → Prog CPtr
  KDecRef : Int → Prog Unit
  KCreateShell : Bytes → Prog CreateReturn
  KCreateRequest : Int → Bytes → Option Bytes → Prog CreateReturn
  KRequestSend : Int → Prog SendReturn
  KRequestPostString : Int → Bytes → Prog SendReturn
  KRequestPostBytes : Int → Bytes → Int → Prog SendReturn
  KRequestOption : Int → Bytes → Bytes → Prog Unit

section Exports

variable (env : Env)

/-- `GetTime`. -/
def GetTime : Prog CPtr := CString env.time

/-- `KCID`. -/
def KCID (json : Bytes) : Prog CPtr :=
  match Cids.DagCid env.codecs (goString json) with
  | .error p => abort (.panic p)
  | .ok cid => CString cid

/-- `KDecRef`. -/
def KDecRef (refnum : Int) : Prog Unit := Seq.Delete refnum

/-- The object behind a reference, as every export gets at it: `Inc`, then `Get`, which deletes what
`Inc` added. -/
def borrow (refnum : Int) : Prog Iface := do
  Seq.Inc refnum
  Seq.Get refnum

/-- The reference of a new object, as every export makes it: `ToRefNum`, then `Inc`. -/
def createRef (obj : Iface) : Prog Int := do
  let refnum ← Seq.ToRefNum env.numbering obj
  Seq.Inc refnum
  pure refnum

/-- `KCreateShell`. `NewShell` never returns nil, so the branch of the source that reports a
failure is not reached. -/
def KCreateShell (cUrl : Bytes) : Prog CreateReturn := do
  let kShell ← newShell (Shell.NewShell (goString cUrl))
  let refnum ← createRef env ⟨.shell, kShell⟩
  pure ⟨refnum, none⟩

/-- `KCreateRequest`. `NewRequest` never returns nil either. -/
def KCreateRequest (refnum : Int) (command : Bytes) (arg : Option Bytes) : Prog CreateReturn := do
  let kShell ← assertShell (← borrow refnum)
  let rb ← newBuilder (kShell.NewRequest (goString command))
  let refnum ← createRef env ⟨.requestBuilder, rb⟩
  match arg with
  | some arg => onBuilder rb (Shell.Argument (goString arg))
  | none => pure ()
  pure ⟨refnum, none⟩

/-- What the sending exports return for the results of the Go method they call. -/
def sendReturn : Bytes × Option GoError → Prog SendReturn
  | (_, some err) => do
      let message ← CString err.text
      pure ⟨none, -1, message⟩
  | (data, none) => do
      let block ← CBytes data
      pure ⟨block, data.length, none⟩

/-- `KRequestSend`. -/
def KRequestSend (refnum : Int) : Prog SendReturn := do
  let rb ← assertBuilder (← borrow refnum)
  sendReturn (← onBuilder rb (Shell.Send env.out))

/-- `KRequestPostString`. -/
def KRequestPostString (refnum : Int) (data : Bytes) : Prog SendReturn := do
  let rb ← assertBuilder (← borrow refnum)
  sendReturn (← onBuilder rb (Shell.PostString2 env.out (goString data)))

/-- `KRequestPostBytes`. -/
def KRequestPostBytes (refnum : Int) (data : Bytes) (dataLength : Int) : Prog SendReturn := do
  let rb ← assertBuilder (← borrow refnum)
  let bytes ← GoBytes data dataLength
  sendReturn (← onBuilder rb (Shell.PostData2 env.out bytes))

/-- `KRequestOption`. -/
def KRequestOption (refnum : Int) (name value : Bytes) : Prog Unit := do
  let rb ← assertBuilder (← borrow refnum)
  onBuilder rb (Shell.StringOptions (goString name) (goString value))

/-- `KMultiBaseEncode`: the encoded text, or null and an error message. -/
def KMultiBaseEncode (encoding : Int) (cData : Bytes) (dataLength : Int) : Prog (CPtr × CPtr) := do
  let data ← GoBytes cData dataLength
  match env.multibase.Encode encoding data with
  | .error err => do
      let message ← CString err.text
      pure (none, message)
  | .ok encoded => do
      let text ← CString encoded
      pure (text, none)

/-- `KMultiBaseDecode`. -/
def KMultiBaseDecode (cData : Bytes) (dataLength : Int) : Prog DecodeReturn := do
  let text ← GoBytes cData dataLength
  match env.multibase.Decode text with
  | .error err => do
      let message ← CString err.text
      pure ⟨-1, none, -1, message⟩
  | .ok (encoding, data) => do
      let block ← CString data
      pure ⟨toInt32 encoding, block, toInt32 data.length, none⟩

/-- The library. -/
def libkipfs : Kipfsgo where
  GetTime := GetTime env
  KCID := KCID env
  KDecRef := KDecRef
  KCreateShell := KCreateShell env
  KCreateRequest := KCreateRequest env
  KRequestSend := KRequestSend env
  KRequestPostString := KRequestPostString env
  KRequestPostBytes := KRequestPostBytes env
  KRequestOption := KRequestOption

end Exports

/-! ## References -/

variable {env : Env} {p p' : Process} {refnum : Int} {obj : Iface}

/-- Borrowing through a present reference returns its object and leaves the process as it was. -/
theorem run_borrow (h : p.refs.lookup refnum = some obj) :
    (borrow refnum).run p = .ok obj p := by
  -- between the `Inc` and the deletion the count is one higher
  obtain ⟨refs, hinc⟩ := RefTable.inc_of_lookup h
  have hlookup : refs.lookup refnum = some obj := by rw [(RefTable.inc_spec hinc).2.1, h]
  have hdelete := RefTable.delete_inc hinc
  have hrunInc : (Seq.Inc refnum).run p = .ok () { p with refs } := by
    simp [EStateM.run, Seq.Inc, hinc]
  have hrunDelete : (Seq.Delete refnum).run { p with refs } = .ok () p := by
    simp [EStateM.run, Seq.Delete, hdelete]
  simp [borrow, Seq.Get, hrunInc, hlookup, hrunDelete]

/-- Borrowing through an absent reference panics. -/
theorem run_borrow_absent (h : p.refs.lookup refnum = none) :
    (borrow refnum).run p = .error (.panic (.unknownRefNum refnum)) p := by
  have hinc : p.refs.inc refnum = none := by
    cases hinc : p.refs.inc refnum with
    | none => rfl
    | some refs =>
        obtain ⟨obj, hobj⟩ := RefTable.lookup_of_inc hinc
        exact nomatch h.symm.trans hobj
  have hrunInc : (Seq.Inc refnum).run p = .error (.panic (.unknownRefNum refnum)) p := by
    simp [EStateM.run, Seq.Inc, hinc]
  rw [borrow, EStateM.run_bind, hrunInc]

/-- What follows a borrowed request builder runs on the process as it was. -/
theorem run_borrowBuilder {α : Type} {ptr : Nat}
    (h : p.refs.lookup refnum = some ⟨.requestBuilder, ptr⟩) (f : Nat → Prog α) :
    (borrow refnum >>= fun obj => assertBuilder obj >>= f).run p = (f ptr).run p := by
  rw [EStateM.run_bind, run_borrow h]
  rfl

/-- Whatever borrowing finds, it is a builder or a panic. -/
theorem run_borrowBuilder_cases {α : Type} (refnum : Int) (p : Process) (f : Nat → Prog α) :
    (∃ ptr, p.refs.lookup refnum = some ⟨.requestBuilder, ptr⟩ ∧
      (borrow refnum >>= fun obj => assertBuilder obj >>= f).run p = (f ptr).run p) ∨
    ∃ x, (borrow refnum >>= fun obj => assertBuilder obj >>= f).run p = .error (.panic x) p := by
  cases hlookup : p.refs.lookup refnum with
  | none =>
      refine .inr ⟨.unknownRefNum refnum, ?_⟩
      rw [EStateM.run_bind, run_borrow_absent hlookup]
  | some obj =>
      rcases obj with ⟨type, ptr⟩
      cases type with
      | shell =>
          refine .inr ⟨.typeAssertion, ?_⟩
          rw [EStateM.run_bind, run_borrow hlookup]
          rfl
      | requestBuilder => exact .inl ⟨ptr, rfl, run_borrowBuilder hlookup f⟩

/-- Whatever borrowing finds, it is a shell or a panic. -/
theorem run_borrowShell_cases {α : Type} (refnum : Int) (p : Process) (f : Shell → Prog α) :
    (∃ ptr, p.refs.lookup refnum = some ⟨.shell, ptr⟩ ∧
      (borrow refnum >>= fun obj => assertShell obj >>= f).run p = (f (p.shells ptr)).run p) ∨
    ∃ x, (borrow refnum >>= fun obj => assertShell obj >>= f).run p = .error (.panic x) p := by
  cases hlookup : p.refs.lookup refnum with
  | none =>
      refine .inr ⟨.unknownRefNum refnum, ?_⟩
      rw [EStateM.run_bind, run_borrow_absent hlookup]
  | some obj =>
      rcases obj with ⟨type, ptr⟩
      cases type with
      | shell =>
          refine .inl ⟨ptr, rfl, ?_⟩
          rw [EStateM.run_bind, run_borrow hlookup]
          rfl
      | requestBuilder =>
          refine .inr ⟨.typeAssertion, ?_⟩
          rw [EStateM.run_bind, run_borrow hlookup]
          rfl

/-- The reference of a new object is fresh and enters the table with count two. -/
theorem createRef_spec (h : (createRef env obj).run p = .ok refnum p') :
    refnum < 0 ∧ p.refs.lookup refnum = none ∧ p' = { p with refs := p'.refs } ∧
      p'.refs.lookup refnum = some obj ∧
      (∀ r, r ≠ refnum → p'.refs.lookup r = p.refs.lookup r) ∧
      ∀ r, p'.refs.count r = if r = refnum then 2 else p.refs.count r := by
  obtain ⟨number, middle, hnew, hrest⟩ := bind_eq_ok.mp h
  obtain ⟨_, final, hinc, hpure⟩ := bind_eq_ok.mp hrest
  cases hpure
  simp only [EStateM.run, Seq.ToRefNum] at hnew
  split at hnew
  · rename_i number' refs hto
    cases hnew
    simp only [EStateM.run, Seq.Inc] at hinc
    split at hinc
    · rename_i refs' hretain
      cases hinc
      -- one from `ToRefNum`, one from `Inc`
      obtain ⟨hneg, _, habsent, _, hlookup, hcount⟩ := RefTable.toRefNum_spec hto
      obtain ⟨_, hlookup', hcount'⟩ := RefTable.inc_spec hretain
      refine ⟨hneg, habsent, rfl, ?_, fun r hr => ?_, fun r => ?_⟩
      · rw [hlookup', hlookup, if_pos rfl]
      · rw [hlookup', hlookup, if_neg hr]
      · rw [hcount', hcount]
        by_cases hr : r = refnum <;> simp [hr]
    · cases hinc
  · cases hnew

/-- A run that ended because the numbering had no next number for a new reference. -/
def OutOfNumbers {α : Type} (num : Numbering) (result : EStateM.Result Abort Process α) : Prop :=
  ∃ q, result = .error (.panic .refsUnderflow) q ∧ num.next q.refs.issued = none

/-- What would have followed does not matter. -/
theorem OutOfNumbers.bind {α β : Type} {num : Numbering} {m : Prog α}
    (h : OutOfNumbers num (m.run p)) (f : α → Prog β) : OutOfNumbers num ((m >>= f).run p) := by
  obtain ⟨q, hrun, hnext⟩ := h
  exact ⟨q, by rw [EStateM.run_bind, hrun], hnext⟩

/-- Nothing but the end of the numbers keeps a new object from its reference. -/
theorem createRef_error {a : Abort} (h : (createRef env obj).run p = .error a p') :
    a = .panic .refsUnderflow ∧ env.numbering.next p'.refs.issued = none := by
  rcases bind_eq_error.mp h with hnew | ⟨number, middle, hnew, hrest⟩
  · simp only [EStateM.run, Seq.ToRefNum] at hnew
    split at hnew
    · cases hnew
    · rename_i hto
      cases hnew
      exact ⟨rfl, RefTable.toRefNum_eq_none.mp hto⟩
  · simp only [EStateM.run, Seq.ToRefNum] at hnew
    split at hnew
    · rename_i number' refs hto
      cases hnew
      -- the `Inc` finds what `ToRefNum` has just entered
      have hlookup : refs.lookup number = some obj := by
        rw [(RefTable.toRefNum_spec hto).2.2.2.2.1, if_pos rfl]
      obtain ⟨refs', hinc⟩ := RefTable.inc_of_lookup hlookup
      have hrunInc : (Seq.Inc number).run { p with refs } = .ok () { p with refs := refs' } := by
        simp [EStateM.run, Seq.Inc, hinc]
      rw [EStateM.run_bind, hrunInc] at hrest
      cases hrest
    · cases hnew

/-! ## Results -/

/-- A result read back from memory: the error message it points to, or the payload with its
length. -/
def SendReturn.Says (r : SendReturn) (memory : Ledger Block) : Except Bytes Bytes → Prop
  | .error text =>
      r.r0 = none ∧ r.r1 = -1 ∧ ∃ id, r.r2 = some id ∧ memory.find id = some (.heap (text ++ [0]))
  | .ok data =>
      r.r2 = none ∧ r.r1 = data.length ∧ ∃ id, r.r0 = some id ∧ memory.find id = some (.heap data)

/-- What the results of a Go method say to C. -/
def said : Bytes × Option GoError → Except Bytes Bytes
  | (_, some err) => .error err.text
  | (data, none) => .ok data

/-- The sending exports return what the Go method gave, in one new block. -/
theorem run_sendReturn (result : Bytes × Option GoError) (p : Process) :
    ∃ r block, (sendReturn result).run p = .ok r { p with memory := p.memory.add block } ∧
      r.Says (p.memory.add block) (said result) := by
  rcases result with ⟨data, _ | err⟩
  · exact ⟨_, .heap data, rfl, rfl, rfl, p.memory.next, rfl, Ledger.find_add_self _ _⟩
  · exact ⟨_, .heap (err.text ++ [0]), rfl, rfl, rfl, p.memory.next, rfl,
      Ledger.find_add_self _ _⟩

/-- A whole array as a Go slice. -/
@[simp] theorem GoBytes_length (data : Bytes) : GoBytes data data.length = pure data := by
  have hnonneg : ¬ (data.length : Int) < 0 := by omega
  simp [GoBytes, hnonneg]

/-- A method of the builder that returned, run on the process. -/
theorem run_onBuilder_ok {α : Type} {ptr : Nat} {m : Ipfsapi.GoM α} {a : α} {c : Ipfsapi.Conn}
    (h : m.run ⟨p.builders ptr, p.net⟩ = .ok a c) :
    (onBuilder ptr m).run p = .ok a (p.withConn ptr c) := by
  rw [onBuilder, run_zoom, h]

/-- A method of the builder that panicked, run on the process. -/
theorem run_onBuilder_error {α : Type} {ptr : Nat} {m : Ipfsapi.GoM α} {e : GoPanic}
    {c : Ipfsapi.Conn} (h : m.run ⟨p.builders ptr, p.net⟩ = .error e c) :
    (onBuilder ptr m).run p = .error (.panic e) (p.withConn ptr c) := by
  rw [onBuilder, run_zoom, h]

/-! ## Creation -/

/-- From `p` to `q` a fresh reference was entered, with count two, and nothing else changed. -/
def Created (p q : Process) (refnum : Int) : Prop :=
  q.objects = p.objects ∧ refnum ≠ 0 ∧ p.refs.count refnum = 0 ∧
    ∀ r, q.refs.count r = if r = refnum then 2 else p.refs.count r

section Created

variable {env : Env} {p q p' q' : Process} {refnum : Int}

/-- What was created depends on the handles only. -/
theorem Created.congr (h : Created p q refnum) (hp : p'.handles = p.handles)
    (hq : q'.handles = q.handles) : Created p' q' refnum := by
  obtain ⟨hrefs, hobjects⟩ := Prod.mk.inj hp
  obtain ⟨hrefs', hobjects'⟩ := Prod.mk.inj hq
  unfold Created
  rw [hrefs, hrefs', hobjects, hobjects']
  exact h

/-- `createRef` creates its reference and leaves the memory alone. -/
theorem createRef_created {obj : Iface} (h : (createRef env obj).run p = .ok refnum q) :
    q.memory = p.memory ∧ Created p q refnum := by
  obtain ⟨hneg, habsent, hrest, _, _, hcount⟩ := createRef_spec h
  exact ⟨by rw [hrest], by rw [hrest], by omega, RefTable.count_eq_zero_iff.mpr habsent, hcount⟩

/-- The reference of a new shell stands for a shell with the given address. -/
theorem KCreateShell_spec {url : Bytes} {r : CreateReturn}
    (h : (KCreateShell env url).run p = .ok r q) :
    ∃ ptr, q.refs.lookup r.r0 = some ⟨.shell, ptr⟩ ∧
      q.shells ptr = Shell.NewShell (goString url) := by
  obtain ⟨ptr, p₁, hnew, hbody⟩ := bind_eq_ok.mp h
  obtain ⟨refnum, p₂, href, hreturn⟩ := bind_eq_ok.mp hbody
  cases hnew
  cases hreturn
  obtain ⟨_, _, hrest, hlookup, _⟩ := createRef_spec href
  refine ⟨p.allocated, hlookup, ?_⟩
  rw [hrest]
  exact Function.update_self _ _ _

/-- What `KCreateRequest` does with the shell it has borrowed. -/
def enterRequest (env : Env) (command : Bytes) (arg : Option Bytes) (kShell : Shell) :
    Prog CreateReturn := do
  let rb ← newBuilder (kShell.NewRequest (goString command))
  let refnum ← createRef env ⟨.requestBuilder, rb⟩
  match arg with
  | some arg => onBuilder rb (Shell.Argument (goString arg))
  | none => pure ()
  pure ⟨refnum, none⟩

theorem KCreateRequest_eq (env : Env) (shellRef : Int) (command : Bytes) (arg : Option Bytes) :
    KCreateRequest env shellRef command arg =
      borrow shellRef >>= fun obj => assertShell obj >>= enterRequest env command arg := rfl

/-- The reference of a new request stands for a builder that has the command and the argument, and
nothing else. -/
theorem enterRequest_spec {kShell : Shell} {command : Bytes} {arg : Option Bytes} {r : CreateReturn}
    (h : (enterRequest env command arg kShell).run p = .ok r q) :
    ∃ ptr, q.refs.lookup r.r0 = some ⟨.requestBuilder, ptr⟩ ∧
      q.builders ptr = { kShell.NewRequest (goString command) with
        args := (arg.map goString).toList } := by
  obtain ⟨ptr, p₁, hnew, hbody⟩ := bind_eq_ok.mp h
  obtain ⟨refnum, p₂, href, hreturn⟩ := bind_eq_ok.mp hbody
  cases hnew
  obtain ⟨_, _, hrest, hentered, _⟩ := createRef_spec href
  have hbuilder : p₂.builders p.allocated = kShell.NewRequest (goString command) := by
    rw [hrest]
    exact Function.update_self _ _ _
  cases arg with
  | none =>
      cases hreturn
      exact ⟨p.allocated, hentered, hbuilder⟩
  | some arg =>
      -- the argument is added after the builder has its reference
      cases hreturn
      refine ⟨p.allocated, hentered, ?_⟩
      show Function.update p₂.builders p.allocated { p₂.builders p.allocated with
        args := (p₂.builders p.allocated).args ++ [goString arg] } p.allocated = _
      rw [Function.update_self, hbuilder]
      rfl

/-- A request that was created came from a shell, and a builder for it is behind its reference. -/
theorem KCreateRequest_spec {shellRef : Int} {command : Bytes} {arg : Option Bytes}
    {r : CreateReturn} (h : (KCreateRequest env shellRef command arg).run p = .ok r q) :
    ∃ shell ptr, p.refs.lookup shellRef = some ⟨.shell, shell⟩ ∧
      q.refs.lookup r.r0 = some ⟨.requestBuilder, ptr⟩ ∧
      q.builders ptr = { (p.shells shell).NewRequest (goString command) with
        args := (arg.map goString).toList } := by
  rw [KCreateRequest_eq] at h
  rcases run_borrowShell_cases shellRef p (enterRequest env command arg) with
    ⟨shell, hlookup, hrun⟩ | ⟨x, hrun⟩
  · rw [hrun] at h
    obtain ⟨ptr, hentered, hbuilder⟩ := enterRequest_spec h
    exact ⟨shell, ptr, hlookup, hentered, hbuilder⟩
  · rw [hrun] at h
    cases h

/-- An export that returns a fresh reference without a message and leaves the memory alone, or
panics. -/
def Creates (m : Prog CreateReturn) : Prop :=
  ∀ p, (∃ refnum q, m.run p = .ok ⟨refnum, none⟩ q ∧ q.memory = p.memory ∧ Created p q refnum) ∨
    ∃ x q, m.run p = .error (.panic x) q

theorem creates_KCreateShell (env : Env) (url : Bytes) : Creates (KCreateShell env url) := by
  intro p
  obtain ⟨shell, p₁, hhandles, hmemory, hnew⟩ : ∃ shell p₁, p₁.handles = p.handles ∧
      p₁.memory = p.memory ∧ (newShell (Shell.NewShell (goString url))).run p = .ok shell p₁ :=
    ⟨_, _, rfl, rfl, rfl⟩
  cases href : (createRef env ⟨.shell, shell⟩).run p₁ with
  | ok refnum q =>
      obtain ⟨hkept, hcreated⟩ := createRef_created href
      refine .inl ⟨refnum, q, ?_, hkept.trans hmemory, hcreated.congr hhandles.symm rfl⟩
      simp only [KCreateShell, EStateM.run_bind, hnew, href]
      rfl
  | error a q =>
      refine .inr ⟨.refsUnderflow, q, ?_⟩
      simp only [KCreateShell, EStateM.run_bind, hnew, href, (createRef_error href).1]

theorem creates_enterRequest (env : Env) (command : Bytes) (arg : Option Bytes) (kShell : Shell) :
    Creates (enterRequest env command arg kShell) := by
  intro p
  obtain ⟨rb, p₁, hhandles, hmemory, hnew⟩ : ∃ rb p₁,
      p₁.handles = p.handles ∧ p₁.memory = p.memory ∧
        (newBuilder (kShell.NewRequest (goString command))).run p = .ok rb p₁ :=
    ⟨_, _, rfl, rfl, rfl⟩
  cases href : (createRef env ⟨.requestBuilder, rb⟩).run p₁ with
  | error a q =>
      refine .inr ⟨.refsUnderflow, q, ?_⟩
      simp only [enterRequest, EStateM.run_bind, hnew, href, (createRef_error href).1]
  | ok refnum q =>
      obtain ⟨hkept, hcreated⟩ := createRef_created href
      have hcreated := hcreated.congr hhandles.symm rfl
      cases arg with
      | none =>
          refine .inl ⟨refnum, q, ?_, hkept.trans hmemory, hcreated⟩
          simp only [enterRequest, EStateM.run_bind, hnew, href]
          rfl
      | some arg =>
          obtain ⟨c, hset⟩ : ∃ c, (Shell.Argument (goString arg)).run ⟨q.builders rb, q.net⟩ =
              .ok () c := ⟨_, rfl⟩
          refine .inl ⟨refnum, q.withConn rb c, ?_, hkept.trans hmemory, hcreated.congr rfl rfl⟩
          simp only [enterRequest, EStateM.run_bind, hnew, href, run_onBuilder_ok hset]
          rfl

theorem creates_KCreateRequest (env : Env) (shellRef : Int) (command : Bytes)
    (arg : Option Bytes) : Creates (KCreateRequest env shellRef command arg) := by
  intro p
  rw [KCreateRequest_eq]
  rcases run_borrowShell_cases shellRef p (enterRequest env command arg) with
    ⟨shell, _, hrun⟩ | ⟨x, hrun⟩
  · rw [hrun]
    exact creates_enterRequest env command arg (p.shells shell) p
  · exact .inr ⟨x, p, hrun⟩

end Created

/-! ## Frames -/

section Frames

variable {τ : Type} {view : Process → τ}

/-- Borrowing leaves the whole process as it was, also when it panics. -/
theorem keeps_borrow (refnum : Int) : Keeps view (borrow refnum) := by
  intro p
  cases hlookup : p.refs.lookup refnum with
  | none => rw [run_borrow_absent hlookup, final_error]
  | some obj => rw [run_borrow hlookup, final_ok]

theorem keeps_assertShell (obj : Iface) : Keeps view (assertShell obj) := by
  refine keeps_bind keeps_get fun p => ?_
  split
  · exact keeps_pure _
  · exact keeps_abort _

theorem keeps_assertBuilder (obj : Iface) : Keeps view (assertBuilder obj) := by
  unfold assertBuilder
  split
  · exact keeps_pure _
  · exact keeps_abort _

/-- A view of the process that does not look at the reference table. -/
def Tableless (view : Process → τ) : Prop := ∀ p refs, view { p with refs } = view p

/-- A view of the process that does not look at the Go objects. -/
def Heapless (view : Process → τ) : Prop :=
  ∀ p shells builders allocated, view { p with shells, builders, allocated } = view p

theorem keeps_Inc (h : Tableless view) (refnum : Int) : Keeps view (Seq.Inc refnum) := by
  intro p
  show view (final (Seq.Inc refnum p)) = view p
  unfold Seq.Inc
  split
  · exact h p _
  · rfl

theorem keeps_Delete (h : Tableless view) (refnum : Int) : Keeps view (Seq.Delete refnum) := by
  intro p
  show view (final (Seq.Delete refnum p)) = view p
  unfold Seq.Delete
  split
  · exact h p _
  · rfl

theorem keeps_ToRefNum (h : Tableless view) (num : Numbering) (obj : Iface) :
    Keeps view (Seq.ToRefNum num obj) := by
  intro p
  show view (final (Seq.ToRefNum num obj p)) = view p
  unfold Seq.ToRefNum
  split
  · exact h p _
  · rfl

theorem keeps_createRef (h : Tableless view) (env : Env) (obj : Iface) :
    Keeps view (createRef env obj) :=
  keeps_bind (keeps_ToRefNum h _ obj) fun refnum =>
    keeps_bind (keeps_Inc h refnum) fun _ => keeps_pure refnum

theorem keeps_sendReturn (h : Blind view) (result : Bytes × Option GoError) :
    Keeps view (sendReturn result) := by
  intro p
  obtain ⟨r, block, hrun, _⟩ := run_sendReturn result p
  rw [hrun, final_ok]
  exact h p _

theorem keeps_GoBytes (memory : Bytes) (n : Int) : Keeps view (GoBytes memory n) := by
  unfold GoBytes
  split
  · exact keeps_abort _
  · split
    · exact keeps_abort _
    · exact keeps_pure _

variable (hblind : Blind view) (hconn : ∀ ptr c p, view (Process.withConn ptr c p) = view p)
include hblind hconn

/-- An export that calls a method of the builder keeps what the method and the memory do not
touch. -/
theorem keeps_sending (refnum : Int) (m : Ipfsapi.GoM (Bytes × Option GoError)) :
    Keeps view (borrow refnum >>= fun obj => assertBuilder obj >>= fun rb =>
      onBuilder rb m >>= sendReturn) :=
  keeps_bind (keeps_borrow refnum) fun obj => keeps_bind (keeps_assertBuilder obj) fun rb =>
    keeps_bind (keeps_zoom fun c p => hconn rb c p) fun _ => keeps_sendReturn hblind _

theorem keeps_KRequestSend (env : Env) (refnum : Int) : Keeps view (KRequestSend env refnum) :=
  keeps_sending hblind hconn refnum _

theorem keeps_KRequestPostString (env : Env) (refnum : Int) (data : Bytes) :
    Keeps view (KRequestPostString env refnum data) :=
  keeps_sending hblind hconn refnum _

theorem keeps_KRequestPostBytes (env : Env) (refnum : Int) (data : Bytes) (n : Int) :
    Keeps view (KRequestPostBytes env refnum data n) :=
  keeps_bind (keeps_borrow refnum) fun obj => keeps_bind (keeps_assertBuilder obj) fun rb =>
    keeps_bind (keeps_GoBytes data n) fun _ =>
      keeps_bind (keeps_zoom fun c p => hconn rb c p) fun _ => keeps_sendReturn hblind _

omit hblind in
theorem keeps_KRequestOption (refnum : Int) (name value : Bytes) :
    Keeps view (KRequestOption refnum name value) :=
  keeps_bind (keeps_borrow refnum) fun obj => keeps_bind (keeps_assertBuilder obj) fun rb =>
    keeps_zoom fun c p => hconn rb c p

end Frames

end Kipfs
