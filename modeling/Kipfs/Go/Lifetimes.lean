import Kipfs.Foundation.Machine
import Kipfs.Go.Exports

/-!
# The lifetime of a Go object

A program in C, or the tests of the native binding, may call the exports of the library in any order
and with any arguments. A Go object that was given a reference lives through such a run until it has
been released twice, and once more for each time it was retained: no other export moves its count,
and while it lives its reference stands for it. An export that gets the reference panics for want of
the object exactly when the object is gone (`lifetime`).
-/

namespace Kipfs

open Foundation Ipfsapi

/-- `KIncGoRef`. -/
def KIncGoRef (refnum : Int) : Prog Unit := Seq.Inc refnum

/-- `KRequest`. -/
def KRequest (env : Env) (refnum : Int) (command : Bytes) (arg : Option Bytes) :
    Prog SendReturn := do
  let kShell ← assertShell (← borrow refnum)
  let rb ← newBuilder (kShell.NewRequest (goString command))
  match arg with
  | some arg => onBuilder rb (Shell.Argument (goString arg))
  | none => pure ()
  sendReturn (← onBuilder rb (Shell.Send env.out))

/-- A call of an export. -/
inductive Export where
  | getTime
  | cid (json : Bytes)
  | incGoRef (refnum : Int)
  | decRef (refnum : Int)
  | createShell (url : Bytes)
  | createRequest (refnum : Int) (command : Bytes) (arg : Option Bytes)
  | requestSend (refnum : Int)
  | requestPostString (refnum : Int) (data : Bytes)
  | requestPostBytes (refnum : Int) (data : Bytes) (dataLength : Int)
  | request (refnum : Int) (command : Bytes) (arg : Option Bytes)
  | requestOption (refnum : Int) (name value : Bytes)
  | multiBaseEncode (encoding : Int) (data : Bytes) (dataLength : Int)
  | multiBaseDecode (data : Bytes) (dataLength : Int)
  deriving DecidableEq, Repr

namespace Export

/-- The export that is called. -/
def program (env : Env) : Export → Prog Unit
  | getTime => discard (GetTime env)
  | cid json => discard (KCID env json)
  | incGoRef refnum => KIncGoRef refnum
  | decRef refnum => KDecRef refnum
  | createShell url => discard (KCreateShell env url)
  | createRequest refnum command arg => discard (KCreateRequest env refnum command arg)
  | requestSend refnum => discard (KRequestSend env refnum)
  | requestPostString refnum data => discard (KRequestPostString env refnum data)
  | requestPostBytes refnum data dataLength =>
      discard (KRequestPostBytes env refnum data dataLength)
  | request refnum command arg => discard (KRequest env refnum command arg)
  | requestOption refnum name value => KRequestOption refnum name value
  | multiBaseEncode encoding data dataLength =>
      discard (KMultiBaseEncode env encoding data dataLength)
  | multiBaseDecode data dataLength => discard (KMultiBaseDecode env data dataLength)

/-- The reference that an export gets. -/
def refnum : Export → Option Int
  | incGoRef refnum => some refnum
  | decRef refnum => some refnum
  | createRequest refnum _ _ => some refnum
  | requestSend refnum => some refnum
  | requestPostString refnum _ => some refnum
  | requestPostBytes refnum _ _ => some refnum
  | request refnum _ _ => some refnum
  | requestOption refnum _ _ => some refnum
  | _ => none

/-- Call an export. -/
def step (env : Env) (p : Process) (call : Export) : Option Process :=
  survivor ((call.program env).run p)

end Export

/-! ## What an export does to a reference -/

/-- A reference that has been issued is as before. -/
structure Same (r : Int) (t t' : RefTable Iface) : Prop where
  issued : r ∈ t'.issued
  lookup : t'.lookup r = t.lookup r
  count : t'.count r = t.count r

/-- The program leaves all references alone that have been issued. -/
def KeepsIssued {α : Type} (m : Prog α) : Prop :=
  ∀ p r, r ∈ p.refs.issued → Same r p.refs (final (m.run p)).refs

/-- What an export does to a reference that has been issued. -/
structure Counts (call : Export) (r : Int) (t t' : RefTable Iface) : Prop where
  issued : r ∈ t'.issued
  count : t'.count r + (if call = .decRef r then 1 else 0) =
    t.count r + if call = .incGoRef r then 1 else 0
  lookup : 0 < t'.count r → t'.lookup r = t.lookup r

section Tables

variable {α β : Type} {env : Env} {p q : Process} {r : Int} {call : Export}

/-- A program that keeps the table leaves all references alone. -/
theorem keepsIssued_of_keeps {m : Prog α} (h : Keeps Process.refs m) : KeepsIssued m := by
  intro p r hissued
  rw [h p]
  exact ⟨hissued, rfl, rfl⟩

theorem keepsIssued_bind {m : Prog α} {f : α → Prog β} (hm : KeepsIssued m)
    (hf : ∀ a, KeepsIssued (f a)) : KeepsIssued (m >>= f) := by
  intro p r hissued
  have hfirst := hm p r hissued
  rw [EStateM.run_bind]
  cases hrun : m.run p with
  | error e q =>
      rw [hrun] at hfirst
      exact hfirst
  | ok a q =>
      rw [hrun] at hfirst
      have hsecond := hf a q r hfirst.issued
      exact ⟨hsecond.issued, hsecond.lookup.trans hfirst.lookup, hsecond.count.trans hfirst.count⟩

theorem keepsIssued_discard {m : Prog α} (h : KeepsIssued m) : KeepsIssued (discard m) := by
  intro p r hissued
  have hm := h p r hissued
  rw [run_discard]
  cases hrun : m.run p with
  | ok a q =>
      rw [hrun] at hm
      exact hm
  | error e q =>
      rw [hrun] at hm
      exact hm

/-- The references issued before a new object are as before. -/
theorem keepsIssued_createRef (env : Env) (obj : Iface) : KeepsIssued (createRef env obj) := by
  intro p r hissued
  rw [createRef, EStateM.run_bind]
  cases hto : RefTable.toRefNum env.numbering obj p.refs with
  | none =>
      have hrun : (Seq.ToRefNum env.numbering obj).run p = .error (.panic .refsUnderflow) p := by
        simp only [EStateM.run, Seq.ToRefNum, hto]
      rw [hrun]
      exact ⟨hissued, rfl, rfl⟩
  | some entered =>
      obtain ⟨refnum, t⟩ := entered
      obtain ⟨_, hfresh, _, hissued', hlookup, hcount⟩ := RefTable.toRefNum_spec hto
      have hne : r ≠ refnum := fun heq => hfresh (heq ▸ hissued)
      obtain ⟨t', hinc⟩ := RefTable.inc_of_lookup (by rw [hlookup, if_pos rfl])
      obtain ⟨hissued'', hlookup', hcount'⟩ := RefTable.inc_spec hinc
      have hrun : (Seq.ToRefNum env.numbering obj).run p = .ok refnum { p with refs := t } := by
        simp only [EStateM.run, Seq.ToRefNum, hto]
      have hrunInc : (Seq.Inc refnum).run { p with refs := t } = .ok () { p with refs := t' } := by
        simp only [EStateM.run, Seq.Inc, hinc]
      rw [hrun]
      dsimp only
      rw [EStateM.run_bind, hrunInc]
      refine ⟨?_, ?_, ?_⟩
      · show r ∈ t'.issued
        rw [hissued'', hissued']
        exact List.mem_cons_of_mem _ hissued
      · show t'.lookup r = p.refs.lookup r
        rw [hlookup', hlookup, if_neg hne]
      · show t'.count r = p.refs.count r
        rw [hcount', hcount, if_neg hne, if_neg hne, Nat.add_zero]

theorem keeps_CString (text : Bytes) : Keeps Process.refs (CString text) := fun _ => rfl

theorem blind_refs : Blind Process.refs := fun _ _ => rfl

theorem keepsIssued_createRequest (refnum : Int) (command : Bytes) (arg : Option Bytes) :
    KeepsIssued (KCreateRequest env refnum command arg) := by
  refine keepsIssued_bind (keepsIssued_of_keeps (keeps_borrow refnum)) fun obj =>
    keepsIssued_bind (keepsIssued_of_keeps (keeps_assertShell obj)) fun kShell =>
      keepsIssued_bind (keepsIssued_of_keeps fun _ => rfl) fun rb =>
        keepsIssued_bind (keepsIssued_createRef env _) fun refnum => keepsIssued_of_keeps ?_
  cases arg with
  | none => exact keeps_pure _
  | some arg => exact keeps_bind (keeps_zoom fun _ _ => rfl) fun _ => keeps_pure _

theorem keeps_KRequest (refnum : Int) (command : Bytes) (arg : Option Bytes) :
    Keeps Process.refs (KRequest env refnum command arg) := by
  have hsend : ∀ rb, Keeps Process.refs (onBuilder rb (Shell.Send env.out) >>= sendReturn) :=
    fun rb => keeps_bind (keeps_zoom fun _ _ => rfl) fun _ => keeps_sendReturn blind_refs _
  refine keeps_bind (keeps_borrow refnum) fun obj => keeps_bind (keeps_assertShell obj) fun _ =>
    keeps_bind (fun _ => rfl) fun rb => ?_
  cases arg with
  | none => exact hsend rb
  | some arg => exact keeps_bind (keeps_zoom fun _ _ => rfl) fun _ => hsend rb

/-- An export that is not `KIncGoRef` or `KDecRef` moves no count. -/
theorem keepsIssued_program (hinc : ∀ r, call ≠ .incGoRef r) (hdec : ∀ r, call ≠ .decRef r) :
    KeepsIssued (call.program env) := by
  cases call with
  | incGoRef refnum => exact absurd rfl (hinc refnum)
  | decRef refnum => exact absurd rfl (hdec refnum)
  | getTime => exact keepsIssued_discard (keepsIssued_of_keeps (keeps_CString _))
  | cid json =>
      refine keepsIssued_discard (keepsIssued_of_keeps ?_)
      unfold KCID
      split
      · exact keeps_abort _
      · exact keeps_CString _
  | createShell url =>
      exact keepsIssued_discard (keepsIssued_bind (keepsIssued_of_keeps fun _ => rfl) fun _ =>
        keepsIssued_bind (keepsIssued_createRef env _) fun _ => keepsIssued_of_keeps (keeps_pure _))
  | createRequest refnum command arg =>
      exact keepsIssued_discard (keepsIssued_createRequest refnum command arg)
  | requestSend refnum =>
      exact keepsIssued_discard (keepsIssued_of_keeps
        (keeps_KRequestSend blind_refs (fun _ _ _ => rfl) env refnum))
  | requestPostString refnum data =>
      exact keepsIssued_discard (keepsIssued_of_keeps
        (keeps_KRequestPostString blind_refs (fun _ _ _ => rfl) env refnum data))
  | requestPostBytes refnum data dataLength =>
      exact keepsIssued_discard (keepsIssued_of_keeps
        (keeps_KRequestPostBytes blind_refs (fun _ _ _ => rfl) env refnum data dataLength))
  | request refnum command arg =>
      exact keepsIssued_discard (keepsIssued_of_keeps (keeps_KRequest refnum command arg))
  | requestOption refnum name value =>
      exact keepsIssued_of_keeps (keeps_KRequestOption (fun _ _ _ => rfl) refnum name value)
  | multiBaseEncode encoding data dataLength =>
      refine keepsIssued_discard
        (keepsIssued_of_keeps (keeps_bind (keeps_GoBytes _ _) fun bytes => ?_))
      split
      · exact keeps_bind (keeps_CString _) fun _ => keeps_pure _
      · exact keeps_bind (keeps_CString _) fun _ => keeps_pure _
  | multiBaseDecode data dataLength =>
      refine keepsIssued_discard
        (keepsIssued_of_keeps (keeps_bind (keeps_GoBytes _ _) fun text => ?_))
      split
      · exact keeps_bind (keeps_CString _) fun _ => keeps_pure _
      · exact keeps_bind (keeps_CString _) fun _ => keeps_pure _

/-- Where a program that has survived has ended. -/
theorem final_of_survivor {result : EStateM.Result Abort Process α} (h : survivor result = some q) :
    final result = q := by
  cases result with
  | ok a p =>
      cases h
      rfl
  | error a p =>
      cases a with
      | thrown message =>
          cases h
          rfl
      | _ => cases h

theorem counts_incGoRef {refnum : Int} (hissued : r ∈ p.refs.issued)
    (h : (Export.incGoRef refnum).step env p = some q) :
    Counts (.incGoRef refnum) r p.refs q.refs := by
  have hrun : survivor (Seq.Inc refnum p) = some q := h
  unfold Seq.Inc at hrun
  cases ht : p.refs.inc refnum with
  | none =>
      rw [ht] at hrun
      cases hrun
  | some t =>
      rw [ht] at hrun
      cases hrun
      obtain ⟨hissued', hlookup, hcount⟩ := RefTable.inc_spec ht
      refine ⟨?_, ?_, fun _ => hlookup r⟩
      · show r ∈ t.issued
        rw [hissued']
        exact hissued
      · show t.count r + _ = _
        rw [hcount]
        simp [eq_comm]

theorem counts_decRef {refnum : Int} (hissued : r ∈ p.refs.issued)
    (h : (Export.decRef refnum).step env p = some q) :
    Counts (.decRef refnum) r p.refs q.refs := by
  have hrun : survivor (Seq.Delete refnum p) = some q := h
  unfold Seq.Delete at hrun
  cases ht : p.refs.delete refnum with
  | none =>
      rw [ht] at hrun
      cases hrun
  | some t =>
      rw [ht] at hrun
      cases hrun
      obtain ⟨hissued', hothers, hcount⟩ := RefTable.delete_spec ht
      refine ⟨?_, ?_, fun hpos => ?_⟩
      · show r ∈ t.issued
        rw [hissued']
        exact hissued
      · show t.count r + _ = _
        rw [hcount]
        simp [eq_comm]
      · show t.lookup r = p.refs.lookup r
        have hpos : 0 < t.count r := hpos
        by_cases hr : r = refnum
        · -- the release was not the last one
          subst hr
          have hcountr := hcount r
          rw [if_pos rfl] at hcountr
          exact RefTable.lookup_delete ht (by omega) r
        · exact hothers r hr

/-- **What one export does to the count of a reference.** -/
theorem counts_step (hissued : r ∈ p.refs.issued) (h : call.step env p = some q) :
    Counts call r p.refs q.refs := by
  by_cases hinc : ∃ refnum, call = .incGoRef refnum
  · obtain ⟨refnum, rfl⟩ := hinc
    exact counts_incGoRef hissued h
  · by_cases hdec : ∃ refnum, call = .decRef refnum
    · obtain ⟨refnum, rfl⟩ := hdec
      exact counts_decRef hissued h
    · have hsame : Same r p.refs (final ((call.program env).run p)).refs :=
        keepsIssued_program (fun r hr => hinc ⟨r, hr⟩) (fun r hr => hdec ⟨r, hr⟩) p r hissued
      rw [final_of_survivor h] at hsame
      refine ⟨hsame.issued, ?_, fun _ => hsame.lookup⟩
      rw [hsame.count, if_neg fun hr => hdec ⟨r, hr⟩, if_neg fun hr => hinc ⟨r, hr⟩]

/-- What a run does to a reference that has been issued: its count is balanced, and while it has one
it stands for what it stood for. -/
theorem counts_run {calls : List Export} (hissued : r ∈ p.refs.issued)
    (hrun : run (Export.step env) p calls = some q) :
    q.refs.count r + calls.count (.decRef r) = p.refs.count r + calls.count (.incGoRef r) ∧
      (0 < q.refs.count r → q.refs.lookup r = p.refs.lookup r) := by
  induction calls generalizing p with
  | nil =>
      cases hrun
      exact ⟨rfl, fun _ => rfl⟩
  | cons call calls ih =>
      obtain ⟨middle, hmove, hrest⟩ := run_cons_eq_some.mp hrun
      have hstep := counts_step hissued hmove
      obtain ⟨hcount, hlookup⟩ := ih hstep.issued hrest
      have hbalance := hstep.count
      rw [List.count_cons, List.count_cons]
      simp only [beq_iff_eq]
      refine ⟨by omega, fun hpos => ?_⟩
      -- what is there at the end was there in the middle
      have hmiddle : 0 < middle.refs.count r := by
        obtain ⟨obj, hobj⟩ := RefTable.count_pos_iff.mp hpos
        exact RefTable.count_pos_iff.mpr ⟨obj, (hlookup hpos).symm.trans hobj⟩
      exact (hlookup hpos).trans (hstep.lookup hmiddle)

end Tables

/-! ## Panics -/

/-- The panic is for a reference that is not in the table. -/
def Missing (x : GoPanic) : Prop := ∃ refnum, x = .unknownRefNum refnum

/-- The abort is a panic for a reference that is not in the table. -/
def Unknown : Abort → Prop
  | .panic x => Missing x
  | _ => False

section Panics

variable {α : Type} {env : Env} {r : Int}

theorem not_missing_nil : ¬ Missing .nilDereference := nofun

theorem spares_deref (o : Option α) : Spares Missing (Shell.deref o) :=
  spares_orAbort not_missing_nil o

theorem spares_ReadAll (output : Option (Reader Bytes)) :
    Spares Missing (Shell.ReadAll output) :=
  spares_bind (spares_deref output) fun _ => spares_of_ok fun c => ⟨_, c, rfl⟩

theorem spares_Close (res : Option Response) :
    Spares Missing (Response.Close res) := by
  cases res with
  | none => exact spares_abort not_missing_nil
  | some res => exact spares_of_ok fun _ => ⟨_, _, rfl⟩

theorem spares_Send (out : Outside) : Spares Missing (Shell.Send out) := by
  refine spares_bind (spares_of_ok fun _ => ⟨_, _, rfl⟩) fun reply => ?_
  dsimp only
  split
  · exact spares_of_ok fun c => ⟨_, c, rfl⟩
  · refine spares_ensure (spares_Close _) (spares_bind (spares_deref _) fun res => ?_)
    split
    · exact spares_of_ok fun c => ⟨_, c, rfl⟩
    · exact spares_ReadAll _

theorem spares_Post2 (out : Outside) (name : Bytes) (file : Node) :
    Spares Missing (Shell.Post2 out name file) := by
  refine spares_bind (spares_of_ok fun _ => ⟨_, _, rfl⟩) fun _ =>
    spares_bind (spares_of_ok fun _ => ⟨_, _, rfl⟩) fun reply => spares_ensure (spares_Close _) ?_
  split
  · exact spares_of_ok fun c => ⟨_, c, rfl⟩
  · refine spares_bind (spares_deref _) fun res => spares_bind (spares_ReadAll _) fun result => ?_
    dsimp only
    split
    · exact spares_of_ok fun c => ⟨_, c, rfl⟩
    · exact spares_of_ok fun c => ⟨_, c, rfl⟩

section Spared

variable {bad : Abort → Prop}

theorem spares_assertShell (h : ¬ bad (.panic .typeAssertion)) (obj : Iface) :
    Spares bad (assertShell obj) := by
  refine spares_bind (spares_of_ok fun p => ⟨_, p, rfl⟩) fun p => ?_
  split
  · exact spares_of_ok fun p => ⟨_, p, rfl⟩
  · exact spares_abort h

theorem spares_assertBuilder (h : ¬ bad (.panic .typeAssertion)) (obj : Iface) :
    Spares bad (assertBuilder obj) := by
  unfold assertBuilder
  split
  · exact spares_of_ok fun p => ⟨_, p, rfl⟩
  · exact spares_abort h

theorem spares_createRef (h : ¬ bad (.panic .refsUnderflow)) (env : Env) (obj : Iface) :
    Spares bad (createRef env obj) := by
  intro p a haborted
  cases hrun : (createRef env obj).run p with
  | ok refnum q =>
      rw [hrun] at haborted
      cases haborted
  | error a' q =>
      rw [hrun] at haborted
      cases haborted
      rw [(createRef_error hrun).1]
      exact h

theorem spares_borrow (h : ∀ refnum, ¬ bad (.panic (.unknownRefNum refnum))) (refnum : Int) :
    Spares bad (borrow refnum) := by
  intro p a haborted
  cases hlookup : p.refs.lookup refnum with
  | none =>
      rw [run_borrow_absent hlookup] at haborted
      cases haborted
      exact h refnum
  | some obj =>
      rw [run_borrow hlookup] at haborted
      cases haborted

end Spared

theorem spares_sendReturn (result : Bytes × Option GoError) : Spares Unknown (sendReturn result) :=
  spares_of_ok fun p => by
    obtain ⟨r, block, hrun, _⟩ := run_sendReturn result p
    exact ⟨r, _, hrun⟩

theorem spares_GoBytes (memory : Bytes) (n : Int) : Spares Unknown (GoBytes memory n) := by
  unfold GoBytes
  split
  · exact spares_abort nofun
  · split
    · exact spares_abort nofun
    · exact spares_of_ok fun p => ⟨_, p, rfl⟩

/-- What a Go method returns is sent on. -/
theorem spares_sending {m : GoM (Bytes × Option GoError)}
    (h : Spares Missing m) (rb : Nat) :
    Spares Unknown (onBuilder rb m >>= sendReturn) :=
  spares_bind (spares_zoom h) fun _ => spares_sendReturn _

/-- Adding an argument, and what follows. -/
theorem spares_argument (rb : Nat) (arg : Bytes) {m : Prog α} (h : Spares Unknown m) :
    Spares Unknown (onBuilder rb (Shell.Argument (goString arg)) >>= fun _ => m) :=
  spares_bind (spares_zoom (spares_of_ok fun _ => ⟨_, _, rfl⟩)) fun _ => h

/-- An export that borrows panics for want of the object exactly when it is gone. -/
theorem aborted_borrow_iff {f : Iface → Prog α} (hf : ∀ obj, Spares Unknown (f obj)) (r : Int)
    (p : Process) :
    aborted ((borrow r >>= f).run p) = some (.panic (.unknownRefNum r)) ↔
      p.refs.lookup r = none := by
  rw [EStateM.run_bind]
  cases hlookup : p.refs.lookup r with
  | none =>
      rw [run_borrow_absent hlookup]
      exact iff_of_true rfl rfl
  | some obj =>
      rw [run_borrow hlookup]
      exact iff_of_false (fun h => hf obj p _ h ⟨r, rfl⟩) nofun

theorem aborted_Inc_iff (p : Process) :
    aborted ((Seq.Inc r).run p) = some (.panic (.unknownRefNum r)) ↔ p.refs.lookup r = none := by
  show aborted (Seq.Inc r p) = _ ↔ _
  unfold Seq.Inc
  cases hlookup : p.refs.lookup r with
  | none =>
      cases ht : p.refs.inc r with
      | none => exact iff_of_true rfl rfl
      | some t =>
          obtain ⟨obj, hobj⟩ := RefTable.lookup_of_inc ht
          cases hlookup.symm.trans hobj
  | some obj =>
      obtain ⟨t, ht⟩ := RefTable.inc_of_lookup hlookup
      rw [ht]
      exact iff_of_false nofun nofun

theorem aborted_Delete_iff (p : Process) :
    aborted ((Seq.Delete r).run p) = some (.panic (.unknownRefNum r)) ↔ p.refs.lookup r = none := by
  show aborted (Seq.Delete r p) = _ ↔ _
  unfold Seq.Delete
  cases hlookup : p.refs.lookup r with
  | none =>
      cases ht : p.refs.delete r with
      | none => exact iff_of_true rfl rfl
      | some t =>
          -- there would have been one to take away
          have hcount := (RefTable.delete_spec ht).2.2 r
          rw [RefTable.count_eq_zero_iff.mpr hlookup, if_pos rfl] at hcount
          omega
  | some obj =>
      obtain ⟨t, ht⟩ := RefTable.delete_of_lookup hlookup
      rw [ht]
      exact iff_of_false nofun nofun

/-- An export panics for want of the object of its reference exactly when it is gone. -/
theorem aborted_program_iff {call : Export} (hcall : call.refnum = some r) (p : Process) :
    aborted ((call.program env).run p) = some (.panic (.unknownRefNum r)) ↔
      p.refs.lookup r = none := by
  cases call with
  | incGoRef refnum =>
      cases hcall
      exact aborted_Inc_iff p
  | decRef refnum =>
      cases hcall
      exact aborted_Delete_iff p
  | createRequest refnum command arg =>
      cases hcall
      rw [Export.program, aborted_discard]
      refine aborted_borrow_iff (fun obj => spares_bind (spares_assertShell nofun obj) fun kShell =>
        spares_bind (spares_of_ok fun _ => ⟨_, _, rfl⟩) fun rb =>
          spares_bind (spares_createRef nofun env _) fun refnum => ?_) r p
      cases arg with
      | none => exact spares_of_ok fun p => ⟨_, p, rfl⟩
      | some arg => exact spares_argument rb arg (spares_of_ok fun p => ⟨_, p, rfl⟩)
  | requestSend refnum =>
      cases hcall
      rw [Export.program, aborted_discard]
      exact aborted_borrow_iff (fun obj => spares_bind (spares_assertBuilder nofun obj) fun rb =>
        spares_sending (spares_Send env.out) rb) r p
  | requestPostString refnum data =>
      cases hcall
      rw [Export.program, aborted_discard]
      exact aborted_borrow_iff (fun obj => spares_bind (spares_assertBuilder nofun obj) fun rb =>
        spares_sending (spares_Post2 env.out _ _) rb) r p
  | requestPostBytes refnum data dataLength =>
      cases hcall
      rw [Export.program, aborted_discard]
      exact aborted_borrow_iff (fun obj => spares_bind (spares_assertBuilder nofun obj) fun rb =>
        spares_bind (spares_GoBytes data dataLength) fun bytes =>
          spares_sending (spares_Post2 env.out _ _) rb) r p
  | request refnum command arg =>
      cases hcall
      rw [Export.program, aborted_discard]
      refine aborted_borrow_iff (fun obj => spares_bind (spares_assertShell nofun obj) fun kShell =>
        spares_bind (spares_of_ok fun _ => ⟨_, _, rfl⟩) fun rb => ?_) r p
      cases arg with
      | none => exact spares_sending (spares_Send env.out) rb
      | some arg => exact spares_argument rb arg (spares_sending (spares_Send env.out) rb)
  | requestOption refnum name value =>
      cases hcall
      exact aborted_borrow_iff (fun obj => spares_bind (spares_assertBuilder nofun obj) fun rb =>
        spares_zoom (spares_of_ok fun _ => ⟨_, _, rfl⟩)) r p
  | getTime | cid json | createShell url | multiBaseEncode encoding data dataLength
    | multiBaseDecode data dataLength => cases hcall

end Panics

/-! ## Lifetimes -/

section Lifetimes

variable {env : Env} {p p₁ q : Process} {created : CreateReturn} {make : Prog CreateReturn}
  {calls : List Export}

/-- **How long a Go object lives.** After `KCreateShell` or `KCreateRequest` has made an object, and
any calls of exports that the process has survived, the count of its reference is two, and one more
for each `KIncGoRef` and one less for each `KDecRef` with it. The reference stands for the object
until nothing is left of the count, and from then on every export that gets the reference panics for
want of the object, and none did before. -/
theorem lifetime (hmake : Creates make) (hmade : make.run p = .ok created p₁)
    (hrun : run (Export.step env) p₁ calls = some q) :
    ∃ obj, p₁.refs.lookup created.r0 = some obj ∧
      q.refs.count created.r0 + calls.count (.decRef created.r0) =
        2 + calls.count (.incGoRef created.r0) ∧
      (q.refs.lookup created.r0 =
        if calls.count (.decRef created.r0) < 2 + calls.count (.incGoRef created.r0) then some obj
        else none) ∧
      ∀ call : Export, call.refnum = some created.r0 →
        (aborted ((call.program env).run q) = some (.panic (.unknownRefNum created.r0)) ↔
          calls.count (.decRef created.r0) = 2 + calls.count (.incGoRef created.r0)) := by
  have hcount : p₁.refs.count created.r0 = 2 := by
    rcases hmake p with ⟨refnum, q', hrun', _, hcreated⟩ | ⟨x, q', hrun'⟩
    · cases hmade.symm.trans hrun'
      rw [hcreated.2.2.2, if_pos rfl]
    · cases hmade.symm.trans hrun'
  obtain ⟨obj, hobj⟩ := RefTable.count_pos_iff.mp (by rw [hcount]; exact Nat.two_pos)
  obtain ⟨hbalance, hlookup⟩ := counts_run (RefTable.issued_of_lookup hobj) hrun
  rw [hcount] at hbalance
  have hgone : q.refs.lookup created.r0 = none ↔
      calls.count (.decRef created.r0) = 2 + calls.count (.incGoRef created.r0) := by
    rw [← RefTable.count_eq_zero_iff]
    omega
  refine ⟨obj, hobj, hbalance, ?_, fun call hcall => (aborted_program_iff hcall q).trans hgone⟩
  split
  · rw [hlookup (by omega), hobj]
  · exact hgone.mpr (by omega)

end Lifetimes

/-- A shell that is retained once and released three times. -/
theorem lifetime_released :
    ∃ r p₁ q, (KCreateShell standalone [104, 0]).run Process.start = .ok ⟨r, none⟩ p₁ ∧
      run (Export.step standalone) p₁ [.decRef r, .incGoRef r, .decRef r, .decRef r] = some q ∧
      q.refs.lookup r = none ∧
      aborted ((KDecRef r).run q) = some (.panic (.unknownRefNum r)) := by
  obtain ⟨r, p₁, hmade⟩ : ∃ r p₁, (KCreateShell standalone [104, 0]).run Process.start =
      .ok ⟨r, none⟩ p₁ := ⟨_, _, rfl⟩
  obtain ⟨q, hrun⟩ : ∃ q, run (Export.step standalone) p₁
      [.decRef r, .incGoRef r, .decRef r, .decRef r] = some q := by
    cases hmade
    exact ⟨_, rfl⟩
  obtain ⟨obj, _, _, hlookup, hpanic⟩ :=
    lifetime (creates_KCreateShell standalone [104, 0]) hmade hrun
  have hdec : List.count (.decRef r) [Export.decRef r, .incGoRef r, .decRef r, .decRef r] = 3 := by
    simp
  have hinc :
      List.count (.incGoRef r) [Export.decRef r, .incGoRef r, .decRef r, .decRef r] = 1 := by
    simp
  refine ⟨r, p₁, q, hmade, hrun, ?_, (hpanic (.decRef r) rfl).mpr ?_⟩
  · rw [hlookup, hdec, hinc]
    rfl
  · rw [hdec, hinc]

end Kipfs
