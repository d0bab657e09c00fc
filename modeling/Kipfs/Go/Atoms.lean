import Kipfs.Go.Exports

/-!
# The exports, one table operation at a time

Calls from several threads meet in the reference table, whose operations are atomic. Here the parts
of the exports that work on the table are cut into steps of one operation each: `Borrow` is what
an export does to get at an object, `Enter` what it does with a new one. Run without interruption
the steps are the programs of the exports, `borrow_eq_complete` and `createRef_eq_complete`.
-/

namespace Kipfs

open Foundation

/-- A program on the reference table. -/
abbrev RefM := EStateM GoPanic (RefTable Iface)

/-- Run it on the table of the process. -/
def onRefs {α : Type} (m : RefM α) : Prog α :=
  zoom Process.refs (fun refs p => { p with refs }) .panic m

namespace Refs

/-- `Inc`. -/
def Inc (refnum : Int) : RefM Unit := fun t =>
  match t.inc refnum with
  | some t' => .ok () t'
  | none => .error (.unknownRefNum refnum) t

/-- The lookup in `Get`. -/
def Lookup (refnum : Int) : RefM Iface := fun t =>
  match t.lookup refnum with
  | some obj => .ok obj t
  | none => .error (.unknownRefNum refnum) t

/-- `Delete`. -/
def Delete (refnum : Int) : RefM Unit := fun t =>
  match t.delete refnum with
  | some t' => .ok () t'
  | none => .error (.unknownRefNum refnum) t

/-- `ToRefNum`. -/
def ToRefNum (num : Numbering) (obj : Iface) : RefM Int := fun t =>
  match RefTable.toRefNum num obj t with
  | some (refnum, t') => .ok refnum t'
  | none => .error .refsUnderflow t

/-- `borrow`, on the table. -/
def borrow (refnum : Int) : RefM Iface := do
  Inc refnum
  let obj ← Lookup refnum
  Delete refnum
  pure obj

/-- `createRef`, on the table. -/
def create (num : Numbering) (obj : Iface) : RefM Int := do
  let refnum ← ToRefNum num obj
  Inc refnum
  pure refnum

/-- `KCreateRequest`, on the table, with the builder at the address `ptr`. -/
def createRequest (num : Numbering) (ptr : Nat) (shellRef : Int) : RefM Int := do
  let obj ← borrow shellRef
  if obj.type = .shell then create num ⟨.requestBuilder, ptr⟩
  else abort .typeAssertion

end Refs

section Refs

variable {t t' : RefTable Iface} {refnum : Int} {obj : Iface}

theorem Refs.run_Inc (h : t.inc refnum = some t') : (Refs.Inc refnum).run t = .ok () t' := by
  simp [EStateM.run, Refs.Inc, h]

theorem Refs.run_Lookup (h : t.lookup refnum = some obj) :
    (Refs.Lookup refnum).run t = .ok obj t := by
  simp [EStateM.run, Refs.Lookup, h]

theorem Refs.run_Delete (h : t.delete refnum = some t') :
    (Refs.Delete refnum).run t = .ok () t' := by
  simp [EStateM.run, Refs.Delete, h]

theorem Refs.run_ToRefNum (num : Numbering) (obj : Iface) (t : RefTable Iface) :
    (Refs.ToRefNum num obj).run t =
      match RefTable.toRefNum num obj t with
      | some (refnum, t') => .ok refnum t'
      | none => .error .refsUnderflow t := rfl

end Refs

/-- A point in `borrow`, and in the type assertion after it. -/
inductive Borrow where
  | inc (refnum : Int)
  | lookup (refnum : Int)
  | delete (refnum : Int) (obj : Iface)
  | assert (obj : Iface)
  deriving DecidableEq, Repr

/-- One step of a borrowing that expects the given type; at its end there is a pointer. -/
def Borrow.step (type : GoType) : Borrow → RefM (Borrow ⊕ Nat)
  | inc refnum => do
      Refs.Inc refnum
      pure (.inl (lookup refnum))
  | lookup refnum => do
      let obj ← Refs.Lookup refnum
      pure (.inl (delete refnum obj))
  | delete refnum obj => do
      Refs.Delete refnum
      pure (.inl (assert obj))
  | assert obj => if obj.type = type then pure (.inr obj.ptr) else abort .typeAssertion

/-- A point in `createRef`. -/
inductive Enter where
  | toRefNum (obj : Iface)
  | inc (refnum : Int)
  deriving DecidableEq, Repr

/-- One step of entering a new object; at its end there is its reference. -/
def Enter.step (num : Numbering) : Enter → RefM (Enter ⊕ Int)
  | toRefNum obj => do
      let refnum ← Refs.ToRefNum num obj
      pure (.inl (inc refnum))
  | inc refnum => do
      Refs.Inc refnum
      pure (.inr refnum)

section Uninterrupted

variable {env : Env} {α β : Type}

theorem onRefs_bind (m : RefM α) (f : α → RefM β) :
    onRefs (m >>= f) = onRefs m >>= fun a => onRefs (f a) := by
  refine zoom_bind ?_ ?_ m f
  · exact fun _ _ => rfl
  · exact fun _ _ _ => rfl

@[simp] theorem onRefs_pure (a : α) : onRefs (pure a) = pure a := rfl

@[simp] theorem onRefs_abort (e : GoPanic) : onRefs (abort e : RefM α) = abort (.panic e) := rfl

theorem onRefs_Inc (refnum : Int) : onRefs (Refs.Inc refnum) = Seq.Inc refnum := by
  refine eq_of_run fun p => ?_
  rw [onRefs, run_zoom]
  simp only [EStateM.run, Refs.Inc, Seq.Inc]
  cases p.refs.inc refnum <;> rfl

theorem onRefs_Delete (refnum : Int) : onRefs (Refs.Delete refnum) = Seq.Delete refnum := by
  refine eq_of_run fun p => ?_
  rw [onRefs, run_zoom]
  simp only [EStateM.run, Refs.Delete, Seq.Delete]
  cases p.refs.delete refnum <;> rfl

theorem onRefs_ToRefNum (obj : Iface) :
    onRefs (Refs.ToRefNum env.numbering obj) = Seq.ToRefNum env.numbering obj := by
  refine eq_of_run fun p => ?_
  rw [onRefs, run_zoom]
  simp only [EStateM.run, Refs.ToRefNum, Seq.ToRefNum]
  cases RefTable.toRefNum env.numbering obj p.refs <;> rfl

theorem onRefs_Lookup (refnum : Int) :
    onRefs (Refs.Lookup refnum) = (do
      let p ← get
      orAbort (.panic (.unknownRefNum refnum)) (p.refs.lookup refnum)) := by
  refine eq_of_run fun p => ?_
  rw [onRefs, run_zoom, EStateM.run_bind, EStateM.run_get]
  simp only [EStateM.run, Refs.Lookup]
  cases p.refs.lookup refnum <;> rfl

theorem borrow_eq_onRefs (refnum : Int) : borrow refnum = onRefs (Refs.borrow refnum) := by
  simp only [borrow, Seq.Get, Refs.borrow, onRefs_bind, onRefs_Inc, onRefs_Lookup, onRefs_Delete,
    onRefs_pure, bind_assoc]

theorem createRef_eq_onRefs (env : Env) (obj : Iface) :
    createRef env obj = onRefs (Refs.create env.numbering obj) := by
  simp only [createRef, Refs.create, onRefs_bind, onRefs_ToRefNum, onRefs_Inc, onRefs_pure]

/-- The steps of a borrowing are the borrowing. -/
theorem borrow_eq_complete (type : GoType) (refnum : Int) :
    onRefs (complete (Borrow.step type) 4 (.inc refnum)) = (do
      let obj ← borrow refnum
      if obj.type = type then pure (some obj.ptr) else abort (.panic .typeAssertion)) := by
  simp only [complete, Borrow.step, bind_assoc, pure_bind, onRefs_bind, onRefs_Inc, onRefs_Lookup,
    onRefs_Delete, borrow, Seq.Get]
  congr! 7 with _ p obj _
  split <;> simp

/-- The steps of entering a new object are `createRef`. -/
theorem createRef_eq_complete (obj : Iface) :
    onRefs (complete (Enter.step env.numbering) 2 (.toRefNum obj)) =
      some <$> createRef env obj := by
  simp only [complete, Enter.step, bind_assoc, pure_bind, onRefs_bind, onRefs_Inc, onRefs_ToRefNum,
    onRefs_pure, createRef, map_bind, map_pure]

/-- The program borrows an object of the type through the reference, in four steps, and then leaves
the table alone. -/
def Borrows (type : GoType) (refnum : Int) (m : Prog α) : Prop :=
  ∃ rest : Option Nat → Prog α, (∀ ptr, Keeps Process.refs (rest ptr)) ∧
    m = onRefs (complete (Borrow.step type) 4 (.inc refnum)) >>= rest

/-- A program on a borrowed builder, in steps. -/
theorem borrows_builder {refnum : Int} {f : Nat → Prog α} (hf : ∀ ptr, Keeps Process.refs (f ptr)) :
    Borrows .requestBuilder refnum (borrow refnum >>= fun obj => assertBuilder obj >>= f) := by
  refine ⟨fun ptr => ptr.elim (abort .memoryFault) f, fun ptr => ?_, ?_⟩
  · cases ptr with
    | none => exact keeps_abort _
    | some ptr => exact hf ptr
  · rw [borrow_eq_complete, bind_assoc]
    congr 1
    funext obj
    unfold assertBuilder
    split <;> simp

/-- **The exports on a request borrow a builder and then leave the table alone.** -/
theorem exports_borrow (env : Env) (refnum : Int) (data name value : Bytes) (n : Int) :
    Borrows .requestBuilder refnum (KRequestSend env refnum) ∧
      Borrows .requestBuilder refnum (KRequestPostString env refnum data) ∧
      Borrows .requestBuilder refnum (KRequestPostBytes env refnum data n) ∧
      Borrows .requestBuilder refnum (KRequestOption refnum name value) := by
  have hsending : ∀ m : Ipfsapi.GoM (Bytes × Option GoError), ∀ ptr,
      Keeps Process.refs (onBuilder ptr m >>= sendReturn) := fun m ptr =>
    keeps_bind (keeps_zoom fun _ _ => rfl) fun _ => keeps_sendReturn (fun _ _ => rfl) _
  refine ⟨borrows_builder (hsending _), borrows_builder (hsending _), borrows_builder fun ptr => ?_,
    borrows_builder fun ptr => keeps_zoom fun _ _ => rfl⟩
  exact keeps_bind (keeps_GoBytes data n) fun bytes => hsending _ ptr

/-- The program makes an object of the type, enters it in two steps, and then leaves the table
alone. -/
def Enters (num : Numbering) (type : GoType) (m : Prog α) : Prop :=
  ∃ (make : Prog Nat) (rest : Nat → Option Int → Prog α), Keeps Process.refs make ∧
    (∀ ptr refnum, Keeps Process.refs (rest ptr refnum)) ∧
    m = make >>= fun ptr =>
      onRefs (complete (Enter.step num) 2 (.toRefNum ⟨type, ptr⟩)) >>= rest ptr

/-- A new object entered, in steps. -/
theorem enters_createRef {type : GoType} {make : Prog Nat} {f : Nat → Int → Prog α}
    (hmake : Keeps Process.refs make) (hf : ∀ ptr refnum, Keeps Process.refs (f ptr refnum)) :
    Enters env.numbering type
      (make >>= fun ptr => createRef env ⟨type, ptr⟩ >>= fun refnum => f ptr refnum) := by
  refine ⟨make, fun ptr refnum => refnum.elim (abort .memoryFault) (f ptr), hmake,
    fun ptr refnum => ?_, ?_⟩
  · cases refnum with
    | none => exact keeps_abort _
    | some refnum => exact hf ptr refnum
  · congr 1
    funext ptr
    rw [createRef_eq_complete, bind_map_left]
    rfl

/-- `KCreateRequest` between the shell and the reference of the builder. -/
def makeBuilder (command : Bytes) (kShell : Nat) : Prog Nat := do
  let p ← get
  newBuilder ((p.shells kShell).NewRequest (goString command))

/-- `KCreateRequest` after the reference of the builder. -/
def finishRequest (arg : Option Bytes) (rb : Nat) (refnum : Int) : Prog CreateReturn := do
  match arg with
  | some arg => onBuilder rb (Shell.Argument (goString arg))
  | none => pure ()
  pure ⟨refnum, none⟩

theorem keeps_finishRequest (arg : Option Bytes) (rb : Nat) (refnum : Int) :
    Keeps Process.refs (finishRequest arg rb refnum) := by
  cases arg with
  | none => exact keeps_pure _
  | some arg => exact keeps_bind (keeps_zoom fun _ _ => rfl) fun _ => keeps_pure _

/-- **`KCreateShell` enters a shell; `KCreateRequest` borrows a shell and enters a builder.** -/
theorem exports_enter (env : Env) (refnum : Int) (url command : Bytes) (arg : Option Bytes) :
    Enters env.numbering .shell (KCreateShell env url) ∧
      ∃ rest : Option Nat → Prog CreateReturn,
        (∀ ptr, Enters env.numbering .requestBuilder (rest (some ptr))) ∧
          KCreateRequest env refnum command arg =
            onRefs (complete (Borrow.step .shell) 4 (.inc refnum)) >>= rest := by
  refine ⟨enters_createRef (fun _ => rfl) fun _ _ => keeps_pure _, fun ptr =>
    ptr.elim (abort .memoryFault) fun kShell => makeBuilder command kShell >>= fun rb =>
      createRef env ⟨.requestBuilder, rb⟩ >>= finishRequest arg rb, fun kShell => ?_, ?_⟩
  · exact enters_createRef (fun _ => rfl) (keeps_finishRequest arg)
  · rw [borrow_eq_complete, bind_assoc, KCreateRequest]
    congr 1
    funext obj
    unfold assertShell
    split
    · simp only [makeBuilder, bind_assoc, pure_bind, Option.elim_some]
      rfl
    · simp

end Uninterrupted

end Kipfs
