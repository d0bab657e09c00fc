import Kipfs.Kotlin.Clients
import Kipfs.Kotlin.Marshalling
import Kipfs.Kotlin.Overlap

/-!
# Methods that run alone

The methods of a shell are cut into steps twice: `Clients` cuts them at the field and at the calls
into Go, and `Overlap` also at the reference table. A method of `Clients` that nothing interrupts is
the method of the Kotlin object (`method_alone`). On either binding each of its steps is some steps
of `Overlap` that nothing interrupts (`step_alone`), and so the method that `Overlap` cuts is that
of the Kotlin object too (`methods_alone`). A method of a request borrows its builder and touches
the table no further (`methods_borrow`).
-/

namespace Kipfs.Clients

open Foundation

/-! ## Cut at the calls into Go -/

/-- The method of the Kotlin object. -/
def Method.program (kipfs : KIPFSNative) (shell : Nat) (address : KString) : Method → Prog Unit
  | connect => KNativeShell.connect kipfs shell address
  | request command arg => KNativeShell.request kipfs shell address command arg
  | close => KNativeObject.close kipfs shell

/-- One step of a method that nothing interrupts. -/
def Point.alone (kipfs : KIPFSNative) (shell : Nat) (address : KString) (point : Point) :
    Prog (Point ⊕ Unit) := do
  let (next, _) ← point.step kipfs shell address
  match next with
  | some next => pure (.inl next)
  | none => pure (.inr ())

/-- Reading a field for nothing is doing nothing. -/
theorem getRef_discarded {α : Type} (shell : Nat) (m : Prog α) :
    (KNativeObject.getRef shell >>= fun _ => m) = m := eq_of_run fun _ => rfl

/-- **A method that nothing interrupts is the method of the Kotlin object.** -/
theorem method_alone (kipfs : KIPFSNative) (shell : Nat) (address : KString) (method : Method) :
    complete (Point.alone kipfs shell address) 5 method.point =
      some <$> method.program kipfs shell address := by
  cases method with
  | connect =>
      simp only [complete, Point.alone, Point.step, Method.point, Method.program, After.point,
        KNativeShell.connect, bind_assoc, map_bind]
      congr! 2 with ref
      split <;> simp
  | request command arg =>
      simp only [complete, Point.alone, Point.step, Method.point, Method.program, After.point,
        KNativeShell.request, KNativeShell.connect, bind_assoc, map_bind]
      congr! 2 with ref
      split <;> simp
  | close =>
      simp only [complete, Point.alone, Point.step, Method.point, Method.program,
        KNativeObject.close, bind_assoc, pure_bind, map_bind, getRef_discarded]
      congr! 2 with ref
      split <;> simp

/-! ## Cut at the table -/

/-- What follows a `connect`, cut at the table. -/
def After.onTable : After → Overlap.After
  | finish => .finish
  | request _ _ => .request

/-- A method, cut at the table. -/
def Method.onTable : Method → Overlap.Method
  | connect => .connect
  | request _ _ => .request
  | close => .close

/-- A point, cut at the table, where a new Go object will get the address `ptr`. -/
def Point.onTable (ptr : Nat) : Point → Overlap.ShellPoint
  | connecting after => .connecting after.onTable
  | creating after => .creating (.toRefNum ⟨.shell, ptr⟩) after.onTable
  | assigning ref after => .assigning ref after.onTable
  | requesting _ _ => .requesting
  | calling ref _ _ => .borrowing (.inc ref)
  | logging => .closing .log
  | testing => .closing .test
  | rereading => .closing .read
  | disposing ref => .closing (.dispose ref)
  | resetting => .closing .reset

/-- The steps that are made at the table for one step from a point. -/
def Point.strides : Point → Nat
  | creating _ => 2
  | calling _ _ _ => 7
  | _ => 1

@[simp] theorem Method.onTable_point (method : Method) (ptr : Nat) :
    method.point.onTable ptr = method.onTable.point := by
  cases method <;> rfl

/-- A step is made of the functions of the interface and of what is done with the field. -/
theorem marshalled_step {kipfs kipfs' : KIPFSNative} (hmarshals : Marshals kipfs kipfs')
    (hplain : Memoryless kipfs') (shell : Nat) (address : KString) (point : Point) :
    Marshalled (point.step kipfs shell address) (point.step kipfs' shell address) := by
  have hreturn : ∀ a : Option Point × Option Int, Marshalled (pure a : Prog _) (pure a) :=
    fun a => marshalled_self (ignores_pure a)
  cases point with
  | connecting after =>
      refine (marshalled_getRef shell).bind fun ref => ?_
      split
      · exact hreturn _
      · exact hreturn _
  | creating after =>
      refine Marshalled.bind ?_ fun ref => hreturn _
      exact ⟨hmarshals.createNativeShell address, hplain.createNativeShell address⟩
  | assigning ref after => exact (marshalled_setRef shell ref).bind fun _ => hreturn _
  | requesting command arg => exact (marshalled_getRef shell).bind fun ref => hreturn _
  | calling ref command arg =>
      refine Marshalled.bind ?_ fun made => (marshalled_new .request made).bind fun _ => hreturn _
      exact ⟨hmarshals.createRequest ref command arg, hplain.createRequest ref command arg⟩
  | logging => exact (marshalled_getRef shell).bind fun _ => hreturn _
  | testing =>
      refine (marshalled_getRef shell).bind fun ref => ?_
      split
      · exact hreturn _
      · exact hreturn _
  | rereading => exact (marshalled_getRef shell).bind fun ref => hreturn _
  | disposing ref =>
      refine Marshalled.bind ?_ fun _ => hreturn _
      exact ⟨hmarshals.disposeGoObject ref, hplain.disposeGoObject ref⟩
  | resetting => exact (marshalled_setRef shell 0).bind fun _ => hreturn _

end Kipfs.Clients

namespace Kipfs.Overlap

open Foundation

/-- Steps of a method of a shell that nothing interrupts, one for each address that the heap has to
offer: the field after them, the next point, and the reference of the request that they have
made. -/
def ShellPoint.alone (num : Numbering) :
    List Nat → Int → ShellPoint → RefM (Int × Option ShellPoint × Option Int)
  | [], ref, point => pure (ref, some point, none)
  | ptr :: ptrs, ref, point => do
      let (ref, next, made) ← point.step num ptr ref
      match next with
      | some next => ShellPoint.alone num ptrs ref next
      | none => pure (ref, none, made)

/-- Steps after steps. -/
theorem alone_append (num : Numbering) (ptrs ptrs' : List Nat) (ref : Int) (point : ShellPoint) :
    ShellPoint.alone num (ptrs ++ ptrs') ref point =
      ShellPoint.alone num ptrs ref point >>= fun (ref, next, made) =>
        match next with
        | some next => ShellPoint.alone num ptrs' ref next
        | none => pure (ref, none, made) := by
  induction ptrs generalizing ref point with
  | nil => simp [ShellPoint.alone]
  | cons ptr ptrs ih =>
      simp only [List.cons_append, ShellPoint.alone, bind_assoc]
      congr 1
      funext ⟨ref', next, made⟩
      cases next with
      | none => simp
      | some next => exact ih ref' next

/-- The steps of a creation. -/
theorem alone_creating (num : Numbering) (ptr : Nat) (ref : Int) (obj : Iface) (after : After) :
    ShellPoint.alone num (List.replicate 2 ptr) ref (.creating (.toRefNum obj) after) =
      Refs.create num obj >>= fun refnum => pure (ref, some (.assigning refnum after), none) := by
  simp only [List.replicate, ShellPoint.alone, ShellPoint.step, Enter.step, Refs.create, bind_assoc,
    pure_bind]

/-- The steps of `request` once it has read the field. -/
theorem alone_borrowing (num : Numbering) (ptr : Nat) (ref refnum : Int) :
    ShellPoint.alone num (List.replicate 7 ptr) ref (.borrowing (.inc refnum)) =
      Refs.createRequest num ptr refnum >>= fun made => pure (ref, none, some made) := by
  simp only [List.replicate, ShellPoint.alone, ShellPoint.step, Borrow.step, Refs.createRequest,
    Refs.borrow, Refs.create, bind_assoc, pure_bind]
  congr! 6 with _ obj _
  split
  · simp only [Enter.step, bind_assoc, pure_bind]
  · rfl

/-! ## The table and the process -/

section Process

variable {α β : Type} {env : Env} {b : Binding} {p q : Process} {i : Nat} {address : KString}
  {ref : Int}

/-- The same panic, with the same table. -/
def SamePanic (e : GoPanic) (t : RefTable Iface) (a : Abort) (q : Process) : Prop :=
  a = .panic e ∧ q.refs = t

/-- The same new reference, with the same table, and no object more. -/
def SameRef (p : Process) (refnum : Int) (t : RefTable Iface) (refnum' : Int) (q : Process) :
    Prop :=
  refnum' = refnum ∧ q.refs = t ∧ q.objects = p.objects

/-- What the steps of a method have come to since the process was `p`: the table, the field, and at
most one request more. -/
def Follows (p : Process) (i : Nat) (ref : Int) (made : Option Int) (t : RefTable Iface)
    (q : Process) : Prop :=
  q.refs = t ∧
    q.objects = (p.withRef i ref).objects ++ made.toList.map (KNativeObject.mk .request)

/-- A program on the table, run on the process. -/
theorem together_onRefs (m : RefM α) (p : Process) :
    Together (fun a t a' q => a' = a ∧ q = { p with refs := t }) SamePanic (m.run p.refs)
      ((onRefs m).run p) := by
  rw [onRefs, run_zoom]
  cases m.run p.refs with
  | ok a t => exact ⟨rfl, rfl⟩
  | error e t => exact ⟨rfl, rfl⟩

/-- A panic is no exception, so a function of the binding ends as its program does. -/
theorem together_call {R : α → RefTable Iface → β → Process → Prop}
    {r : EStateM.Result GoPanic (RefTable Iface) α} {m : Prog β}
    (h : Together R SamePanic r (m.run p)) : Together R SamePanic r ((b.call m).run p) := by
  cases hrun : m.run p with
  | ok a q =>
      rw [hrun] at h
      rw [run_call_ok hrun]
      exact h
  | error a q =>
      cases r with
      | ok a' t =>
          rw [hrun] at h
          exact h.elim
      | error e t =>
          rw [hrun] at h
          obtain ⟨rfl, hrefs⟩ := h
          rw [run_call_panic hrun]
          exact ⟨rfl, hrefs⟩

theorem together_enterShell (url : Bytes) (p : Process) :
    Together (SameRef p) SamePanic ((Refs.create env.numbering ⟨.shell, p.allocated⟩).run p.refs)
      ((Plain.enterShell env url).run p) := by
  rw [Plain.enterShell, EStateM.run_bind]
  show Together _ _ _ ((createRef env ⟨.shell, p.allocated⟩).run _)
  rw [createRef_eq_onRefs]
  refine (together_onRefs _ { p with
    shells := Function.update p.shells p.allocated (Shell.NewShell url)
    allocated := p.allocated + 1 }).mono ?_
  rintro refnum t _ q ⟨rfl, rfl⟩
  exact ⟨rfl, rfl, rfl⟩

theorem together_enterRequest (shellRef : Int) (command : Bytes) (arg : Option Bytes)
    (p : Process) :
    Together (SameRef p) SamePanic
      ((Refs.createRequest env.numbering p.allocated shellRef).run p.refs)
      ((Plain.enterRequest env shellRef command arg).run p) := by
  rw [Refs.createRequest, Plain.enterRequest, borrow_eq_onRefs]
  refine (together_onRefs _ p).bind ?_
  rintro _ t obj _ - ⟨rfl, rfl⟩
  by_cases htype : obj.type = .shell
  · have hshell : (assertShell obj).run { p with refs := t } =
        .ok (p.shells obj.ptr) { p with refs := t } := by
      rw [assertShell, EStateM.run_bind, EStateM.run_get]
      simp only [if_pos htype]
      rfl
    rw [if_pos htype, EStateM.run_bind, hshell]
    show Together _ _ _ ((createRef env ⟨.requestBuilder, p.allocated⟩ >>= _).run _)
    rw [← bind_pure (Refs.create _ _), createRef_eq_onRefs]
    refine (together_onRefs _ { p with
      refs := t
      builders := Function.update p.builders p.allocated ((p.shells obj.ptr).NewRequest command)
      allocated := p.allocated + 1 }).bind ?_
    rintro _ t' refnum _ - ⟨rfl, rfl⟩
    cases arg <;> exact ⟨rfl, rfl, rfl⟩
  · rw [if_neg htype, EStateM.run_bind, assertShell, EStateM.run_bind, EStateM.run_get]
    simp only [if_neg htype]
    exact ⟨rfl, rfl⟩

theorem together_Delete (refnum : Int) (p : Process) :
    Together (fun _ t _ q => q = { p with refs := t }) SamePanic
      ((Refs.Delete refnum).run p.refs) ((KDecRef refnum).run p) := by
  rw [KDecRef, ← onRefs_Delete]
  exact (together_onRefs _ p).mono fun _ _ _ _ h => h.2

/-- A field that is written as it is. -/
theorem withRef_self {cls : ObjectClass} (hobject : p.objects[i]? = some ⟨cls, ref⟩) :
    p.withRef i ref = p := by
  have hobjects : (p.objects.modify i fun o => { o with ref }) = p.objects := by
    obtain ⟨hlt, hget⟩ := List.getElem?_eq_some_iff.mp hobject
    rw [List.modify_eq_set_getElem?, hobject]
    show p.objects.set i ⟨cls, ref⟩ = p.objects
    rw [← hget, List.set_getElem_self]
  rw [Process.withRef, hobjects]

/-- What a step leaves behind: the next point is the one that the steps at the table come to. -/
def SameStep (p : Process) (i : Nat) (a : Int × Option ShellPoint × Option Int)
    (t : RefTable Iface) (a' : Option Clients.Point × Option Int) (q : Process) : Prop :=
  Follows p i a.1 a.2.2 t q ∧ a.2.1 = a'.1.map (Clients.Point.onTable q.allocated) ∧
    (a'.1 ≠ none → a.2.2 = none)

/-- **A step of a method is steps at the table**, without marshalling. -/
theorem step_alone_plain (hobject : p.objects[i]? = some ⟨.shell address, ref⟩)
    (point : Clients.Point) :
    Together (SameStep p i) SamePanic
      ((ShellPoint.alone env.numbering (List.replicate point.strides p.allocated) ref
        (point.onTable p.allocated)).run p.refs)
      ((point.step (plain env b) i address).run p) := by
  have hfield : p.refOf i = ref := refOf_eq hobject
  have hself : Follows p i ref none p.refs p :=
    ⟨rfl, by rw [withRef_self hobject]; exact (List.append_nil _).symm⟩
  cases point with
  | connecting after =>
      rw [Clients.Point.step, EStateM.run_bind, run_getRef, hfield]
      by_cases hzero : ref = 0
      · subst hzero
        exact ⟨hself, rfl, fun _ => rfl⟩
      · simp only [Clients.Point.strides, Clients.Point.onTable, List.replicate, ShellPoint.alone,
          ShellPoint.step, ne_eq, hzero, not_false_eq_true, if_true, pure_bind]
        cases after with
        | finish => exact ⟨hself, rfl, fun _ => rfl⟩
        | request command arg => exact ⟨hself, rfl, fun _ => rfl⟩
  | creating after =>
      rw [Clients.Point.onTable, Clients.Point.strides, alone_creating, Clients.Point.step]
      refine (together_call (together_enterShell (b.encode address) p)).bind ?_
      rintro _ _ refnum q - ⟨rfl, rfl, hobjects⟩
      refine ⟨⟨rfl, ?_⟩, rfl, fun _ => rfl⟩
      rw [withRef_self hobject, hobjects]
      exact (List.append_nil _).symm
  | assigning ref' after =>
      cases after with
      | finish => exact ⟨⟨rfl, (List.append_nil _).symm⟩, rfl, fun _ => rfl⟩
      | request command arg => exact ⟨⟨rfl, (List.append_nil _).symm⟩, rfl, fun _ => rfl⟩
  | requesting command arg =>
      rw [Clients.Point.step, EStateM.run_bind, run_getRef, hfield]
      exact ⟨hself, rfl, fun _ => rfl⟩
  | calling ref' command arg =>
      rw [Clients.Point.onTable, Clients.Point.strides, alone_borrowing, Clients.Point.step]
      refine (together_call (together_enterRequest ref' _ _ p)).bind ?_
      rintro _ _ refnum q - ⟨rfl, rfl, hobjects⟩
      refine ⟨⟨rfl, ?_⟩, rfl, fun hne => absurd rfl hne⟩
      rw [withRef_self hobject, ← hobjects]
      rfl
  | logging =>
      rw [Clients.Point.step, EStateM.run_bind, run_getRef]
      exact ⟨hself, rfl, fun _ => rfl⟩
  | testing =>
      rw [Clients.Point.step, EStateM.run_bind, run_getRef, hfield]
      by_cases hzero : ref = 0
      · subst hzero
        exact ⟨hself, rfl, fun _ => rfl⟩
      · simp only [Clients.Point.strides, Clients.Point.onTable, List.replicate, ShellPoint.alone,
          ShellPoint.step, Close.step, ne_eq, hzero, not_false_eq_true, if_true, pure_bind]
        exact ⟨hself, rfl, fun _ => rfl⟩
  | rereading =>
      rw [Clients.Point.step, EStateM.run_bind, run_getRef, hfield]
      exact ⟨hself, rfl, fun _ => rfl⟩
  | disposing ref' =>
      simp only [Clients.Point.strides, Clients.Point.onTable, List.replicate, ShellPoint.alone,
        ShellPoint.step, Close.step, Clients.Point.step, bind_assoc, pure_bind]
      refine (together_Delete ref' p).bind ?_
      rintro _ t _ _ - rfl
      refine ⟨⟨rfl, ?_⟩, rfl, fun _ => rfl⟩
      exact hself.2
  | resetting =>
      exact ⟨⟨rfl, (List.append_nil _).symm⟩, rfl, fun _ => rfl⟩

/-- What the memory has no part in. -/
theorem together_overwrite {R : α → RefTable Iface → β → Process → Prop}
    {r : EStateM.Result GoPanic (RefTable Iface) α} {r' : EStateM.Result Abort Process β}
    (hR : ∀ a t a' q memory', R a t a' q → R a t a' (memory.put memory' q))
    (h : Together R SamePanic r r') (memory' : Ledger Block) :
    Together R SamePanic r (memory.overwrite memory' r') := by
  cases r with
  | ok a t =>
      cases r' with
      | ok a' q => exact hR a t a' q memory' h
      | error a' q => exact h
  | error e t =>
      cases r' with
      | ok a' q => exact h
      | error a' q => exact h

/-- **A step of a method is steps at the table that nothing interrupts**, on either binding. -/
theorem step_alone (env : Env) (b : Binding) (hobject : p.objects[i]? = some ⟨.shell address, ref⟩)
    (point : Clients.Point) :
    Together (SameStep p i) SamePanic
      ((ShellPoint.alone env.numbering (List.replicate point.strides p.allocated) ref
        (point.onTable p.allocated)).run p.refs)
      ((point.step (b.over (libkipfs env)) i address).run p) := by
  obtain ⟨memory', hrun⟩ := (Clients.marshalled_step (marshals env b) (plain_memoryless env b) i
    address point).implements p
  rw [hrun]
  exact together_overwrite (fun _ _ _ _ _ h => h) (step_alone_plain hobject point) memory'

/-- The shell after steps that have made no request. -/
theorem Follows.object {ref' : Int} {t : RefTable Iface} (h : Follows p i ref' none t q)
    (hobject : p.objects[i]? = some ⟨.shell address, ref⟩) :
    q.objects[i]? = some ⟨.shell address, ref'⟩ := by
  rw [h.2, Option.toList_none, List.map_nil, List.append_nil]
  simp [Process.withRef, hobject]

/-- Steps after steps that have made no request. -/
theorem Follows.trans {q' : Process} {ref' : Int} {made : Option Int} {t t' : RefTable Iface}
    (h : Follows p i ref none t q) (h' : Follows q i ref' made t' q') :
    Follows p i ref' made t' q' := by
  refine ⟨h'.1, ?_⟩
  have hobjects : q.objects = (p.withRef i ref).objects := h.2.trans (List.append_nil _)
  rw [h'.2, Process.withRef, hobjects]
  simp [Process.withRef, List.modify_modify_eq, Function.comp_def]

/-- A step that is not the last leaves the shell where it was. -/
theorem object_of_step (env : Env) (b : Binding)
    (hobject : p.objects[i]? = some ⟨.shell address, ref⟩) {point next : Clients.Point}
    {made : Option Int}
    (hrun : (point.step (b.over (libkipfs env)) i address).run p = .ok (some next, made) q) :
    ∃ ref', q.objects[i]? = some ⟨.shell address, ref'⟩ := by
  have hstep := step_alone env b hobject point
  rw [hrun] at hstep
  cases htable : (ShellPoint.alone env.numbering (List.replicate point.strides p.allocated) ref
      (point.onTable p.allocated)).run p.refs with
  | ok a t =>
      rw [htable] at hstep
      obtain ⟨hfollows, _, hmade⟩ := hstep
      rw [hmade nofun] at hfollows
      exact ⟨_, hfollows.object hobject⟩
  | error e t =>
      rw [htable] at hstep
      exact hstep.elim

/-- What steps come to: they have ended when the method has. -/
def SameRun (p : Process) (i : Nat) (a : Int × Option ShellPoint × Option Int)
    (t : RefTable Iface) (a' : Option Unit) (q : Process) : Prop :=
  Follows p i a.1 a.2.2 t q ∧ (a.2.1 = none ↔ a' = some ())

/-- Whatever the steps of a method come to, steps at the table come to as well, for some addresses
of the new Go objects. -/
theorem run_alone (env : Env) (b : Binding) (n : Nat)
    (hobject : p.objects[i]? = some ⟨.shell address, ref⟩) (point : Clients.Point) :
    ∃ ptrs, Together (SameRun p i) SamePanic
      ((ShellPoint.alone env.numbering ptrs ref (point.onTable p.allocated)).run p.refs)
      ((complete (Clients.Point.alone (b.over (libkipfs env)) i address) n point).run p) := by
  induction n generalizing p ref point with
  | zero =>
      refine ⟨[], ⟨rfl, ?_⟩, fun hended => ?_, fun hended => ?_⟩
      · rw [withRef_self hobject]
        exact (List.append_nil _).symm
      · cases hended
      · cases hended
  | succ n ih =>
      have hcomplete : complete (Clients.Point.alone (b.over (libkipfs env)) i address) (n + 1)
          point = point.step (b.over (libkipfs env)) i address >>= fun a =>
            match a.1 with
            | some next => complete (Clients.Point.alone (b.over (libkipfs env)) i address) n next
            | none => pure (some ()) := by
        simp only [complete, Clients.Point.alone, bind_assoc]
        congr 1
        funext a
        obtain ⟨next, made⟩ := a
        cases next <;> simp
      have hstep := step_alone env b hobject point
      -- the addresses for what follows the first step
      obtain ⟨ptrs, hptrs⟩ : ∃ ptrs, ∀ next made q,
          (point.step (b.over (libkipfs env)) i address).run p = .ok (some next, made) q →
            ∀ ref', q.objects[i]? = some ⟨.shell address, ref'⟩ →
              Together (SameRun q i) SamePanic
                ((ShellPoint.alone env.numbering ptrs ref' (next.onTable q.allocated)).run q.refs)
                ((complete (Clients.Point.alone (b.over (libkipfs env)) i address) n next).run
                  q) := by
        cases hrun : (point.step (b.over (libkipfs env)) i address).run p with
        | error a q =>
            refine ⟨[], fun next made q heq => ?_⟩
            cases heq
        | ok result q =>
            obtain ⟨_ | next, made⟩ := result
            · refine ⟨[], fun next made q heq => ?_⟩
              cases heq
            · obtain ⟨ref₁, hobject₁⟩ := object_of_step env b hobject hrun
              obtain ⟨ptrs, hptrs⟩ := ih hobject₁ next
              refine ⟨ptrs, ?_⟩
              rintro next' made' q' heq ref' hobject'
              cases heq
              cases hobject₁.symm.trans hobject'
              exact hptrs
      refine ⟨List.replicate point.strides p.allocated ++ ptrs, ?_⟩
      rw [alone_append, hcomplete]
      refine hstep.bind ?_
      rintro ⟨ref', next, made⟩ t ⟨next', made'⟩ q hrun ⟨hfollows, hnext, hmade⟩
      dsimp only at hfollows hnext hmade
      subst hnext
      cases next' with
      | none => exact ⟨hfollows, fun _ => rfl, fun _ => rfl⟩
      | some next' =>
          obtain rfl := hmade (Option.some_ne_none next')
          have hrest := hptrs next' made' q hrun ref' (hfollows.object hobject)
          rw [hfollows.1] at hrest
          exact hrest.mono fun _ _ _ _ h => ⟨hfollows.trans h.1, h.2⟩

/-- **Both ways of cutting a method cut the method of the Kotlin object.** On either binding, from
any state, what the method comes to is what its steps at the table come to when nothing interrupts
them: the same table, the same field, the same request made, or the same panic. -/
theorem methods_alone (env : Env) (b : Binding)
    (hobject : p.objects[i]? = some ⟨.shell address, ref⟩) (method : Clients.Method) :
    ∃ ptrs, Together (fun a t _ q => a.2.1 = none ∧ Follows p i a.1 a.2.2 t q) SamePanic
      ((ShellPoint.alone env.numbering ptrs ref method.onTable.point).run p.refs)
      ((method.program (b.over (libkipfs env)) i address).run p) := by
  obtain ⟨ptrs, hrun⟩ := run_alone env b 5 hobject method.point
  rw [Clients.method_alone, Clients.Method.onTable_point] at hrun
  exact ⟨ptrs, hrun.of_map.mono fun _ _ _ _ h => ⟨h.2.mpr rfl, h.1⟩⟩

end Process

/-! ## Methods of a request -/

section Requests

variable {α : Type} {b : Binding} {type : GoType} {refnum : Int}

/-- The program borrows an object of the type and then leaves the table alone, but for
marshalling. -/
def MarshalsBorrow (type : GoType) (refnum : Int) (m : Prog α) : Prop :=
  ∃ m', Implements memory m m' ∧ Borrows type refnum m'

/-- Nothing is thrown while an object is borrowed, so a function of the binding borrows when its
program does. -/
theorem borrows_call {m : Prog α} (h : Borrows type refnum m) :
    Borrows type refnum (b.call m) := by
  cases b with
  | native => exact h
  | jni =>
      obtain ⟨rest, hrest, rfl⟩ := h
      refine ⟨fun ptr => cName (rest ptr), fun ptr => keeps_cName (hrest ptr),
        eq_of_run fun p => ?_⟩
      show (cName _).run p = _
      rw [run_cName, EStateM.run_bind, EStateM.run_bind, onRefs, run_zoom]
      cases (complete (Borrow.step type) 4 (.inc refnum)).run p.refs with
      | ok ptr t => exact (run_cName _ _).symm
      | error e t => rfl

theorem borrows_sending (label : String) (m : Ipfsapi.GoM (Bytes × Option GoError)) :
    Borrows .requestBuilder refnum (Plain.sending b label m refnum) :=
  borrows_call (borrows_builder fun _ => keeps_bind (keeps_zoom fun _ _ => rfl) fun result =>
    keeps_deliver label result)

/-- **On either binding every method of a request borrows a builder and then leaves the table
alone**, but for `postString` on the JVM, which does not get that far. -/
theorem methods_borrow (env : Env) (b : Binding) (ref : Int) (data : Bytes)
    (text name value : KString) :
    MarshalsBorrow .requestBuilder ref ((b.over (libkipfs env)).sendRequest ref) ∧
      MarshalsBorrow .requestBuilder ref ((b.over (libkipfs env)).postData ref data) ∧
      MarshalsBorrow .requestBuilder ref ((b.over (libkipfs env)).requestOption ref name value) ∧
      MarshalsBorrow .requestBuilder ref ((native (libkipfs env)).postString ref text) ∧
      Keeps Process.refs ((jvm (libkipfs env)).postString ref text) := by
  have hmarshals := marshals env b
  refine ⟨⟨_, hmarshals.sendRequest ref, borrows_sending _ _⟩,
    ⟨_, hmarshals.postData ref data, borrows_sending _ _⟩,
    ⟨_, hmarshals.requestOption ref name value, ?_⟩,
    ⟨_, (native_marshals env).postString ref text, ?_⟩, keeps_abort _⟩
  · exact borrows_call (borrows_builder fun _ => keeps_zoom fun _ _ => rfl)
  · exact borrows_sending (b := .native) "Request failed: " _

end Requests

end Kipfs.Overlap
