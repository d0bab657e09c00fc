import Kipfs.Foundation.Credits
import Kipfs.Foundation.Machine
import Kipfs.Go.Atoms

/-!
# Overlapping calls and finalizers

The JVM runs methods of many objects at once, and a finalizer as soon as no method will read its
object again. `World` is the reference table with any number of shells and requests; every shell is
at a point in its current method, every request at a point in its finalizer, and every call on a
request at a point of its own. A `Move` starts something or advances one of these points by one
access to a field or one operation on the table.

A field, a call between `Inc` and `Delete`, and a creation that has not yet been stored hold credits
for their reference. `Inv` says that the table backs these credits, and `inv_move` that every move
keeps it; so no move ever meets an absent reference, or one of the wrong type.
-/

namespace Kipfs.Overlap

open Foundation

/-! ## Points -/

/-- A point in `close`, which reads the field for its log first. -/
inductive Close where
  | log
  | test
  | read
  | dispose (refnum : Int)
  | reset
  deriving DecidableEq, Repr

/-- One step of `close` on an object with the field `ref`: the field then, and the next point. -/
def Close.step (ref : Int) : Close → RefM (Int × Option Close)
  | log => pure (ref, some test)
  | test => if ref ≠ 0 then pure (ref, some read) else pure (ref, none)
  | read => pure (ref, some (dispose ref))
  | dispose refnum => do
      Refs.Delete refnum
      pure (ref, some reset)
  | reset => pure (0, none)

/-- What follows a `connect`: nothing, or the rest of `request`. -/
inductive After where
  | finish
  | request
  deriving DecidableEq, Repr

/-- A point in a method of a shell. -/
inductive ShellPoint where
  | connecting (after : After)
  | creating (e : Enter) (after : After)
  | assigning (refnum : Int) (after : After)
  | requesting
  | borrowing (b : Borrow)
  | entering (e : Enter)
  | constructing (refnum : Int)
  | closing (c : Close)
  deriving DecidableEq, Repr

/-- Where a shell goes on after `connect`. -/
def After.point : After → Option ShellPoint
  | finish => none
  | request => some .requesting

/-- One step of a method of a shell with the field `ref`: the field after it, the next point, and
the reference of the request that it has constructed. A new Go object gets the address `ptr`. -/
def ShellPoint.step (num : Numbering) (ptr : Nat) (ref : Int) :
    ShellPoint → RefM (Int × Option ShellPoint × Option Int)
  | connecting after =>
      if ref ≠ 0 then pure (ref, after.point, none)
      else pure (ref, some (creating (.toRefNum ⟨.shell, ptr⟩) after), none)
  | creating e after => do
      match ← e.step num with
      | .inl e' => pure (ref, some (creating e' after), none)
      | .inr refnum => pure (ref, some (assigning refnum after), none)
  | assigning refnum after => pure (refnum, after.point, none)
  | requesting => pure (ref, some (borrowing (.inc ref)), none)
  | borrowing b => do
      match ← b.step .shell with
      | .inl b' => pure (ref, some (borrowing b'), none)
      | .inr _ => pure (ref, some (entering (.toRefNum ⟨.requestBuilder, ptr⟩)), none)
  | entering e => do
      match ← e.step num with
      | .inl e' => pure (ref, some (entering e'), none)
      | .inr refnum => pure (ref, some (constructing refnum), none)
  | constructing refnum => pure (ref, none, some refnum)
  | closing c => do
      let (ref', c') ← c.step ref
      pure (ref', c'.map closing, none)

/-- A method of `KShell`. -/
inductive Method where
  | connect
  | request
  | close
  deriving DecidableEq, Repr

/-- Where a method starts. -/
def Method.point : Method → ShellPoint
  | connect => .connecting .finish
  | request => .connecting .request
  | close => .closing .log

/-! ## States and moves -/

/-- A shell: its field, the point in the method that runs on it, whether the program has dropped it,
and whether its finalizer has run or is running. -/
structure ShellState where
  ref : Int
  point : Option ShellPoint
  dropped : Bool
  finalized : Bool
  deriving DecidableEq, Repr

/-- The finalizer of a request. -/
inductive Finalizer where
  | pending
  | running (c : Close)
  | finished
  deriving DecidableEq, Repr

/-- A request: its shell, its field, whether the program has dropped it, and its finalizer. -/
structure RequestState where
  shell : Nat
  ref : Int
  dropped : Bool
  finalizer : Finalizer
  deriving DecidableEq, Repr

/-- A point in a method of a request: about to read the field, borrowing the builder, or working
with it. The methods differ in the last only. -/
inductive CallPoint where
  | reading (request : Nat)
  | borrowing (b : Borrow)
  | working (ptr : Nat)
  deriving DecidableEq, Repr

/-- The reference table, the objects, and the calls on requests. -/
structure World where
  refs : RefTable Iface
  allocated : Nat
  shells : List ShellState
  requests : List RequestState
  calls : List CallPoint

/-- The world at first. -/
def World.start : World := ⟨.empty, 0, [], [], []⟩

/-- A move, by the number of the object or the call that makes it. -/
inductive Move where
  | newShell
  | start (shell : Nat) (method : Method)
  | advance (shell : Nat)
  | dropShell (shell : Nat)
  | finalizeShell (shell : Nat)
  | use (request : Nat)
  | advanceCall (call : Nat)
  | dropRequest (request : Nat)
  | finalizeRequest (request : Nat)
  | advanceFinalizer (request : Nat)
  deriving DecidableEq, Repr

/-- The program has dropped the request, and no method of it is still to read the field. -/
def World.finalizable (w : World) (request : Nat) (q : RequestState) : Bool :=
  q.dropped && !w.calls.contains (.reading request)

/-- Only finalizable requests refer to the shell. -/
def World.unreferenced (w : World) (shell : Nat) : Bool :=
  w.requests.zipIdx.all fun (q, request) => q.shell ≠ shell || w.finalizable request q

/-- The world after a step that returned. -/
def commit {α : Type} (next : α → RefTable Iface → World) :
    EStateM.Result GoPanic (RefTable Iface) α → Except GoPanic World
  | .ok a refs => .ok (next a refs)
  | .error e _ => .error e

/-- Advance the finalizer of a request. -/
def RequestState.after (q : RequestState) (ref : Int) (next : Option Close) : RequestState :=
  { q with ref, finalizer := next.elim .finished .running }

/-- Make a move: none when it is not possible, a panic when it ends the process. -/
def World.move (num : Numbering) (w : World) : Move → Option (Except GoPanic World)
  | .newShell => some (.ok { w with shells := w.shells ++ [⟨0, none, false, false⟩] })
  | .start shell method => do
      let s ← w.shells[shell]?
      if s.point = none ∧ s.dropped = false then
        some (.ok { w with shells := w.shells.set shell { s with point := some method.point } })
      else none
  | .advance shell => do
      let s ← w.shells[shell]?
      let point ← s.point
      some (commit (fun (ref, point, made) refs =>
        { w with
          refs
          allocated := w.allocated + 1
          shells := w.shells.set shell { s with ref, point }
          requests := w.requests ++ made.toList.map fun ref => ⟨shell, ref, false, .pending⟩ })
        ((point.step num w.allocated s.ref).run w.refs))
  | .dropShell shell => do
      let s ← w.shells[shell]?
      some (.ok { w with shells := w.shells.set shell { s with dropped := true } })
  | .finalizeShell shell => do
      let s ← w.shells[shell]?
      if s.point = none ∧ s.dropped = true ∧ s.finalized = false ∧ w.unreferenced shell then
        some (.ok { w with
          shells := w.shells.set shell
            { s with finalized := true, point := some (.closing .log) } })
      else none
  | .use request => do
      let q ← w.requests[request]?
      if q.dropped = false then some (.ok { w with calls := w.calls ++ [.reading request] })
      else none
  | .advanceCall call => do
      match ← w.calls[call]? with
      | .reading request =>
          let q ← w.requests[request]?
          some (.ok { w with calls := w.calls.set call (.borrowing (.inc q.ref)) })
      | .borrowing b =>
          some (commit (fun next refs =>
            { w with refs, calls := w.calls.set call (next.elim .borrowing .working) })
            ((b.step .requestBuilder).run w.refs))
      | .working _ => none
  | .dropRequest request => do
      let q ← w.requests[request]?
      some (.ok { w with requests := w.requests.set request { q with dropped := true } })
  | .finalizeRequest request => do
      let q ← w.requests[request]?
      if q.finalizer = .pending ∧ w.finalizable request q then
        some (.ok { w with
          requests := w.requests.set request { q with finalizer := .running .log } })
      else none
  | .advanceFinalizer request => do
      let q ← w.requests[request]?
      match q.finalizer with
      | .running c =>
          some (commit (fun (ref, next) refs =>
            { w with refs, requests := w.requests.set request (q.after ref next) })
            ((c.step q.ref).run w.refs))
      | _ => none

/-- The world after a move that does not end the process. -/
def World.next (num : Numbering) (w : World) (m : Move) : Option World :=
  (w.move num m).bind Except.toOption

/-! ## Credits -/

/-- The reference stands for an object of the type. -/
def Stands (t : RefTable Iface) (refnum : Int) (type : GoType) : Prop :=
  ∃ ptr, t.lookup refnum = some ⟨type, ptr⟩

/-- One credit for one reference. -/
def one (refnum q : Int) : Nat := if q = refnum then 1 else 0

/-- A borrowing holds a credit from its `Inc` to its `Delete`. -/
def Borrow.credit : Borrow → Int → Nat
  | .lookup refnum, q => one refnum q
  | .delete refnum _, q => one refnum q
  | _, _ => 0

/-- A field holds a credit for its reference, until that has been disposed. -/
def fieldCredit (ref : Int) (disposed : Bool) (q : Int) : Nat :=
  if ref ≠ 0 ∧ disposed = false then one ref q else 0

/-- A method of a shell holds a credit for what it has created and not yet stored, and for what it
borrows. -/
def ShellPoint.credit : ShellPoint → Int → Nat
  | assigning refnum _, q => one refnum q
  | constructing refnum, q => one refnum q
  | borrowing b, q => Borrow.credit b q
  | _, _ => 0

/-- The credits of a shell with its method. -/
def ShellState.credit (s : ShellState) (q : Int) : Nat :=
  fieldCredit s.ref (s.point = some (.closing .reset)) q +
    (s.point.map fun point => point.credit q).getD 0

/-- The credits of a request with its finalizer. -/
def RequestState.credit (r : RequestState) (q : Int) : Nat :=
  fieldCredit r.ref (r.finalizer = .running .reset) q

/-- The credits of a call on a request. -/
def CallPoint.credit : CallPoint → Int → Nat
  | borrowing b, q => Borrow.credit b q
  | _, _ => 0

/-- All credits. -/
def World.credit (w : World) (q : Int) : Nat :=
  (w.shells.map (·.credit q)).sum + (w.requests.map (·.credit q)).sum +
    (w.calls.map (·.credit q)).sum

/-! ## The invariant -/

/-- A borrowing works on an object of the type. -/
def Borrow.Ok (t : RefTable Iface) (type : GoType) : Borrow → Prop
  | .inc refnum => Stands t refnum type
  | .lookup refnum => Stands t refnum type
  | .delete _ obj => obj.type = type
  | .assert obj => obj.type = type

/-- A creation works on an object of the type. -/
def Enter.Ok (t : RefTable Iface) (type : GoType) : Enter → Prop
  | .toRefNum obj => obj.type = type
  | .inc refnum => Stands t refnum type

/-- A closing disposes the reference in the field. -/
def Close.Ok (ref : Int) : Close → Prop
  | log => True
  | test => True
  | read => ref ≠ 0
  | dispose refnum => refnum = ref ∧ ref ≠ 0
  | reset => True

/-- What a method of a shell has found out so far is true. -/
def ShellPoint.Ok (t : RefTable Iface) (ref : Int) : ShellPoint → Prop
  | connecting _ => True
  | creating e _ => ref = 0 ∧ Enter.Ok t .shell e
  | assigning refnum _ => ref = 0 ∧ Stands t refnum .shell
  | requesting => ref ≠ 0
  | borrowing b => Borrow.Ok t .shell b
  | entering e => Enter.Ok t .requestBuilder e
  | constructing refnum => Stands t refnum .requestBuilder
  | closing c => c.Ok ref

/-- The field of a shell is empty or stands for a shell. -/
structure ShellState.Ok (t : RefTable Iface) (s : ShellState) : Prop where
  field : s.ref ≠ 0 → Stands t s.ref .shell
  point : ∀ point, s.point = some point → point.Ok t s.ref

/-- The field of a request stands for a builder until its finalizer empties it, and the finalizer
does not start before the request is dropped. -/
structure RequestState.Ok (t : RefTable Iface) (q : RequestState) : Prop where
  field : q.ref ≠ 0 → Stands t q.ref .requestBuilder
  pending : q.finalizer = .pending → q.ref ≠ 0
  dropped : q.dropped = false → q.finalizer = .pending
  running : ∀ c, q.finalizer = .running c → c.Ok q.ref

/-- A call that is still to read the field of its request finds it as it was. -/
def CallPoint.Ok (w : World) : CallPoint → Prop
  | reading request => ∃ q, w.requests[request]? = some q ∧ q.finalizer = .pending
  | borrowing b => Borrow.Ok w.refs .requestBuilder b
  | working _ => True

/-- The table backs all credits, and every point is where it should be. -/
structure Inv (w : World) : Prop where
  backed : Backed w.refs w.credit
  shells : ∀ s ∈ w.shells, s.Ok w.refs
  requests : ∀ q ∈ w.requests, q.Ok w.refs
  calls : ∀ c ∈ w.calls, c.Ok w

section Points

variable {t t' : RefTable Iface} {rest : Int → Nat} {refnum ref : Int} {type : GoType}

theorem Stands.mono (h : Stands t refnum type) (hext : Extends t t') : Stands t' refnum type := by
  obtain ⟨ptr, hlookup⟩ := h
  exact ⟨ptr, hext _ _ hlookup⟩

theorem Stands.ne_zero (h : Stands t refnum type) : refnum ≠ 0 := by
  obtain ⟨ptr, hlookup⟩ := h
  exact Int.ne_of_lt (RefTable.neg_of_lookup hlookup)

theorem Borrow.Ok.mono {b : Borrow} (h : Borrow.Ok t type b) (hext : Extends t t') :
    Borrow.Ok t' type b := by
  cases b with
  | inc refnum => exact Stands.mono h hext
  | lookup refnum => exact Stands.mono h hext
  | delete refnum obj => exact h
  | assert obj => exact h

theorem Enter.Ok.mono {e : Enter} (h : Enter.Ok t type e) (hext : Extends t t') :
    Enter.Ok t' type e := by
  cases e with
  | toRefNum obj => exact h
  | inc refnum => exact Stands.mono h hext

theorem ShellState.Ok.mono {s : ShellState} (h : s.Ok t) (hext : Extends t t') : s.Ok t' := by
  refine ⟨fun hne => (h.field hne).mono hext, fun point hpoint => ?_⟩
  have hok := h.point point hpoint
  cases point with
  | connecting after => trivial
  | creating e after => exact ⟨hok.1, hok.2.mono hext⟩
  | assigning refnum after => exact ⟨hok.1, hok.2.mono hext⟩
  | requesting => exact hok
  | borrowing b => exact Borrow.Ok.mono hok hext
  | entering e => exact Enter.Ok.mono hok hext
  | constructing refnum => exact Stands.mono hok hext
  | closing c => exact hok

theorem RequestState.Ok.mono {q : RequestState} (h : q.Ok t) (hext : Extends t t') : q.Ok t' :=
  { h with field := fun hne => (h.field hne).mono hext }

/-- A borrowing goes on, or ends with a pointer. -/
theorem borrow_step {b : Borrow} (hbacked : Backed t fun q => rest q + Borrow.credit b q)
    (hok : Borrow.Ok t type b) :
    ∃ next t', (b.step type).run t = .ok next t' ∧ Extends t t' ∧
      match next with
      | .inl b' => Backed t' (fun q => rest q + Borrow.credit b' q) ∧ Borrow.Ok t' type b'
      | .inr _ => Backed t' rest := by
  cases b with
  | inc refnum =>
      obtain ⟨ptr, hlookup⟩ := id hok
      have hinc : ∃ t', t.inc refnum = some t' ∧ Backed t' (fun q => rest q + one refnum q) ∧
          Extends t t' := hbacked.inc hlookup fun q => rfl
      obtain ⟨t', hinc, hbacked', hext⟩ := hinc
      refine ⟨.inl (.lookup refnum), t', ?_, hext, hbacked', Stands.mono hok hext⟩
      rw [Borrow.step, EStateM.run_bind, Refs.run_Inc hinc]
      rfl
  | lookup refnum =>
      obtain ⟨ptr, hlookup⟩ := id hok
      refine ⟨.inl (.delete refnum ⟨type, ptr⟩), t, ?_, Extends.refl t, hbacked, rfl⟩
      rw [Borrow.step, EStateM.run_bind, Refs.run_Lookup hlookup]
      rfl
  | delete refnum obj =>
      have hdelete : ∃ t', t.delete refnum = some t' ∧ Backed t' rest ∧ Extends t t' :=
        hbacked.delete fun q => rfl
      obtain ⟨t', hdelete, hbacked', hext⟩ := hdelete
      refine ⟨.inl (.assert obj), t', ?_, hext, hbacked'.congr fun q => rfl, hok⟩
      rw [Borrow.step, EStateM.run_bind, Refs.run_Delete hdelete]
      rfl
  | assert obj =>
      refine ⟨.inr obj.ptr, t, ?_, Extends.refl t, hbacked.congr fun q => rfl⟩
      rw [Borrow.step, if_pos (show obj.type = type from hok)]
      rfl

/-- Entering a new object goes on, or ends with its reference and a credit for it, unless there is
no next number. -/
theorem enter_step (num : Numbering) {e : Enter} (hbacked : Backed t rest)
    (hok : Enter.Ok t type e) :
    (∃ next t', (e.step num).run t = .ok next t' ∧ Extends t t' ∧
      match next with
      | .inl e' => Backed t' rest ∧ Enter.Ok t' type e'
      | .inr refnum => Backed t' (fun q => rest q + one refnum q) ∧ Stands t' refnum type) ∨
    (∃ t', (e.step num).run t = .error .refsUnderflow t') ∧ num.next t.issued = none := by
  cases e with
  | toRefNum obj =>
      rw [Enter.step, EStateM.run_bind, Refs.run_ToRefNum]
      cases hnew : RefTable.toRefNum num obj t with
      | none => exact .inr ⟨⟨t, rfl⟩, RefTable.toRefNum_eq_none.mp hnew⟩
      | some entered =>
          obtain ⟨refnum, t'⟩ := entered
          obtain ⟨hbacked', hlookup, hext⟩ := hbacked.toRefNum hnew
          obtain ⟨objType, ptr⟩ := obj
          cases hok
          exact .inl ⟨.inl (.inc refnum), t', rfl, hext, hbacked', ptr, hlookup⟩
  | inc refnum =>
      obtain ⟨ptr, hlookup⟩ := id hok
      have hinc : ∃ t', t.inc refnum = some t' ∧ Backed t' (fun q => rest q + one refnum q) ∧
          Extends t t' := hbacked.inc hlookup fun q => rfl
      obtain ⟨t', hinc, hbacked', hext⟩ := hinc
      refine .inl ⟨.inr refnum, t', ?_, hext, hbacked', Stands.mono hok hext⟩
      rw [Enter.step, EStateM.run_bind, Refs.run_Inc hinc]
      rfl

/-- A closing goes on or ends, and gives up the credit of the field with its reference. -/
theorem close_step {c : Close} (hbacked : Backed t fun q => rest q + fieldCredit ref (c = .reset) q)
    (hok : c.Ok ref) :
    ∃ ref' next t', (c.step ref).run t = .ok (ref', next) t' ∧ Extends t t' ∧
      Backed t' (fun q => rest q + fieldCredit ref' (next = some .reset) q) ∧
      (∀ c', next = some c' → c'.Ok ref') ∧ (ref' = ref ∨ ref' = 0) := by
  cases c with
  | log =>
      exact ⟨ref, some .test, t, rfl, Extends.refl t, hbacked, fun c' hc' => by cases hc'; trivial,
        .inl rfl⟩
  | test =>
      by_cases hzero : ref = 0
      · subst hzero
        exact ⟨0, none, t, rfl, Extends.refl t, hbacked, nofun, .inl rfl⟩
      · refine ⟨ref, some .read, t, ?_, Extends.refl t, hbacked, ?_, .inl rfl⟩
        · rw [Close.step, if_pos hzero]
          rfl
        · rintro c' ⟨⟩
          exact hzero
  | read =>
      refine ⟨ref, some (.dispose ref), t, rfl, Extends.refl t, hbacked, ?_, .inl rfl⟩
      rintro c' ⟨⟩
      exact ⟨rfl, hok⟩
  | dispose refnum =>
      -- the credit of the field pays for the deletion
      obtain ⟨rfl, hne⟩ := hok
      have hdelete : ∃ t', t.delete refnum = some t' ∧ Backed t' rest ∧ Extends t t' := by
        refine hbacked.delete fun q => ?_
        rw [fieldCredit, if_pos ⟨hne, rfl⟩, one]
      obtain ⟨t', hdelete, hbacked', hext⟩ := hdelete
      refine ⟨refnum, some .reset, t', ?_, hext, hbacked'.congr fun q => ?_, ?_, .inl rfl⟩
      · rw [Close.step, EStateM.run_bind, Refs.run_Delete hdelete]
        rfl
      · simp [fieldCredit]
      · rintro c' ⟨⟩
        trivial
  | reset =>
      refine ⟨0, none, t, rfl, Extends.refl t, hbacked.congr fun q => ?_, nofun, .inr rfl⟩
      simp [fieldCredit]

/-- The credits of a shell at a point that is not the end of its closing. -/
theorem credit_of_ne {point : Option ShellPoint} (hne : point ≠ some (.closing .reset))
    (dropped finalized : Bool) (q : Int) :
    (ShellState.mk ref point dropped finalized).credit q =
      fieldCredit ref false q + (point.map fun point => point.credit q).getD 0 := by
  rw [ShellState.credit, decide_eq_false hne]

/-- What a step of a method of a shell leaves behind: the new state of the shell, and credits for a
request that it has constructed. -/
structure Stepped (t t' : RefTable Iface) (rest : Int → Nat) (s : ShellState) (made : Option Int) :
    Prop where
  ext : Extends t t'
  backed : Backed t' fun q => rest q + s.credit q + (made.map (one · q)).getD 0
  ok : s.Ok t'
  made : ∀ refnum, made = some refnum → Stands t' refnum .requestBuilder

/-- A step that neither constructs a request nor is at the end of a closing. -/
theorem Stepped.of_point {point : Option ShellPoint} {dropped finalized : Bool}
    (hext : Extends t t')
    (hbacked : Backed t' fun q => rest q + fieldCredit ref false q +
      (point.map fun point => point.credit q).getD 0)
    (hne : point ≠ some (.closing .reset)) (hfield : ref ≠ 0 → Stands t' ref .shell)
    (hpoint : ∀ p, point = some p → p.Ok t' ref) :
    Stepped t t' rest ⟨ref, point, dropped, finalized⟩ none where
  ext := hext
  backed := hbacked.congr fun q => by
    rw [credit_of_ne hne, Option.map_none, Option.getD_none, Nat.add_zero, Nat.add_assoc]
  ok := ⟨hfield, hpoint⟩
  made := nofun

/-- A step of a method returns and leaves behind what it should, unless there is no next number. -/
def Steps (num : Numbering) (ptr : Nat) (t : RefTable Iface) (rest : Int → Nat) (s : ShellState)
    (point : ShellPoint) : Prop :=
  (∃ ref next made t', (point.step num ptr s.ref).run t = .ok (ref, next, made) t' ∧
    Stepped t t' rest { s with ref, point := next } made) ∨
  (∃ t', (point.step num ptr s.ref).run t = .error .refsUnderflow t') ∧ num.next t.issued = none

variable {num : Numbering} {ptr : Nat} {s : ShellState} {after : After}

theorem steps_connecting (hfield : s.ref ≠ 0 → Stands t s.ref .shell)
    (hbacked : Backed t fun q => rest q + fieldCredit s.ref false q) :
    Steps num ptr t rest s (.connecting after) := by
  by_cases hzero : s.ref = 0
  · refine .inl ⟨s.ref, some (.creating (.toRefNum ⟨.shell, ptr⟩) after), none, t, ?_,
      .of_point (Extends.refl t) hbacked nofun hfield ?_⟩
    · rw [ShellPoint.step, if_neg (not_not.mpr hzero)]
      rfl
    · intro point hpoint
      cases hpoint
      exact ⟨hzero, rfl⟩
  · refine .inl ⟨s.ref, after.point, none, t, ?_, ?_⟩
    · rw [ShellPoint.step, if_pos hzero]
      rfl
    · cases after with
      | finish => exact .of_point (Extends.refl t) hbacked nofun hfield nofun
      | request =>
          refine .of_point (Extends.refl t) hbacked nofun hfield ?_
          intro point hpoint
          cases hpoint
          exact hzero

theorem steps_creating {e : Enter} (hfield : s.ref ≠ 0 → Stands t s.ref .shell)
    (hbacked : Backed t fun q => rest q + fieldCredit s.ref false q) (hzero : s.ref = 0)
    (hentering : Enter.Ok t .shell e) : Steps num ptr t rest s (.creating e after) := by
  rw [Steps, ShellPoint.step, EStateM.run_bind]
  rcases enter_step num hbacked hentering with
    ⟨next, t', hrun, hext, hnext⟩ | ⟨⟨t', hrun⟩, hout⟩
  · rw [hrun]
    have hfield' : s.ref ≠ 0 → Stands t' s.ref .shell := fun hne => (hfield hne).mono hext
    cases next with
    | inl e' =>
        refine .inl ⟨s.ref, some (.creating e' after), none, t', rfl,
          .of_point hext hnext.1 nofun hfield' ?_⟩
        intro point hpoint
        cases hpoint
        exact ⟨hzero, hnext.2⟩
    | inr refnum =>
        refine .inl ⟨s.ref, some (.assigning refnum after), none, t', rfl,
          .of_point hext hnext.1 nofun hfield' ?_⟩
        intro point hpoint
        cases hpoint
        exact ⟨hzero, hnext.2⟩
  · rw [hrun]
    exact .inr ⟨⟨t', rfl⟩, hout⟩

/-- The credit of the creation becomes the credit of the field, which held none. -/
theorem steps_assigning {refnum : Int} (hzero : s.ref = 0) (hstands : Stands t refnum .shell)
    (hbacked : Backed t fun q => rest q + fieldCredit s.ref false q + one refnum q) :
    Steps num ptr t rest s (.assigning refnum after) := by
  have hbacked' : Backed t fun q => rest q + fieldCredit refnum false q := by
    refine hbacked.congr fun q => ?_
    simp [fieldCredit, hstands.ne_zero, hzero]
  refine .inl ⟨refnum, after.point, none, t, rfl, ?_⟩
  cases after with
  | finish => exact .of_point (Extends.refl t) hbacked' nofun (fun _ => hstands) nofun
  | request =>
      refine .of_point (Extends.refl t) hbacked' nofun (fun _ => hstands) ?_
      intro point hpoint
      cases hpoint
      exact hstands.ne_zero

theorem steps_borrowing {b : Borrow} (hfield : s.ref ≠ 0 → Stands t s.ref .shell)
    (hbacked : Backed t fun q => rest q + fieldCredit s.ref false q + Borrow.credit b q)
    (hok : Borrow.Ok t .shell b) : Steps num ptr t rest s (.borrowing b) := by
  obtain ⟨next, t', hrun, hext, hnext⟩ := borrow_step hbacked hok
  have hfield' : s.ref ≠ 0 → Stands t' s.ref .shell := fun hne => (hfield hne).mono hext
  rw [Steps, ShellPoint.step, EStateM.run_bind, hrun]
  cases next with
  | inl b' =>
      refine .inl ⟨s.ref, some (.borrowing b'), none, t', rfl,
        .of_point hext hnext.1 nofun hfield' ?_⟩
      intro point hpoint
      cases hpoint
      exact hnext.2
  | inr kShell =>
      refine .inl ⟨s.ref, some (.entering (.toRefNum ⟨.requestBuilder, ptr⟩)), none, t', rfl,
        .of_point hext hnext nofun hfield' ?_⟩
      intro point hpoint
      cases hpoint
      rfl

theorem steps_entering {e : Enter} (hfield : s.ref ≠ 0 → Stands t s.ref .shell)
    (hbacked : Backed t fun q => rest q + fieldCredit s.ref false q)
    (hentering : Enter.Ok t .requestBuilder e) : Steps num ptr t rest s (.entering e) := by
  rw [Steps, ShellPoint.step, EStateM.run_bind]
  rcases enter_step num hbacked hentering with
    ⟨next, t', hrun, hext, hnext⟩ | ⟨⟨t', hrun⟩, hout⟩
  · rw [hrun]
    have hfield' : s.ref ≠ 0 → Stands t' s.ref .shell := fun hne => (hfield hne).mono hext
    cases next with
    | inl e' =>
        refine .inl ⟨s.ref, some (.entering e'), none, t', rfl,
          .of_point hext hnext.1 nofun hfield' ?_⟩
        intro point hpoint
        cases hpoint
        exact hnext.2
    | inr refnum =>
        refine .inl ⟨s.ref, some (.constructing refnum), none, t', rfl,
          .of_point hext hnext.1 nofun hfield' ?_⟩
        intro point hpoint
        cases hpoint
        exact hnext.2
  · rw [hrun]
    exact .inr ⟨⟨t', rfl⟩, hout⟩

theorem steps_closing {c : Close} (hfield : s.ref ≠ 0 → Stands t s.ref .shell)
    (hbacked : Backed t fun q => rest q + fieldCredit s.ref (c = .reset) q) (hok : c.Ok s.ref) :
    Steps num ptr t rest s (.closing c) := by
  obtain ⟨ref, next, t', hrun, hext, hbacked', hok', href⟩ := close_step hbacked hok
  rw [Steps, ShellPoint.step, EStateM.run_bind, hrun]
  refine .inl ⟨ref, next.map .closing, none, t', rfl, hext, ?_, ⟨?_, ?_⟩, nofun⟩
  · refine hbacked'.congr fun q => ?_
    rcases next with _ | c'
    · rfl
    · cases c' <;> rfl
  · intro hne
    rcases href with rfl | rfl
    · exact (hfield hne).mono hext
    · exact absurd rfl hne
  · intro point hpoint
    obtain ⟨c', hc', rfl⟩ := Option.map_eq_some_iff.mp hpoint
    exact hok' c' hc'

/-- A step of a method of a shell returns, unless there is no next number. -/
theorem shell_step (num : Numbering) {point : ShellPoint}
    (hbacked : Backed t fun q => rest q + s.credit q) (hok : s.Ok t)
    (hpoint : s.point = some point) : Steps num ptr t rest s point := by
  obtain ⟨ref, _, dropped, finalized⟩ := s
  cases hpoint
  obtain ⟨hfield, hpoint⟩ := hok
  have hat : point.Ok t ref := hpoint point rfl
  -- only the end of a closing has no credit for the field
  have hopen : point ≠ .closing .reset →
      Backed t fun q => rest q + fieldCredit ref false q + point.credit q := by
    intro hne
    refine hbacked.congr fun q => ?_
    rw [credit_of_ne (fun h => hne (Option.some.inj h)), Nat.add_assoc]
    rfl
  cases point with
  | connecting after => exact steps_connecting hfield (hopen nofun)
  | creating e after => exact steps_creating hfield (hopen nofun) hat.1 hat.2
  | assigning refnum after => exact steps_assigning hat.1 hat.2 (hopen nofun)
  | requesting =>
      refine .inl ⟨ref, some (.borrowing (.inc ref)), none, t, rfl,
        .of_point (Extends.refl t) (hopen nofun) nofun hfield ?_⟩
      intro point hpoint
      cases hpoint
      exact hfield hat
  | borrowing b => exact steps_borrowing hfield (hopen nofun) hat
  | entering e => exact steps_entering hfield (hopen nofun) hat
  | constructing refnum =>
      refine .inl ⟨ref, none, some refnum, t, rfl, Extends.refl t, hopen nofun, ⟨hfield, nofun⟩, ?_⟩
      intro refnum' hmade
      cases hmade
      exact hat
  | closing c =>
      refine steps_closing hfield (hbacked.congr fun q => ?_) hat
      cases c <;> rfl

end Points

/-! ## Moves -/

section Moves

variable {num : Numbering} {w w' : World}

/-- The credits of a world in which one shell and the requests have changed. -/
theorem credit_shell {i : Nat} {s : ShellState} (h : w.shells[i]? = some s) :
    ∃ rest : Int → Nat,
      (∀ q, w.credit q = rest q + s.credit q + (w.requests.map (·.credit q)).sum) ∧
      ∀ refs allocated s' requests q,
        World.credit ⟨refs, allocated, w.shells.set i s', requests, w.calls⟩ q =
          rest q + s'.credit q + (requests.map (·.credit q)).sum := by
  obtain ⟨rest, hsum, hset⟩ := sum_map_set ShellState.credit h
  refine ⟨fun q => rest q + (w.calls.map (·.credit q)).sum, fun q => ?_,
    fun refs allocated s' requests q => ?_⟩
  · rw [World.credit, hsum]
    dsimp only
    omega
  · rw [World.credit, hset]
    dsimp only
    omega

/-- The credits of a world in which one request has changed. -/
theorem credit_request {j : Nat} {r : RequestState} (h : w.requests[j]? = some r) :
    ∃ rest : Int → Nat, (∀ q, w.credit q = rest q + r.credit q) ∧
      ∀ refs allocated r' q,
        World.credit ⟨refs, allocated, w.shells, w.requests.set j r', w.calls⟩ q =
          rest q + r'.credit q := by
  obtain ⟨rest, hsum, hset⟩ := sum_map_set RequestState.credit h
  refine ⟨fun q => rest q + (w.shells.map (·.credit q)).sum + (w.calls.map (·.credit q)).sum,
    fun q => ?_, fun refs allocated r' q => ?_⟩
  · rw [World.credit, hsum]
    dsimp only
    omega
  · rw [World.credit, hset]
    dsimp only
    omega

/-- The credits of a world in which one call has changed. -/
theorem credit_call {k : Nat} {c : CallPoint} (h : w.calls[k]? = some c) :
    ∃ rest : Int → Nat, (∀ q, w.credit q = rest q + c.credit q) ∧
      ∀ refs allocated c' q,
        World.credit ⟨refs, allocated, w.shells, w.requests, w.calls.set k c'⟩ q =
          rest q + c'.credit q := by
  obtain ⟨rest, hsum, hset⟩ := sum_map_set CallPoint.credit h
  refine ⟨fun q => rest q + (w.shells.map (·.credit q)).sum + (w.requests.map (·.credit q)).sum,
    fun q => ?_, fun refs allocated c' q => ?_⟩
  · rw [World.credit, hsum]
    dsimp only
    omega
  · rw [World.credit, hset]
    dsimp only
    omega

/-- A call stays good when the table grows and the requests that it is still to read stay as they
are. -/
theorem CallPoint.Ok.mono {c : CallPoint} (h : c.Ok w) (hext : Extends w.refs w'.refs)
    (hpending : ∀ j q, c = .reading j → w.requests[j]? = some q → q.finalizer = .pending →
      ∃ q', w'.requests[j]? = some q' ∧ q'.finalizer = .pending) : c.Ok w' := by
  cases c with
  | reading j =>
      obtain ⟨q, hq, hfinalizer⟩ := h
      exact hpending j q rfl hq hfinalizer
  | borrowing b => exact Borrow.Ok.mono h hext
  | working ptr => trivial

/-- What a move comes to in a world: a world of some kind, nothing, or a panic because the numbering
has no next number. -/
def Comes (num : Numbering) (w : World) (P : World → Prop) : Option (Except GoPanic World) → Prop
  | none => True
  | some (.ok w') => P w'
  | some (.error e) => e = .refsUnderflow ∧ num.next w.refs.issued = none

/-- A shell that changes without a step on the table, and keeps its credits. -/
theorem inv_shell (h : Inv w) {i : Nat} {s s' : ShellState} (hs : w.shells[i]? = some s)
    (hcredit : ∀ q, s'.credit q = s.credit q) (hok : s'.Ok w.refs) :
    Inv { w with shells := w.shells.set i s' } := by
  obtain ⟨rest, hrest, hset⟩ := credit_shell hs
  refine ⟨h.backed.congr fun q => ?_, forall_mem_set h.shells hok i, h.requests, fun c hc =>
    (h.calls c hc).mono (Extends.refl _) fun j q _ hq hpending => ⟨q, hq, hpending⟩⟩
  rw [hset, hrest, hcredit]

/-- A request that changes while no call is still to read it, or without starting its finalizer. -/
theorem inv_request (h : Inv w) {t : RefTable Iface} {j : Nat} {r r' : RequestState}
    (hr : w.requests[j]? = some r) (hext : Extends w.refs t)
    (hbacked : ∀ rest : Int → Nat, (∀ q, w.credit q = rest q + r.credit q) →
      Backed t fun q => rest q + r'.credit q)
    (hok : r'.Ok t) (hpending : r'.finalizer = .pending ∨ .reading j ∉ w.calls) :
    Inv { w with refs := t, requests := w.requests.set j r' } := by
  obtain ⟨rest, hrest, hset⟩ := credit_request hr
  refine ⟨(hbacked rest hrest).congr fun q => hset _ _ r' q, fun s hs =>
    (h.shells s hs).mono hext, forall_mem_set (fun q hq => (h.requests q hq).mono hext) hok j,
    fun c hc => (h.calls c hc).mono hext fun j' q heq hq hfinalizer => ?_⟩
  by_cases hj : j = j'
  · subst hj
    rcases hpending with hpending | hnone
    · refine ⟨r', ?_, hpending⟩
      have hlt : j < w.requests.length := (List.getElem?_eq_some_iff.mp hr).1
      simp [hlt]
    · exact absurd (heq ▸ hc) hnone
  · exact ⟨q, by simp [List.getElem?_set_ne hj, hq], hfinalizer⟩

theorem comes_bind {α : Type} {P : World → Prop} {o : Option α}
    {f : α → Option (Except GoPanic World)} (h : ∀ a, o = some a → Comes num w P (f a)) :
    Comes num w P (o >>= f) := by
  cases o with
  | none => trivial
  | some a => exact h a rfl

theorem comes_if {P : World → Prop} {c : Prop} [Decidable c] {x : Option (Except GoPanic World)}
    (h : c → Comes num w P x) : Comes num w P (if c then x else none) := by
  split
  · exact h ‹c›
  · trivial

/-- A step of a shell keeps the invariant, and gives what it has constructed to a new request. -/
theorem inv_advance (h : Inv w) {i : Nat} {s : ShellState} {point : ShellPoint}
    (hs : w.shells[i]? = some s) (hpoint : s.point = some point) :
    Comes num w Inv (some (commit (fun (ref, point, made) refs =>
      { w with
        refs
        allocated := w.allocated + 1
        shells := w.shells.set i { s with ref, point }
        requests := w.requests ++ made.toList.map fun ref => ⟨i, ref, false, .pending⟩ })
      ((point.step num w.allocated s.ref).run w.refs))) := by
  obtain ⟨rest, hrest, hset⟩ := credit_shell hs
  have hok := h.shells s (List.mem_of_getElem? hs)
  -- the credits of all others stay with them
  have hbacked : Backed w.refs fun q =>
      rest q + (w.requests.map (·.credit q)).sum + s.credit q :=
    h.backed.congr fun q => by rw [hrest, Nat.add_right_comm]
  rcases shell_step num hbacked hok hpoint with
    ⟨ref, next, made, t, hrun, hstepped⟩ | ⟨⟨t, hrun⟩, hout⟩
  · rw [hrun]
    refine ⟨hstepped.backed.congr fun q => ?_,
      forall_mem_set (fun s hs => (h.shells s hs).mono hstepped.ext) hstepped.ok i, fun r hr => ?_,
      fun c hc => (h.calls c hc).mono hstepped.ext fun j q _ hq hpending => ?_⟩
    · refine (hset _ _ { s with ref, point := next } _ q).trans ?_
      rw [List.map_append, List.sum_append]
      cases made with
      | none =>
          simp
          omega
      | some refnum =>
          simp [RequestState.credit, fieldCredit, (hstepped.made refnum rfl).ne_zero]
          omega
    · rcases List.mem_append.mp hr with hr | hr
      · exact (h.requests r hr).mono hstepped.ext
      · obtain ⟨refnum, hmade, rfl⟩ := List.mem_map.mp hr
        have hstands := hstepped.made refnum (Option.mem_toList.mp hmade)
        exact ⟨fun _ => hstands, fun _ => hstands.ne_zero, fun _ => rfl, nofun⟩
    · have hlt : j < w.requests.length := (List.getElem?_eq_some_iff.mp hq).1
      exact ⟨q, by simp [List.getElem?_append_left hlt, hq], hpending⟩
  · rw [hrun]
    exact ⟨rfl, hout⟩

/-- A step of a call on a request keeps the invariant. -/
theorem inv_advanceCall (h : Inv w) {k : Nat} {b : Borrow}
    (hc : w.calls[k]? = some (.borrowing b)) :
    Comes num w Inv (some (commit (fun next refs =>
      { w with refs, calls := w.calls.set k (next.elim .borrowing .working) })
      ((b.step .requestBuilder).run w.refs))) := by
  obtain ⟨rest, hrest, hset⟩ := credit_call hc
  obtain ⟨next, t, hrun, hext, hnext⟩ := borrow_step (h.backed.congr fun q => (hrest q).symm)
    (h.calls _ (List.mem_of_getElem? hc))
  rw [hrun]
  have hcalls : ∀ c ∈ w.calls, c.Ok { w with refs := t } := fun c hc =>
    (h.calls c hc).mono hext fun j q _ hq hpending => ⟨q, hq, hpending⟩
  have hshells : ∀ s ∈ w.shells, s.Ok t := fun s hs => (h.shells s hs).mono hext
  have hrequests : ∀ q ∈ w.requests, q.Ok t := fun q hq => (h.requests q hq).mono hext
  cases next with
  | inl b' =>
      refine ⟨hnext.1.congr fun q => hset _ _ (.borrowing b') q, hshells, hrequests, ?_⟩
      refine forall_mem_set (P := CallPoint.Ok { w with refs := t }) hcalls ?_ k
      exact hnext.2
  | inr ptr =>
      refine ⟨hnext.congr fun q => hset _ _ (.working ptr) q, hshells, hrequests, ?_⟩
      refine forall_mem_set (P := CallPoint.Ok { w with refs := t }) hcalls ?_ k
      trivial

/-- A request whose finalizer has started is read by no call. -/
theorem pending_or_unread (h : Inv w) {j : Nat} {r : RequestState} (hr : w.requests[j]? = some r) :
    r.finalizer = .pending ∨ .reading j ∉ w.calls := by
  by_cases hread : .reading j ∈ w.calls
  · obtain ⟨r', hr', hpending⟩ := h.calls _ hread
    cases hr.symm.trans hr'
    exact .inl hpending
  · exact .inr hread

/-- A step of the finalizer of a request keeps the invariant. -/
theorem inv_advanceFinalizer (h : Inv w) {j : Nat} {r : RequestState} {c : Close}
    (hr : w.requests[j]? = some r) (hrunning : r.finalizer = .running c) :
    Comes num w Inv (some (commit (fun (ref, next) refs =>
      { w with refs, requests := w.requests.set j (r.after ref next) })
      ((c.step r.ref).run w.refs))) := by
  obtain ⟨rest, hrest, hset⟩ := credit_request hr
  have hok := h.requests r (List.mem_of_getElem? hr)
  have hclosing : Backed w.refs fun q => rest q + fieldCredit r.ref (c = .reset) q := by
    refine h.backed.congr fun q => ?_
    rw [hrest, RequestState.credit, hrunning]
    cases c <;> rfl
  obtain ⟨ref, next, t, hrun, hext, hbacked, hnext, href⟩ :=
    close_step hclosing (hok.running c hrunning)
  have hunread : .reading j ∉ w.calls :=
    (pending_or_unread h hr).resolve_left (by rw [hrunning]; exact nofun)
  -- a finalizer that runs has been started, so the request was dropped and is not read again
  have hdropped : ¬ r.dropped = false := fun hused => by
    have hpending := hok.dropped hused
    rw [hrunning] at hpending
    cases hpending
  rw [hrun]
  refine inv_request h hr hext (fun rest' hrest' => hbacked.congr fun q => ?_) ?_ (.inr hunread)
  · have hsame : rest' q = rest q := Nat.add_right_cancel ((hrest' q).symm.trans (hrest q))
    rw [hsame]
    rcases next with _ | c'
    · rfl
    · cases c' <;> rfl
  · refine ⟨fun hne => ?_, fun hpending => ?_, fun hused => absurd hused hdropped, fun c' hc' => ?_⟩
    · rcases href with rfl | rfl
      · exact (hok.field hne).mono hext
      · exact absurd rfl hne
    · cases next <;> cases hpending
    · cases next with
      | none => cases hc'
      | some c'' =>
          cases hc'
          exact hnext c' rfl

theorem inv_newShell (h : Inv w) :
    Inv { w with shells := w.shells ++ [⟨0, none, false, false⟩] } := by
  refine ⟨h.backed.congr fun q => ?_, ?_, h.requests, fun c hc =>
    (h.calls c hc).mono (Extends.refl _) fun j q _ hq hpending => ⟨q, hq, hpending⟩⟩
  · simp [World.credit, ShellState.credit, fieldCredit]
  · intro s hs
    rcases List.mem_append.mp hs with hs | hs
    · exact h.shells s hs
    · obtain rfl := List.mem_singleton.mp hs
      exact ⟨fun hne => absurd rfl hne, nofun⟩

/-- Beginning a method on an idle shell, for the program or for the finalizer. -/
theorem inv_begin (h : Inv w) {i : Nat} {s : ShellState} (hs : w.shells[i]? = some s)
    (hidle : s.point = none) (method : Method) (finalized : Bool) :
    Inv { w with shells := w.shells.set i { s with point := some method.point, finalized } } := by
  have hok := h.shells s (List.mem_of_getElem? hs)
  refine inv_shell h hs (fun q => ?_) ⟨hok.field, ?_⟩
  · cases method <;> simp [ShellState.credit, hidle, Method.point, ShellPoint.credit]
  · intro point hpoint
    cases hpoint
    cases method <;> trivial

/-- A call can begin on a request that has not been dropped: its finalizer has not started. -/
theorem inv_use (h : Inv w) {j : Nat} {r : RequestState} (hr : w.requests[j]? = some r)
    (hused : r.dropped = false) : Inv { w with calls := w.calls ++ [.reading j] } := by
  refine ⟨h.backed.congr fun q => ?_, h.shells, h.requests, ?_⟩
  · simp [World.credit, CallPoint.credit]
  · intro c hc
    rcases List.mem_append.mp hc with hc | hc
    · exact (h.calls c hc).mono (Extends.refl _) fun j q _ hq hpending => ⟨q, hq, hpending⟩
    · obtain rfl := List.mem_singleton.mp hc
      exact ⟨r, hr, (h.requests r (List.mem_of_getElem? hr)).dropped hused⟩

/-- What a call reads from the field of its request stands for a builder. -/
theorem inv_read (h : Inv w) {k j : Nat} {r : RequestState}
    (hc : w.calls[k]? = some (.reading j)) (hr : w.requests[j]? = some r) :
    Inv { w with calls := w.calls.set k (.borrowing (.inc r.ref)) } := by
  obtain ⟨r', hr', hpending⟩ := h.calls _ (List.mem_of_getElem? hc)
  cases hr.symm.trans hr'
  have hok := h.requests r (List.mem_of_getElem? hr)
  obtain ⟨rest, hrest, hset⟩ := credit_call hc
  refine ⟨h.backed.congr fun q => ?_, h.shells, h.requests, ?_⟩
  · rw [hset, hrest]
    rfl
  · refine forall_mem_set (P := CallPoint.Ok w) h.calls ?_ k
    exact hok.field (hok.pending hpending)

/-- The finalizer of a request starts when it has been dropped and no call is to read its field. -/
theorem inv_finalizeRequest (h : Inv w) {j : Nat} {r : RequestState} (hr : w.requests[j]? = some r)
    (hpending : r.finalizer = .pending) (hfinalizable : w.finalizable j r) :
    Inv { w with requests := w.requests.set j { r with finalizer := .running .log } } := by
  have hok := h.requests r (List.mem_of_getElem? hr)
  simp only [World.finalizable, Bool.and_eq_true, Bool.not_eq_true', List.contains_eq_mem,
    decide_eq_false_iff_not] at hfinalizable
  refine inv_request h hr (Extends.refl _) (fun rest hrest => h.backed.congr fun q => ?_)
    ⟨hok.field, nofun, ?_, ?_⟩ (.inr hfinalizable.2)
  · have hcredit : r.credit q = fieldCredit r.ref false q := by
      rw [RequestState.credit, hpending]
      rfl
    rw [hrest, hcredit]
    rfl
  · intro hused
    exact absurd hused (by simp [hfinalizable.1])
  · intro c hc
    cases hc
    trivial

/-- **Every move keeps the invariant, and ends the process only when there is no next number.** -/
theorem inv_move (num : Numbering) (h : Inv w) (m : Move) : Comes num w Inv (w.move num m) := by
  cases m with
  | newShell => exact inv_newShell h
  | start i method =>
      exact comes_bind fun s hs =>
        comes_if fun ⟨hidle, _⟩ => inv_begin h hs hidle method s.finalized
  | advance i => exact comes_bind fun s hs => comes_bind fun point hpoint => inv_advance h hs hpoint
  | dropShell i =>
      refine comes_bind fun s hs => ?_
      have hok := h.shells s (List.mem_of_getElem? hs)
      exact inv_shell h hs (fun q => rfl) ⟨hok.field, hok.point⟩
  | finalizeShell i =>
      exact comes_bind fun s hs => comes_if fun ⟨hidle, _⟩ => inv_begin h hs hidle .close true
  | use j => exact comes_bind fun r hr => comes_if fun hused => inv_use h hr hused
  | advanceCall k =>
      refine comes_bind fun c hc => ?_
      cases c with
      | reading j => exact comes_bind fun r hr => inv_read h hc hr
      | borrowing b => exact inv_advanceCall h hc
      | working ptr => trivial
  | dropRequest j =>
      refine comes_bind fun r hr => ?_
      have hok := h.requests r (List.mem_of_getElem? hr)
      have hpending := pending_or_unread h hr
      exact inv_request h hr (Extends.refl _)
        (fun rest hrest => h.backed.congr fun q => (hrest q).symm)
        ⟨hok.field, hok.pending, nofun, hok.running⟩ hpending
  | finalizeRequest j =>
      refine comes_bind fun r hr => comes_if fun ⟨hpending, hfinalizable⟩ => ?_
      exact inv_finalizeRequest h hr hpending hfinalizable
  | advanceFinalizer j =>
      refine comes_bind fun r hr => ?_
      cases hrunning : r.finalizer with
      | pending => trivial
      | running c => exact inv_advanceFinalizer h hr hrunning
      | finished => trivial

theorem inv_start : Inv World.start := ⟨Backed.empty, nofun, nofun, nofun⟩

/-- A move that does not end the process keeps the invariant. -/
theorem inv_next (h : Inv w) {m : Move} (hmove : w.next num m = some w') : Inv w' := by
  obtain ⟨outcome, houtcome, hok⟩ := Option.bind_eq_some_iff.mp hmove
  have hcomes := inv_move num h m
  rw [houtcome] at hcomes
  cases outcome with
  | error e => cases hok
  | ok w => cases hok; exact hcomes

/-- **After any run, no move ends the process but one that needs a number when there is no next one:
no `Inc`, `Delete` or `Get` meets an absent reference, and no type assertion fails.** -/
theorem no_crash {moves : List Move} (hrun : run (World.next num) World.start moves = some w)
    (m : Move) : Comes num w (fun _ => True) (w.move num m) := by
  have hinv : Inv w := run_invariant (fun _ _ _ h => inv_next h) inv_start hrun
  have hcomes := inv_move num hinv m
  cases houtcome : w.move num m with
  | none => trivial
  | some outcome =>
      rw [houtcome] at hcomes
      cases outcome with
      | error e => exact hcomes
      | ok w => trivial

end Moves

/-- A request is made and used, and its finalizer disposes its reference between the `Inc` and the
`Get` of its call. -/
def disposedInside : List Move :=
  [.newShell, .start 0 .request] ++ List.replicate 12 (.advance 0) ++
    [.use 0, .advanceCall 0, .advanceCall 0, .dropRequest 0, .finalizeRequest 0] ++
    List.replicate 4 (.advanceFinalizer 0)

/-- The reference is still there for the `Get`, and there is a next number. -/
theorem no_crash_disposedInside :
    ∃ w, run (World.next standalone.numbering) World.start disposedInside = some w ∧
      w.refs.count (-25) = 2 ∧ standalone.numbering.next w.refs.issued ≠ none ∧
        Comes standalone.numbering w (fun _ => True)
          (w.move standalone.numbering (.advanceCall 0)) :=
  ⟨_, rfl, rfl, by decide, no_crash
    (rfl : run (World.next standalone.numbering) World.start disposedInside = _) (.advanceCall 0)⟩

end Kipfs.Overlap
