import Kipfs.Foundation.Credits
import Kipfs.Kotlin.Ideal

/-!
# The process simulates objects without references

`Simulates` relates a process to the objects it stands for: every field holds a reference to the Go
object with the right content, no two references stand for one Go object, and no two Kotlin objects
hold one reference. There is one lemma for each call, on the interface without marshalling; together
they say that a call is survived by the process exactly when it is possible on the objects, unless a
new object gets no reference because the numbering has no next number (`step_simulates`).
-/

namespace Kipfs

open Foundation Ipfsapi

namespace Ideal

variable {env : Env} {b : Binding} {p q : Process} {s : State} {i : Nat}

/-- A Kotlin object stands for an object without references. -/
def StandsFor (b : Binding) (p : Process) (o : KNativeObject) : Obj → Prop
  | .shell ipfsAddress =>
      o.cls = .shell ipfsAddress ∧ (o.ref ≠ 0 → ∃ ptr,
        p.refs.lookup o.ref = some ⟨.shell, ptr⟩ ∧
          p.shells ptr = Shell.NewShell (b.encode ipfsAddress))
  | .request none => o.cls = .request ∧ o.ref = 0
  | .request (some rb) =>
      o.cls = .request ∧ ∃ ptr, p.refs.lookup o.ref = some ⟨.requestBuilder, ptr⟩ ∧
        p.builders ptr = rb

/-- The process stands for the state. -/
structure Simulates (b : Binding) (p : Process) (s : State) : Prop where
  length : p.objects.length = s.objs.length
  stands : ∀ (i : Nat) (o : KNativeObject) (x : Obj), p.objects[i]? = some o → s.objs[i]? = some x →
    StandsFor b p o x
  issued : p.net.issued = s.issued
  closed : p.net.closed = s.closed
  counted : Counted p
  placed : ∀ r obj, p.refs.lookup r = some obj → obj.ptr < p.allocated
  separate : ∀ r r' obj obj', p.refs.lookup r = some obj → p.refs.lookup r' = some obj' →
    obj.ptr = obj'.ptr → r = r'

/-- At first there are no objects. -/
theorem simulates_start (b : Binding) (h : Initial p) : Simulates b p (start p) where
  length := by rw [h.objects]; rfl
  stands i o x ho := by rw [h.objects] at ho; cases ho
  issued := rfl
  closed := rfl
  counted := h.counted.1
  placed r obj hlookup := by rw [h.refs] at hlookup; cases hlookup
  separate r r' obj obj' hlookup := by rw [h.refs] at hlookup; cases hlookup

/-! ## Reading the relation -/

/-- Behind every object there is a Kotlin object. -/
theorem Simulates.object (h : Simulates b p s) {x : Obj} (hx : s.objs[i]? = some x) :
    ∃ o, p.objects[i]? = some o ∧ StandsFor b p o x := by
  have hlt : i < p.objects.length := by
    rw [h.length]
    exact (List.getElem?_eq_some_iff.mp hx).1
  exact ⟨p.objects[i], List.getElem?_eq_getElem hlt,
    h.stands i _ x (List.getElem?_eq_getElem hlt) hx⟩

/-- Where there is no object there is no Kotlin object. -/
theorem Simulates.no_object (h : Simulates b p s) (hx : s.objs[i]? = none) :
    p.objects[i]? = none := by
  rw [List.getElem?_eq_none_iff] at hx ⊢
  rw [h.length]
  exact hx

/-- The object whose field has been written. -/
theorem object_withRef_self {o : KNativeObject} {ref : Int} (ho : p.objects[i]? = some o) :
    (p.withRef i ref).objects[i]? = some { o with ref } := by
  simp [Process.withRef, ho]

/-- The other objects. -/
theorem object_withRef_ne {j : Nat} {ref : Int} (hij : i ≠ j) :
    (p.withRef i ref).objects[j]? = p.objects[j]? := by
  simp [Process.withRef, hij]

/-- Two Kotlin objects do not hold one reference. -/
theorem refs_ne {j : Nat} {o o' : KNativeObject} (hcounted : Counted p)
    (ho : p.objects[i]? = some o)
    (ho' : p.objects[j]? = some o') (hij : i ≠ j) (hne : o.ref ≠ 0) : o.ref ≠ o'.ref := by
  intro heq
  -- with the field of the first emptied, the second still owns the reference
  have hfield := owners_withRef (p := p) (Option.ne_none_iff_exists'.mpr ⟨o, ho⟩) 0 o.ref
  have hother : (p.withRef i 0).objects[j]? = some o' := (object_withRef_ne hij).trans ho'
  have howner : 0 < owners (p.withRef i 0) o.ref :=
    exists_owner_iff.mp ⟨o', List.mem_of_getElem? hother, heq.symm⟩
  rw [refOf_eq ho, if_pos rfl, if_neg (Ne.symm hne)] at hfield
  rcases hcounted o.ref hne with ⟨_, howners⟩ | ⟨_, howners⟩ <;> omega

/-- An object stands for the same after a change that it does not see. -/
theorem StandsFor.mono {o : KNativeObject} {x : Obj} (h : StandsFor b p o x)
    (hrefs : Extends p.refs q.refs)
    (hshells : ∀ obj, p.refs.lookup o.ref = some obj → q.shells obj.ptr = p.shells obj.ptr)
    (hbuilders : ∀ obj, p.refs.lookup o.ref = some obj → q.builders obj.ptr = p.builders obj.ptr) :
    StandsFor b q o x := by
  cases x with
  | shell ipfsAddress =>
      refine ⟨h.1, fun hne => ?_⟩
      obtain ⟨ptr, hlookup, hshell⟩ := h.2 hne
      refine ⟨ptr, hrefs _ _ hlookup, ?_⟩
      rw [hshells _ hlookup, hshell]
  | request rb =>
      cases rb with
      | none => exact h
      | some rb =>
          obtain ⟨hcls, ptr, hlookup, hbuilder⟩ := h
          refine ⟨hcls, ptr, hrefs _ _ hlookup, ?_⟩
          rw [hbuilders _ hlookup, hbuilder]

/-! ## Changes -/

/-- From `p` to `q` a Go object was made and entered under a fresh reference, with count two. -/
structure Entered (p q : Process) (refnum : Int) (type : GoType) : Prop where
  created : Created p q refnum
  lookup : ∀ r, q.refs.lookup r =
    if r = refnum then some ⟨type, p.allocated⟩ else p.refs.lookup r
  absent : p.refs.lookup refnum = none
  allocated : q.allocated = p.allocated + 1
  shells : ∀ ptr, ptr < p.allocated → q.shells ptr = p.shells ptr
  builders : ∀ ptr, ptr < p.allocated → q.builders ptr = p.builders ptr
  net : q.net = p.net

section Changes

variable {refnum : Int} {type : GoType}

theorem Entered.extends (h : Entered p q refnum type) : Extends p.refs q.refs := by
  intro r obj hlookup
  have hne : r ≠ refnum := by
    rintro rfl
    rw [h.absent] at hlookup
    cases hlookup
  rw [h.lookup, if_neg hne, hlookup]

/-- The heap stays well formed: the new object is at a new address. -/
theorem Entered.placed (h : Entered p q refnum type) (hp : Simulates b p s) :
    (∀ r obj, q.refs.lookup r = some obj → obj.ptr < q.allocated) ∧
      ∀ r r' obj obj', q.refs.lookup r = some obj → q.refs.lookup r' = some obj' →
        obj.ptr = obj'.ptr → r = r' := by
  have hcases : ∀ r obj, q.refs.lookup r = some obj →
      r = refnum ∧ obj.ptr = p.allocated ∨
        p.refs.lookup r = some obj ∧ obj.ptr < p.allocated := by
    intro r obj hlookup
    rw [h.lookup] at hlookup
    split at hlookup
    · cases hlookup
      exact .inl ⟨‹_›, rfl⟩
    · exact .inr ⟨hlookup, hp.placed r obj hlookup⟩
  refine ⟨fun r obj hlookup => ?_, fun r r' obj obj' hlookup hlookup' hptr => ?_⟩
  · rw [h.allocated]
    rcases hcases r obj hlookup with ⟨_, hnew⟩ | ⟨_, hold⟩ <;> omega
  · rcases hcases r obj hlookup with ⟨hr, hnew⟩ | ⟨hold, hlt⟩ <;>
      rcases hcases r' obj' hlookup' with ⟨hr', hnew'⟩ | ⟨hold', hlt'⟩
    · rw [hr, hr']
    · omega
    · omega
    · exact hp.separate r r' obj obj' hold hold' hptr

/-- The objects there are do not see a new one. -/
theorem Entered.stands (h : Entered p q refnum type) (hp : Simulates b p s) {o : KNativeObject}
    {x : Obj} (hstands : StandsFor b p o x) : StandsFor b q o x :=
  hstands.mono h.extends (fun _ hlookup => h.shells _ (hp.placed _ _ hlookup))
    fun _ hlookup => h.builders _ (hp.placed _ _ hlookup)

/-- A shell is added. -/
theorem Simulates.withShell (h : Simulates b p s) (ipfsAddress : KString) :
    Simulates b (p.withObject ⟨.shell ipfsAddress, 0⟩)
      { s with objs := s.objs ++ [.shell ipfsAddress] } where
  length := by simp [Process.withObject, h.length]
  stands i o x ho hx := by
    simp only [Process.withObject] at ho
    rcases Nat.lt_or_ge i p.objects.length with hlt | hge
    · rw [List.getElem?_append_left hlt] at ho
      rw [List.getElem?_append_left (h.length ▸ hlt)] at hx
      exact h.stands i o x ho hx
    · rw [List.getElem?_append_right hge, List.getElem?_singleton] at ho
      rw [List.getElem?_append_right (h.length ▸ hge), List.getElem?_singleton, ← h.length] at hx
      split at ho
      · rw [if_pos ‹_›] at hx
        cases ho
        cases hx
        exact ⟨rfl, fun hne => absurd rfl hne⟩
      · cases ho
  issued := h.issued
  closed := h.closed
  counted := fun r hr => by
    have howners := owners_withObject (p := p) ⟨.shell ipfsAddress, 0⟩ r
    rw [if_neg hr.symm] at howners
    exact howners ▸ h.counted r hr
  placed := h.placed
  separate := h.separate

/-- A request is added, with the reference of its builder. -/
theorem Simulates.withRequest (h : Simulates b p s) (hentered : Entered p q refnum .requestBuilder)
    {rb : RequestBuilder} (hbuilder : q.builders p.allocated = rb) :
    Simulates b (q.withObject ⟨.request, refnum⟩)
      { s with objs := s.objs ++ [.request (some rb)] } where
  length := by simp [Process.withObject, hentered.created.1, h.length]
  stands i o x ho hx := by
    simp only [Process.withObject, hentered.created.1] at ho
    rcases Nat.lt_or_ge i p.objects.length with hlt | hge
    · rw [List.getElem?_append_left hlt] at ho
      rw [List.getElem?_append_left (h.length ▸ hlt)] at hx
      exact hentered.stands h (h.stands i o x ho hx)
    · rw [List.getElem?_append_right hge, List.getElem?_singleton] at ho
      rw [List.getElem?_append_right (h.length ▸ hge), List.getElem?_singleton, ← h.length] at hx
      split at ho
      · rw [if_pos ‹_›] at hx
        cases ho
        cases hx
        refine ⟨rfl, p.allocated, ?_, hbuilder⟩
        show q.refs.lookup refnum = _
        rw [hentered.lookup, if_pos rfl]
      · cases ho
  issued := (congrArg Net.issued hentered.net).trans h.issued
  closed := (congrArg Net.closed hentered.net).trans h.closed
  counted := h.counted.created_withObject hentered.created .request
  placed := (hentered.placed h).1
  separate := (hentered.placed h).2

/-- A shell without a reference gets one. -/
theorem Simulates.connected (h : Simulates b p s) (hentered : Entered p q refnum .shell)
    {ipfsAddress : KString} (hshell : q.shells p.allocated = Shell.NewShell (b.encode ipfsAddress))
    (hx : s.objs[i]? = some (.shell ipfsAddress)) (hzero : p.refOf i = 0) :
    Simulates b (q.withRef i refnum) s := by
  obtain ⟨o, ho, hstands⟩ := h.object hx
  refine
    { length := by simp [Process.withRef, hentered.created.1, h.length]
      stands := fun j o' x ho' hx' => ?_
      issued := (congrArg Net.issued hentered.net).trans h.issued
      closed := (congrArg Net.closed hentered.net).trans h.closed
      counted :=
        h.counted.created_withRef hentered.created (Option.ne_none_iff_exists'.mpr ⟨o, ho⟩) hzero
      placed := (hentered.placed h).1
      separate := (hentered.placed h).2 }
  by_cases hij : i = j
  · subst hij
    cases hx.symm.trans hx'
    cases (object_withRef_self (by rw [hentered.created.1, ho])).symm.trans ho'
    refine ⟨hstands.1, fun _ => ⟨p.allocated, ?_, hshell⟩⟩
    show q.refs.lookup refnum = _
    rw [hentered.lookup, if_pos rfl]
  · rw [object_withRef_ne hij, hentered.created.1] at ho'
    exact hentered.stands h (h.stands j o' x ho' hx')

/-- An object gives up its reference, which stays in the table. -/
theorem Simulates.closing (h : Simulates b p s) {o : KNativeObject} (ho : p.objects[i]? = some o)
    (hne : o.ref ≠ 0) {refs : RefTable Iface} (hdelete : p.refs.delete o.ref = some refs) :
    Simulates b (({ p with refs } : Process).withRef i 0)
      { s with objs := s.objs.modify i Obj.close } := by
  have hfield : p.refOf i = o.ref := refOf_eq ho
  -- the count was two, so no reference goes away
  have hcount : 1 < p.refs.count o.ref := by
    have howner : 0 < owners p o.ref := exists_owner_iff.mp ⟨o, List.mem_of_getElem? ho, rfl⟩
    rcases h.counted o.ref hne with ⟨_, howners⟩ | ⟨hcount, _⟩ <;> omega
  have hlookup := RefTable.lookup_delete hdelete hcount
  have hcounted := (h.counted.disposed (q := { p with refs }) (by rwa [hfield])
    (Option.ne_none_iff_exists'.mpr ⟨o, ho⟩) rfl (by rw [hfield]; exact hdelete)).1
  refine
    { length := by simp [Process.withRef, h.length]
      stands := fun j o' x ho' hx' => ?_
      issued := h.issued
      closed := h.closed
      counted := hcounted
      placed := fun r obj hr => h.placed r obj (hlookup r ▸ hr)
      separate := fun r r' obj obj' hr hr' =>
        h.separate r r' obj obj' (hlookup r ▸ hr) (hlookup r' ▸ hr') }
  by_cases hij : i = j
  · subst hij
    cases (object_withRef_self (p := { p with refs }) ho).symm.trans ho'
    obtain ⟨x₁, hx₁, rfl⟩ : ∃ x₁, s.objs[i]? = some x₁ ∧ x₁.close = x := by
      simpa [List.getElem?_modify, Option.map_eq_some_iff] using hx'
    have hstands := h.stands i o x₁ ho hx₁
    cases x₁ with
    | shell ipfsAddress => exact ⟨hstands.1, fun habsurd => absurd rfl habsurd⟩
    | request rb =>
        cases rb with
        | none => exact ⟨hstands.1, rfl⟩
        | some rb => exact ⟨hstands.1, rfl⟩
  · rw [object_withRef_ne hij] at ho'
    have hx₁ : s.objs[j]? = some x := by simpa [List.getElem?_modify, hij] using hx'
    exact (h.stands j o' x ho' hx₁).mono (extends_of_lookup_eq hlookup) (fun _ _ => rfl)
      fun _ _ => rfl

/-- An object without a reference is closed already. -/
theorem Simulates.closed_already (h : Simulates b p s) {o : KNativeObject}
    (ho : p.objects[i]? = some o) (hzero : o.ref = 0) :
    { s with objs := s.objs.modify i Obj.close } = s := by
  have hobjs : s.objs.modify i Obj.close = s.objs := by
    refine List.ext_getElem? fun j => ?_
    rw [List.getElem?_modify]
    by_cases hij : i = j
    · subst hij
      cases hx : s.objs[i]? with
      | none => rfl
      | some x =>
          have hstands := h.stands i o x ho hx
          cases x with
          | shell ipfsAddress => simp [Obj.close]
          | request rb =>
              cases rb with
              | none => simp [Obj.close]
              | some rb =>
                  obtain ⟨_, ptr, hlookup, _⟩ := hstands
                  have hneg := RefTable.neg_of_lookup hlookup
                  omega
    · simp [hij]
  rw [hobjs]

/-- The builder of one request changes, and the network. -/
theorem Simulates.withConn (h : Simulates b p s) {o : KNativeObject} {ptr : Nat}
    {rb : RequestBuilder} (ho : p.objects[i]? = some o)
    (hx : s.objs[i]? = some (.request (some rb)))
    (hlookup : p.refs.lookup o.ref = some ⟨.requestBuilder, ptr⟩) (c : Conn) :
    Simulates b (p.withConn ptr c)
      ⟨s.objs.set i (.request (some c.rb)), c.net.issued, c.net.closed⟩ := by
  have hstands := h.stands i o _ ho hx
  have hlt : i < s.objs.length := (List.getElem?_eq_some_iff.mp hx).1
  refine
    { length := by simpa [Process.withConn] using h.length
      stands := fun j o' x ho' hx' => ?_
      issued := rfl
      closed := rfl
      counted := h.counted
      placed := h.placed
      separate := h.separate }
  have ho' : p.objects[j]? = some o' := ho'
  by_cases hij : i = j
  · subst hij
    cases ho.symm.trans ho'
    rw [List.getElem?_set_self hlt] at hx'
    cases hx'
    exact ⟨hstands.1, ptr, hlookup, Function.update_self _ _ _⟩
  · rw [List.getElem?_set_ne hij] at hx'
    refine (h.stands j o' x ho' hx').mono (Extends.refl _) (fun _ _ => rfl) fun obj hobj => ?_
    -- another object has another reference, and so another builder
    have hneg := RefTable.neg_of_lookup hlookup
    have hrefs := refs_ne h.counted ho ho' hij (by omega)
    refine Function.update_of_ne (fun hptr => hrefs ?_) _ _
    exact h.separate _ _ _ _ hlookup hobj hptr.symm

end Changes

/-! ## The interface without marshalling -/

section Interface

variable {α : Type} {type : GoType}

/-- What a panic ends has not survived. -/
theorem survivor_panic {m : Prog α} {x : GoPanic} (h : m.run p = .error (.panic x) q) :
    survivor (m.run p) = none := by
  rw [h]
  rfl

theorem survivor_out {num : Numbering} {m : Prog α} (h : OutOfNumbers num (m.run p)) :
    survivor (m.run p) = none := by
  obtain ⟨q, hrun, _⟩ := h
  exact survivor_panic hrun

/-- A new Go object enters, unless the numbering has no next number. -/
theorem entered_or_out (env : Env) (type : GoType) (p₁ : Process) (hrefs : p₁.refs = p.refs)
    (hobjects : p₁.objects = p.objects) (hallocated : p₁.allocated = p.allocated + 1)
    (hshells : ∀ ptr, ptr < p.allocated → p₁.shells ptr = p.shells ptr)
    (hbuilders : ∀ ptr, ptr < p.allocated → p₁.builders ptr = p.builders ptr)
    (hnet : p₁.net = p.net) :
    (∃ refnum q, (createRef env ⟨type, p.allocated⟩).run p₁ = .ok refnum q ∧
      Entered p q refnum type ∧ q.shells = p₁.shells ∧ q.builders = p₁.builders) ∨
    OutOfNumbers env.numbering ((createRef env ⟨type, p.allocated⟩).run p₁) := by
  cases href : (createRef env ⟨type, p.allocated⟩).run p₁ with
  | error a q =>
      obtain ⟨rfl, hnext⟩ := createRef_error href
      exact .inr ⟨q, rfl, hnext⟩
  | ok refnum q =>
      obtain ⟨_, habsent, hrest, hself, hothers, _⟩ := createRef_spec href
      have hcreated := (createRef_created href).2.congr
        (Prod.ext hrefs.symm hobjects.symm) rfl
      rw [hrefs] at habsent
      have hshells' : q.shells = p₁.shells := by rw [hrest]
      have hbuilders' : q.builders = p₁.builders := by rw [hrest]
      refine .inl ⟨refnum, q, rfl, ?_, hshells', hbuilders'⟩
      exact
        { created := hcreated
          lookup := fun r => by
            by_cases hr : r = refnum
            · rw [if_pos hr, hr, hself]
            · rw [if_neg hr, hothers r hr, hrefs]
          absent := habsent
          allocated := by rw [hrest]; exact hallocated
          shells := fun ptr hptr => by rw [hshells', hshells ptr hptr]
          builders := fun ptr hptr => by rw [hbuilders', hbuilders ptr hptr]
          net := by rw [hrest]; exact hnet }

/-- A shell is made on its address. -/
theorem run_enterShell (env : Env) (url : Bytes) (p : Process) :
    (∃ refnum q, (Plain.enterShell env url).run p = .ok refnum q ∧ Entered p q refnum .shell ∧
      q.shells p.allocated = Shell.NewShell url) ∨
    OutOfNumbers env.numbering ((Plain.enterShell env url).run p) := by
  obtain ⟨p₁, hp₁, hnew⟩ : ∃ p₁, p₁ = { p with
      shells := Function.update p.shells p.allocated (Shell.NewShell url)
      allocated := p.allocated + 1 } ∧
      (newShell (Shell.NewShell url)).run p = .ok p.allocated p₁ := ⟨_, rfl, rfl⟩
  rw [Plain.enterShell, EStateM.run_bind, hnew]
  rcases entered_or_out (p := p) env .shell p₁ (by rw [hp₁]) (by rw [hp₁]) (by rw [hp₁])
    (fun ptr hptr => by rw [hp₁]; exact Function.update_of_ne (Nat.ne_of_lt hptr) _ _)
    (fun ptr _ => by rw [hp₁]) (by rw [hp₁]) with ⟨refnum, q, hrun, hentered, hshells, _⟩ | hout
  · refine .inl ⟨refnum, q, hrun, hentered, ?_⟩
    rw [hshells, hp₁]
    exact Function.update_self _ _ _
  · exact .inr hout

/-- A request is made for the node of its shell. -/
theorem run_enterRequest (env : Env) {shellRef : Int} {kShell : Nat}
    (hshell : p.refs.lookup shellRef = some ⟨.shell, kShell⟩) (command : Bytes)
    (arg : Option Bytes) :
    (∃ refnum q, (Plain.enterRequest env shellRef command arg).run p = .ok refnum q ∧
      Entered p q refnum .requestBuilder ∧
      q.builders p.allocated = { (p.shells kShell).NewRequest command with args := arg.toList }) ∨
    OutOfNumbers env.numbering ((Plain.enterRequest env shellRef command arg).run p) := by
  obtain ⟨p₁, hp₁, hnew⟩ : ∃ p₁, p₁ = { p with
      builders := Function.update p.builders p.allocated ((p.shells kShell).NewRequest command)
      allocated := p.allocated + 1 } ∧
      (newBuilder ((p.shells kShell).NewRequest command)).run p = .ok p.allocated p₁ :=
        ⟨_, rfl, rfl⟩
  have hborrow : ∀ {β : Type} (f : Shell → Prog β),
      (borrow shellRef >>= fun obj => assertShell obj >>= f).run p =
        (f (p.shells kShell)).run p := by
    intro β f
    rw [EStateM.run_bind, run_borrow hshell]
    rfl
  rw [Plain.enterRequest, hborrow, EStateM.run_bind, hnew]
  dsimp only
  rcases entered_or_out (p := p) env .requestBuilder p₁ (by rw [hp₁]) (by rw [hp₁]) (by rw [hp₁])
    (fun ptr _ => by rw [hp₁])
    (fun ptr hptr => by rw [hp₁]; exact Function.update_of_ne (Nat.ne_of_lt hptr) _ _)
    (by rw [hp₁]) with ⟨refnum, q, hrun, hentered, _, hbuilders⟩ | hout
  · have hbuilder : q.builders p.allocated = (p.shells kShell).NewRequest command := by
      rw [hbuilders, hp₁]
      exact Function.update_self _ _ _
    rw [EStateM.run_bind, hrun]
    cases arg with
    | none => exact .inl ⟨refnum, q, rfl, hentered, hbuilder⟩
    | some arg =>
        -- the argument is added to the builder that has been made
        refine .inl ⟨refnum, q.withConn p.allocated ⟨{ q.builders p.allocated with
          args := (q.builders p.allocated).args ++ [arg] }, q.net⟩, rfl, ?_, ?_⟩
        · exact { hentered with
            builders := fun ptr hptr =>
              (Function.update_of_ne (Nat.ne_of_lt hptr) _ _).trans (hentered.builders ptr hptr) }
        · refine (Function.update_self _ _ _).trans ?_
          rw [hbuilder]
          rfl
  · exact .inr (hout.bind _)

end Interface

/-! ## Calls that send -/

section Sends

variable {runsOut : Prop} {o : KNativeObject}

/-- What the Go method under a call does, in all its cases. -/
theorem run_method (out : Outside) (sending : Sending) (c : Conn) :
    ∃ c', c'.rb = (sending.posted c.rb).spent ∧
      c'.net.issued = c.net.issued ++ [(sending.posted c.rb).wire] ∧
      match sending.result (out.server (c.net.issued ++ [(sending.posted c.rb).wire])) with
      | some result => (sending.method out).run c = .ok result c' ∧
          c'.net.closed = c.net.closed ++ Shell.toClose
            (out.server (c.net.issued ++ [(sending.posted c.rb).wire])) c.net.issued.length
      | none => (sending.method out).run c = .error .nilDereference c' := by
  have hsent := sent_method out sending c
  obtain ⟨hrb, hissued⟩ := Prod.mk.inj hsent
  refine ⟨final ((sending.method out).run c), hrb, hissued, ?_⟩
  cases sending with
  | send =>
      obtain ⟨c', hrun, hclosed⟩ := Shell.run_Send out (out.server (c.net.issued ++ [c.rb.wire])) c
      have hrun' : (Sending.send.method out).run c = .ok _ c' := hrun
      rw [hrun']
      exact ⟨rfl, hclosed⟩
  | post data =>
      -- the outcome is that of the request with the body
      generalize houtcome : out.server
        (c.net.issued ++ [((Sending.post data).posted c.rb).wire]) = outcome
      have hsame : ((Sending.post data).method out).run c =
          (Shell.Post2 (Shell.answering out outcome) [] (.readerFile data)).run c := by
        rw [← houtcome]
        rfl
      cases outcome with
      | failed err =>
          obtain ⟨c', hrun⟩ := Shell.run_Post2_failed out c [] (.readerFile data) err
          rw [hsame, hrun]
          rfl
      | status err =>
          obtain ⟨c', hrun⟩ := Shell.run_Post2_status out c [] (.readerFile data) err
          rw [hsame, hrun]
          rfl
      | body output =>
          obtain ⟨c', hrun, hclosed⟩ := Shell.run_Post2_body out c [] (.readerFile data) output
          rw [hsame, hrun]
          exact ⟨rfl, hclosed⟩

/-- An array of some of the bytes can be made on the JVM when it has a first byte to copy from. -/
theorem run_array {n : Int} {data : Bytes} (hle : n ≤ data.length) (p : Process) :
    (cName (if n < 0 then throwException (kstring "NegativeArraySizeException")
        else newByteArray (data.take n.toNat))).run p =
      if decide (0 < n) then .ok (data.take n.toNat) p else .error .terminated p := by
  have hlength : (data.take n.toNat).length = n.toNat := by
    rw [List.length_take]
    omega
  simp only [decide_eq_true_eq, run_cName]
  rcases lt_trichotomy n 0 with hneg | hzero | hpos
  · rw [if_pos hneg, if_neg (by omega)]
    rfl
  · rw [if_neg (by omega), if_neg (by omega), newByteArray, addressOf, if_neg (by omega)]
    rfl
  · rw [if_neg (by omega), if_pos hpos, newByteArray, addressOf, if_pos (by omega)]
    rfl

/-- How a delivery that changes nothing ends. -/
def ending (p : Process) : Except Abort Bytes → EStateM.Result Abort Process Bytes
  | .ok bytes => .ok bytes p
  | .error a => .error a p

/-- An array of some of the bytes can be made in a native program when their number is not
negative. -/
theorem run_prefix (n : Int) (data : Bytes) (p : Process) :
    (if n < 0 then (throwException (kstring "NegativeArraySizeException") : Prog Bytes)
        else pure (data.take n.toNat)).run p =
      ending p (if n < 0 then .error (.thrown (kstring "NegativeArraySizeException"))
        else .ok (data.take n.toNat)) := by
  split
  · rfl
  · rfl

/-- Delivering results on the JVM returns an array or ends the process. -/
theorem run_deliver_jni (label : String) (result : Bytes × Option GoError) (p : Process) :
    (Binding.jni.call (Binding.jni.deliver label result)).run p =
      if Binding.jni.delivers result then
        .ok (result.1.take (toInt32 result.1.length).toNat) p
      else .error .terminated p := by
  rcases result with ⟨data, _ | err⟩
  · exact run_array (toInt32_length_le data) p
  · rfl

/-- The process survives the delivery of results as `delivers` says, and nothing changes in it. -/
theorem survivor_deliver (label : String) (result : Bytes × Option GoError) (p : Process) :
    survivor ((b.call (b.deliver label result)).run p) =
      if b.delivers result then some p else none := by
  cases b with
  | native =>
      rcases result with ⟨data, _ | err⟩
      · simp only [Binding.call, Binding.deliver, Binding.delivers, if_true]
        split <;> rfl
      · rfl
  | jni =>
      rw [run_deliver_jni]
      split <;> rfl

/-- Delivering results comes to what `delivered` says, and changes nothing. -/
theorem run_deliver {label : String} (hlabel : b = .native → label = "Request failed: ")
    (result : Bytes × Option GoError) (p : Process) :
    (b.call (b.deliver label result)).run p = ending p (b.delivered result) := by
  cases b with
  | native =>
      obtain rfl := hlabel rfl
      rcases result with ⟨data, _ | err⟩
      · simp only [Binding.call, Binding.deliver, Binding.delivered]
        exact run_prefix _ data p
      · rfl
  | jni =>
      rw [run_deliver_jni, Binding.delivered]
      cases Binding.jni.delivers result with
      | true => rfl
      | false => rfl

/-- The delivery of results aborts as `complaint` says. -/
theorem aborted_deliver {label : String} (hlabel : b = .native → label = "Request failed: ")
    (result : Bytes × Option GoError) (p : Process) :
    aborted ((b.call (b.deliver label result)).run p) = b.complaint result := by
  rw [run_deliver hlabel, Binding.complaint]
  cases b.delivered result with
  | ok bytes => rfl
  | error a => rfl

/-- What follows a call of a method of the builder behind a reference. -/
theorem run_sending {ptr : Nat} {ref : Int}
    (hlookup : p.refs.lookup ref = some ⟨.requestBuilder, ptr⟩)
    (label : String) (m : GoM (Bytes × Option GoError)) :
    (Plain.sending b label m ref).run p = (b.call (onBuilder ptr m >>= b.deliver label)).run p := by
  have hborrow : (borrow ref >>= fun obj => assertBuilder obj >>= fun rb =>
      onBuilder rb m >>= b.deliver label).run p = (onBuilder ptr m >>= b.deliver label).run p :=
    run_borrowBuilder hlookup _
  cases b with
  | native => exact hborrow
  | jni =>
      show (cName _).run p = (cName _).run p
      rw [run_cName, run_cName, hborrow]

/-- A request is open, with a builder behind its reference, or closed, with no object behind it. -/
theorem Simulates.open_or_closed (h : Simulates b p s) (ho : p.objects[i]? = some o)
    (hcls : o.cls = .request) :
    (∃ rb ptr, s.objs[i]? = some (.request (some rb)) ∧
      p.refs.lookup o.ref = some ⟨.requestBuilder, ptr⟩ ∧ p.builders ptr = rb) ∨
    s.objs[i]? = some (.request none) ∧ p.refs.lookup o.ref = none := by
  have hlt : i < s.objs.length := h.length ▸ (List.getElem?_eq_some_iff.mp ho).1
  have hx : s.objs[i]? = some s.objs[i] := List.getElem?_eq_getElem hlt
  generalize s.objs[i] = x at hx
  have hstands := h.stands i o x ho hx
  cases x with
  | shell ipfsAddress =>
      rw [hstands.1] at hcls
      cases hcls
  | request rb =>
      cases rb with
      | some rb =>
          obtain ⟨_, ptr, hlookup, hbuilder⟩ := hstands
          exact .inl ⟨rb, ptr, hx, hlookup, hbuilder⟩
      | none =>
          refine .inr ⟨hx, ?_⟩
          cases hlookup : p.refs.lookup o.ref with
          | none => rfl
          | some obj =>
              have hneg := RefTable.neg_of_lookup hlookup
              have hzero : o.ref = 0 := hstands.2
              omega

/-- A program of the binding that has got past its first half. -/
theorem run_call_bind {α β : Type} {m : Prog α} {f : α → Prog β} {x : α} (h : m.run p = .ok x q) :
    (b.call (m >>= f)).run p = (b.call (f x)).run q := by
  cases b with
  | native =>
      show (m >>= f).run p = (f x).run q
      rw [EStateM.run_bind, h]
  | jni =>
      show (cName (m >>= f)).run p = (cName (f x)).run q
      rw [run_cName, run_cName, EStateM.run_bind, h]

/-- The state after a request has been issued. -/
def issued (out : Outside) (s : State) (i : Nat) (sending : Sending) (rb : RequestBuilder) :
    State where
  objs := s.objs.set i (.request (some (sending.posted rb).spent))
  issued := s.issued ++ [(sending.posted rb).wire]
  closed := s.closed ++
    Shell.toClose (out.server (s.issued ++ [(sending.posted rb).wire])) s.issued.length

/-- What a call that sends comes to: on a closed request a panic, and on an open one, after the
request has been issued, the delivery of the results or a panic for want of a body. -/
theorem run_sending_cases (h : Simulates b p s) (ho : p.objects[i]? = some o)
    (hcls : o.cls = .request) (label : String) (sending : Sending) :
    (s.objs[i]? = some (.request none) ∧
      (Plain.sending b label (sending.method env.out) o.ref).run p =
        .error (.panic (.unknownRefNum 0)) p) ∨
    ∃ rb q, s.objs[i]? = some (.request (some rb)) ∧
      q.net.issued = s.issued ++ [(sending.posted rb).wire] ∧
      match sending.result (env.out.server (s.issued ++ [(sending.posted rb).wire])) with
      | some result => Simulates b q (issued env.out s i sending rb) ∧
          (Plain.sending b label (sending.method env.out) o.ref).run p =
            (b.call (b.deliver label result)).run q
      | none => (Plain.sending b label (sending.method env.out) o.ref).run p =
          .error (.panic .nilDereference) q := by
  rcases h.open_or_closed ho hcls with ⟨rb, ptr, hx, hlookup, hbuilder⟩ | ⟨hx, habsent⟩
  · obtain ⟨c, hrb, hissued, hresult⟩ := run_method env.out sending ⟨p.builders ptr, p.net⟩
    dsimp only at hrb hissued hresult
    rw [hbuilder] at hrb hissued hresult
    rw [h.issued] at hissued hresult
    refine .inr ⟨rb, p.withConn ptr c, hx, hissued, ?_⟩
    rw [run_sending hlookup]
    cases hres : sending.result (env.out.server (s.issued ++ [(sending.posted rb).wire])) with
    | none =>
        rw [hres] at hresult
        refine run_call_panic ?_
        rw [EStateM.run_bind, run_onBuilder_error (by rw [← hresult, hbuilder])]
    | some result =>
        rw [hres] at hresult
        obtain ⟨hrun, hclosed⟩ := hresult
        have hsimulates := h.withConn ho hx hlookup c
        rw [hrb, hissued, hclosed, h.closed] at hsimulates
        exact ⟨hsimulates, run_call_bind (run_onBuilder_ok (by rw [← hrun, hbuilder]))⟩
  · refine .inl ⟨hx, run_call_panic ?_⟩
    have hzero : o.ref = 0 := (h.stands i o _ ho hx).2
    rw [EStateM.run_bind, run_borrow_absent habsent, hzero]

/-- A call that sends does on the process what it does on the objects. -/
theorem matches_sending (h : Simulates b p s) (ho : p.objects[i]? = some o)
    (hcls : o.cls = .request)
    (label : String) (sending : Sending) :
    Corresponds (Simulates b) runsOut
      (survivor ((Plain.sending b label (sending.method env.out) o.ref).run p))
      (issue b env.out s i sending) := by
  rcases run_sending_cases h ho hcls label sending with ⟨hx, hpanic⟩ | ⟨rb, q, hx, _, hresult⟩
  · have hissue : issue b env.out s i sending = none := by
      simp only [issue, State.builder, hx]
    rw [survivor_panic hpanic, hissue]
    trivial
  · rw [issue, State.builder, hx]
    dsimp only
    unfold Binding.survives
    cases hres : sending.result (env.out.server (s.issued ++ [(sending.posted rb).wire])) with
    | none =>
        rw [hres] at hresult
        rw [survivor_panic hresult]
        trivial
    | some result =>
        rw [hres] at hresult
        obtain ⟨hsimulates, hrun⟩ := hresult
        rw [hrun, survivor_deliver]
        dsimp only
        split
        · exact hsimulates
        · trivial

end Sends

/-! ## Calls -/

/-- The call panics because the numbering has no next number for a new reference. -/
def RunsOut (num : Numbering) (kipfs : KIPFSNative) (p : Process) (call : Call) : Prop :=
  ∃ m, call.program kipfs p = some m ∧ OutOfNumbers num (m.run p)

section Calls

variable {runsOut : Prop} {ipfsAddress : KString}

/-- A shell has a reference to a shell on its address after `connect`. -/
theorem run_connect (env : Env) (h : Simulates b p s)
    (hx : s.objs[i]? = some (.shell ipfsAddress)) :
    (∃ q ref kShell, (KNativeShell.connect (plain env b) i ipfsAddress).run p = .ok () q ∧
      Simulates b q s ∧ q.refOf i = ref ∧ q.refs.lookup ref = some ⟨.shell, kShell⟩ ∧
      q.shells kShell = Shell.NewShell (b.encode ipfsAddress)) ∨
    OutOfNumbers env.numbering ((KNativeShell.connect (plain env b) i ipfsAddress).run p) := by
  obtain ⟨o, ho, hstands⟩ := h.object hx
  have hfield : p.refOf i = o.ref := refOf_eq ho
  rw [KNativeShell.connect, EStateM.run_bind, run_getRef]
  dsimp only
  by_cases hzero : o.ref = 0
  · rw [hfield, if_neg (not_not.mpr hzero)]
    rcases run_enterShell env (b.encode ipfsAddress) p with
      ⟨refnum, q, hrun, hentered, hshell⟩ | hout
    · have hcreate : ((plain env b).createNativeShell ipfsAddress).run p = .ok refnum q :=
        run_call_ok hrun
      refine .inl ⟨q.withRef i refnum, refnum, p.allocated, ?_, ?_, ?_, ?_, hshell⟩
      · rw [EStateM.run_bind, hcreate]
        rfl
      · exact h.connected hentered hshell hx (hfield.trans hzero)
      · exact refOf_eq (object_withRef_self (by rw [hentered.created.1, ho]))
      · show q.refs.lookup refnum = _
        rw [hentered.lookup, if_pos rfl]
    · have hcreate : OutOfNumbers env.numbering
          (((plain env b).createNativeShell ipfsAddress).run p) := hout.call
      exact .inr (hcreate.bind _)
  · rw [hfield, if_pos hzero]
    obtain ⟨kShell, hlookup, hshell⟩ := hstands.2 hzero
    exact .inl ⟨p, o.ref, kShell, rfl, h, hfield, hlookup, hshell⟩

/-- A shell makes a request. -/
theorem run_request (env : Env) (h : Simulates b p s) (hx : s.objs[i]? = some (.shell ipfsAddress))
    (command : KString) (arg : Option KString) :
    (∃ q, (KNativeShell.request (plain env b) i ipfsAddress command arg).run p = .ok () q ∧
      Simulates b q
        { s with objs := s.objs ++ [.request (some (newRequest b ipfsAddress command arg))] }) ∨
    OutOfNumbers env.numbering
      ((KNativeShell.request (plain env b) i ipfsAddress command arg).run p) := by
  rcases run_connect env h hx with ⟨p₁, ref₁, kShell, hrun, h₁, hfield, hlookup, hshell⟩ | hout
  · have hrest : (KNativeShell.request (plain env b) i ipfsAddress command arg).run p =
        ((plain env b).createRequest ref₁ command arg >>= KNativeObject.new .request).run p₁ := by
      rw [KNativeShell.request, EStateM.run_bind, hrun]
      dsimp only
      rw [EStateM.run_bind, run_getRef, hfield]
    rcases run_enterRequest env hlookup (b.encode command) (arg.map b.encode) with
      ⟨refnum, q, hcreate, hentered, hbuilder⟩ | hout
    · have hcreate' : ((plain env b).createRequest ref₁ command arg).run p₁ = .ok refnum q :=
        run_call_ok hcreate
      refine .inl ⟨q.withObject ⟨.request, refnum⟩, ?_, ?_⟩
      · rw [hrest, EStateM.run_bind, hcreate']
        rfl
      · rw [hshell] at hbuilder
        exact h₁.withRequest hentered hbuilder
    · have hcreate : OutOfNumbers env.numbering
          (((plain env b).createRequest ref₁ command arg).run p₁) := hout.call
      rw [hrest]
      exact .inr (hcreate.bind _)
  · exact .inr (hout.bind _)

/-- The program of a call on a shell, by what there is on the objects. -/
theorem matches_shell (h : Simulates b p s) {m : KString → Prog Unit} {f : KString → State}
    (hshell : ∀ ipfsAddress, s.objs[i]? = some (.shell ipfsAddress) →
      Corresponds (Simulates b) runsOut (survivor ((m ipfsAddress).run p)) (some (f ipfsAddress))) :
    Corresponds (Simulates b) runsOut
      ((match p.objects[i]? with
        | some ⟨.shell ipfsAddress, _⟩ => some (m ipfsAddress)
        | _ => none).bind fun m => survivor (m.run p))
      ((s.address i).map f) := by
  cases hx : s.objs[i]? with
  | none =>
      rw [h.no_object hx, State.address, hx]
      trivial
  | some x =>
      obtain ⟨⟨cls, ref⟩, ho, hstands⟩ := h.object hx
      cases x with
      | shell ipfsAddress =>
          obtain ⟨rfl, _⟩ := hstands
          rw [ho, State.address, hx]
          exact hshell ipfsAddress hx
      | request rb =>
          obtain rfl : cls = .request := by
            cases rb with
            | none => exact hstands.1
            | some rb => exact hstands.1
          rw [ho, State.address, hx]
          trivial

/-- The program of a call on a request, by what there is on the objects. -/
theorem matches_request (h : Simulates b p s) {m : Prog Unit} {ideal : Option State}
    (hrequest : ∀ o, p.objects[i]? = some o → o.cls = .request →
      Corresponds (Simulates b) runsOut (survivor (m.run p)) ideal)
    (hother : s.isRequest i = false → ideal = none) :
    Corresponds (Simulates b) runsOut
      ((Call.program.onRequest p i m).bind fun m => survivor (m.run p)) ideal := by
  cases hx : s.objs[i]? with
  | none =>
      rw [hother (by rw [State.isRequest, hx]), Call.program.onRequest, h.no_object hx]
      trivial
  | some x =>
      obtain ⟨⟨cls, ref⟩, ho, hstands⟩ := h.object hx
      cases x with
      | shell ipfsAddress =>
          obtain ⟨rfl, _⟩ := hstands
          rw [hother (by rw [State.isRequest, hx]), Call.program.onRequest, ho]
          trivial
      | request rb =>
          obtain rfl : cls = .request := by
            cases rb with
            | none => exact hstands.1
            | some rb => exact hstands.1
          rw [Call.program.onRequest, ho]
          exact hrequest _ ho rfl

/-- Dropping the result of a program does not matter to the process. -/
theorem survivor_discard {α : Type} (m : Prog α) (p : Process) :
    survivor ((discard m).run p) = survivor (m.run p) := by
  rw [run_discard]
  cases m.run p with
  | ok a q => rfl
  | error a q => cases a <;> rfl

theorem builder_of_not_isRequest (h : s.isRequest i = false) : s.builder i = none := by
  unfold State.builder
  split
  · rename_i rb hx
    rw [State.isRequest, hx] at h
    cases h
  · rfl

/-- A method of a request that sends. -/
theorem matches_send (h : Simulates b p s) {m : Int → Prog Bytes} {label : String}
    {sending : Sending}
    (hm : ∀ ref, m ref = Plain.sending b label (sending.method env.out) ref) :
    Corresponds (Simulates b) runsOut
      ((Call.program.onRequest p i (discard (KNativeObject.getRef i >>= m))).bind
        fun m => survivor (m.run p))
      (issue b env.out s i sending) := by
  refine matches_request h (fun o ho hcls => ?_) fun hnot => ?_
  · rw [survivor_discard, EStateM.run_bind, run_getRef]
    dsimp only
    rw [refOf_eq ho, hm]
    exact matches_sending h ho hcls label sending
  · rw [issue, builder_of_not_isRequest hnot]

/-- Setting an option, on an open request and on a closed one. -/
theorem run_option_cases (env : Env) {o : KNativeObject} (h : Simulates b p s)
    (ho : p.objects[i]? = some o) (hcls : o.cls = .request) (name value : KString) :
    (s.objs[i]? = some (.request none) ∧
      (KNativeRequest.option (plain env b) i name value).run p =
        .error (.panic (.unknownRefNum 0)) p) ∨
    ∃ rb q, s.objs[i]? = some (.request (some rb)) ∧
      (KNativeRequest.option (plain env b) i name value).run p = .ok () q ∧
      Simulates b q { s with
        objs :=
          s.objs.set i (.request (some (rb.withOption (b.encode name) (b.encode value)))) } := by
  have hmethod : (KNativeRequest.option (plain env b) i name value).run p =
      (Plain.requestOption b o.ref name value).run p := by
    rw [KNativeRequest.option, EStateM.run_bind, run_getRef, refOf_eq ho]
    rfl
  rw [hmethod, Plain.requestOption]
  rcases h.open_or_closed ho hcls with ⟨rb, ptr, hx, hlookup, hbuilder⟩ | ⟨hx, habsent⟩
  · have hsimulates := h.withConn ho hx hlookup
      ⟨(p.builders ptr).withOption (b.encode name) (b.encode value), p.net⟩
    dsimp only at hsimulates
    rw [h.issued, h.closed] at hsimulates
    refine .inr ⟨p.builders ptr, p.withConn ptr
      ⟨(p.builders ptr).withOption (b.encode name) (b.encode value), p.net⟩, ?_, ?_, hsimulates⟩
    · rw [hx, hbuilder]
    · exact run_call_ok ((run_borrowBuilder hlookup _).trans (run_onBuilder_ok rfl))
  · refine .inl ⟨hx, run_call_panic ?_⟩
    have hzero : o.ref = 0 := (h.stands i o _ ho hx).2
    rw [EStateM.run_bind, run_borrow_absent habsent, hzero]

theorem matches_option (h : Simulates b p s) (name value : KString) :
    Corresponds (Simulates b) runsOut
      ((Call.program.onRequest p i (KNativeRequest.option (plain env b) i name value)).bind
        fun m => survivor (m.run p))
      ((s.builder i).map fun rb =>
        { s with
          objs := s.objs.set i
            (.request (some (rb.withOption (b.encode name) (b.encode value)))) }) := by
  refine matches_request h (fun o ho hcls => ?_) fun hnot => ?_
  · rcases run_option_cases env h ho hcls name value with ⟨hx, hpanic⟩ | ⟨rb, q, hx, hrun, hq⟩
    · rw [survivor_panic hpanic, State.builder, hx]
      trivial
    · rw [hrun, State.builder, hx]
      exact hq
  · rw [builder_of_not_isRequest hnot]
    rfl

/-- Posting a string on the JVM throws, whatever the request is. -/
theorem matches_postString_jni (h : Simulates .jni p s) (data : KString) :
    Corresponds (Simulates .jni) runsOut
      ((Call.program.onRequest p i (discard (KNativeObject.getRef i >>= fun ref =>
        (plain env .jni).postString ref data))).bind fun m => survivor (m.run p))
      (if s.isRequest i then some s else none) := by
  refine matches_request h (fun o ho hcls => ?_) fun hnot => by rw [hnot]; rfl
  have hrequest : s.isRequest i = true := by
    rcases h.open_or_closed ho hcls with ⟨rb, ptr, hx, _⟩ | ⟨hx, _⟩ <;> rw [State.isRequest, hx]
  rw [survivor_discard, EStateM.run_bind, run_getRef, hrequest]
  exact h

/-- Closing an object returns. -/
theorem run_close (env : Env) (h : Simulates b p s) {x : Obj} (hx : s.objs[i]? = some x) :
    ∃ q, (KNativeObject.close (plain env b) i).run p = .ok () q ∧
      Simulates b q { s with objs := s.objs.modify i Obj.close } := by
  obtain ⟨o, ho, _⟩ := h.object hx
  have hfield : p.refOf i = o.ref := refOf_eq ho
  rw [KNativeObject.close, EStateM.run_bind, run_getRef]
  dsimp only
  by_cases hzero : o.ref = 0
  · rw [hfield, if_neg (not_not.mpr hzero), h.closed_already ho hzero]
    exact ⟨p, rfl, h⟩
  · -- the owner is counted, so there is something to delete
    have howner : 0 < owners p o.ref := exists_owner_iff.mp ⟨o, List.mem_of_getElem? ho, rfl⟩
    have hcount : 0 < p.refs.count o.ref := by
      rcases h.counted o.ref hzero with ⟨_, howners⟩ | ⟨hcount, _⟩ <;> omega
    obtain ⟨obj, hlookup⟩ := RefTable.count_pos_iff.mp hcount
    obtain ⟨refs, hdelete⟩ := RefTable.delete_of_lookup hlookup
    have hdispose : ((plain env b).disposeGoObject o.ref).run p = .ok () { p with refs } := by
      simp [EStateM.run, plain, KDecRef, Seq.Delete, hdelete]
    rw [hfield, if_pos hzero, EStateM.run_bind, run_getRef, hfield]
    dsimp only
    rw [EStateM.run_bind, hdispose]
    exact ⟨_, rfl, h.closing ho hzero hdelete⟩

theorem matches_close (h : Simulates b p s) :
    Corresponds (Simulates b) runsOut
      ((p.objects[i]?.map fun _ => KNativeObject.close (plain env b) i).bind
        fun m => survivor (m.run p))
      (s.objs[i]?.map fun _ => { s with objs := s.objs.modify i Obj.close }) := by
  cases hx : s.objs[i]? with
  | none =>
      rw [h.no_object hx]
      trivial
  | some x =>
      obtain ⟨o, ho, _⟩ := h.object hx
      obtain ⟨q, hrun, hq⟩ := run_close env h hx
      rw [ho]
      show Corresponds _ runsOut (survivor ((KNativeObject.close (plain env b) i).run p)) (some _)
      rw [hrun]
      exact hq

/-- **Every call does on the process what it does on the objects**: the process survives it exactly
when it is possible on the objects, and stands for them after it, unless there is no next number. -/
theorem step_simulates (env : Env) (h : Simulates b p s) (call : Call) :
    Corresponds (Simulates b) (RunsOut env.numbering (plain env b) p call)
      (Kipfs.step (plain env b) p call) (step b env.out s call) := by
  cases call with
  | createShell ipfsAddress => exact h.withShell ipfsAddress
  | connect i =>
      refine matches_shell (i := i) h (f := fun _ => s) fun ipfsAddress hx => ?_
      rcases run_connect env h hx with ⟨q, _, _, hrun, hq, _⟩ | hout
      · rw [hrun]
        exact hq
      · rw [survivor_out hout]
        obtain ⟨⟨cls, ref⟩, ho, rfl, _⟩ := h.object hx
        exact ⟨_, by simp only [Call.program, ho], hout⟩
  | request i command arg =>
      refine matches_shell (i := i) h fun ipfsAddress hx => ?_
      rcases run_request env h hx command arg with ⟨q, hrun, hq⟩ | hout
      · rw [hrun]
        exact hq
      · rw [survivor_out hout]
        obtain ⟨⟨cls, ref⟩, ho, rfl, _⟩ := h.object hx
        exact ⟨_, by simp only [Call.program, ho], hout⟩
  | close i => exact matches_close h
  | finalize i => exact matches_close h
  | option i name value => exact matches_option h name value
  | send i => exact matches_send h fun _ => rfl
  | postString i data fileName =>
      cases b with
      | native => exact matches_send h fun _ => rfl
      | jni => exact matches_postString_jni h data
  | postData i data => exact matches_send h fun _ => rfl

end Calls

/-! ## The bindings -/

/-- A panic of the interface without marshalling is a panic of the binding. -/
theorem runsOut_over (b : Binding) {num : Numbering} {call : Call}
    (h : RunsOut num (plain env b) p call) : RunsOut num (b.over (libkipfs env)) p call := by
  obtain ⟨m', hprogram', hout⟩ := h
  have hboth := marshalled_program (marshals env b) (plain_memoryless env b) p call
  cases hprogram : call.program (b.over (libkipfs env)) p with
  | none =>
      rw [hprogram, hprogram'] at hboth
      cases hboth
  | some m =>
      rw [hprogram, hprogram'] at hboth
      obtain ⟨t, hrun⟩ := hboth.implements p
      refine ⟨m, hprogram, ?_⟩
      rw [hrun]
      exact hout.overwrite t

/-- The relation does not look at the memory. -/
theorem Simulates.put_memory (h : Simulates b p s) (t : Ledger Block) :
    Simulates b (memory.put t p) s :=
  { length := h.length, stands := h.stands, issued := h.issued, closed := h.closed,
    counted := h.counted, placed := h.placed, separate := h.separate }

/-- Every call does through either binding what it does on the objects. -/
theorem step_over (env : Env) (b : Binding) (p : Process) (s : State) (call : Call)
    (h : Simulates b p s) :
    Corresponds (Simulates b) (RunsOut env.numbering (b.over (libkipfs env)) p call)
      (Kipfs.step (b.over (libkipfs env)) p call) (step b env.out s call) := by
  obtain ⟨t, hstep⟩ := step_marshals (marshals env b) (plain_memoryless env b) p call p.memory
  have hplain := step_simulates env h call
  have hstep : Kipfs.step (b.over (libkipfs env)) p call = _ := hstep
  rw [hstep]
  cases hmove : Kipfs.step (plain env b) p call with
  | none =>
      rw [hmove] at hplain
      cases hideal : step b env.out s call with
      | none => trivial
      | some s' =>
          rw [hideal] at hplain
          exact runsOut_over b hplain
  | some q =>
      rw [hmove] at hplain
      obtain ⟨s', hideal, hq⟩ := hplain.of_some
      rw [hideal]
      exact hq.put_memory t

/-- A run through either binding goes together with the run on the objects. -/
theorem run_over (env : Env) (b : Binding) (h : Simulates b p s) (calls : List Call) :
    Corresponds (Simulates b)
      (Excused (Kipfs.step (b.over (libkipfs env)))
        (RunsOut env.numbering (b.over (libkipfs env))) p calls)
      (run (Kipfs.step (b.over (libkipfs env))) p calls) (run (step b env.out) s calls) :=
  run_corresponds (step_over env b) calls h

/-- **Through either binding, the Kotlin objects are what they are for.** A run of calls from an
empty table is survived exactly when it is possible on objects without references, and then leaves
them in the same state with the same requests issued and the same responses closed; unless it gets
to a call for which the numbering has no number left. -/
theorem refines_ideal (env : Env) (b : Binding) (hinitial : Initial p) (calls : List Call) :
    Corresponds (Simulates b)
      (Excused (Kipfs.step (b.over (libkipfs env)))
        (RunsOut env.numbering (b.over (libkipfs env))) p calls)
      (run (Kipfs.step (b.over (libkipfs env))) p calls) (run (step b env.out) (start p) calls) :=
  run_over env b (simulates_start b hinitial) calls

/-- A shell, a request with an option, and the request closed, on the JVM. -/
theorem refines_ideal_closed :
    ∃ q s, run (Kipfs.step (Binding.jni.over (libkipfs standalone))) Process.start
        [.createShell [104], .request 0 [112] none, .option 1 [97] [98], .close 1] = some q ∧
      run (step .jni standalone.out) (start Process.start)
        [.createShell [104], .request 0 [112] none, .option 1 [97] [98], .close 1] = some s ∧
      Simulates .jni q s := by
  obtain ⟨q, hq⟩ : ∃ q, run (Kipfs.step (Binding.jni.over (libkipfs standalone))) Process.start
      [.createShell [104], .request 0 [112] none, .option 1 [97] [98], .close 1] = some q :=
        ⟨_, rfl⟩
  have hcorresponds := refines_ideal standalone .jni initial_start
    [.createShell [104], .request 0 [112] none, .option 1 [97] [98], .close 1]
  rw [hq] at hcorresponds
  obtain ⟨s, hs, hsimulates⟩ := hcorresponds.of_some
  exact ⟨q, s, hq, hs, hsimulates⟩

end Ideal

end Kipfs
