import Kipfs.Foundation.Owners
import Kipfs.Kotlin.Overlap

/-!
# Calls do not get in each other's way

However methods, calls and finalizers are interleaved, a reference is in the field of one object at
most, and two references never stand for one Go object (`separate_next`). So a call on a request
ends with the builder that the request was made for, which is then still in the table and which no
other request has (`own_builder`); and when nothing runs, every reference is counted twice while an
object has it and once after (`counts_at_rest`).
-/

namespace Kipfs.Overlap

open Foundation Holdings

/-! ## Owners and reservations -/

/-- A creation that has entered its object owns the reference. -/
def Enter.owner : Enter → Int → Nat
  | .inc refnum, q => one refnum q
  | _, _ => 0

/-- A creation that is about to enter its object has reserved the address. -/
def Enter.reserved : Enter → Nat → Nat
  | .toRefNum obj, n => if n = obj.ptr then 1 else 0
  | _, _ => 0

/-- A field owns the reference in it. -/
def fieldOwner (ref q : Int) : Nat := if ref ≠ 0 then one ref q else 0

/-- A method of a shell owns what it has created and not yet stored. -/
def ShellPoint.owner : ShellPoint → Int → Nat
  | creating e _, q => Enter.owner e q
  | assigning refnum _, q => one refnum q
  | entering e, q => Enter.owner e q
  | constructing refnum, q => one refnum q
  | _, _ => 0

/-- A method of a shell has reserved the address of what it is about to enter. -/
def ShellPoint.reserved : ShellPoint → Nat → Nat
  | creating e _, n => Enter.reserved e n
  | entering e, n => Enter.reserved e n
  | _, _ => 0

/-- The references that a shell owns, with its method. -/
def ShellState.owner (s : ShellState) (q : Int) : Nat :=
  fieldOwner s.ref q + (s.point.map fun point => point.owner q).getD 0

/-- The addresses that a shell has reserved, with its method. -/
def ShellState.reserved (s : ShellState) (n : Nat) : Nat :=
  (s.point.map fun point => point.reserved n).getD 0

/-- The reference that a request owns. -/
def RequestState.owner (r : RequestState) (q : Int) : Nat := fieldOwner r.ref q

/-- The table with the owners of references and the reserved addresses. -/
def World.holdings (w : World) : Holdings Iface where
  table := w.refs
  limit := w.allocated
  owners q := (w.shells.map (·.owner q)).sum + (w.requests.map (·.owner q)).sum
  reserved n := (w.shells.map (·.reserved n)).sum

/-! ## Steps -/

section Steps

variable {t t' : RefTable Iface} {num : Numbering} {type : GoType} {ref ref' : Int}

theorem within_Inc {refnum : Int} {u : Unit} (h : (Refs.Inc refnum).run t = .ok u t') :
    Within t' t := by
  simp only [EStateM.run, Refs.Inc] at h
  split at h
  · cases h
    exact within_inc ‹_›
  · cases h

theorem within_Delete {refnum : Int} {u : Unit} (h : (Refs.Delete refnum).run t = .ok u t') :
    Within t' t := by
  simp only [EStateM.run, Refs.Delete] at h
  split at h
  · cases h
    exact within_delete ‹_›
  · cases h

theorem within_Lookup {refnum : Int} {obj : Iface} (h : (Refs.Lookup refnum).run t = .ok obj t') :
    Within t' t := by
  simp only [EStateM.run, Refs.Lookup] at h
  split at h
  · cases h
    exact Within.refl t
  · cases h

/-- A borrowing enters nothing. -/
theorem borrow_within {b : Borrow} {next : Borrow ⊕ Nat} (h : (b.step type).run t = .ok next t') :
    Within t' t := by
  cases b with
  | inc refnum =>
      obtain ⟨_, _, hinc, hrest⟩ := bind_eq_ok.mp h
      cases hrest
      exact within_Inc hinc
  | lookup refnum =>
      obtain ⟨_, _, hlookup, hrest⟩ := bind_eq_ok.mp h
      cases hrest
      exact within_Lookup hlookup
  | delete refnum obj =>
      obtain ⟨_, _, hdelete, hrest⟩ := bind_eq_ok.mp h
      cases hrest
      exact within_Delete hdelete
  | assert obj =>
      rw [Borrow.step] at h
      split at h <;> cases h
      exact Within.refl t

/-- A closing enters nothing, and empties the field or leaves it. -/
theorem close_within {c : Close} {next : Option Close}
    (h : (c.step ref).run t = .ok (ref', next) t') : Within t' t ∧ (ref' = ref ∨ ref' = 0) := by
  cases c with
  | log =>
      cases h
      exact ⟨Within.refl t, .inl rfl⟩
  | test =>
      rw [Close.step] at h
      split at h <;> cases h <;> exact ⟨Within.refl t, .inl rfl⟩
  | read =>
      cases h
      exact ⟨Within.refl t, .inl rfl⟩
  | dispose refnum =>
      obtain ⟨_, _, hdelete, hrest⟩ := bind_eq_ok.mp h
      cases hrest
      exact ⟨within_Delete hdelete, .inl rfl⟩
  | reset =>
      cases h
      exact ⟨Within.refl t, .inr rfl⟩

/-- A creation enters its object under a fresh reference, or retains it. -/
theorem enter_cases {e : Enter} {next : Enter ⊕ Int} (h : (e.step num).run t = .ok next t') :
    (∃ obj refnum, e = .toRefNum obj ∧ next = .inl (.inc refnum) ∧
      RefTable.toRefNum num obj t = some (refnum, t')) ∨
    ∃ refnum, e = .inc refnum ∧ next = .inr refnum ∧ Within t' t := by
  cases e with
  | toRefNum obj =>
      obtain ⟨refnum, _, hnew, hrest⟩ := bind_eq_ok.mp h
      cases hrest
      rw [Refs.run_ToRefNum] at hnew
      split at hnew
      · cases hnew
        exact .inl ⟨obj, refnum, rfl, rfl, ‹_›⟩
      · cases hnew
  | inc refnum =>
      obtain ⟨_, _, hinc, hrest⟩ := bind_eq_ok.mp h
      cases hrest
      exact .inr ⟨refnum, rfl, rfl, within_Inc hinc⟩

theorem fieldOwner_le (ref q : Int) : fieldOwner ref q ≤ one ref q := by
  unfold fieldOwner
  split
  · exact le_rfl
  · exact Nat.zero_le _

theorem fieldOwner_closed (h : ref' = ref ∨ ref' = 0) (q : Int) :
    fieldOwner ref' q ≤ fieldOwner ref q := by
  rcases h with rfl | rfl
  · exact le_rfl
  · exact Nat.zero_le _

/-- After `connect`, a shell owns what is in its field and has reserved nothing. -/
theorem holdings_after (ref : Int) (after : After) (dropped finalized : Bool) :
    (∀ q, (ShellState.mk ref after.point dropped finalized).owner q = fieldOwner ref q) ∧
      ∀ n, (ShellState.mk ref after.point dropped finalized).reserved n = 0 := by
  cases after <;> exact ⟨fun _ => rfl, fun _ => rfl⟩

/-- What a step of a shell comes to in the holdings, whatever the others hold. -/
theorem shell_moves {s : ShellState} {point : ShellPoint} {ptr : Nat} {next : Option ShellPoint}
    {made : Option Int} (hpoint : s.point = some point)
    (hrun : (point.step num ptr s.ref).run t = .ok (ref', next, made) t') (rest : Int → Nat)
    (rest' : Nat → Nat) :
    Moves Iface.ptr
      ⟨t, ptr, fun q => rest q + s.owner q, fun n => rest' n + s.reserved n⟩
      ⟨t', ptr + 1, fun q => rest q + ({ s with ref := ref', point := next } : ShellState).owner q +
        (made.map (fieldOwner · q)).getD 0,
        fun n => rest' n + ({ s with ref := ref', point := next } : ShellState).reserved n⟩ := by
  obtain ⟨ref, _, dropped, finalized⟩ := s
  cases hpoint
  cases point with
  | connecting after =>
      rw [ShellPoint.step] at hrun
      split at hrun
      · cases hrun
        obtain ⟨howner, hreserved⟩ := holdings_after ref after dropped finalized
        refine .stays (Within.refl t) (Nat.le_succ _) (fun q => ?_) fun n => ?_
        · show rest q + ShellState.owner _ q + 0 ≤ rest q + (fieldOwner ref q + 0)
          rw [howner]
          omega
        · show rest' n + ShellState.reserved _ n ≤ _
          rw [hreserved]
          exact Nat.le_add_right _ _
      · -- the shell about to be made is at the limit
        cases hrun
        refine .reserves (Within.refl t) rfl (fun q => ?_) fun n => ?_
        · simp [ShellState.owner, ShellPoint.owner, Enter.owner]
        · simp [ShellState.reserved, ShellPoint.reserved, Enter.reserved]
  | creating e after =>
      obtain ⟨got, _, hstep, hrest⟩ := bind_eq_ok.mp hrun
      rcases enter_cases hstep with ⟨obj, refnum, rfl, rfl, hnew⟩ | ⟨refnum, rfl, rfl, hwithin⟩ <;>
        cases hrest
      · refine .enters num obj refnum hnew (Nat.le_succ _) (fun q => ?_) fun n => ?_
        · simp [ShellState.owner, ShellPoint.owner, Enter.owner, one]
          omega
        · simp [ShellState.reserved, ShellPoint.reserved, Enter.reserved]
      · refine .stays hwithin (Nat.le_succ _) (fun q => ?_) fun n => ?_
        · simp [ShellState.owner, ShellPoint.owner, Enter.owner]
        · simp [ShellState.reserved, ShellPoint.reserved]
  | assigning refnum after =>
      cases hrun
      obtain ⟨howner, hreserved⟩ := holdings_after ref' after dropped finalized
      refine .stays (Within.refl t) (Nat.le_succ _) (fun q => ?_) fun n => ?_
      · have := fieldOwner_le ref' q
        show rest q + ShellState.owner _ q + 0 ≤ rest q + (fieldOwner ref q + one ref' q)
        rw [howner]
        omega
      · show rest' n + ShellState.reserved _ n ≤ _
        rw [hreserved]
        exact Nat.le_add_right _ _
  | requesting =>
      cases hrun
      exact .stays (Within.refl t) (Nat.le_succ _) (fun q => le_rfl) fun n => le_rfl
  | borrowing b =>
      obtain ⟨got, _, hstep, hrest⟩ := bind_eq_ok.mp hrun
      have hwithin := borrow_within hstep
      cases got with
      | inl b' =>
          cases hrest
          exact .stays hwithin (Nat.le_succ _) (fun q => le_rfl) fun n => le_rfl
      | inr kShell =>
          -- the builder about to be made is at the limit
          cases hrest
          refine .reserves hwithin rfl (fun q => le_rfl) fun n => ?_
          simp [ShellState.reserved, ShellPoint.reserved, Enter.reserved]
  | entering e =>
      obtain ⟨got, _, hstep, hrest⟩ := bind_eq_ok.mp hrun
      rcases enter_cases hstep with ⟨obj, refnum, rfl, rfl, hnew⟩ | ⟨refnum, rfl, rfl, hwithin⟩ <;>
        cases hrest
      · refine .enters num obj refnum hnew (Nat.le_succ _) (fun q => ?_) fun n => ?_
        · simp [ShellState.owner, ShellPoint.owner, Enter.owner, one]
          omega
        · simp [ShellState.reserved, ShellPoint.reserved, Enter.reserved]
      · refine .stays hwithin (Nat.le_succ _) (fun q => ?_) fun n => ?_
        · simp [ShellState.owner, ShellPoint.owner, Enter.owner]
        · simp [ShellState.reserved, ShellPoint.reserved]
  | constructing refnum =>
      cases hrun
      refine .stays (Within.refl t) (Nat.le_succ _) (fun q => ?_) fun n => ?_
      · have := fieldOwner_le refnum q
        simp [ShellState.owner, ShellPoint.owner]
        omega
      · simp [ShellState.reserved, ShellPoint.reserved]
  | closing c =>
      obtain ⟨⟨ref', c'⟩, _, hstep, hrest⟩ := bind_eq_ok.mp hrun
      obtain ⟨hwithin, href⟩ := close_within hstep
      cases hrest
      refine .stays hwithin (Nat.le_succ _) (fun q => ?_) fun n => ?_
      · have := fieldOwner_closed href q
        cases c' <;> simpa [ShellState.owner, ShellPoint.owner] using this
      · cases c' <;> simp [ShellState.reserved, ShellPoint.reserved]

end Steps

/-! ## Moves -/

section Moves

variable {num : Numbering} {w w' : World}

/-- The world that a move comes to, if it comes to one. -/
def Yields (P : World → Prop) : Option (Except GoPanic World) → Prop
  | some (.ok w) => P w
  | _ => True

theorem yields_bind {α : Type} {P : World → Prop} {o : Option α}
    {f : α → Option (Except GoPanic World)} (h : ∀ a, o = some a → Yields P (f a)) :
    Yields P (o >>= f) := by
  cases o with
  | none => trivial
  | some a => exact h a rfl

theorem yields_if {P : World → Prop} {c : Prop} [Decidable c] {x : Option (Except GoPanic World)}
    (h : c → Yields P x) : Yields P (if c then x else none) := by
  split
  · exact h ‹c›
  · trivial

theorem yields_commit {α : Type} {P : World → Prop} {next : α → RefTable Iface → World}
    {result : EStateM.Result GoPanic (RefTable Iface) α}
    (h : ∀ a refs, result = .ok a refs → P (next a refs)) :
    Yields P (some (commit next result)) := by
  cases result with
  | ok a refs => exact h a refs rfl
  | error e refs => trivial

/-- What holds of the world that a move comes to holds of the next world. -/
theorem Yields.next {P : World → Prop} {m : Move} (h : Yields P (w.move num m))
    (hmove : w.next num m = some w') : P w' := by
  obtain ⟨outcome, houtcome, hok⟩ := Option.bind_eq_some_iff.mp hmove
  rw [houtcome] at h
  cases outcome with
  | error e => cases hok
  | ok w => cases hok; exact h

theorem Yields.mono {P Q : World → Prop} {o : Option (Except GoPanic World)} (h : Yields P o)
    (hPQ : ∀ w, P w → Q w) : Yields Q o := by
  cases o with
  | none => trivial
  | some outcome =>
      cases outcome with
      | error e => trivial
      | ok w => exact hPQ w h

/-- A shell that changes without a step on the table. -/
theorem moves_shell {i : Nat} {s s' : ShellState} (hs : w.shells[i]? = some s)
    (howner : ∀ q, s'.owner q = s.owner q) (hreserved : ∀ n, s'.reserved n = s.reserved n) :
    Moves Iface.ptr w.holdings ({ w with shells := w.shells.set i s' } : World).holdings := by
  obtain ⟨rest, hsum, hset⟩ := sum_map_set ShellState.owner hs
  obtain ⟨rest', hsum', hset'⟩ := sum_map_set ShellState.reserved hs
  refine .stays (Within.refl _) le_rfl (fun q => ?_) fun n => ?_
  · simp only [World.holdings, hsum, hset, howner, le_refl]
  · simp only [World.holdings, hsum', hset', hreserved, le_refl]

/-- A request whose field stays or is emptied. -/
theorem moves_request {t : RefTable Iface} {j : Nat} {r r' : RequestState}
    (hr : w.requests[j]? = some r) (hwithin : Within t w.refs)
    (href : r'.ref = r.ref ∨ r'.ref = 0) :
    Moves Iface.ptr w.holdings
      ({ w with refs := t, requests := w.requests.set j r' } : World).holdings := by
  obtain ⟨rest, hsum, hset⟩ := sum_map_set RequestState.owner hr
  refine .stays hwithin le_rfl (fun q => ?_) fun n => le_rfl
  have hle : r'.owner q ≤ r.owner q := fieldOwner_closed href q
  simp only [World.holdings, hsum, hset]
  omega

/-- A step of a shell, and the request that it has constructed. -/
theorem moves_advance {i : Nat} {s : ShellState} {point : ShellPoint} {ref : Int}
    {next : Option ShellPoint} {made : Option Int} {t : RefTable Iface} (hs : w.shells[i]? = some s)
    (hpoint : s.point = some point)
    (hrun : (point.step num w.allocated s.ref).run w.refs = .ok (ref, next, made) t) :
    Moves Iface.ptr w.holdings
      ({ w with
          refs := t
          allocated := w.allocated + 1
          shells := w.shells.set i { s with ref, point := next }
          requests := w.requests ++ made.toList.map fun ref => ⟨i, ref, false, .pending⟩ } :
        World).holdings := by
  obtain ⟨rest, hsum, hset⟩ := sum_map_set ShellState.owner hs
  obtain ⟨rest', hsum', hset'⟩ := sum_map_set ShellState.reserved hs
  have hmoves := shell_moves hpoint hrun
    (fun q => rest q + (w.requests.map (·.owner q)).sum) rest'
  have hbefore : w.holdings = ⟨w.refs, w.allocated,
      fun q => rest q + (w.requests.map (·.owner q)).sum + s.owner q,
      fun n => rest' n + s.reserved n⟩ := by
    simp only [World.holdings, hsum, hsum', Nat.add_right_comm]
  have hafter : ∀ q, (((w.requests ++ made.toList.map fun ref =>
      (⟨i, ref, false, .pending⟩ : RequestState)).map (·.owner q)).sum) =
        (w.requests.map (·.owner q)).sum + (made.map (fieldOwner · q)).getD 0 := by
    intro q
    cases made <;> simp [RequestState.owner]
  rw [hbefore]
  simp only [World.holdings, hset, hset', hafter]
  convert hmoves using 3
  omega

/-- What a move comes to in the holdings. -/
theorem moves_move (num : Numbering) (w : World) (m : Move) :
    Yields (fun w' => Moves Iface.ptr w.holdings w'.holdings) (w.move num m) := by
  cases m with
  | newShell =>
      refine .stays (Within.refl _) le_rfl (fun q => ?_) fun n => ?_
      · simp [World.holdings, ShellState.owner, fieldOwner]
      · simp [World.holdings, ShellState.reserved]
  | start i method =>
      refine yields_bind fun s hs => yields_if fun ⟨hidle, _⟩ =>
        moves_shell hs (fun q => ?_) fun n => ?_
      · cases method <;> simp [ShellState.owner, hidle, Method.point, ShellPoint.owner]
      · cases method <;> simp [ShellState.reserved, hidle, Method.point, ShellPoint.reserved]
  | advance i =>
      exact yields_bind fun s hs => yields_bind fun point hpoint =>
        yields_commit fun _ _ hrun => moves_advance hs hpoint hrun
  | dropShell i => exact yields_bind fun s hs => moves_shell hs (fun _ => rfl) fun _ => rfl
  | finalizeShell i =>
      refine yields_bind fun s hs => yields_if fun hguard =>
        moves_shell hs (fun q => ?_) fun n => ?_
      · simp [ShellState.owner, hguard.1, ShellPoint.owner]
      · simp [ShellState.reserved, hguard.1, ShellPoint.reserved]
  | use j =>
      exact yields_bind fun r hr => yields_if fun _ =>
        .stays (Within.refl _) le_rfl (fun _ => le_rfl) fun _ => le_rfl
  | advanceCall k =>
      refine yields_bind fun c hc => ?_
      cases c with
      | reading j =>
          exact yields_bind fun r hr =>
            .stays (Within.refl _) le_rfl (fun _ => le_rfl) fun _ => le_rfl
      | borrowing b =>
          exact yields_commit fun next refs hrun =>
            .stays (borrow_within hrun) le_rfl (fun _ => le_rfl) fun _ => le_rfl
      | working ptr => trivial
  | dropRequest j =>
      exact yields_bind fun r hr => moves_request hr (Within.refl _) (.inl rfl)
  | finalizeRequest j =>
      exact yields_bind fun r hr => yields_if fun _ =>
        moves_request hr (Within.refl _) (.inl rfl)
  | advanceFinalizer j =>
      refine yields_bind fun r hr => ?_
      cases r.finalizer with
      | pending => trivial
      | running c =>
          refine yields_commit fun _ _ hrun => ?_
          obtain ⟨hwithin, href⟩ := close_within hrun
          exact moves_request hr hwithin href
      | finished => trivial

/-- Every move keeps the holdings separate. -/
theorem separate_next {m : Move} (h : w.holdings.Separate Iface.ptr)
    (hmove : w.next num m = some w') : w'.holdings.Separate Iface.ptr :=
  h.moves ((moves_move num w m).next hmove)

/-- What an object of the table is referred to by goes on referring to it. -/
theorem extends_move (num : Numbering) (h : Inv w) (m : Move) :
    Yields (fun w' => Extends w.refs w'.refs) (w.move num m) := by
  cases m with
  | newShell => exact Extends.refl _
  | start i method => exact yields_bind fun s hs => yields_if fun _ => Extends.refl _
  | advance i =>
      refine yields_bind fun s hs => yields_bind fun point hpoint =>
        yields_commit fun _ _ hrun => ?_
      obtain ⟨rest, hrest, -⟩ := credit_shell hs
      have hbacked : Backed w.refs fun q =>
          rest q + (w.requests.map (·.credit q)).sum + s.credit q :=
        h.backed.congr fun q => by rw [hrest, Nat.add_right_comm]
      rcases shell_step num hbacked (h.shells s (List.mem_of_getElem? hs)) hpoint with
        ⟨ref, next, made, t, hsteps, hstepped⟩ | ⟨⟨t, hsteps⟩, -⟩
      · cases hsteps.symm.trans hrun
        exact hstepped.ext
      · cases hsteps.symm.trans hrun
  | dropShell i => exact yields_bind fun s hs => Extends.refl _
  | finalizeShell i => exact yields_bind fun s hs => yields_if fun _ => Extends.refl _
  | use j => exact yields_bind fun r hr => yields_if fun _ => Extends.refl _
  | advanceCall k =>
      refine yields_bind fun c hc => ?_
      cases c with
      | reading j => exact yields_bind fun r hr => Extends.refl _
      | borrowing b =>
          refine yields_commit fun next refs hrun => ?_
          obtain ⟨rest, hrest, -⟩ := credit_call hc
          obtain ⟨_, _, hstep, hext, _⟩ := borrow_step (h.backed.congr fun q => (hrest q).symm)
            (h.calls _ (List.mem_of_getElem? hc))
          cases hstep.symm.trans hrun
          exact hext
      | working ptr => trivial
  | dropRequest j => exact yields_bind fun r hr => Extends.refl _
  | finalizeRequest j => exact yields_bind fun r hr => yields_if fun _ => Extends.refl _
  | advanceFinalizer j =>
      refine yields_bind fun r hr => ?_
      cases hrunning : r.finalizer with
      | pending => trivial
      | running c =>
          refine yields_commit fun _ _ hrun => ?_
          obtain ⟨rest, hrest, -⟩ := credit_request hr
          have hclosing : Backed w.refs fun q => rest q + fieldCredit r.ref (c = .reset) q := by
            refine h.backed.congr fun q => ?_
            rw [hrest, RequestState.credit, hrunning]
            cases c <;> rfl
          obtain ⟨_, _, _, hstep, hext, _⟩ :=
            close_step hclosing ((h.requests r (List.mem_of_getElem? hr)).running c hrunning)
          cases hstep.symm.trans hrun
          exact hext
      | finished => trivial

/-- A move leaves every reference standing for its object. -/
theorem extends_next {m : Move} (h : Inv w) (hmove : w.next num m = some w') :
    Extends w.refs w'.refs := (extends_move num h m).next hmove

end Moves

/-! ## A call and its builder -/

/-- A borrowing through the reference, of the builder at the pointer. -/
def Borrow.Tracks (ref : Int) (ptr : Nat) : Borrow → Prop
  | .inc refnum => refnum = ref
  | .lookup refnum => refnum = ref
  | .delete _ obj => obj = ⟨.requestBuilder, ptr⟩
  | .assert obj => obj = ⟨.requestBuilder, ptr⟩

/-- A call on a request, which has the reference and the builder at the pointer. -/
def CallPoint.Tracks (j : Nat) (ref : Int) (ptr : Nat) : CallPoint → Prop
  | reading i => i = j
  | borrowing b => Borrow.Tracks ref ptr b
  | working ptr' => ptr' = ptr

/-- A call works for a request: the reference of the request stands for the builder, and has no
other owner. -/
structure Serves (w : World) (k j : Nat) (ref : Int) (ptr : Nat) : Prop where
  builder : w.refs.lookup ref = some ⟨.requestBuilder, ptr⟩
  call : ∃ c, w.calls[k]? = some c ∧ c.Tracks j ref ptr
  request : ∃ r, w.requests[j]? = some r ∧ (r.ref = ref ∨ r.ref = 0) ∧
    w.holdings.owners ref ≤ r.owner ref

section Calls

variable {num : Numbering} {w w' : World} {j k ptr : Nat} {ref : Int}

/-- A borrowing goes on to the builder behind its reference. -/
theorem tracks_step {t t' : RefTable Iface} {b : Borrow} {next : Borrow ⊕ Nat}
    (hbuilder : t.lookup ref = some ⟨.requestBuilder, ptr⟩) (h : Borrow.Tracks ref ptr b)
    (hrun : (b.step .requestBuilder).run t = .ok next t') :
    CallPoint.Tracks j ref ptr (next.elim .borrowing .working) := by
  cases b with
  | inc refnum =>
      obtain ⟨_, _, _, hrest⟩ := bind_eq_ok.mp hrun
      cases hrest
      exact h
  | lookup refnum =>
      obtain ⟨obj, _, hlookup, hrest⟩ := bind_eq_ok.mp hrun
      cases hrest
      obtain rfl : refnum = ref := h
      rw [Refs.run_Lookup hbuilder] at hlookup
      cases hlookup
      exact rfl
  | delete refnum obj =>
      obtain ⟨_, _, _, hrest⟩ := bind_eq_ok.mp hrun
      cases hrest
      exact h
  | assert obj =>
      rw [Borrow.step] at hrun
      split at hrun <;> cases hrun
      exact congrArg Iface.ptr (show obj = _ from h)

/-- What a move does to one request: nothing, or it leaves the field or empties it. -/
theorem request_move (num : Numbering) {r : RequestState} (hr : w.requests[j]? = some r)
    (m : Move) :
    Yields (fun w' => w'.requests[j]? = some r ∨
      ∃ r', (r'.ref = r.ref ∨ r'.ref = 0) ∧ w'.shells = w.shells ∧
        w'.requests = w.requests.set j r') (w.move num m) := by
  have hset : ∀ {i : Nat} {r₁ r₂ : RequestState}, w.requests[i]? = some r₁ →
      (r₂.ref = r₁.ref ∨ r₂.ref = 0) → (w.requests.set i r₂)[j]? = some r ∨
        ∃ r', (r'.ref = r.ref ∨ r'.ref = 0) ∧ w.shells = w.shells ∧
          w.requests.set i r₂ = w.requests.set j r' := by
    intro i r₁ r₂ hr₁ href
    by_cases hij : i = j
    · subst hij
      cases hr.symm.trans hr₁
      exact .inr ⟨r₂, href, rfl, rfl⟩
    · exact .inl ((List.getElem?_set_ne hij).trans hr)
  cases m with
  | newShell => exact .inl hr
  | start i method => exact yields_bind fun s hs => yields_if fun _ => .inl hr
  | advance i =>
      refine yields_bind fun s hs => yields_bind fun point hpoint =>
        yields_commit fun _ _ _ => .inl ?_
      exact (List.getElem?_append_left (List.getElem?_eq_some_iff.mp hr).1).trans hr
  | dropShell i => exact yields_bind fun s hs => .inl hr
  | finalizeShell i => exact yields_bind fun s hs => yields_if fun _ => .inl hr
  | use i => exact yields_bind fun r hr' => yields_if fun _ => .inl hr
  | advanceCall k =>
      refine yields_bind fun c hc => ?_
      cases c with
      | reading i => exact yields_bind fun r hr' => .inl hr
      | borrowing b => exact yields_commit fun next refs hrun => .inl hr
      | working ptr => trivial
  | dropRequest i => exact yields_bind fun r₁ hr₁ => hset hr₁ (.inl rfl)
  | finalizeRequest i => exact yields_bind fun r₁ hr₁ => yields_if fun _ => hset hr₁ (.inl rfl)
  | advanceFinalizer i =>
      refine yields_bind fun r₁ hr₁ => ?_
      cases r₁.finalizer with
      | pending => trivial
      | running c => exact yields_commit fun _ _ hrun => hset hr₁ (close_within hrun).2
      | finished => trivial

/-- What a move does to one call: nothing, or it advances it. -/
theorem call_move (num : Numbering) {c : CallPoint} (hc : w.calls[k]? = some c) (m : Move) :
    Yields (fun w' => m ≠ .advanceCall k ∧ w'.calls[k]? = some c ∨
      (∃ i r, c = .reading i ∧ w.requests[i]? = some r ∧
        w'.calls[k]? = some (.borrowing (.inc r.ref))) ∨
      ∃ b next, c = .borrowing b ∧ (b.step .requestBuilder).run w.refs = .ok next w'.refs ∧
        w'.calls[k]? = some (next.elim .borrowing .working)) (w.move num m) := by
  have hlt : k < w.calls.length := (List.getElem?_eq_some_iff.mp hc).1
  cases m with
  | newShell => exact .inl ⟨nofun, hc⟩
  | start i method => exact yields_bind fun s hs => yields_if fun _ => .inl ⟨nofun, hc⟩
  | advance i =>
      exact yields_bind fun s hs => yields_bind fun point hpoint =>
        yields_commit fun _ _ _ => .inl ⟨nofun, hc⟩
  | dropShell i => exact yields_bind fun s hs => .inl ⟨nofun, hc⟩
  | finalizeShell i => exact yields_bind fun s hs => yields_if fun _ => .inl ⟨nofun, hc⟩
  | use i =>
      exact yields_bind fun r hr => yields_if fun _ =>
        .inl ⟨nofun, (List.getElem?_append_left hlt).trans hc⟩
  | advanceCall k' =>
      refine yields_bind fun c' hc' => ?_
      by_cases hk : k' = k
      · subst hk
        cases hc.symm.trans hc'
        cases c with
        | reading i =>
            exact yields_bind fun r hr => .inr (.inl ⟨i, r, rfl, hr, List.getElem?_set_self hlt⟩)
        | borrowing b =>
            exact yields_commit fun next refs hrun =>
              .inr (.inr ⟨b, next, rfl, hrun, List.getElem?_set_self hlt⟩)
        | working ptr => trivial
      · have hother : Move.advanceCall k' ≠ .advanceCall k := fun heq =>
          hk (Move.advanceCall.inj heq)
        cases c' with
        | reading i =>
            exact yields_bind fun r hr => .inl ⟨hother, (List.getElem?_set_ne hk).trans hc⟩
        | borrowing b =>
            exact yields_commit fun next refs hrun =>
              .inl ⟨hother, (List.getElem?_set_ne hk).trans hc⟩
        | working ptr => trivial
  | dropRequest i => exact yields_bind fun r hr => .inl ⟨nofun, hc⟩
  | finalizeRequest i => exact yields_bind fun r hr => yields_if fun _ => .inl ⟨nofun, hc⟩
  | advanceFinalizer i =>
      refine yields_bind fun r hr => ?_
      cases r.finalizer with
      | pending => trivial
      | running c => exact yields_commit fun _ _ _ => .inl ⟨nofun, hc⟩
      | finished => trivial

/-- A call goes on working for its request, whatever moves. -/
theorem serves_next (hinv : Inv w) (h : Serves w k j ref ptr) {m : Move}
    (hmove : w.next num m = some w') : Serves w' k j ref ptr := by
  obtain ⟨c, hc, htracks⟩ := h.call
  obtain ⟨r, hr, href, howners⟩ := h.request
  refine ⟨extends_next hinv hmove _ _ h.builder, ?_, ?_⟩
  · rcases (call_move num hc m).next hmove with ⟨_, hsame⟩ | ⟨i, r', rfl, hr', hread⟩ |
        ⟨b, next, rfl, hrun, hnext⟩
    · exact ⟨c, hsame, htracks⟩
    · -- what is still to be read has not been emptied
      obtain rfl : i = j := htracks
      cases hr.symm.trans hr'
      obtain ⟨r', hr', hpending⟩ := hinv.calls _ (List.mem_of_getElem? hc)
      cases hr.symm.trans hr'
      have hne := (hinv.requests r (List.mem_of_getElem? hr)).pending hpending
      exact ⟨_, hread, href.resolve_right hne⟩
    · exact ⟨_, hnext, tracks_step h.builder htracks hrun⟩
  · rcases (request_move num hr m).next hmove with hsame | ⟨r', href', hshells, hrequests⟩
    · refine ⟨r, hsame, href, le_trans ?_ howners⟩
      have hissued : ref ∈ w.holdings.table.issued := RefTable.issued_of_lookup h.builder
      exact (owners_le_of_moves ((moves_move num w m).next hmove) hissued).2
    · have hlt : j < w.requests.length := (List.getElem?_eq_some_iff.mp hr).1
      refine ⟨r', by rw [hrequests]; exact List.getElem?_set_self hlt, ?_, ?_⟩
      · rcases href' with hsame | hzero
        · rw [hsame]
          exact href
        · exact .inr hzero
      · obtain ⟨rest, hsum, hset⟩ := sum_map_set RequestState.owner hr
        simp only [World.holdings, hsum] at howners
        simp only [World.holdings, hshells, hrequests, hset]
        omega

/-- The request of a call is the only one that has the builder. -/
theorem Serves.only (h : Serves w k j ref ptr) (hseparate : w.holdings.Separate Iface.ptr) {i : Nat}
    {r' : RequestState} (hr' : w.requests[i]? = some r')
    (hbuilder : w.refs.lookup r'.ref = some ⟨.requestBuilder, ptr⟩) : i = j := by
  obtain ⟨r, hr, _, howners⟩ := h.request
  by_contra hij
  -- both references stand for one object, so they are the same
  have href : r'.ref = ref := hseparate.apart _ _ _ _ hbuilder h.builder rfl
  have hne : ref ≠ 0 := Int.ne_of_lt (RefTable.neg_of_lookup h.builder)
  obtain ⟨rest, hsum, hset⟩ := sum_map_set RequestState.owner hr
  simp only [World.holdings, hsum] at howners
  have hothers : ((w.requests.set j { r with ref := 0 }).map (·.owner ref)).sum = 0 := by
    rw [hset]
    have hzero : ({ r with ref := 0 } : RequestState).owner ref = 0 := rfl
    omega
  have hmem : r' ∈ w.requests.set j { r with ref := 0 } :=
    List.mem_of_getElem? ((List.getElem?_set_ne (Ne.symm hij)).trans hr')
  have howner := List.sum_eq_zero_iff_forall_eq_nat.mp hothers _ (List.mem_map_of_mem hmem)
  rw [RequestState.owner, fieldOwner, href, if_pos hne, one, if_pos rfl] at howner
  cases howner

/-- A run keeps the holdings separate. -/
theorem separate_run {moves : List Move} (h : w.holdings.Separate Iface.ptr)
    (hrun : run (World.next num) w moves = some w') : w'.holdings.Separate Iface.ptr :=
  run_invariant (fun w _ _ h => separate_next (w := w) h) h hrun

/-- What holds after a run from the start: the invariant, and that the holdings are separate. -/
theorem reachable {moves : List Move} (hrun : run (World.next num) World.start moves = some w) :
    Inv w ∧ w.holdings.Separate Iface.ptr :=
  ⟨run_invariant (fun _ _ _ h => inv_next h) inv_start hrun,
    separate_run (w := World.start) separate_empty hrun⟩

/-- A call that is about to read the field of its request serves it. -/
theorem serves_reading (hinv : Inv w) (hseparate : w.holdings.Separate Iface.ptr)
    (hc : w.calls[k]? = some (.reading j)) :
    ∃ r ptr, w.requests[j]? = some r ∧ Serves w k j r.ref ptr := by
  obtain ⟨r, hr, hpending⟩ := hinv.calls _ (List.mem_of_getElem? hc)
  have hok := hinv.requests r (List.mem_of_getElem? hr)
  have hne := hok.pending hpending
  obtain ⟨ptr, hbuilder⟩ := hok.field hne
  refine ⟨r, ptr, hr, hbuilder, ⟨_, hc, rfl⟩, r, hr, .inl rfl, ?_⟩
  rw [RequestState.owner, fieldOwner, if_pos hne, one, if_pos rfl]
  exact hseparate.exclusive r.ref

/-- **Every call works on the builder of its own request.** However it is interleaved with methods,
other calls and finalizers, a call that was about to read the field of a request ends with the
builder that the reference in the field stood for; the reference still stands for it, and no other
request has one that does. -/
theorem own_builder {before after : List Move}
    (hbefore : run (World.next num) World.start before = some w)
    (hreading : w.calls[k]? = some (.reading j)) (hafter : run (World.next num) w after = some w')
    (hworking : w'.calls[k]? = some (.working ptr)) :
    ∃ r, w.requests[j]? = some r ∧ w.refs.lookup r.ref = some ⟨.requestBuilder, ptr⟩ ∧
      w'.refs.lookup r.ref = some ⟨.requestBuilder, ptr⟩ ∧
      ∀ (i : Nat) (r' : RequestState), w'.requests[i]? = some r' →
        w'.refs.lookup r'.ref = some ⟨.requestBuilder, ptr⟩ → i = j := by
  obtain ⟨hinv, hseparate⟩ := reachable hbefore
  obtain ⟨r, ptr', hr, hserves⟩ := serves_reading hinv hseparate hreading
  have hstep : ∀ v m v', Inv v ∧ Serves v k j r.ref ptr' → World.next num v m = some v' →
      Inv v' ∧ Serves v' k j r.ref ptr' :=
    fun _ _ _ h hmove => ⟨inv_next h.1 hmove, serves_next h.1 h.2 hmove⟩
  obtain ⟨_, hserves'⟩ := run_invariant hstep ⟨hinv, hserves⟩ hafter
  have hseparate' := separate_run hseparate hafter
  obtain ⟨c, hc, htracks⟩ := hserves'.call
  cases hworking.symm.trans hc
  obtain rfl : ptr = ptr' := htracks
  exact ⟨r, hr, hserves.builder, hserves'.builder,
    fun i r' hr' hbuilder => hserves'.only hseparate' hr' hbuilder⟩

end Calls

/-! ## Nothing runs -/

/-- No method runs, no finalizer, and no call is still to get its builder. -/
structure World.AtRest (w : World) : Prop where
  shells : ∀ s ∈ w.shells, s.point = none
  requests : ∀ r ∈ w.requests, ∀ c, r.finalizer ≠ .running c
  calls : ∀ c ∈ w.calls, ∃ ptr, c = .working ptr

/-- The objects that have a reference in their field. -/
def World.holders (w : World) (q : Int) : Nat :=
  w.shells.countP (·.ref = q) + w.requests.countP (·.ref = q)

section Rest

variable {num : Numbering} {w : World}

/-- The owners of a reference among the fields are those that have it. -/
theorem sum_fieldOwner {α : Type} (field : α → Int) (l : List α) {q : Int} (hq : q ≠ 0) :
    (l.map fun x => fieldOwner (field x) q).sum = l.countP fun x => field x = q := by
  induction l with
  | nil => rfl
  | cons x l ih =>
      rw [List.map_cons, List.sum_cons, ih, List.countP_cons, Nat.add_comm]
      congr 1
      unfold fieldOwner one
      by_cases hx : field x = q
      · simp [hx, hq]
      · simp [hx, Ne.symm hx]

/-- When nothing runs, the credits for a reference are the objects that have it, and so are its
owners. -/
theorem credit_at_rest (hrest : w.AtRest) {q : Int} (hq : q ≠ 0) :
    w.credit q = w.holders q ∧ w.holdings.owners q = w.holders q := by
  have hshells : ∀ s ∈ w.shells,
      s.credit q = fieldOwner s.ref q ∧ s.owner q = fieldOwner s.ref q := by
    intro s hs
    have hidle := hrest.shells s hs
    simp [ShellState.credit, ShellState.owner, hidle, fieldCredit, fieldOwner]
  have hrequests : ∀ r ∈ w.requests, r.credit q = fieldOwner r.ref q := by
    intro r hr
    simp [RequestState.credit, hrest.requests r hr, fieldCredit, fieldOwner]
  have hcalls : (w.calls.map (·.credit q)).sum = 0 := by
    rw [List.sum_eq_zero_iff_forall_eq_nat]
    intro n hn
    obtain ⟨c, hc, rfl⟩ := List.mem_map.mp hn
    obtain ⟨ptr, rfl⟩ := hrest.calls c hc
    rfl
  have hholders : w.holders q =
      (w.shells.map fun s => fieldOwner s.ref q).sum +
        (w.requests.map fun r => fieldOwner r.ref q).sum := by
    rw [sum_fieldOwner _ _ hq, sum_fieldOwner _ _ hq]
    rfl
  constructor
  · rw [World.credit, hcalls, hholders, List.map_congr_left fun s hs => (hshells s hs).1,
      List.map_congr_left hrequests, Nat.add_zero]
  · rw [hholders]
    show (w.shells.map (·.owner q)).sum + (w.requests.map (·.owner q)).sum = _
    rw [List.map_congr_left fun s hs => (hshells s hs).2]
    rfl

/-- **However calls were interleaved, once nothing runs every reference is counted twice while an
object has it, and no two objects do; and once after that.** No reference ever leaves the table. -/
theorem counts_at_rest {moves : List Move} (hrun : run (World.next num) World.start moves = some w)
    (hrest : w.AtRest) {q : Int} (hissued : q ∈ w.refs.issued) :
    w.refs.count q = 2 ∧ w.holders q = 1 ∨ w.refs.count q = 1 ∧ w.holders q = 0 := by
  obtain ⟨hinv, hseparate⟩ := reachable hrun
  have hne : q ≠ 0 := Int.ne_of_lt (w.refs.negative q hissued)
  obtain ⟨hcredit, howners⟩ := credit_at_rest hrest hne
  have hcount := (hinv.backed q).1 hissued
  have hone := hseparate.exclusive q
  omega

end Rest

/-! ## Two shells at once -/

/-- Two shells connect in turns, and both make a request; the first request is used and closed
meanwhile. -/
def twoShells : List Move :=
  [.newShell, .newShell, .start 0 .request, .start 1 .request] ++
    (List.replicate 12 [Move.advance 0, .advance 1]).flatten ++ [.use 0]

/-- The call on the first request, while its shell is closed. -/
theorem own_builder_twoShells :
    ∃ w w' : World, run (World.next standalone.numbering) World.start twoShells = some w ∧
      w'.calls[0]? = some (.working 16) ∧
      ∃ r, w.requests[0]? = some r ∧ w.refs.lookup r.ref = some ⟨.requestBuilder, 16⟩ ∧
        w'.refs.lookup r.ref = some ⟨.requestBuilder, 16⟩ ∧
        ∀ (i : Nat) (r' : RequestState), w'.requests[i]? = some r' →
          w'.refs.lookup r'.ref = some ⟨.requestBuilder, 16⟩ → i = 0 := by
  obtain ⟨w, hw⟩ : ∃ w, run (World.next standalone.numbering) World.start twoShells = some w :=
    ⟨_, rfl⟩
  obtain ⟨w', hw'⟩ : ∃ w', run (World.next standalone.numbering) w
      [.advanceCall 0, .start 0 .close, .advanceCall 0, .advance 0, .advanceCall 0, .advance 0,
        .advanceCall 0, .advanceCall 0] = some w' := by
    cases hw
    exact ⟨_, rfl⟩
  have hworking : w'.calls[0]? = some (.working 16) := by
    cases hw
    cases hw'
    rfl
  have hreading : w.calls[0]? = some (.reading 0) := by
    cases hw
    rfl
  exact ⟨w, w', hw, hworking, own_builder hw hreading hw' hworking⟩

/-- Both requests are there when both methods have ended. -/
theorem counts_at_rest_twoShells :
    ∃ w, run (World.next standalone.numbering) World.start twoShells.dropLast = some w ∧
      (w.refs.count (-26) = 2 ∧ w.holders (-26) = 1 ∨
        w.refs.count (-26) = 1 ∧ w.holders (-26) = 0) := by
  obtain ⟨w, hw⟩ :
      ∃ w, run (World.next standalone.numbering) World.start twoShells.dropLast = some w :=
    ⟨_, rfl⟩
  have hpending : ∀ r ∈ w.requests, r.finalizer = .pending := by
    cases hw
    decide
  have hrest : w.AtRest := by
    refine ⟨?_, fun r hr c => by rw [hpending r hr]; exact nofun, ?_⟩
    · cases hw
      decide
    · cases hw
      exact nofun
  exact ⟨w, hw, counts_at_rest hw hrest (by cases hw; decide)⟩

end Kipfs.Overlap
