import Kipfs.Kotlin.Isolation

/-!
# Every method ends

A method of a shell, a call on a request and a finalizer are each at some distance from their end
(`World.remaining`), which no more than a step of their own brings down, and which nothing else
brings up again. So each ends after at most twelve steps of its own, whatever the others do, and as
long as there are numbers left it can always take the next (`wait_free`).
-/

namespace Kipfs.Overlap

open Foundation

/-! ## Distances -/

/-- The steps that a borrowing has left. -/
def Borrow.remaining : Borrow → Nat
  | .inc _ => 4
  | .lookup _ => 3
  | .delete _ _ => 2
  | .assert _ => 1

/-- The steps that a creation has left. -/
def Enter.remaining : Enter → Nat
  | .toRefNum _ => 2
  | .inc _ => 1

/-- The steps that a closing has left, at most. -/
def Close.remaining : Close → Nat
  | log => 5
  | test => 4
  | read => 3
  | dispose _ => 2
  | reset => 1

/-- The steps after a `connect`. -/
def After.remaining : After → Nat
  | finish => 0
  | request => 8

/-- The steps that a method of a shell has left, at most. -/
def ShellPoint.remaining : ShellPoint → Nat
  | connecting after => 4 + after.remaining
  | creating e after => Enter.remaining e + 1 + after.remaining
  | assigning _ after => 1 + after.remaining
  | requesting => 8
  | borrowing b => Borrow.remaining b + 3
  | entering e => Enter.remaining e + 1
  | constructing _ => 1
  | closing c => c.remaining

/-- The steps that a call on a request has left until it has its builder. -/
def CallPoint.remaining : CallPoint → Nat
  | reading _ => 5
  | borrowing b => Borrow.remaining b
  | working _ => 0

/-- The steps that a finalizer has left, at most, if it runs. -/
def Finalizer.remaining : Finalizer → Nat
  | running c => c.remaining
  | _ => 0

/-- What runs: the method of a shell, a call on a request, or the finalizer of a request. -/
inductive Thread where
  | method (shell : Nat)
  | call (call : Nat)
  | finalizer (request : Nat)
  deriving DecidableEq, Repr

/-- A step of a thread. -/
def Thread.move : Thread → Move
  | method i => .advance i
  | call k => .advanceCall k
  | finalizer j => .advanceFinalizer j

/-- The steps that a thread has left, at most. -/
def World.remaining (w : World) : Thread → Nat
  | .method i => ((w.shells[i]?.bind ShellState.point).map ShellPoint.remaining).getD 0
  | .call k => (w.calls[k]?.map CallPoint.remaining).getD 0
  | .finalizer j => (w.requests[j]?.map fun r => r.finalizer.remaining).getD 0

/-- A thread that has ended, or has not been started. -/
def World.Ended (w : World) : Thread → Prop
  | .method i => ∀ s, w.shells[i]? = some s → s.point = none
  | .call k => ∀ c, w.calls[k]? = some c → ∃ ptr, c = .working ptr
  | .finalizer j => ∀ r, w.requests[j]? = some r → ∀ c, r.finalizer ≠ .running c

theorem Borrow.remaining_pos (b : Borrow) : 0 < Borrow.remaining b := by
  cases b <;> exact Nat.succ_pos _

theorem Close.remaining_pos (c : Close) : 0 < c.remaining := by
  cases c <;> exact Nat.succ_pos _

theorem ShellPoint.remaining_pos (point : ShellPoint) : 0 < point.remaining := by
  cases point with
  | closing c => exact c.remaining_pos
  | _ =>
      simp only [ShellPoint.remaining]
      omega

/-- A thread has no steps left exactly when it has ended. -/
theorem ended_iff (w : World) (t : Thread) : w.Ended t ↔ w.remaining t = 0 := by
  cases t with
  | method i =>
      show (∀ s, w.shells[i]? = some s → s.point = none) ↔ _
      rw [World.remaining]
      cases w.shells[i]? with
      | none => exact ⟨fun _ => rfl, fun _ => nofun⟩
      | some s =>
          cases hpoint : s.point with
          | none => simp [hpoint]
          | some point => simp [hpoint, Nat.ne_of_gt point.remaining_pos]
  | call k =>
      show (∀ c, w.calls[k]? = some c → ∃ ptr, c = .working ptr) ↔ _
      rw [World.remaining]
      cases w.calls[k]? with
      | none => exact ⟨fun _ => rfl, fun _ => nofun⟩
      | some c =>
          cases c with
          | reading j => simp [CallPoint.remaining]
          | borrowing b => simp [CallPoint.remaining, Nat.ne_of_gt (Borrow.remaining_pos b)]
          | working ptr => simp [CallPoint.remaining]
  | finalizer j =>
      show (∀ r, w.requests[j]? = some r → ∀ c, r.finalizer ≠ .running c) ↔ _
      rw [World.remaining]
      cases w.requests[j]? with
      | none => exact ⟨fun _ => rfl, fun _ => nofun⟩
      | some r =>
          cases hfinalizer : r.finalizer with
          | pending => simp [hfinalizer, Finalizer.remaining]
          | running c => simp [hfinalizer, Finalizer.remaining, Nat.ne_of_gt c.remaining_pos]
          | finished => simp [hfinalizer, Finalizer.remaining]

/-! ## Steps of the parts -/

section Parts

variable {t t' : RefTable Iface} {num : Numbering} {type : GoType} {ref ref' : Int} {ptr : Nat}

theorem borrow_descends {b : Borrow} {next : Borrow ⊕ Nat}
    (h : (b.step type).run t = .ok next t') :
    (next.elim Borrow.remaining fun _ => 0) < Borrow.remaining b := by
  cases b with
  | inc refnum | lookup refnum | delete refnum obj =>
      obtain ⟨_, _, _, hrest⟩ := bind_eq_ok.mp h
      cases hrest
      exact Nat.lt_succ_self _
  | assert obj =>
      rw [Borrow.step] at h
      split at h <;> cases h
      exact Nat.one_pos

theorem close_descends {c : Close} {next : Option Close}
    (h : (c.step ref).run t = .ok (ref', next) t') :
    (next.map Close.remaining).getD 0 < c.remaining := by
  cases c with
  | log =>
      cases h
      exact Nat.lt_succ_self _
  | test =>
      rw [Close.step] at h
      split at h <;> cases h
      · exact Nat.lt_succ_self _
      · exact Nat.succ_pos _
  | read =>
      cases h
      exact Nat.lt_succ_self _
  | dispose refnum =>
      obtain ⟨_, _, _, hrest⟩ := bind_eq_ok.mp h
      cases hrest
      exact Nat.lt_succ_self _
  | reset =>
      cases h
      exact Nat.one_pos

theorem after_remaining (after : After) :
    (after.point.map ShellPoint.remaining).getD 0 = after.remaining := by
  cases after <;> rfl

theorem point_descends {point : ShellPoint} {next : Option ShellPoint} {made : Option Int}
    (h : (point.step num ptr ref).run t = .ok (ref', next, made) t') :
    (next.map ShellPoint.remaining).getD 0 < point.remaining := by
  cases point with
  | connecting after =>
      rw [ShellPoint.step] at h
      split at h <;> cases h
      · rw [after_remaining, ShellPoint.remaining]
        omega
      · simp [ShellPoint.remaining, Enter.remaining]
  | creating e after =>
      obtain ⟨got, _, hstep, hrest⟩ := bind_eq_ok.mp h
      rcases enter_cases hstep with ⟨obj, refnum, rfl, rfl, _⟩ | ⟨refnum, rfl, rfl, _⟩ <;>
        cases hrest <;> simp [ShellPoint.remaining, Enter.remaining]
  | assigning refnum after =>
      cases h
      rw [after_remaining, ShellPoint.remaining]
      omega
  | requesting =>
      cases h
      exact Nat.lt_succ_self _
  | borrowing b =>
      obtain ⟨got, _, hstep, hrest⟩ := bind_eq_ok.mp h
      have hlt := borrow_descends hstep
      cases got with
      | inl b' =>
          cases hrest
          exact Nat.add_lt_add_right hlt 3
      | inr kShell =>
          cases hrest
          exact Nat.add_lt_add_right hlt 3
  | entering e =>
      obtain ⟨got, _, hstep, hrest⟩ := bind_eq_ok.mp h
      rcases enter_cases hstep with ⟨obj, refnum, rfl, rfl, _⟩ | ⟨refnum, rfl, rfl, _⟩ <;>
        cases hrest <;> simp [ShellPoint.remaining, Enter.remaining]
  | constructing refnum =>
      cases h
      exact Nat.one_pos
  | closing c =>
      obtain ⟨⟨ref', c'⟩, _, hstep, hrest⟩ := bind_eq_ok.mp h
      cases hrest
      have hlt := close_descends hstep
      cases c' with
      | none => exact c.remaining_pos
      | some c' => exact hlt

end Parts

/-! ## Moves -/

section Moves

variable {num : Numbering} {w w' : World} {i j : Nat}

/-- What a move does to the method of a shell: nothing, unless it has none, or it advances it. -/
theorem method_move (num : Numbering) {s : ShellState} {point : ShellPoint}
    (hs : w.shells[i]? = some s) (hpoint : s.point = some point) (m : Move) :
    Yields (fun w' =>
      m ≠ .advance i ∧ (w'.shells[i]?.bind ShellState.point) = some point ∨
      ∃ ref next made, (point.step num w.allocated s.ref).run w.refs =
        .ok (ref, next, made) w'.refs ∧
        (w'.shells[i]?.bind ShellState.point) = next) (w.move num m) := by
  have hlt : i < w.shells.length := (List.getElem?_eq_some_iff.mp hs).1
  have hat : (w.shells[i]?.bind ShellState.point) = some point := by
    rw [hs]
    exact hpoint
  -- a shell whose method is not advanced keeps its point
  have hset : ∀ {i' : Nat} {s₁ s₂ : ShellState}, w.shells[i']? = some s₁ →
      (i' = i → s₂.point = s₁.point) →
        ((w.shells.set i' s₂)[i]?.bind ShellState.point) = some point := by
    intro i' s₁ s₂ hs₁ hsame
    by_cases hi : i' = i
    · subst hi
      cases hs.symm.trans hs₁
      rw [List.getElem?_set_self hlt]
      exact (hsame rfl).trans hpoint
    · rw [List.getElem?_set_ne hi]
      exact hat
  -- and no method begins on it
  have hbusy : ∀ {i' : Nat} {s₁ : ShellState},
      w.shells[i']? = some s₁ → s₁.point = none → i' ≠ i := by
    rintro i' s₁ hs₁ hidle rfl
    cases hs.symm.trans hs₁
    cases hidle.symm.trans hpoint
  cases m with
  | newShell => exact .inl ⟨nofun, by rw [List.getElem?_append_left hlt]; exact hat⟩
  | start i' method =>
      exact yields_bind fun s₁ hs₁ => yields_if fun ⟨hidle, _⟩ =>
        .inl ⟨nofun, hset hs₁ fun heq => absurd heq (hbusy hs₁ hidle)⟩
  | advance i' =>
      refine yields_bind fun s₁ hs₁ => yields_bind fun point₁ hpoint₁ =>
        yields_commit fun ⟨ref, next, made⟩ refs hrun => ?_
      by_cases hi : i' = i
      · subst hi
        cases hs.symm.trans hs₁
        cases hpoint.symm.trans hpoint₁
        refine .inr ⟨ref, next, made, hrun, ?_⟩
        show ((w.shells.set i' _)[i']?.bind ShellState.point) = next
        rw [List.getElem?_set_self hlt]
        rfl
      · exact .inl ⟨fun heq => hi (Move.advance.inj heq), hset hs₁ fun heq => absurd heq hi⟩
  | dropShell i' => exact yields_bind fun s₁ hs₁ => .inl ⟨nofun, hset hs₁ fun _ => rfl⟩
  | finalizeShell i' =>
      exact yields_bind fun s₁ hs₁ => yields_if fun ⟨hidle, _⟩ =>
        .inl ⟨nofun, hset hs₁ fun heq => absurd heq (hbusy hs₁ hidle)⟩
  | use j => exact yields_bind fun r hr => yields_if fun _ => .inl ⟨nofun, hat⟩
  | advanceCall k =>
      refine yields_bind fun c hc => ?_
      cases c with
      | reading j => exact yields_bind fun r hr => .inl ⟨nofun, hat⟩
      | borrowing b => exact yields_commit fun _ _ _ => .inl ⟨nofun, hat⟩
      | working ptr => trivial
  | dropRequest j => exact yields_bind fun r hr => .inl ⟨nofun, hat⟩
  | finalizeRequest j => exact yields_bind fun r hr => yields_if fun _ => .inl ⟨nofun, hat⟩
  | advanceFinalizer j =>
      refine yields_bind fun r hr => ?_
      cases r.finalizer with
      | pending => trivial
      | running c => exact yields_commit fun _ _ _ => .inl ⟨nofun, hat⟩
      | finished => trivial

/-- What a move does to a finalizer that runs: nothing, or it advances it. -/
theorem finalizer_move (num : Numbering) {r : RequestState} {c : Close}
    (hr : w.requests[j]? = some r) (hrunning : r.finalizer = .running c) (m : Move) :
    Yields (fun w' =>
      m ≠ .advanceFinalizer j ∧ (w'.requests[j]?.map RequestState.finalizer) = some (.running c) ∨
      ∃ ref next, (c.step r.ref).run w.refs = .ok (ref, next) w'.refs ∧
        (w'.requests[j]?.map RequestState.finalizer) = some (next.elim .finished .running))
      (w.move num m) := by
  have hlt : j < w.requests.length := (List.getElem?_eq_some_iff.mp hr).1
  have hat : (w.requests[j]?.map RequestState.finalizer) = some (.running c) := by
    rw [hr]
    exact congrArg some hrunning
  have hset : ∀ {j' : Nat} {r₁ r₂ : RequestState}, w.requests[j']? = some r₁ →
      (j' = j → r₂.finalizer = r₁.finalizer) →
        ((w.requests.set j' r₂)[j]?.map RequestState.finalizer) = some (.running c) := by
    intro j' r₁ r₂ hr₁ hsame
    by_cases hj : j' = j
    · subst hj
      cases hr.symm.trans hr₁
      rw [List.getElem?_set_self hlt]
      exact congrArg some ((hsame rfl).trans hrunning)
    · rw [List.getElem?_set_ne hj]
      exact hat
  cases m with
  | newShell => exact .inl ⟨nofun, hat⟩
  | start i method => exact yields_bind fun s hs => yields_if fun _ => .inl ⟨nofun, hat⟩
  | advance i =>
      refine yields_bind fun s hs => yields_bind fun point hpoint => yields_commit fun _ _ _ => ?_
      refine .inl ⟨nofun, ?_⟩
      show ((w.requests ++ _)[j]?.map RequestState.finalizer) = _
      rw [List.getElem?_append_left hlt]
      exact hat
  | dropShell i => exact yields_bind fun s hs => .inl ⟨nofun, hat⟩
  | finalizeShell i => exact yields_bind fun s hs => yields_if fun _ => .inl ⟨nofun, hat⟩
  | use j' => exact yields_bind fun r₁ hr₁ => yields_if fun _ => .inl ⟨nofun, hat⟩
  | advanceCall k =>
      refine yields_bind fun c₁ hc₁ => ?_
      cases c₁ with
      | reading j' => exact yields_bind fun r₁ hr₁ => .inl ⟨nofun, hat⟩
      | borrowing b => exact yields_commit fun _ _ _ => .inl ⟨nofun, hat⟩
      | working ptr => trivial
  | dropRequest j' => exact yields_bind fun r₁ hr₁ => .inl ⟨nofun, hset hr₁ fun _ => rfl⟩
  | finalizeRequest j' =>
      refine yields_bind fun r₁ hr₁ => yields_if fun ⟨hpending, _⟩ => .inl ⟨nofun, hset hr₁ ?_⟩
      -- a finalizer does not start twice
      rintro rfl
      cases hr.symm.trans hr₁
      cases hpending.symm.trans hrunning
  | advanceFinalizer j' =>
      refine yields_bind fun r₁ hr₁ => ?_
      by_cases hj : j' = j
      · subst hj
        cases hr.symm.trans hr₁
        rw [hrunning]
        refine yields_commit fun ⟨ref, next⟩ refs hrun => .inr ⟨ref, next, hrun, ?_⟩
        show ((w.requests.set j' _)[j']?.map RequestState.finalizer) = _
        rw [List.getElem?_set_self hlt]
        rfl
      · cases r₁.finalizer with
        | pending => trivial
        | running c₁ =>
            exact yields_commit fun _ _ _ =>
              .inl ⟨fun heq => hj (Move.advanceFinalizer.inj heq),
                hset hr₁ fun heq => absurd heq hj⟩
        | finished => trivial

/-- A step of a thread brings it closer to its end, and no other move takes it further away. -/
theorem thread_move (num : Numbering) (w : World) (t : Thread) (m : Move)
    (hpos : 0 < w.remaining t) :
    Yields (fun w' => m ≠ t.move ∧ w'.remaining t = w.remaining t ∨
      w'.remaining t < w.remaining t) (w.move num m) := by
  cases t with
  | method i =>
      obtain ⟨s, hs⟩ : ∃ s, w.shells[i]? = some s := by
        cases hs : w.shells[i]? with
        | none => simp [World.remaining, hs] at hpos
        | some s => exact ⟨s, rfl⟩
      obtain ⟨point, hpoint⟩ : ∃ point, s.point = some point := by
        cases hpoint : s.point with
        | none => simp [World.remaining, hs, hpoint] at hpos
        | some point => exact ⟨point, rfl⟩
      have hbefore : w.remaining (.method i) = point.remaining := by
        simp [World.remaining, hs, hpoint]
      refine (method_move num hs hpoint m).mono fun w' hw' => ?_
      rw [hbefore, World.remaining]
      rcases hw' with ⟨hother, hsame⟩ | ⟨ref, next, made, hrun, hnext⟩
      · rw [hsame]
        exact .inl ⟨hother, rfl⟩
      · rw [hnext]
        exact .inr (point_descends hrun)
  | call k =>
      obtain ⟨c, hc⟩ : ∃ c, w.calls[k]? = some c := by
        cases hc : w.calls[k]? with
        | none => simp [World.remaining, hc] at hpos
        | some c => exact ⟨c, rfl⟩
      have hbefore : w.remaining (.call k) = c.remaining := by simp [World.remaining, hc]
      refine (call_move num hc m).mono fun w' hw' => ?_
      rw [hbefore, World.remaining]
      rcases hw' with ⟨hother, hsame⟩ | ⟨j, r, rfl, hr, hread⟩ | ⟨b, next, rfl, hrun, hnext⟩
      · rw [hsame]
        exact .inl ⟨hother, rfl⟩
      · rw [hread]
        exact .inr (Nat.lt_succ_self _)
      · rw [hnext]
        have hlt := borrow_descends hrun
        cases next <;> exact .inr hlt
  | finalizer j =>
      obtain ⟨r, hr⟩ : ∃ r, w.requests[j]? = some r := by
        cases hr : w.requests[j]? with
        | none => simp [World.remaining, hr] at hpos
        | some r => exact ⟨r, rfl⟩
      have hbefore : w.remaining (.finalizer j) = r.finalizer.remaining := by
        simp [World.remaining, hr]
      obtain ⟨c, hrunning⟩ : ∃ c, r.finalizer = .running c := by
        rw [hbefore] at hpos
        cases hfinalizer : r.finalizer with
        | running c => exact ⟨c, rfl⟩
        | _ =>
            rw [hfinalizer] at hpos
            cases hpos
      have hafter : ∀ w' : World, w'.remaining (.finalizer j) =
          ((w'.requests[j]?.map RequestState.finalizer).map Finalizer.remaining).getD 0 := by
        intro w'
        rw [World.remaining]
        cases w'.requests[j]? <;> rfl
      refine (finalizer_move num hr hrunning m).mono fun w' hw' => ?_
      rw [hbefore, hrunning, hafter]
      rcases hw' with ⟨hother, hsame⟩ | ⟨ref, next, hrun, hnext⟩
      · rw [hsame]
        exact .inl ⟨hother, rfl⟩
      · rw [hnext]
        have hlt := close_descends hrun
        cases next <;> exact .inr hlt

/-- A thread that has no steps left takes none. -/
theorem stuck (num : Numbering) {t : Thread} (hzero : w.remaining t = 0) :
    w.next num t.move ≠ some w' := by
  have hended := (ended_iff w t).mpr hzero
  intro hmove
  obtain ⟨outcome, houtcome, _⟩ := Option.bind_eq_some_iff.mp hmove
  cases t with
  | method i =>
      obtain ⟨s, hs, hrest⟩ := Option.bind_eq_some_iff.mp houtcome
      obtain ⟨point, hpoint, _⟩ := Option.bind_eq_some_iff.mp hrest
      cases (hended s hs).symm.trans hpoint
  | call k =>
      obtain ⟨c, hc, hrest⟩ := Option.bind_eq_some_iff.mp houtcome
      obtain ⟨ptr, rfl⟩ := hended c hc
      cases hrest
  | finalizer j =>
      obtain ⟨r, hr, hrest⟩ := Option.bind_eq_some_iff.mp houtcome
      split at hrest
      · exact hended r hr _ ‹_›
      · cases hrest

/-- A thread that has steps left can take one. -/
theorem can_move (num : Numbering) (h : Inv w) {t : Thread} (hpos : 0 < w.remaining t) :
    ∃ outcome, w.move num t.move = some outcome := by
  cases t with
  | method i =>
      cases hs : w.shells[i]? with
      | none => simp [World.remaining, hs] at hpos
      | some s =>
          cases hpoint : s.point with
          | none => simp [World.remaining, hs, hpoint] at hpos
          | some point => exact ⟨_, by rw [Thread.move, World.move, hs]; dsimp; rw [hpoint]; rfl⟩
  | call k =>
      cases hc : w.calls[k]? with
      | none => simp [World.remaining, hc] at hpos
      | some c =>
          cases c with
          | reading j =>
              obtain ⟨r, hr, _⟩ := h.calls _ (List.mem_of_getElem? hc)
              exact ⟨_, by rw [Thread.move, World.move, hc]; dsimp; rw [hr]; rfl⟩
          | borrowing b => exact ⟨_, by rw [Thread.move, World.move, hc]; rfl⟩
          | working ptr => simp [World.remaining, hc, CallPoint.remaining] at hpos
  | finalizer j =>
      cases hr : w.requests[j]? with
      | none => simp [World.remaining, hr] at hpos
      | some r =>
          cases hfinalizer : r.finalizer with
          | pending => simp [World.remaining, hr, hfinalizer, Finalizer.remaining] at hpos
          | running c => exact ⟨_, by rw [Thread.move, World.move, hr]; dsimp; rw [hfinalizer]⟩
          | finished => simp [World.remaining, hr, hfinalizer, Finalizer.remaining] at hpos

theorem Borrow.remaining_le (b : Borrow) : Borrow.remaining b ≤ 4 := by
  cases b <;> simp [Borrow.remaining]

theorem Close.remaining_le (c : Close) : c.remaining ≤ 5 := by
  cases c <;> simp [Close.remaining]

theorem Enter.remaining_le (e : Enter) : Enter.remaining e ≤ 2 := by
  cases e <;> simp [Enter.remaining]

theorem After.remaining_le (after : After) : after.remaining ≤ 8 := by
  cases after <;> simp [After.remaining]

theorem ShellPoint.remaining_le (point : ShellPoint) : point.remaining ≤ 12 := by
  cases point with
  | connecting after =>
      have := after.remaining_le
      rw [ShellPoint.remaining]
      omega
  | creating e after =>
      have := after.remaining_le
      have := Enter.remaining_le e
      rw [ShellPoint.remaining]
      omega
  | assigning refnum after =>
      have := after.remaining_le
      rw [ShellPoint.remaining]
      omega
  | requesting => exact Nat.le_add_right 8 4
  | borrowing b =>
      have := Borrow.remaining_le b
      rw [ShellPoint.remaining]
      omega
  | entering e =>
      have := Enter.remaining_le e
      rw [ShellPoint.remaining]
      omega
  | constructing refnum => exact Nat.le_add_right 1 11
  | closing c => exact c.remaining_le.trans (Nat.le_add_right 5 7)

/-- No thread is further than twelve steps from its end. -/
theorem remaining_le (w : World) (t : Thread) : w.remaining t ≤ 12 := by
  cases t with
  | method i =>
      rw [World.remaining]
      cases w.shells[i]?.bind ShellState.point with
      | none => exact Nat.zero_le _
      | some point => exact point.remaining_le
  | call k =>
      rw [World.remaining]
      cases w.calls[k]? with
      | none => exact Nat.zero_le _
      | some c =>
          cases c with
          | reading j => exact Nat.le_add_right 5 7
          | borrowing b => exact (Borrow.remaining_le b).trans (Nat.le_add_right 4 8)
          | working ptr => exact Nat.zero_le _
  | finalizer j =>
      rw [World.remaining]
      cases w.requests[j]? with
      | none => exact Nat.zero_le _
      | some r =>
          show r.finalizer.remaining ≤ 12
          cases r.finalizer with
          | pending => exact Nat.zero_le _
          | running c => exact c.remaining_le.trans (Nat.le_add_right 5 7)
          | finished => exact Nat.zero_le _

/-- **Every method, call and finalizer ends.** Whatever was interleaved before, one that has not
ended can take a step, unless the numbering has no next number; and however its steps are
interleaved with others, it has ended after as many of its own as it was away from its end, which
are twelve at most. -/
theorem wait_free {before : List Move} (hbefore : run (World.next num) World.start before = some w)
    (t : Thread) :
    w.remaining t ≤ 12 ∧
      (¬ w.Ended t → ∃ outcome, w.move num t.move = some outcome ∧
        ∀ e, outcome = .error e → e = .refsUnderflow ∧ num.next w.refs.issued = none) ∧
      ∀ (after : List Move) (w' : World), run (World.next num) w after = some w' →
        w.remaining t ≤ after.count t.move →
          ∃ first rest w'', after = first ++ rest ∧ run (World.next num) w first = some w'' ∧
            w''.Ended t ∧ first.count t.move ≤ w.remaining t := by
  obtain ⟨hinv, _⟩ := reachable hbefore
  refine ⟨remaining_le w t, fun hrunning => ?_, fun after w' hafter hmany => ?_⟩
  · rw [ended_iff] at hrunning
    obtain ⟨outcome, houtcome⟩ := can_move num hinv (Nat.pos_of_ne_zero hrunning)
    have hcomes := inv_move num hinv t.move
    rw [houtcome] at hcomes
    refine ⟨outcome, houtcome, fun e he => ?_⟩
    rw [he] at hcomes
    exact hcomes
  · have hown : ∀ v v', World.next num v t.move = some v' → v'.remaining t < v.remaining t := by
      intro v v' hmove
      by_cases hpos : 0 < v.remaining t
      · exact ((thread_move num v t t.move hpos).next hmove).resolve_left fun h => h.1 rfl
      · exact absurd hmove (stuck num (by omega))
    have hothers : ∀ v m v', m ≠ t.move → 0 < v.remaining t → World.next num v m = some v' →
        v'.remaining t ≤ v.remaining t := by
      intro v m v' _ hpos hmove
      rcases (thread_move num v t m hpos).next hmove with ⟨_, hsame⟩ | hlt
      · exact hsame.le
      · exact hlt.le
    obtain ⟨first, rest, w'', hsplit, hfirst, hend, hcount⟩ :=
      run_descends hown hothers hafter hmany
    exact ⟨first, rest, w'', hsplit, hfirst, (ended_iff w'' t).mpr hend, hcount⟩

/-- A method of a shell that another one interrupts. -/
theorem wait_free_twoShells :
    ∃ w, run (World.next standalone.numbering) World.start (twoShells.take 10) = some w ∧
      ∃ first rest w'', twoShells.drop 10 = first ++ rest ∧
        run (World.next standalone.numbering) w first = some w'' ∧ w''.Ended (.method 0) ∧
        first.count (.advance 0) ≤ w.remaining (.method 0) := by
  obtain ⟨w, hw⟩ : ∃ w, run (World.next standalone.numbering) World.start (twoShells.take 10) =
      some w := ⟨_, rfl⟩
  obtain ⟨w', hw'⟩ :
      ∃ w', run (World.next standalone.numbering) w (twoShells.drop 10) = some w' := by
    cases hw
    exact ⟨_, rfl⟩
  have hmany : w.remaining (.method 0) ≤ (twoShells.drop 10).count (.advance 0) := by
    cases hw
    decide
  exact ⟨w, hw, (wait_free hw (.method 0)).2.2 (twoShells.drop 10) w' hw' hmany⟩

end Moves

end Kipfs.Overlap
