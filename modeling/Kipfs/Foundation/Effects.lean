import Mathlib.Tactic.TypeStar

/-!
# Programs that abort and keep their state

Lean's `EStateM ε σ α` is the type of a program that reads and writes a state of type `σ` and
either returns a value or aborts with an `ε`, keeping in both cases the state it had reached.
This module adds what a model of an imperative language needs on top of it: a cleanup that runs
however the body ends (`ensure`), a program on a part of the state run on the whole (`zoom`),
inversion of a sequence that returned, the frame predicate `Keeps`, which says that a
program leaves a view of the state alone, `Spares`, which says how it never aborts, and `Together`,
which says that two programs end alike.
-/

namespace Foundation

variable {σ τ ε ε' α β : Type}

/-- The state a result carries, whether it is a value or an abort. -/
def final : EStateM.Result ε σ α → σ
  | .ok _ s => s
  | .error _ s => s

@[simp] theorem final_ok (a : α) (s : σ) : final (.ok a s : EStateM.Result ε σ α) = s := rfl

@[simp] theorem final_error (e : ε) (s : σ) :
    final (.error e s : EStateM.Result ε σ α) = s := rfl

/-- The abort a result carries, if it does. -/
def aborted : EStateM.Result ε σ α → Option ε
  | .ok _ _ => none
  | .error e _ => some e

/-- Abort, at any result type. -/
def abort (e : ε) : EStateM ε σ α := fun s => .error e s

@[simp] theorem run_abort (e : ε) (s : σ) :
    (abort e : EStateM ε σ α).run s = .error e s := rfl

@[simp] theorem abort_bind (e : ε) (f : α → EStateM ε σ β) : abort e >>= f = abort e := rfl

/-- The value of an option, or an abort. -/
def orAbort (e : ε) : Option α → EStateM ε σ α
  | some a => pure a
  | none => abort e

@[simp] theorem orAbort_some (e : ε) (a : α) :
    (orAbort e (some a) : EStateM ε σ α) = pure a := rfl

/-- Run `body`, then `cleanup` however `body` ended. An abort of the cleanup replaces the result
of the body. -/
def ensure (cleanup : EStateM ε σ Unit) (body : EStateM ε σ α) : EStateM ε σ α := fun s =>
  match body.run s with
  | .ok a s' =>
      match cleanup.run s' with
      | .ok _ s'' => .ok a s''
      | .error e s'' => .error e s''
  | .error e s' =>
      match cleanup.run s' with
      | .ok _ s'' => .error e s''
      | .error e' s'' => .error e' s''

/-- The four ways a body and its cleanup can end. -/
theorem run_ensure (cleanup : EStateM ε σ Unit) (body : EStateM ε σ α) (s : σ) :
    (ensure cleanup body).run s =
      match body.run s with
      | .ok a s' =>
          match cleanup.run s' with
          | .ok _ s'' => .ok a s''
          | .error e s'' => .error e s''
      | .error e s' =>
          match cleanup.run s' with
          | .ok _ s'' => .error e s''
          | .error e' s'' => .error e' s'' := rfl

/-- Run a program on the part `get s` of the state, write the part back with `put`, and translate
its aborts. -/
def zoom (get : σ → τ) (put : τ → σ → σ) (wrap : ε' → ε) (m : EStateM ε' τ α) :
    EStateM ε σ α := fun s =>
  match m.run (get s) with
  | .ok a t => .ok a (put t s)
  | .error e t => .error (wrap e) (put t s)

theorem run_zoom (get : σ → τ) (put : τ → σ → σ) (wrap : ε' → ε) (m : EStateM ε' τ α) (s : σ) :
    (zoom get put wrap m).run s =
      match m.run (get s) with
      | .ok a t => .ok a (put t s)
      | .error e t => .error (wrap e) (put t s) := rfl

/-- A program run on a part of the state ends with that part replaced. -/
theorem final_zoom (get : σ → τ) (put : τ → σ → σ) (wrap : ε' → ε) (m : EStateM ε' τ α) (s : σ) :
    final ((zoom get put wrap m).run s) = put (final (m.run (get s))) s := by
  rw [run_zoom]
  cases m.run (get s) <;> rfl

/-- Programs that run alike are the same. -/
theorem eq_of_run {m m' : EStateM ε σ α} (h : ∀ s, m.run s = m'.run s) : m = m' := funext h

/-- Where a part of the state is read back as it was written, a sequence on the part is a sequence
on the whole. -/
theorem zoom_bind {get : σ → τ} {put : τ → σ → σ} {wrap : ε' → ε}
    (hget : ∀ t s, get (put t s) = t) (hput : ∀ t t' s, put t' (put t s) = put t' s)
    (m : EStateM ε' τ α) (f : α → EStateM ε' τ β) :
    zoom get put wrap (m >>= f) = zoom get put wrap m >>= fun a => zoom get put wrap (f a) := by
  refine eq_of_run fun s => ?_
  rw [run_zoom, EStateM.run_bind, EStateM.run_bind, run_zoom]
  cases m.run (get s) with
  | error e t => rfl
  | ok a t =>
      dsimp only
      rw [run_zoom, hget]
      cases (f a).run t <;> simp only [hput]

/-- Run a program that is cut into steps for at most the given number of steps; none when it has not
ended by then. -/
def complete {κ : Type} (step : κ → EStateM ε σ (κ ⊕ α)) : Nat → κ → EStateM ε σ (Option α)
  | 0, _ => pure none
  | n + 1, k => do
      match ← step k with
      | .inl k' => complete step n k'
      | .inr a => pure (some a)

@[simp] theorem run_map (f : α → β) (m : EStateM ε σ α) (s : σ) :
    (f <$> m).run s =
      match m.run s with
      | .ok a s' => .ok (f a) s'
      | .error e s' => .error e s' := by
  show EStateM.map f m s = _
  unfold EStateM.map EStateM.run
  cases m s <;> rfl

@[simp] theorem run_discard (m : EStateM ε σ α) (s : σ) :
    (discard m).run s =
      match m.run s with
      | .ok _ s' => .ok () s'
      | .error e s' => .error e s' := run_map (fun _ => ()) m s

/-- Dropping the value of a program does not change its abort. -/
@[simp] theorem aborted_discard (m : EStateM ε σ α) (s : σ) :
    aborted ((discard m).run s) = aborted (m.run s) := by
  rw [run_discard]
  cases m.run s <;> rfl

/-- A sequence returns exactly when both of its halves do. -/
theorem bind_eq_ok {m : EStateM ε σ α} {f : α → EStateM ε σ β} {s s'' : σ} {b : β} :
    (m >>= f).run s = .ok b s'' ↔
      ∃ a s', m.run s = .ok a s' ∧ (f a).run s' = .ok b s'' := by
  rw [EStateM.run_bind]
  cases hm : m.run s with
  | ok a s' =>
      constructor
      · exact fun h => ⟨a, s', rfl, h⟩
      · rintro ⟨_, _, h, hf⟩
        cases h
        exact hf
  | error e s' => simp

/-- A sequence aborts exactly when its first half does, or returns and the second half does. -/
theorem bind_eq_error {m : EStateM ε σ α} {f : α → EStateM ε σ β} {s s'' : σ} {e : ε} :
    (m >>= f).run s = .error e s'' ↔
      m.run s = .error e s'' ∨ ∃ a s', m.run s = .ok a s' ∧ (f a).run s' = .error e s'' := by
  rw [EStateM.run_bind]
  cases hm : m.run s with
  | ok a s' =>
      constructor
      · exact fun h => .inr ⟨a, s', rfl, h⟩
      · rintro (h | ⟨_, _, h, hf⟩)
        · cases h
        · cases h
          exact hf
  | error e' s' => simp

/-! ## Frames -/

/-- The program leaves the given view of the state as it was, whether it returns or aborts. -/
def Keeps (view : σ → τ) (m : EStateM ε σ α) : Prop :=
  ∀ s, view (final (m.run s)) = view s

variable {view : σ → τ}

theorem keeps_pure (a : α) : Keeps view (pure a : EStateM ε σ α) := fun _ => rfl

theorem keeps_get : Keeps view (get : EStateM ε σ σ) := fun _ => rfl

theorem keeps_abort (e : ε) : Keeps view (abort e : EStateM ε σ α) := fun _ => rfl

theorem keeps_orAbort (e : ε) (o : Option α) :
    Keeps view (orAbort e o : EStateM ε σ α) := by
  cases o with
  | none => exact keeps_abort e
  | some a => exact keeps_pure a

theorem keeps_modify {f : σ → σ} (h : ∀ s, view (f s) = view s) :
    Keeps view (modify f : EStateM ε σ PUnit) := h

/-- A sequence keeps what both of its halves keep. -/
theorem keeps_bind {m : EStateM ε σ α} {f : α → EStateM ε σ β} (hm : Keeps view m)
    (hf : ∀ a, Keeps view (f a)) : Keeps view (m >>= f) := by
  intro s
  have h := hm s
  rw [EStateM.run_bind]
  cases hrun : m.run s with
  | ok a s' =>
      rw [hrun] at h
      exact (hf a s').trans h
  | error e s' =>
      rw [hrun] at h
      exact h

theorem keeps_discard {m : EStateM ε σ α} (hm : Keeps view m) : Keeps view (discard m) := by
  intro s
  have h := hm s
  rw [run_discard]
  cases hrun : m.run s <;> rw [hrun] at h <;> exact h

/-- A body with a cleanup keeps what both keep. -/
theorem keeps_ensure {cleanup : EStateM ε σ Unit} {body : EStateM ε σ α}
    (hbody : Keeps view body) (hcleanup : Keeps view cleanup) :
    Keeps view (ensure cleanup body) := by
  intro s
  have h := hbody s
  rw [run_ensure]
  cases hrun : body.run s with
  | ok a s' =>
      rw [hrun] at h
      have h' := (hcleanup s').trans h
      dsimp only
      cases hclean : cleanup.run s' <;> rw [hclean] at h' <;> exact h'
  | error e s' =>
      rw [hrun] at h
      have h' := (hcleanup s').trans h
      dsimp only
      cases hclean : cleanup.run s' <;> rw [hclean] at h' <;> exact h'

/-- A program on a part of the state keeps every view that writing the part back does not
change. -/
theorem keeps_zoom {ρ : Type} {get : σ → ρ} {put : ρ → σ → σ} {wrap : ε' → ε}
    {m : EStateM ε' ρ α} (h : ∀ t s, view (put t s) = view s) :
    Keeps view (zoom get put wrap m) := by
  intro s
  rw [final_zoom, h]

/-- What a view shows after a sequence is what it shows after the first half, when the second keeps
it. -/
theorem final_bind_of_keeps {m : EStateM ε σ α} {f : α → EStateM ε σ β}
    (hf : ∀ a, Keeps view (f a)) (s : σ) :
    view (final ((m >>= f).run s)) = view (final (m.run s)) := by
  rw [EStateM.run_bind]
  cases hrun : m.run s with
  | ok a s' => exact hf a s'
  | error e s' => rfl

/-- Where a program that keeps a view ends up, for a known result. -/
theorem Keeps.of_run {view : σ → τ} {m : EStateM ε σ α} (h : Keeps view m) {s : σ}
    {result : EStateM.Result ε σ α} (hrun : m.run s = result) :
    view (final result) = view s := by
  rw [← hrun]
  exact h s

/-! ## Aborts -/

/-- The program never aborts in one of the given ways. -/
def Spares (bad : ε → Prop) (m : EStateM ε σ α) : Prop :=
  ∀ s e, aborted (m.run s) = some e → ¬ bad e

variable {bad : ε → Prop}

/-- A program that always returns aborts in no way at all. -/
theorem spares_of_ok {m : EStateM ε σ α} (h : ∀ s, ∃ a s', m.run s = .ok a s') : Spares bad m := by
  intro s e haborted
  obtain ⟨a, s', hrun⟩ := h s
  rw [hrun] at haborted
  cases haborted

theorem spares_abort {e : ε} (h : ¬ bad e) : Spares bad (abort e : EStateM ε σ α) := by
  intro s e' haborted
  cases haborted
  exact h

theorem spares_orAbort {e : ε} (h : ¬ bad e) (o : Option α) :
    Spares bad (orAbort e o : EStateM ε σ α) := by
  cases o with
  | none => exact spares_abort h
  | some a => exact spares_of_ok fun s => ⟨a, s, rfl⟩

/-- A sequence spares what both of its halves spare. -/
theorem spares_bind {m : EStateM ε σ α} {f : α → EStateM ε σ β} (hm : Spares bad m)
    (hf : ∀ a, Spares bad (f a)) : Spares bad (m >>= f) := by
  intro s e haborted
  have h := hm s
  rw [EStateM.run_bind] at haborted
  cases hrun : m.run s with
  | ok a s' =>
      rw [hrun] at haborted
      exact hf a s' e haborted
  | error e' s' =>
      rw [hrun] at haborted h
      exact h e haborted

theorem spares_ensure {cleanup : EStateM ε σ Unit} {body : EStateM ε σ α} (hc : Spares bad cleanup)
    (hb : Spares bad body) : Spares bad (ensure cleanup body) := by
  intro s e haborted
  rw [run_ensure] at haborted
  have hbody := hb s
  cases hrun : body.run s with
  | ok a s' =>
      have hcleanup := hc s'
      rw [hrun] at haborted
      dsimp only at haborted
      cases hclean : cleanup.run s' with
      | ok _ s'' =>
          rw [hclean] at haborted
          cases haborted
      | error e' s'' =>
          rw [hclean] at haborted hcleanup
          exact hcleanup e haborted
  | error e' s' =>
      have hcleanup := hc s'
      rw [hrun] at haborted hbody
      dsimp only at haborted
      cases hclean : cleanup.run s' with
      | ok _ s'' =>
          rw [hclean] at haborted
          exact hbody e haborted
      | error e'' s'' =>
          rw [hclean] at haborted hcleanup
          exact hcleanup e haborted

/-- A program on a part of the state spares what wraps nothing that it spares. -/
theorem spares_zoom {ρ : Type} {get : σ → ρ} {put : ρ → σ → σ} {wrap : ε' → ε}
    {m : EStateM ε' ρ α} (h : Spares (fun e => bad (wrap e)) m) :
    Spares bad (zoom get put wrap m) := by
  intro s e haborted
  have hpart := h (get s)
  rw [run_zoom] at haborted
  cases hrun : m.run (get s) with
  | ok a t =>
      rw [hrun] at haborted
      cases haborted
  | error e' t =>
      rw [hrun] at haborted hpart
      cases haborted
      exact hpart e' rfl

/-! ## Two programs -/

section Together

variable {α' β' σ' : Type} {R : α → σ → α' → σ' → Prop} {E : ε → σ → ε' → σ' → Prop}

/-- Two programs end together: both return, and what they return is related, or both abort, and the
aborts are. -/
def Together (R : α → σ → α' → σ' → Prop) (E : ε → σ → ε' → σ' → Prop) :
    EStateM.Result ε σ α → EStateM.Result ε' σ' α' → Prop
  | .ok a s, .ok a' s' => R a s a' s'
  | .error e s, .error e' s' => E e s e' s'
  | _, _ => False

/-- What ends together, with more said of the results. -/
theorem Together.mono {Q : α → σ → α' → σ' → Prop} {r : EStateM.Result ε σ α}
    {r' : EStateM.Result ε' σ' α'} (h : Together R E r r')
    (hR : ∀ a s a' s', R a s a' s' → Q a s a' s') : Together Q E r r' := by
  cases r with
  | ok a s =>
      cases r' with
      | ok a' s' => exact hR a s a' s' h
      | error e' s' => exact h
  | error e s =>
      cases r' with
      | ok a' s' => exact h
      | error e' s' => exact h

/-- A value that is mapped is related as it was before. -/
theorem Together.of_map {g : β' → α'} {r : EStateM.Result ε σ α} {m : EStateM ε' σ' β'} {s : σ'}
    (h : Together R E r ((g <$> m).run s)) :
    Together (fun a t b t' => R a t (g b) t') E r (m.run s) := by
  rw [run_map] at h
  cases hrun : m.run s with
  | ok b t =>
      rw [hrun] at h
      cases r <;> exact h
  | error e t =>
      rw [hrun] at h
      cases r <;> exact h

/-- Sequences end together when their first halves do, and their second halves after these. -/
theorem Together.bind {Q : β → σ → β' → σ' → Prop} {m : EStateM ε σ α} {m' : EStateM ε' σ' α'}
    {f : α → EStateM ε σ β} {f' : α' → EStateM ε' σ' β'} {s : σ} {s' : σ'}
    (hm : Together R E (m.run s) (m'.run s'))
    (hf : ∀ a t a' t', m'.run s' = .ok a' t' → R a t a' t' →
      Together Q E ((f a).run t) ((f' a').run t')) :
    Together Q E ((m >>= f).run s) ((m' >>= f').run s') := by
  rw [EStateM.run_bind, EStateM.run_bind]
  cases hrun : m.run s with
  | ok a t =>
      cases hrun' : m'.run s' with
      | ok a' t' =>
          rw [hrun, hrun'] at hm
          exact hf a t a' t' hrun' hm
      | error e' t' =>
          rw [hrun, hrun'] at hm
          exact hm.elim
  | error e t =>
      cases hrun' : m'.run s' with
      | ok a' t' =>
          rw [hrun, hrun'] at hm
          exact hm.elim
      | error e' t' =>
          rw [hrun, hrun'] at hm
          exact hm

end Together

end Foundation
