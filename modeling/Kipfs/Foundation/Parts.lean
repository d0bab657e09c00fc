import Kipfs.Foundation.Effects

/-!
# Programs that ignore a part of the state

A `Part` of a state can be read and overwritten. A program ignores a part when it neither looks at
it nor changes it: overwriting the part before a run comes to the same as overwriting it after
(`Ignores`). A program implements another, but for a part, when it does what the other does and may
leave the part in any way (`Implements`). Both are kept by sequences, so that a program built from
implementations implements the program built from what they implement.
-/

namespace Foundation

/-- A part of a state, with the laws of reading and overwriting it. -/
structure Part (σ τ : Type) where
  get : σ → τ
  put : τ → σ → σ
  get_put : ∀ t s, get (put t s) = t
  put_get : ∀ s, put (get s) s = s
  put_put : ∀ t t' s, put t (put t' s) = put t s

variable {σ τ ε α β : Type}

/-- A result, with a part of its state overwritten. -/
def Part.overwrite (part : Part σ τ) (t : τ) : EStateM.Result ε σ α → EStateM.Result ε σ α
  | .ok a s => .ok a (part.put t s)
  | .error e s => .error e (part.put t s)

/-- The program neither looks at the part nor changes it. -/
def Ignores (part : Part σ τ) (m : EStateM ε σ α) : Prop :=
  ∀ s t, m.run (part.put t s) = part.overwrite t (m.run s)

/-- The program does what the other does, but for the part. -/
def Implements (part : Part σ τ) (m m' : EStateM ε σ α) : Prop :=
  ∀ s, ∃ t, m.run s = part.overwrite t (m'.run s)

variable {part : Part σ τ}

@[simp] theorem overwrite_ok (t : τ) (a : α) (s : σ) :
    part.overwrite t (.ok a s : EStateM.Result ε σ α) = .ok a (part.put t s) := rfl

@[simp] theorem overwrite_error (t : τ) (e : ε) (s : σ) :
    part.overwrite t (.error e s : EStateM.Result ε σ α) = .error e (part.put t s) := rfl

@[simp] theorem overwrite_overwrite (t t' : τ) (result : EStateM.Result ε σ α) :
    part.overwrite t (part.overwrite t' result) = part.overwrite t result := by
  cases result <;> simp [part.put_put]

@[simp] theorem aborted_overwrite (t : τ) (result : EStateM.Result ε σ α) :
    aborted (part.overwrite t result) = aborted result := by
  cases result <;> rfl

/-! ## Ignoring a part -/

theorem ignores_pure (a : α) : Ignores part (pure a : EStateM ε σ α) := fun _ _ => rfl

theorem ignores_abort (e : ε) : Ignores part (abort e : EStateM ε σ α) := fun _ _ => rfl

theorem ignores_orAbort (e : ε) (o : Option α) : Ignores part (orAbort e o) := by
  cases o with
  | none => exact ignores_abort e
  | some a => exact ignores_pure a

theorem ignores_modify {f : σ → σ} (h : ∀ s t, f (part.put t s) = part.put t (f s)) :
    Ignores part (modify f : EStateM ε σ PUnit) :=
  fun s t => congrArg (EStateM.Result.ok PUnit.unit) (h s t)

/-- A sequence ignores what both of its halves ignore. -/
theorem ignores_bind {m : EStateM ε σ α} {f : α → EStateM ε σ β} (hm : Ignores part m)
    (hf : ∀ a, Ignores part (f a)) : Ignores part (m >>= f) := by
  intro s t
  rw [EStateM.run_bind, EStateM.run_bind, hm s t]
  cases m.run s with
  | ok a s' => exact hf a s' t
  | error e s' => rfl

/-- Reading the state ignores a part that what follows does not depend on. -/
theorem ignores_get {f : σ → EStateM ε σ β} (h : ∀ s t, f (part.put t s) = f s)
    (hf : ∀ s, Ignores part (f s)) : Ignores part (get >>= f) := by
  intro s t
  show (f (part.put t s)).run (part.put t s) = part.overwrite t ((f s).run s)
  rw [h s t]
  exact hf s s t

/-- A program on one part ignores another, when overwriting the two commutes. -/
theorem ignores_zoom {ρ ε' : Type} {get : σ → ρ} {put : ρ → σ → σ} {wrap : ε' → ε}
    {m : EStateM ε' ρ α} (hget : ∀ s t, get (part.put t s) = get s)
    (hput : ∀ x s t, put x (part.put t s) = part.put t (put x s)) :
    Ignores part (zoom get put wrap m) := by
  intro s t
  rw [run_zoom, run_zoom, hget]
  cases m.run (get s) <;> simp [hput]

/-- What a program ignores it leaves as it was. -/
theorem Ignores.keeps {m : EStateM ε σ α} (h : Ignores part m) : Keeps part.get m := by
  intro s
  have hrun := h s (part.get s)
  rw [part.put_get] at hrun
  rw [hrun]
  cases m.run s <;> simp [part.get_put]

theorem Ignores.discard {m : EStateM ε σ α} (h : Ignores part m) : Ignores part (discard m) := by
  intro s t
  rw [run_discard, run_discard, h s t]
  cases m.run s <;> rfl

/-! ## Doing the same, but for a part -/

/-- A program that ignores the part implements itself. -/
theorem Ignores.implements {m : EStateM ε σ α} (h : Ignores part m) : Implements part m m := by
  intro s
  refine ⟨part.get s, ?_⟩
  rw [← h s, part.put_get]

theorem Implements.discard {m m' : EStateM ε σ α} (h : Implements part m m') :
    Implements part (discard m) (discard m') := by
  intro s
  obtain ⟨t, hrun⟩ := h s
  refine ⟨t, ?_⟩
  rw [run_discard, run_discard, hrun]
  cases m'.run s <;> rfl

/-- A sequence implements a sequence, when its halves implement the halves and the second of these
ignores the part. -/
theorem Implements.bind {m m' : EStateM ε σ α} {f f' : α → EStateM ε σ β}
    (hm : Implements part m m') (hf : ∀ a, Implements part (f a) (f' a))
    (hf' : ∀ a, Ignores part (f' a)) : Implements part (m >>= f) (m' >>= f') := by
  intro s
  obtain ⟨t, hrun⟩ := hm s
  rw [EStateM.run_bind, EStateM.run_bind, hrun]
  cases m'.run s with
  | error e s' => exact ⟨t, rfl⟩
  | ok a s' =>
      -- the second half starts where the first has left the part, which its model ignores
      obtain ⟨t', hrun'⟩ := hf a (part.put t s')
      refine ⟨t', ?_⟩
      show (f a).run (part.put t s') = _
      rw [hrun', hf' a, overwrite_overwrite]

end Foundation
