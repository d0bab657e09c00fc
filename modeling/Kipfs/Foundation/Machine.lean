import Mathlib.Data.List.Basic

/-!
# Runs of a labelled machine

A machine is a partial step function `step : σ → ℓ → Option σ`: the label says which move is
made, and `none` says that the move is not possible in the state, or that it ended the system.
`run` folds the step over a list of labels. The rules below turn a fact about one step into a
fact about every run: `run_invariant` for an invariant that every step preserves,
`run_invariant_along` for one that is preserved by the steps which meet a side condition (`Along`),
`run_descends` for a part of the machine that ends after enough steps of its own, and
`run_corresponds` and `run_agrees` for two machines that go on together.
-/

namespace Foundation

variable {σ ℓ : Type}

/-- Make the moves in order; the run exists when each move was possible. -/
def run (step : σ → ℓ → Option σ) : σ → List ℓ → Option σ
  | s, [] => some s
  | s, l :: ls => (step s l).bind fun s' => run step s' ls

variable {step : σ → ℓ → Option σ}

@[simp] theorem run_nil (s : σ) : run step s [] = some s := rfl

theorem run_cons (s : σ) (l : ℓ) (ls : List ℓ) :
    run step s (l :: ls) = (step s l).bind fun s' => run step s' ls := rfl

/-- The first move of a run that exists. -/
theorem run_cons_eq_some {s s'' : σ} {l : ℓ} {ls : List ℓ} :
    run step s (l :: ls) = some s'' ↔ ∃ s', step s l = some s' ∧ run step s' ls = some s'' := by
  rw [run_cons, Option.bind_eq_some_iff]

/-- Running two lists of moves is running the first and then the second. -/
theorem run_append (s : σ) (first second : List ℓ) :
    run step s (first ++ second) = (run step s first).bind fun s' => run step s' second := by
  induction first generalizing s with
  | nil => rfl
  | cons l ls ih =>
      rw [List.cons_append, run_cons, run_cons]
      cases step s l with
      | none => rfl
      | some s' => exact ih s'

/-- The last move of a run that exists. -/
theorem run_snoc_eq_some {s s'' : σ} {ls : List ℓ} {l : ℓ} :
    run step s (ls ++ [l]) = some s'' ↔
      ∃ s', run step s ls = some s' ∧ step s' l = some s'' := by
  rw [run_append, Option.bind_eq_some_iff]
  simp [run_cons_eq_some]

/-- What every step preserves holds at the end of every run. -/
theorem run_invariant {Inv : σ → Prop} (hstep : ∀ s l s', Inv s → step s l = some s' → Inv s')
    {s s' : σ} {ls : List ℓ} (hinit : Inv s) (hrun : run step s ls = some s') : Inv s' := by
  induction ls generalizing s with
  | nil =>
      cases hrun
      exact hinit
  | cons l ls ih =>
      obtain ⟨middle, hmove, hrest⟩ := run_cons_eq_some.mp hrun
      exact ih (hstep s l middle hinit hmove) hrest

/-- Every move of the run is made in a state where it meets the condition. -/
def Along (step : σ → ℓ → Option σ) (P : σ → ℓ → Prop) : σ → List ℓ → Prop
  | _, [] => True
  | s, l :: ls => P s l ∧ ∀ s', step s l = some s' → Along step P s' ls

/-- What the steps meeting a condition preserve holds at the end of every run of such steps. -/
theorem run_invariant_along {Inv : σ → Prop} {P : σ → ℓ → Prop}
    (hstep : ∀ s l s', Inv s → P s l → step s l = some s' → Inv s')
    {s s' : σ} {ls : List ℓ} (hinit : Inv s) (halong : Along step P s ls)
    (hrun : run step s ls = some s') : Inv s' := by
  induction ls generalizing s with
  | nil =>
      cases hrun
      exact hinit
  | cons l ls ih =>
      obtain ⟨middle, hmove, hrest⟩ := run_cons_eq_some.mp hrun
      exact ih (hstep s l middle hinit halong.1 hmove) (halong.2 middle hmove) hrest

/-- A condition that the moves meet in every state. -/
theorem along_of_forall {P : σ → ℓ → Prop} {s : σ} {ls : List ℓ} (h : ∀ l ∈ ls, ∀ s, P s l) :
    Along step P s ls := by
  induction ls generalizing s with
  | nil => trivial
  | cons l ls ih =>
      exact ⟨h l List.mem_cons_self s, fun _ _ => ih fun l hl => h l (.tail _ hl)⟩

/-- An invariant of the steps meeting one condition may show that they meet another. -/
theorem Along.of_invariant {Inv : σ → Prop} {P Q : σ → ℓ → Prop}
    (hstep : ∀ s l s', Inv s → P s l → step s l = some s' → Inv s')
    (himp : ∀ s l, Inv s → P s l → Q s l) {s : σ} {ls : List ℓ} (hinit : Inv s)
    (halong : Along step P s ls) : Along step Q s ls := by
  induction ls generalizing s with
  | nil => trivial
  | cons l ls ih =>
      exact ⟨himp s l hinit halong.1, fun s' hmove =>
        ih (hstep s l s' hinit halong.1 hmove) (halong.2 s' hmove)⟩

instance decidableAlong {P : σ → ℓ → Prop} [∀ s l, Decidable (P s l)] :
    ∀ s ls, Decidable (Along step P s ls)
  | _, [] => .isTrue trivial
  | s, l :: ls =>
      have := fun s' => decidableAlong (P := P) s' ls
      inferInstanceAs (Decidable (P s l ∧ ∀ s' ∈ step s l, Along step P s' ls))

/-- What takes steps of its own, each of which brings it closer to its end, and none of which is
undone by other steps, ends within as many steps of its own as it was away from its end. -/
theorem run_descends [DecidableEq ℓ] {rank : σ → Nat} {own : ℓ}
    (hown : ∀ s s', step s own = some s' → rank s' < rank s)
    (hothers : ∀ s l s', l ≠ own → 0 < rank s → step s l = some s' → rank s' ≤ rank s)
    {s s' : σ} {ls : List ℓ} (hrun : run step s ls = some s') (hmany : rank s ≤ ls.count own) :
    ∃ first rest s'', ls = first ++ rest ∧ run step s first = some s'' ∧ rank s'' = 0 ∧
      first.count own ≤ rank s := by
  induction ls generalizing s with
  | nil => exact ⟨[], [], s, rfl, rfl, Nat.eq_zero_of_le_zero hmany, Nat.zero_le _⟩
  | cons l ls ih =>
      by_cases hzero : rank s = 0
      · exact ⟨[], l :: ls, s, rfl, rfl, hzero, Nat.zero_le _⟩
      · obtain ⟨middle, hmove, hrest⟩ := run_cons_eq_some.mp hrun
        rw [List.count_cons] at hmany
        -- a step of its own pays for itself, and the others cost nothing
        have hstep : rank middle + (if l = own then 1 else 0) ≤ rank s := by
          split
          · rename_i heq
            exact hown s middle (heq ▸ hmove)
          · exact hothers s l middle ‹_› (Nat.pos_of_ne_zero hzero) hmove
        obtain ⟨first, rest, s'', rfl, hfirst, hend, hcount⟩ := ih hrest (by
          simp only [beq_iff_eq] at hmany
          omega)
        refine ⟨l :: first, rest, s'', rfl, ?_, hend, ?_⟩
        · rw [run_cons, hmove]
          exact hfirst
        · rw [List.count_cons]
          simp only [beq_iff_eq]
          omega

/-! ## Two machines -/

section Correspondence

variable {τ : Type} {R : σ → τ → Prop}

/-- What one move comes to on two machines: related states, nothing on both, or nothing on the first
machine alone, with an excuse. -/
def Corresponds (R : σ → τ → Prop) (excuse : Prop) : Option σ → Option τ → Prop
  | some s, some t => R s t
  | none, none => True
  | none, some _ => excuse
  | some _, none => False

/-- What the first machine comes to is matched by the second. -/
theorem Corresponds.of_some {excuse : Prop} {s : σ} {o : Option τ}
    (h : Corresponds R excuse (some s) o) : ∃ t, o = some t ∧ R s t := by
  cases o with
  | none => cases h
  | some t => exact ⟨t, rfl, h⟩

/-- The run of the first machine gets to a move that is excused. -/
def Excused (step : σ → ℓ → Option σ) (excuse : σ → ℓ → Prop) (s : σ) (ls : List ℓ) : Prop :=
  ∃ before l after s', ls = before ++ l :: after ∧ run step s before = some s' ∧ excuse s' l

/-- Machines whose moves correspond have runs that correspond. -/
theorem run_corresponds {step' : τ → ℓ → Option τ} {excuse : σ → ℓ → Prop}
    (hstep : ∀ s t l, R s t → Corresponds R (excuse s l) (step s l) (step' t l)) {s : σ} {t : τ}
    (ls : List ℓ) (hrelated : R s t) :
    Corresponds R (Excused step excuse s ls) (run step s ls) (run step' t ls) := by
  induction ls generalizing s t with
  | nil => exact hrelated
  | cons l ls ih =>
      have hmove := hstep s t l hrelated
      rw [run_cons, run_cons]
      cases hs : step s l with
      | none =>
          cases ht : step' t l with
          | none => trivial
          | some t' =>
              rw [hs, ht] at hmove
              show Corresponds R _ none (run step' t' ls)
              cases run step' t' ls with
              | none => trivial
              | some t'' => exact ⟨[], l, ls, s, rfl, rfl, hmove⟩
      | some s' =>
          cases ht : step' t l with
          | none =>
              rw [hs, ht] at hmove
              cases hmove
          | some t' =>
              rw [hs, ht] at hmove
              have hrest := ih hmove
              show Corresponds R _ (run step s' ls) (run step' t' ls)
              cases hs' : run step s' ls with
              | some s'' =>
                  rw [hs'] at hrest
                  obtain ⟨t'', ht', hend⟩ := hrest.of_some
                  rw [ht']
                  exact hend
              | none =>
                  rw [hs'] at hrest
                  cases ht' : run step' t' ls with
                  | none => trivial
                  | some t'' =>
                      -- the excused move comes after the first one
                      rw [ht'] at hrest
                      obtain ⟨before, l', after, s₁, rfl, hbefore, hexcuse⟩ := hrest
                      refine ⟨l :: before, l', after, s₁, rfl, ?_, hexcuse⟩
                      rw [run_cons, hs]
                      exact hbefore

/-- The run gets to an excused move with its first move, or after it. -/
theorem excused_cons {excuse : σ → ℓ → Prop} {s : σ} {l : ℓ} {ls : List ℓ} :
    Excused step excuse s (l :: ls) ↔
      excuse s l ∨ ∃ s', step s l = some s' ∧ Excused step excuse s' ls := by
  constructor
  · rintro ⟨_ | ⟨l', before⟩, l'', after, s'', hsplit, hbefore, hexcuse⟩
    · cases hsplit
      cases hbefore
      exact .inl hexcuse
    · cases hsplit
      obtain ⟨s', hmove, hrest⟩ := run_cons_eq_some.mp hbefore
      exact .inr ⟨s', hmove, before, l'', after, s'', rfl, hrest, hexcuse⟩
  · rintro (hexcuse | ⟨s', hmove, before, l', after, s'', rfl, hbefore, hexcuse⟩)
    · exact ⟨[], l, ls, s, rfl, rfl, hexcuse⟩
    · exact ⟨l :: before, l', after, s'', rfl, run_cons_eq_some.mpr ⟨s', hmove, hbefore⟩, hexcuse⟩

/-- A machine that ends at some moves, and makes all others as another machine does, ends in the
runs that get to such a move, and has all others in common. -/
theorem run_agrees {step' : σ → ℓ → Option σ} {Inv : σ → Prop} {ends : σ → ℓ → Prop} {ls : List ℓ}
    (hends : ∀ s, ∀ l ∈ ls, Inv s → ends s l → step s l = none)
    (hagrees : ∀ s, ∀ l ∈ ls, Inv s → ¬ ends s l → step s l = step' s l)
    (hinv : ∀ s, ∀ l ∈ ls, ∀ s', Inv s → step' s l = some s' → Inv s') {s : σ} (hinit : Inv s) :
    (Excused step' ends s ls → run step s ls = none) ∧
      (¬ Excused step' ends s ls → run step s ls = run step' s ls) := by
  induction ls generalizing s with
  | nil => exact ⟨fun ⟨before, l, after, _, hsplit, _⟩ => by simp at hsplit, fun _ => rfl⟩
  | cons l ls ih =>
      have hl : l ∈ l :: ls := List.mem_cons_self
      rw [excused_cons, run_cons, run_cons]
      by_cases hend : ends s l
      · rw [hends s l hl hinit hend]
        exact ⟨fun _ => rfl, fun hnot => absurd (.inl hend) hnot⟩
      · rw [hagrees s l hl hinit hend]
        cases hmove : step' s l with
        | none => exact ⟨fun _ => rfl, fun _ => rfl⟩
        | some s' =>
            -- the rest of the run starts where the first move has led both machines
            obtain ⟨hexcused, hnot⟩ := ih (fun s l h => hends s l (.tail _ h))
              (fun s l h => hagrees s l (.tail _ h)) (fun s l h => hinv s l (.tail _ h))
              (hinv s l hl s' hinit hmove)
            constructor
            · rintro (hfirst | ⟨s'', hs'', hlater⟩)
              · exact absurd hfirst hend
              · cases hs''
                exact hexcused hlater
            · exact fun hnever => hnot fun hlater => hnever (.inr ⟨s', rfl, hlater⟩)

end Correspondence

end Foundation
