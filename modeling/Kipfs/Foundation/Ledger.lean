import Mathlib.Data.List.Basic

/-!
# A ledger of foreign resources

A ledger lists the resources a program holds and must give back: allocated blocks, borrowed
buffers. `add` enters a resource under an identifier never used before, `remove` takes it out,
and removing what is not there fails, so that a second release of a resource is seen as an
error. A program is balanced when it ends with the list it started from.
-/

namespace Foundation

/-- The resources held, each under its identifier. Identifiers are below `next`, so the next one
is not in use and was never used before. -/
structure Ledger (ρ : Type) where
  live : List (Nat × ρ)
  next : Nat
  bounded : ∀ entry ∈ live, entry.1 < next

variable {ρ : Type}

namespace Ledger

/-- A ledger that holds nothing. -/
def empty : Ledger ρ where
  live := []
  next := 0
  bounded _ h := nomatch h

/-- Hold one more resource, under the identifier `l.next`. -/
def add (l : Ledger ρ) (x : ρ) : Ledger ρ where
  live := (l.next, x) :: l.live
  next := l.next + 1
  bounded entry h := by
    rcases List.mem_cons.mp h with rfl | h
    · exact Nat.lt_succ_self _
    · exact Nat.lt_succ_of_lt (l.bounded entry h)

/-- The resource held under an identifier. -/
def find (l : Ledger ρ) (id : Nat) : Option ρ := l.live.lookup id

/-- Give back the resource held under an identifier; fails when there is none. -/
def remove (l : Ledger ρ) (id : Nat) : Option (Ledger ρ) :=
  if (l.find id).isSome then
    some
      { live := l.live.eraseP fun entry => id == entry.1
        next := l.next
        bounded := fun entry h => l.bounded entry (List.mem_of_mem_eraseP h) }
  else none

/-- The ledger with its next identifier used up. -/
def skip (l : Ledger ρ) : Ledger ρ where
  live := l.live
  next := l.next + 1
  bounded entry h := Nat.lt_succ_of_lt (l.bounded entry h)

@[simp] theorem next_add (l : Ledger ρ) (x : ρ) : (l.add x).next = l.next + 1 := (rfl)

@[simp] theorem live_add (l : Ledger ρ) (x : ρ) : (l.add x).live = (l.next, x) :: l.live := rfl

@[simp] theorem next_skip (l : Ledger ρ) : l.skip.next = l.next + 1 := (rfl)

@[simp] theorem live_skip (l : Ledger ρ) : l.skip.live = l.live := rfl

@[simp] theorem find_add_self (l : Ledger ρ) (x : ρ) : (l.add x).find l.next = some x := by
  simp [find, add]

/-- The newest resource, by an identifier that is only provably its own. -/
@[simp] theorem find_add_of_eq (l : Ledger ρ) (x : ρ) {id : Nat} (h : id = l.next) :
    (l.add x).find id = some x := by
  rw [h, find_add_self]

/-- A new resource hides no other. -/
@[simp] theorem find_add_of_ne (l : Ledger ρ) (x : ρ) {id : Nat} (h : id ≠ l.next) :
    (l.add x).find id = l.find id := by
  have hb : (id == l.next) = false := beq_eq_false_iff_ne.mpr h
  simp [find, add, List.lookup_cons, hb]

/-- Giving back the resource entered last leaves what was held before it. -/
@[simp] theorem remove_add_self (l : Ledger ρ) (x : ρ) : (l.add x).remove l.next = some l.skip := by
  have hfind : ((l.add x).find l.next).isSome := by simp
  unfold remove
  rw [if_pos hfind]
  simp [skip]

/-- Giving back the newest resource, by an identifier that is only provably its own. -/
@[simp] theorem remove_add_of_eq (l : Ledger ρ) (x : ρ) {id : Nat} (h : id = l.next) :
    (l.add x).remove id = some l.skip := by
  rw [h, remove_add_self]

/-- An older resource is given back as if the newest had not been entered. -/
@[simp] theorem remove_add_of_ne (l : Ledger ρ) (x : ρ) {id : Nat} (h : id ≠ l.next) :
    (l.add x).remove id = (l.remove id).map fun l' => l'.add x := by
  have hb : (id == l.next) = false := beq_eq_false_iff_ne.mpr h
  unfold remove
  rw [find_add_of_ne l x h]
  split
  · simp [add, hb]
  · rfl

end Ledger

end Foundation
