import Kipfs.Foundation.RefTable

/-!
# Credits against a counted table

Several parties share a counted table. A party that has retained a handle and has yet to release
it holds a credit for that handle. `Backed` says that the table covers all credits: every issued
handle is retained once for good, and once more for each credit. Under it, a handle that stands for
an object can be retained, a credit can be redeemed by a release, a new handle comes without
credits, and no handle ever goes away (`Extends`). The credits of many parties are summed over a
list; `sum_map_set` takes one of them out of the sum.
-/

namespace Foundation

variable {Obj : Type}

/-- Every issued handle is retained once, and once more for each credit; there are no credits for
other handles. -/
def Backed (t : RefTable Obj) (credit : Int → Nat) : Prop :=
  ∀ r, (r ∈ t.issued → t.count r = 1 + credit r) ∧ (r ∉ t.issued → credit r = 0)

/-- Whatever a handle stands for it goes on standing for. -/
def Extends (t t' : RefTable Obj) : Prop :=
  ∀ r obj, t.lookup r = some obj → t'.lookup r = some obj

theorem Extends.refl (t : RefTable Obj) : Extends t t := fun _ _ h => h

theorem extends_of_lookup_eq {t t' : RefTable Obj} (h : ∀ q, t'.lookup q = t.lookup q) :
    Extends t t' := fun r obj hlookup => by rw [h r, hlookup]

namespace RefTable

/-- A handle that stands for an object is negative. -/
theorem neg_of_lookup {t : RefTable Obj} {r : Int} {obj : Obj} (h : t.lookup r = some obj) :
    r < 0 := t.negative r (issued_of_lookup h)

end RefTable

namespace Backed

variable {t t' : RefTable Obj} {credit credit' : Int → Nat} {r : Int} {obj : Obj}

theorem empty : Backed (RefTable.empty : RefTable Obj) fun _ => 0 :=
  fun _ => ⟨nofun, fun _ => rfl⟩

/-- Only the sum of the credits for each handle matters. -/
theorem congr (h : Backed t credit) (hcredit : ∀ r, credit' r = credit r) : Backed t credit' := by
  intro r
  rw [hcredit]
  exact h r

/-- Retaining a handle that stands for an object gives a credit for it. -/
theorem inc (h : Backed t credit) (hlookup : t.lookup r = some obj)
    (hcredit : ∀ q, credit' q = credit q + if q = r then 1 else 0) :
    ∃ t', t.inc r = some t' ∧ Backed t' credit' ∧ Extends t t' := by
  obtain ⟨t', hinc⟩ := RefTable.inc_of_lookup hlookup
  obtain ⟨hissued, hkept, hcount⟩ := RefTable.inc_spec hinc
  refine ⟨t', hinc, fun q => ?_, extends_of_lookup_eq hkept⟩
  rw [hissued, hcount, hcredit]
  refine ⟨fun hq => ?_, fun hq => ?_⟩
  · rw [(h q).1 hq]
    omega
  · have hne : q ≠ r := fun heq => hq (heq ▸ RefTable.issued_of_lookup hlookup)
    rw [(h q).2 hq, if_neg hne]

/-- A credit is redeemed by releasing its handle, which goes on standing for its object. -/
theorem delete (h : Backed t credit)
    (hcredit : ∀ q, credit q = credit' q + if q = r then 1 else 0) :
    ∃ t', t.delete r = some t' ∧ Backed t' credit' ∧ Extends t t' := by
  have hown : credit r = credit' r + 1 := by simpa using hcredit r
  have hissued : r ∈ t.issued := by
    by_contra hnot
    have := (h r).2 hnot
    omega
  -- with the credit the count is at least two, so the entry stays
  have hcount := (h r).1 hissued
  obtain ⟨obj, hlookup⟩ := RefTable.count_pos_iff.mp (by omega : 0 < t.count r)
  obtain ⟨t', hdelete⟩ := RefTable.delete_of_lookup hlookup
  obtain ⟨hissued', _, hcount'⟩ := RefTable.delete_spec hdelete
  refine ⟨t', hdelete, fun q => ?_,
    extends_of_lookup_eq (RefTable.lookup_delete hdelete (by omega))⟩
  rw [hissued']
  have hq := h q
  have hcountq := hcount' q
  have hcreditq := hcredit q
  refine ⟨fun hmem => ?_, fun hmem => ?_⟩
  · have := hq.1 hmem
    omega
  · have := hq.2 hmem
    omega

/-- A new object comes under a handle without credits. -/
theorem toRefNum {num : Numbering} (h : Backed t credit)
    (hnew : RefTable.toRefNum num obj t = some (r, t')) :
    Backed t' credit ∧ t'.lookup r = some obj ∧ Extends t t' := by
  obtain ⟨_, hfresh, hnone, hissued, hlookup, hcount⟩ := RefTable.toRefNum_spec hnew
  refine ⟨fun q => ?_, by rw [hlookup, if_pos rfl], fun q obj' hq => ?_⟩
  · rw [hissued, hcount, List.mem_cons]
    by_cases hq : q = r
    · subst hq
      refine ⟨fun _ => ?_, fun hnot => absurd (.inl rfl) hnot⟩
      rw [if_pos rfl, (h q).2 hfresh]
    · rw [if_neg hq]
      refine ⟨fun hmem => (h q).1 (hmem.resolve_left hq), fun hmem => (h q).2 ?_⟩
      exact fun hissued => hmem (.inr hissued)
  · have hne : q ≠ r := fun heq => by rw [heq, hnone] at hq; cases hq
    rw [hlookup, if_neg hne, hq]

end Backed

/-! ## Sums over a list of parties -/

/-- The sums over a list, with the summands of one element taken out. -/
theorem sum_map_set {α ι : Type} {l : List α} {i : Nat} {x : α} (f : α → ι → Nat)
    (h : l[i]? = some x) :
    ∃ rest : ι → Nat, (∀ q, (l.map (f · q)).sum = rest q + f x q) ∧
      ∀ y q, ((l.set i y).map (f · q)).sum = rest q + f y q := by
  induction l generalizing i with
  | nil => cases h
  | cons y l ih =>
      cases i with
      | zero =>
          cases h
          refine ⟨fun q => (l.map (f · q)).sum, fun q => ?_, fun z q => ?_⟩
          · rw [List.map_cons, List.sum_cons, Nat.add_comm]
          · rw [List.set_cons_zero, List.map_cons, List.sum_cons, Nat.add_comm]
      | succ i =>
          obtain ⟨rest, hsum, hset⟩ := ih h
          refine ⟨fun q => f y q + rest q, fun q => ?_, fun z q => ?_⟩
          · rw [List.map_cons, List.sum_cons, hsum, Nat.add_assoc]
          · rw [List.set_cons_succ, List.map_cons, List.sum_cons, hset, Nat.add_assoc]

/-- What holds of all elements and of a new one holds after the new one has been put in. -/
theorem forall_mem_set {α : Type} {P : α → Prop} {l : List α} (h : ∀ x ∈ l, P x) {y : α} (hy : P y)
    (i : Nat) : ∀ x ∈ l.set i y, P x := by
  intro x hx
  rcases List.mem_or_eq_of_mem_set hx with hx | rfl
  · exact h x hx
  · exact hy

end Foundation
