import Mathlib.Algebra.Order.Ring.Int

/-!
# Counted reference tables

A reference table lends objects to a foreign party under integer handles. Every entry holds an
object and the positive number of times it is retained; the entry goes away with the last
release. `RefTable` also records the handles it has issued, so that a new handle is one never
issued before. Each operation has one specification, in terms of `lookup` (which object a
handle stands for) and `count` (how often it is retained, zero when it is absent).
-/

namespace Foundation

/-- An object and the positive number of times it is retained. -/
@[ext]
structure Entry (Obj : Type) where
  obj : Obj
  cnt : Nat
  pos : 0 < cnt

/-- The entries by handle, together with the handles issued so far. -/
@[ext]
structure RefTable (Obj : Type) where
  objs : Int → Option (Entry Obj)
  issued : List Int
  unissued : ∀ r, r ∉ issued → objs r = none
  negative : ∀ r ∈ issued, r < 0

/-- How a table numbers its handles: from those issued so far, a new negative one, or none when
the numbers have run out. -/
structure Numbering where
  next : List Int → Option Int
  negative : ∀ issued r, next issued = some r → r < 0
  fresh : ∀ issued r, next issued = some r → r ∉ issued

variable {Obj : Type}

namespace Entry

/-- One more retainer. -/
def retain (e : Entry Obj) : Entry Obj := ⟨e.obj, e.cnt + 1, Nat.succ_pos _⟩

/-- One retainer fewer, and no entry after the last. -/
def release (e : Entry Obj) : Option (Entry Obj) :=
  if h : 1 < e.cnt then some ⟨e.obj, e.cnt - 1, by omega⟩ else none

/-- Releasing what was just retained changes nothing. -/
theorem release_retain (e : Entry Obj) : e.retain.release = some e := by
  have h : 1 < e.cnt + 1 := Nat.succ_lt_succ e.pos
  simp [retain, release, h]

end Entry

namespace RefTable

/-- A table that has issued nothing. -/
def empty : RefTable Obj where
  objs _ := none
  issued := []
  unissued _ _ := rfl
  negative _ h := nomatch h

/-- The object a handle stands for. -/
def lookup (t : RefTable Obj) (r : Int) : Option Obj := (t.objs r).map Entry.obj

/-- How often a handle is retained; zero when it is absent. -/
def count (t : RefTable Obj) (r : Int) : Nat := ((t.objs r).map Entry.cnt).getD 0

/-- Change the entry of one handle; an absent entry stays absent. -/
def adjust (t : RefTable Obj) (r : Int) (f : Entry Obj → Option (Entry Obj)) : RefTable Obj where
  objs q := if q = r then (t.objs q).bind f else t.objs q
  issued := t.issued
  unissued q hq := by simp [t.unissued q hq]
  negative := t.negative

/-- Retain a handle; fails on an absent one. -/
def inc (t : RefTable Obj) (r : Int) : Option (RefTable Obj) :=
  (t.objs r).map fun _ => t.adjust r fun e => some e.retain

/-- Release a handle; fails on an absent one. -/
def delete (t : RefTable Obj) (r : Int) : Option (RefTable Obj) :=
  (t.objs r).map fun _ => t.adjust r Entry.release

/-- The table with an object entered under the handle `r`, retained once. -/
def enter (t : RefTable Obj) (r : Int) (obj : Obj) (hneg : r < 0) : RefTable Obj where
  objs q := if q = r then some ⟨obj, 1, Nat.one_pos⟩ else t.objs q
  issued := r :: t.issued
  unissued q hq := by
    rw [List.mem_cons, not_or] at hq
    rw [if_neg hq.1, t.unissued q hq.2]
  negative q hq := by
    rcases List.mem_cons.mp hq with rfl | hq
    · exact hneg
    · exact t.negative q hq

/-- Enter a new object under a new handle; fails when the numbers have run out. -/
def toRefNum (num : Numbering) (obj : Obj) (t : RefTable Obj) : Option (Int × RefTable Obj) :=
  match h : num.next t.issued with
  | none => none
  | some r => some (r, t.enter r obj (num.negative _ _ h))

/-- A handle is retained exactly when it stands for an object. -/
theorem count_pos_iff {t : RefTable Obj} {r : Int} :
    0 < t.count r ↔ ∃ obj, t.lookup r = some obj := by
  unfold count lookup
  cases t.objs r with
  | none => simp
  | some e => simp [e.pos]

/-- A handle is absent exactly when its count is zero. -/
theorem count_eq_zero_iff {t : RefTable Obj} {r : Int} :
    t.count r = 0 ↔ t.lookup r = none := by
  unfold count lookup
  cases t.objs r with
  | none => simp
  | some e => simp [Nat.ne_of_gt e.pos]

/-- A handle that stands for an object has been issued. -/
theorem issued_of_lookup {t : RefTable Obj} {r : Int} {obj : Obj} (h : t.lookup r = some obj) :
    r ∈ t.issued := by
  by_contra hr
  rw [lookup, t.unissued r hr] at h
  cases h

/-! ## Retaining -/

/-- A present handle can be retained. -/
theorem inc_of_lookup {t : RefTable Obj} {r : Int} {obj : Obj} (h : t.lookup r = some obj) :
    ∃ t', t.inc r = some t' := by
  obtain ⟨e, he, _⟩ := Option.map_eq_some_iff.mp h
  exact ⟨_, by rw [inc, he]; rfl⟩

/-- Retaining keeps every object and adds one to the count of its handle. -/
theorem inc_spec {t t' : RefTable Obj} {r : Int} (h : t.inc r = some t') :
    t'.issued = t.issued ∧ (∀ q, t'.lookup q = t.lookup q) ∧
      ∀ q, t'.count q = t.count q + if q = r then 1 else 0 := by
  obtain ⟨e, he, rfl⟩ := Option.map_eq_some_iff.mp h
  refine ⟨rfl, fun q => ?_, fun q => ?_⟩
  · by_cases hq : q = r
    · subst hq
      simp [lookup, adjust, he, Entry.retain]
    · simp [lookup, adjust, hq]
  · by_cases hq : q = r
    · subst hq
      simp [count, adjust, he, Entry.retain]
    · simp [count, adjust, hq]

/-- The handle that was retained was present. -/
theorem lookup_of_inc {t t' : RefTable Obj} {r : Int} (h : t.inc r = some t') :
    ∃ obj, t.lookup r = some obj := by
  obtain ⟨e, he, _⟩ := Option.map_eq_some_iff.mp h
  exact ⟨e.obj, by rw [lookup, he]; rfl⟩

/-! ## Releasing -/

/-- A present handle can be released. -/
theorem delete_of_lookup {t : RefTable Obj} {r : Int} {obj : Obj} (h : t.lookup r = some obj) :
    ∃ t', t.delete r = some t' := by
  obtain ⟨e, he, _⟩ := Option.map_eq_some_iff.mp h
  exact ⟨_, by rw [delete, he]; rfl⟩

/-- Releasing takes one from the count of its handle and touches no other handle. -/
theorem delete_spec {t t' : RefTable Obj} {r : Int} (h : t.delete r = some t') :
    t'.issued = t.issued ∧ (∀ q, q ≠ r → t'.lookup q = t.lookup q) ∧
      ∀ q, t.count q = t'.count q + if q = r then 1 else 0 := by
  obtain ⟨e, he, rfl⟩ := Option.map_eq_some_iff.mp h
  refine ⟨rfl, fun q hq => by simp [lookup, adjust, hq], fun q => ?_⟩
  by_cases hq : q = r
  · subst hq
    have hpos := e.pos
    -- the entry goes away with the last of its count
    by_cases hlast : 1 < e.cnt
    · simp only [count, adjust, he, Entry.release, hlast, ite_true, Option.map_some,
        Option.bind_some, dite_true, Option.getD_some]
      omega
    · simp only [count, adjust, he, Entry.release, hlast, ite_true, Option.map_some,
        Option.bind_some, dite_false, Option.map_none, Option.getD_some, Option.getD_none]
      omega
  · simp [count, adjust, hq]

/-- A handle retained more than once keeps its object when it is released. -/
theorem lookup_delete {t t' : RefTable Obj} {r : Int} (h : t.delete r = some t')
    (hcount : 1 < t.count r) (q : Int) : t'.lookup q = t.lookup q := by
  by_cases hq : q = r
  · subst hq
    obtain ⟨e, he, rfl⟩ := Option.map_eq_some_iff.mp h
    have hcnt : 1 < e.cnt := by simpa [count, he] using hcount
    simp [lookup, adjust, he, Entry.release, hcnt]
  · exact (delete_spec h).2.1 q hq

/-- Releasing what was just retained gives back the table. -/
theorem delete_inc {t t' : RefTable Obj} {r : Int} (h : t.inc r = some t') :
    t'.delete r = some t := by
  obtain ⟨e, he, rfl⟩ := Option.map_eq_some_iff.mp h
  have hadj : (t.adjust r fun e => some e.retain).objs r = some e.retain := by
    simp [adjust, he]
  rw [delete, hadj, Option.map_some]
  congr 1
  ext1
  · -- the tables can differ in the entry of `r` only
    funext q
    by_cases hq : q = r
    · subst hq
      simp [adjust, he, Entry.release_retain]
    · simp [adjust, hq]
  · rfl

/-! ## Entering a new object -/

/-- A new object gets a new negative handle with count one, and nothing else changes. -/
theorem toRefNum_spec {num : Numbering} {obj : Obj} {t t' : RefTable Obj} {r : Int}
    (h : toRefNum num obj t = some (r, t')) :
    r < 0 ∧ r ∉ t.issued ∧ t.lookup r = none ∧ t'.issued = r :: t.issued ∧
      (∀ q, t'.lookup q = if q = r then some obj else t.lookup q) ∧
      ∀ q, t'.count q = if q = r then 1 else t.count q := by
  unfold toRefNum at h
  split at h
  · cases h
  · rename_i number hnext
    cases h
    have hfresh := num.fresh _ _ hnext
    refine ⟨num.negative _ _ hnext, hfresh, ?_, rfl, fun q => ?_, fun q => ?_⟩
    · rw [lookup, t.unissued _ hfresh, Option.map_none]
    · by_cases hq : q = r <;> simp [lookup, enter, hq]
    · by_cases hq : q = r <;> simp [count, enter, hq]

/-- An object gets no handle exactly when the numbering has no next one. -/
theorem toRefNum_eq_none {num : Numbering} {obj : Obj} {t : RefTable Obj} :
    toRefNum num obj t = none ↔ num.next t.issued = none := by
  unfold toRefNum
  split
  · rename_i hnext
    exact ⟨fun _ => hnext, fun _ => rfl⟩
  · rename_i r hnext
    exact ⟨nofun, fun hnone => nomatch hnext.symm.trans hnone⟩

end RefTable

/-! ## Numbering downwards -/

/-- Every element of a list is at least the running minimum. -/
theorem foldr_min_le {start x : Int} {l : List Int} (h : x ∈ l) : l.foldr min start ≤ x := by
  induction l with
  | nil => cases h
  | cons y l ih =>
      rcases List.mem_cons.mp h with rfl | h
      · exact Int.min_le_left _ _
      · exact Int.le_trans (Int.min_le_right _ _) (ih h)

theorem foldr_min_le_start (start : Int) (l : List Int) : l.foldr min start ≤ start := by
  induction l with
  | nil => exact Int.le_refl _
  | cons y l ih => exact Int.le_trans (Int.min_le_right _ _) ih

/-- Count down from `start - 1` through the negative numbers of 32 bits. -/
def countdown (start : Int) (hstart : start ≤ 0) : Numbering where
  next issued :=
    let r := issued.foldr min start - 1
    if -(2 ^ 31) ≤ r then some r else none
  negative issued r h := by
    have := foldr_min_le_start start issued
    simp only [Option.ite_none_right_eq_some, Option.some.injEq] at h
    omega
  fresh issued r h hr := by
    have := @foldr_min_le start _ _ hr
    simp only [Option.ite_none_right_eq_some, Option.some.injEq] at h
    omega

end Foundation
